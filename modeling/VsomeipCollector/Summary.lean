import VsomeipCollector.Operations
import VsomeipCollector.Library.Quantile

/-!
# The summary of the samples

Every sample passed the plausibility check, so it is at most 60 s (`operations_bounded`).  Hence up to 307445734 samples
have a sum that fits into 64 bits, and the summary of a report is the mean, rounded down, and two percentiles of the
samples and their maximum (`summary_sound`).
-/

namespace VsomeipCollector

open Table Run Quantile StatsCollector

/-- Every sample is at most the bound of the plausibility check. -/
def Bounded (s : StatsCollector) : Prop := ∀ v ∈ s.latency, v ≤ plausibleNs

variable (cfg : HookConfig)

/-! ### The bound of the samples -/

private theorem bounded_of_core {s t : StatsCollector} (h : t.core = s.core) (hs : Bounded s) : Bounded t := by
  unfold Bounded
  rw [(core_eq_iff.1 h).2.1]
  exact hs

private theorem bounded_call (s : StatsCollector) (c : Call) (hs : Bounded s) : Bounded (s.step cfg c) := by
  unfold Bounded
  rw [latency_step]
  cases c with
  | recordPending q ts => exact hs
  | tryMatch q r ty =>
    intro v hv
    rcases List.mem_append.1 hv with hv | hv
    · exact hs v hv
    · unfold sampleOf at hv
      split at hv
      · cases hv
      · split at hv
        · cases hv
        · rename_i hle
          rw [List.mem_singleton.1 hv]
          exact UInt64.not_lt.1 hle
  | evictExpired now o => exact hs
  | flushReport now =>
    intro v hv
    dsimp only at hv
    split at hv
    · cases hv
    · exact hs v hv

private theorem operate_bounded {s s' : Session} {op : Operation} (h : s.operate cfg op = some s')
    (hs : Bounded s.stats) : Bounded s'.stats := by
  cases op with
  | processEvent hdr hook retval latency =>
    unfold Session.operate processEvent at h
    cases latency with
    | none =>
      obtain ⟨r, hr, rfl⟩ := Option.map_eq_some_iff.1 h
      obtain ⟨t, ht, rfl⟩ := Option.map_eq_some_iff.1 hr
      exact bounded_of_core (core_countModule ht) hs
    | some e =>
      obtain ⟨r, hr, rfl⟩ := Option.map_eq_some_iff.1 h
      obtain ⟨t, ht, rfl⟩ := Option.map_eq_some_iff.1 hr
      have hb : Bounded t := bounded_of_core (core_countModule ht) hs
      show Bounded (onLatency e hook t).1
      rw [onLatency_eq cfg]
      cases e.latencyCall with
      | none => exact hb
      | some c => exact bounded_call cfg t c hb
  | setLogWriter w =>
    cases h
    exact hs
  | call c =>
    cases h
    exact bounded_call cfg s.stats c hs

/-- In every state that a run reaches, the samples are at most 60 s. -/
theorem operations_bounded {w : Bool} {ops : List Operation} {s : Session} (h : operations cfg w ops = some s) :
    Bounded s.stats := by
  refine runFrom_lift_induct (fun _ s => Bounded s.stats) ?_ ?_ h
  · intro v hv
    cases hv
  · intro _ s op s' hs hop
    exact operate_bounded cfg hop hs

/-! ### The 64-bit sum -/

/-- The samples as numbers. -/
def StatsCollector.nanoseconds (s : StatsCollector) : List Nat := s.latency.map UInt64.toNat

/-- The sum of numbers that fits is the sum that is computed. -/
private theorem foldl_add_toNat (l : List UInt64) (a : UInt64) (h : a.toNat + (l.map UInt64.toNat).sum < 2 ^ 64) :
    (l.foldl (· + ·) a).toNat = a.toNat + (l.map UInt64.toNat).sum := by
  induction l generalizing a with
  | nil => rfl
  | cons x l ih =>
    rw [List.map_cons, List.sum_cons] at h ⊢
    have hadd : (a + x).toNat = a.toNat + x.toNat := by
      rw [UInt64.toNat_add, Nat.mod_eq_of_lt (by omega)]
    rw [List.foldl_cons, ih (a + x) (by omega), hadd]
    omega

/-- 307445734 is the largest number of samples of 60 s whose sum fits into 64 bits. -/
private theorem sum_lt {s : StatsCollector} (hs : Bounded s) (hn : s.latency.length ≤ 307445734) :
    s.nanoseconds.sum < 2 ^ 64 := by
  have hle : ∀ x ∈ s.nanoseconds, x ≤ 60000000000 := by
    intro x hx
    obtain ⟨v, hv, rfl⟩ := List.mem_map.1 hx
    exact UInt64.le_iff_toNat_le.1 (hs v hv)
  have h := sum_le_length_mul hle
  rw [show s.nanoseconds.length = s.latency.length from List.length_map _] at h
  have hmul : s.latency.length * 60000000000 ≤ 307445734 * 60000000000 := Nat.mul_le_mul_right _ hn
  omega

/-! ### The summary -/

/-- The samples as a report sorts them. -/
def StatsCollector.sorted (s : StatsCollector) : List UInt64 := s.latency.insertionSort (· ≤ ·)

/-- The place at which a report looks for the percentile `p`. -/
def StatsCollector.place (s : StatsCollector) (p : Nat) : Nat := s.latency.length * p % 2 ^ 64 / 100

/-- The sample that a report takes for the percentile `p`. -/
def StatsCollector.percentile (s : StatsCollector) (p : Nat) : UInt64 := s.sorted.getD (s.place p) 0

/-- The line of the summary, with the mean `avg` in microseconds and the largest sample `hi`. -/
def StatsCollector.summaryLine (s : StatsCollector) (avg hi : UInt64) : LogLine :=
  .latencyStats s.latency.length avg (s.percentile 50 / 1000) (s.percentile 99 / 1000) (hi / 1000)

/-- The summary that a report writes is arithmetically sound. -/
structure SummarySound (s : StatsCollector) : Prop where
  places : s.place 50 < s.latency.length ∧ s.place 99 < s.latency.length
  fits : s.nanoseconds.sum < 2 ^ 64
  median : IsPercentile (· ≤ ·) 50 (s.percentile 50) s.latency
  p99 : IsPercentile (· ≤ ·) 99 (s.percentile 99) s.latency
  line : ∃ lo ∈ s.latency, ∃ hi ∈ s.latency, ∃ avg : UInt64, (∀ v ∈ s.latency, lo ≤ v ∧ v ≤ hi) ∧
    (∀ now, (s.flushReport cfg now).2 =
      (List.range' 1 cfg.maxModuleId).flatMap (s.moduleLines cfg now) ++ [s.summaryLine avg hi]) ∧
    avg.toNat = s.nanoseconds.sum / s.latency.length / 1000 ∧ lo / 1000 ≤ avg ∧ avg ≤ hi / 1000 ∧
    s.percentile 50 / 1000 ≤ s.percentile 99 / 1000 ∧ s.percentile 99 / 1000 ≤ hi / 1000

private theorem div_le_div {a b : UInt64} (h : a ≤ b) : a / 1000 ≤ b / 1000 := by
  rw [UInt64.le_iff_toNat_le, UInt64.toNat_div, UInt64.toNat_div]
  exact Nat.div_le_div_right (UInt64.le_iff_toNat_le.1 h)

section

variable {s : StatsCollector}

private theorem sorted_pairwise (s : StatsCollector) : s.sorted.Pairwise (· ≤ ·) := List.pairwise_insertionSort _ _

private theorem sorted_perm (s : StatsCollector) : s.sorted.Perm s.latency := List.perm_insertionSort _ _

private theorem length_sorted (s : StatsCollector) : s.sorted.length = s.latency.length := (sorted_perm s).length_eq

private theorem place_eq {p : Nat} (hp : p ≤ 100) (hn : s.latency.length ≤ 307445734) :
    s.place p = s.latency.length * p / 100 := by
  have hlt : s.latency.length * p < 2 ^ 64 :=
    Nat.lt_of_le_of_lt (Nat.mul_le_mul hn hp) (by decide)
  unfold StatsCollector.place
  rw [Nat.mod_eq_of_lt hlt]

private theorem getD_sorted {i : Nat} (hi : i < s.sorted.length) : s.sorted.getD i 0 = s.sorted.get ⟨i, hi⟩ := by
  rw [List.getD_eq_getElem?_getD, List.getElem?_eq_getElem hi]
  rfl

private theorem isPercentile {p : Nat} (hp : p < 100) (h1 : 0 < s.latency.length)
    (hn : s.latency.length ≤ 307445734) : IsPercentile (· ≤ ·) p (s.percentile p) s.latency := by
  have hi : s.sorted.length * p / 100 < s.sorted.length := rank_lt (by rw [length_sorted]; exact h1) hp
  have h := isPercentile_get UInt64.le_refl (sorted_pairwise s) (sorted_perm s) (Nat.le_of_lt hp) hi
  unfold StatsCollector.percentile
  rw [place_eq (Nat.le_of_lt hp) hn, ← length_sorted, getD_sorted hi]
  exact h

private theorem sorted_mono {i j : Nat} (hij : i ≤ j) (hj : j < s.latency.length) :
    s.sorted.getD i 0 ≤ s.sorted.getD j 0 := by
  rw [← length_sorted] at hj
  rw [getD_sorted hj, getD_sorted (Nat.lt_of_le_of_lt hij hj)]
  exact rel_get UInt64.le_refl (sorted_pairwise s) hij hj

private theorem mem_of_place {i : Nat} (hi : i < s.latency.length) : s.sorted.getD i 0 ∈ s.latency := by
  rw [← length_sorted] at hi
  rw [getD_sorted hi]
  exact (sorted_perm s).mem_iff.1 (List.get_mem _ _)

private theorem between_ends {v : UInt64} (hv : v ∈ s.latency) :
    s.sorted.getD 0 0 ≤ v ∧ v ≤ s.sorted.getD (s.latency.length - 1) 0 := by
  obtain ⟨i, hi, rfl⟩ := List.getElem_of_mem ((sorted_perm s).mem_iff.2 hv)
  have hget : s.sorted[i] = s.sorted.getD i 0 := (getD_sorted hi).symm
  have hi' : i < s.latency.length := by rw [← length_sorted]; exact hi
  rw [hget]
  exact ⟨sorted_mono (Nat.zero_le i) hi', sorted_mono (by omega) (by omega)⟩

/-- The mean in microseconds, as the report computes it. -/
private def meanUs (s : StatsCollector) : UInt64 := s.sorted.foldl (· + ·) 0 / s.latency.length.toUInt64 / 1000

private theorem meanUs_toNat (hsum : s.nanoseconds.sum < 2 ^ 64) (hn : s.latency.length ≤ 307445734) :
    (meanUs s).toNat = s.nanoseconds.sum / s.latency.length / 1000 := by
  have hperm : (s.sorted.map UInt64.toNat).sum = s.nanoseconds.sum := ((sorted_perm s).map UInt64.toNat).sum_eq
  have hfold : (s.sorted.foldl (· + ·) 0).toNat = s.nanoseconds.sum := by
    have h0 : (0 : UInt64).toNat = 0 := rfl
    have h := foldl_add_toNat s.sorted 0 (by rw [hperm, h0]; omega)
    rw [h, hperm, h0, Nat.zero_add]
  have hlen : s.latency.length.toUInt64.toNat = s.latency.length :=
    UInt64.toNat_ofNat_of_lt' (by show _ < 2 ^ 64; omega)
  unfold meanUs
  rw [UInt64.toNat_div, UInt64.toNat_div, hfold, hlen]
  rfl

private theorem meanUs_between (h : s.latency ≠ []) :
    (s.sorted.getD 0 0).toNat ≤ s.nanoseconds.sum / s.latency.length ∧
      s.nanoseconds.sum / s.latency.length ≤ (s.sorted.getD (s.latency.length - 1) 0).toNat := by
  have hne : s.nanoseconds ≠ [] := by simpa [StatsCollector.nanoseconds] using h
  have hlo : ∀ x ∈ s.nanoseconds, (s.sorted.getD 0 0).toNat ≤ x := by
    intro x hx
    obtain ⟨v, hv, rfl⟩ := List.mem_map.1 hx
    exact UInt64.le_iff_toNat_le.1 (between_ends hv).1
  have hhi : ∀ x ∈ s.nanoseconds, x ≤ (s.sorted.getD (s.latency.length - 1) 0).toNat := by
    intro x hx
    obtain ⟨v, hv, rfl⟩ := List.mem_map.1 hx
    exact UInt64.le_iff_toNat_le.1 (between_ends hv).2
  have hlen : s.nanoseconds.length = s.latency.length := List.length_map _
  have hmean := mean_between hne hlo hhi
  rwa [hlen] at hmean

private theorem flushLatency_eq (h : s.latency ≠ []) :
    s.flushLatency.2 = [s.summaryLine (meanUs s) (s.sorted.getD (s.latency.length - 1) 0)] := by
  unfold flushLatency
  rw [if_neg h]
  dsimp only
  rw [show (s.latency.insertionSort (· ≤ ·)).length = s.latency.length from length_sorted s]
  rfl

end

/-- In every state that a run reaches with a log writer and up to 307445734 samples, the summary of a report is sound. -/
theorem summary_sound {w : Bool} {ops : List Operation} {s : Session} (hs : operations cfg w ops = some s)
    (hw : s.stats.logWriter = true) (h1 : 1 ≤ s.stats.latency.length) (hn : s.stats.latency.length ≤ 307445734) :
    SummarySound cfg s.stats := by
  have hsum := sum_lt (operations_bounded cfg hs) hn
  generalize s.stats = s at hw h1 hn hsum
  have hne : s.latency ≠ [] := List.ne_nil_of_length_pos h1
  have h50 : s.place 50 < s.latency.length := by rw [place_eq (by decide) hn]; exact rank_lt h1 (by decide)
  have h99 : s.place 99 < s.latency.length := by rw [place_eq (by decide) hn]; exact rank_lt h1 (by decide)
  have hplaces : s.place 50 ≤ s.place 99 := by
    rw [place_eq (by decide) hn, place_eq (by decide) hn]
    omega
  have hmean := meanUs_between hne
  refine ⟨⟨h50, h99⟩, hsum, isPercentile (by decide) h1 hn, isPercentile (by decide) h1 hn, _, mem_of_place h1, _,
    mem_of_place (i := s.latency.length - 1) (by omega), meanUs s, fun v hv => between_ends hv, fun now => ?_,
    meanUs_toNat hsum hn, ?_, ?_, div_le_div (sorted_mono hplaces h99), div_le_div (sorted_mono (by omega) (by omega))⟩
  · rw [(flushReport_counters cfg hw now).2, flushLatency_eq hne]
  · rw [UInt64.le_iff_toNat_le, meanUs_toNat hsum hn, UInt64.toNat_div]
    exact Nat.div_le_div_right hmean.1
  · rw [UInt64.le_iff_toNat_le, meanUs_toNat hsum hn, UInt64.toNat_div]
    exact Nat.div_le_div_right hmean.2

/-- Three requests and their replies, in another order. -/
theorem summary_sound_three :
    let ops : List Operation := [.call (.recordPending ⟨1, 2, 3, 4⟩ 5), .call (.recordPending ⟨1, 2, 3, 5⟩ 6),
      .call (.recordPending ⟨1, 2, 3, 6⟩ 7), .call (.tryMatch ⟨1, 2, 3, 5⟩ 4006 0x80),
      .call (.tryMatch ⟨1, 2, 3, 6⟩ 9007 0x81), .call (.tryMatch ⟨1, 2, 3, 4⟩ 9505 0x80)]
    ∃ s, operations ⟨[], 3⟩ true ops = some s ∧ s.stats.latency = [4000, 9000, 9500] ∧
      s.stats.percentile 50 = 9000 ∧ s.stats.percentile 99 = 9500 ∧ SummarySound ⟨[], 3⟩ s.stats := by
  intro ops
  exact ⟨_, rfl, by decide, by decide, by decide, @summary_sound ⟨[], 3⟩ true ops _ rfl rfl (by decide) (by decide)⟩

end VsomeipCollector

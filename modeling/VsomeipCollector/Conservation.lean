import VsomeipCollector.StatsSpec

/-!
# Conservation of requests and samples

A request that enters the table leaves it through exactly one door: it is measured, discarded as implausible or timed
out; and a sample, once measured, is counted by exactly one summary line.  Each call moves at most one request between
these accounts (`account_step`), an eviction as many as it writes lines, so the books balance after every run.
-/

namespace VsomeipCollector

open Table Run StatsCollector

variable (cfg : HookConfig)

/-- A session of a collector with a log writer. -/
def runSession (calls : List Call) : Session := runFrom (Session.step cfg) ⟨fresh cfg true, []⟩ calls

/-- The call inserts a new entry into the table. -/
def inserted (s : Session) : Call → Nat
  | .recordPending q _ => if s.stats.sentAt q = none then 1 else 0
  | _ => 0

/-- The call finds an entry and discards it as implausible. -/
def discarded (s : Session) : Call → Nat
  | .tryMatch q r _ =>
    match s.stats.sentAt q with
    | none => 0
    | some ts => if r - ts > plausibleNs then 1 else 0
  | _ => 0

/-- The number of samples that the call appends. -/
def appended (s : Session) : Call → Nat
  | .tryMatch q r ty => (s.stats.step cfg (.tryMatch q r ty)).latency.length - s.stats.latency.length
  | _ => 0

/-- Samples summarised, samples waiting for the next summary, time-outs reported and requests open. -/
def Session.account (s : Session) : Nat :=
  (s.log.map LogLine.samples).sum + s.stats.latency.length + s.log.countP LogLine.isTimeout +
    Multiset.card s.stats.pending.entries

private theorem samples_of_isLatency {ls : List LogLine} (h : ∀ l ∈ ls, l.isLatency) :
    (ls.map LogLine.samples).sum = 0 ∧ ls.countP LogLine.isTimeout = 0 ∧ ls.countP LogLine.isLatency = ls.length := by
  refine ⟨?_, ?_, List.countP_eq_length.2 h⟩
  · rw [List.sum_eq_zero_iff_forall_eq_nat]
    intro n hn
    obtain ⟨l, hl, rfl⟩ := List.mem_map.1 hn
    have hl' := h l hl
    cases l <;> first | rfl | cases hl'
  · rw [List.countP_eq_zero]
    intro l hl
    have hl' := h l hl
    cases l <;> first | exact Bool.false_ne_true | cases hl'

private theorem samples_of_timeoutLine (now : UInt64) (its : List PendingItem) :
    ((its.map (timeoutLine now)).map LogLine.samples).sum = 0 ∧
      (its.map (timeoutLine now)).countP LogLine.isTimeout = its.length ∧
      (its.map (timeoutLine now)).countP LogLine.isLatency = 0 := by
  have hmem : ∀ l ∈ its.map (timeoutLine now), l.samples = 0 ∧ l.isTimeout ∧ l.isLatency = false := by
    intro l hl
    obtain ⟨it, -, rfl⟩ := List.mem_map.1 hl
    exact ⟨rfl, rfl, rfl⟩
  refine ⟨?_, ?_, ?_⟩
  · rw [List.sum_eq_zero_iff_forall_eq_nat]
    intro n hn
    obtain ⟨l, hl, rfl⟩ := List.mem_map.1 hn
    exact (hmem l hl).1
  · rw [List.countP_eq_length.2 fun l hl => (hmem l hl).2.1, List.length_map]
  · exact List.countP_eq_zero.2 fun l hl => by simp [(hmem l hl).2.2]

private theorem samples_add_discarded (s : StatsCollector) (q : Tuple) (r : UInt64) (ty : UInt8) (log : List LogLine) :
    (sampleOf (s.sentAt q) r).length + discarded ⟨s, log⟩ (.tryMatch q r ty) =
      if s.sentAt q = none then 0 else 1 := by
  unfold sampleOf discarded
  dsimp only
  cases s.sentAt q with
  | none => rfl
  | some ts =>
    have hne : (some ts : Option UInt64) ≠ none := Option.some_ne_none ts
    dsimp only
    rw [if_neg hne]
    by_cases hd : r - ts > plausibleNs
    · rw [if_pos hd, if_pos hd]; rfl
    · rw [if_neg hd, if_neg hd]; rfl

/-- One call moves what it inserts into the accounts, and what it discards out of them. -/
theorem account_step (s : Session) (c : Call) (hw : s.stats.logWriter = true) :
    (s.step cfg c).account + discarded s c = s.account + inserted s c := by
  obtain ⟨s, log⟩ := s
  unfold Session.account Session.step
  simp only [List.map_append, List.sum_append, List.countP_append]
  cases c with
  | recordPending q ts =>
    have hc := card_recordPending s q ts
    simp only [StatsCollector.step, call, latency_recordPending, hc, inserted, discarded, List.map_nil, List.sum_nil,
      List.countP_nil]
    omega
  | tryMatch q r ty =>
    -- the entry becomes a sample or is discarded
    have hc := card_tryMatch s q r ty
    have hd := samples_add_discarded s q r ty log
    obtain ⟨hlen, hl⟩ := lines_tryMatch s q r ty
    obtain ⟨h1, h2, -⟩ := samples_of_isLatency hl
    simp only [StatsCollector.step, call, latency_tryMatch, List.length_append, h1, h2, inserted]
    split at hd <;> rename_i hs <;> simp only [hs, ↓reduceIte] at hc hd ⊢ <;> omega
  | evictExpired now o =>
    -- every entry that goes leaves a line
    have hc := card_evictExpired s now o hw
    have hl := lines_evictExpired s now o
    rw [if_pos hw] at hl
    obtain ⟨h1, h2, -⟩ := samples_of_timeoutLine now
      ((o.list s.pending.entries).filter fun it => expired now it.2.sendTs)
    rw [hl, List.length_map] at hc
    simp only [StatsCollector.step, call, hl, h1, h2, inserted, discarded]
    have : (s.evictExpired now o).1.latency = s.latency := rfl
    rw [this]
    omega
  | flushReport now =>
    -- all samples move into one line
    obtain ⟨hp, hlat, -⟩ := flushReport_frame cfg s now
    obtain ⟨h1, h2⟩ := lines_flushReport cfg s now hw
    have h3 : (s.flushReport cfg now).2.countP LogLine.isTimeout = 0 :=
      List.countP_eq_zero.2 fun l hl => by simp [(h2 l hl).2]
    rw [if_pos hw] at hlat
    simp only [StatsCollector.step, call, hp, hlat, h1, h3, inserted, discarded, List.length_nil]
    omega

/-- A call writes one `[LATENCY]` line for each sample it appends. -/
theorem latencyLines_step (s : Session) (c : Call) (hw : s.stats.logWriter = true) :
    (s.step cfg c).log.countP LogLine.isLatency = s.log.countP LogLine.isLatency + appended cfg s c := by
  obtain ⟨s, log⟩ := s
  unfold Session.step
  simp only [List.countP_append]
  cases c with
  | recordPending q ts => simp [call, appended]
  | tryMatch q r ty =>
    obtain ⟨hlen, hl⟩ := lines_tryMatch s q r ty
    obtain ⟨-, -, h3⟩ := samples_of_isLatency hl
    rw [if_pos hw] at hlen
    simp only [call, h3, hlen, appended, latency_step_tryMatch, List.length_append]
    omega
  | evictExpired now o =>
    have hl := lines_evictExpired s now o
    rw [if_pos hw] at hl
    obtain ⟨-, -, h3⟩ := samples_of_timeoutLine now
      ((o.list s.pending.entries).filter fun it => expired now it.2.sendTs)
    simp only [call, hl, h3, appended]
  | flushReport now =>
    obtain ⟨-, h2⟩ := lines_flushReport cfg s now hw
    have h3 : (s.flushReport cfg now).2.countP LogLine.isLatency = 0 :=
      List.countP_eq_zero.2 fun l hl => by simp [(h2 l hl).1]
    simp only [call, h3, appended]

/-- Every request recorded is measured, discarded, timed out or open, every sample measured is summarised or waiting,
and every sample has had its line. -/
theorem requests_conserved (calls : List Call) :
    total (Session.step cfg) inserted ⟨fresh cfg true, []⟩ calls =
        ((runSession cfg calls).log.map LogLine.samples).sum + (runSession cfg calls).stats.latency.length +
          total (Session.step cfg) discarded ⟨fresh cfg true, []⟩ calls +
          (runSession cfg calls).log.countP LogLine.isTimeout +
          Multiset.card (runSession cfg calls).stats.pending.entries ∧
      (runSession cfg calls).log.countP LogLine.isLatency =
        total (Session.step cfg) (appended cfg) ⟨fresh cfg true, []⟩ calls := by
  have hinv : ∀ (s : Session) (c : Call), s.stats.logWriter = true → (s.step cfg c).stats.logWriter = true :=
    fun s c h => (logWriter_step cfg s.stats c).trans h
  have h1 := runFrom_balance (fun s : Session => s.stats.logWriter = true) hinv Session.account inserted discarded
    (account_step cfg) (s := ⟨fresh cfg true, []⟩) rfl calls
  have h2 := runFrom_balance (fun s : Session => s.stats.logWriter = true) hinv
    (fun s => s.log.countP LogLine.isLatency) (appended cfg) (fun _ _ => 0) (latencyLines_step cfg)
    (s := ⟨fresh cfg true, []⟩) rfl calls
  have h0 : Session.account ⟨fresh cfg true, []⟩ = 0 := rfl
  rw [h0] at h1
  rw [total_zero] at h2
  unfold Session.account at h1
  unfold runSession
  constructor
  · omega
  · rw [Nat.add_zero] at h2
    rw [h2]
    exact Nat.zero_add _

end VsomeipCollector

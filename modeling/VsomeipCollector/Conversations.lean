import VsomeipCollector.Operations
import VsomeipCollector.Library.Interleave

/-!
# Independent conversations

The calls of the matching on different tuples do not interfere: each reads and writes the slot of its own tuple, and
appends to the samples (`step_ofTuple`).  So only the order of the calls on every tuple matters, and the samples up to
their order, which a report does not see since it sorts them (`interleaving_irrelevant`).
-/

namespace VsomeipCollector

open Table Run Interleave StatsCollector

/-- The tuple that a call records or matches; the other calls have none. -/
def Call.tuple : Call → Option Tuple
  | .recordPending q _ => some q
  | .tryMatch q _ _ => some q
  | _ => none

/-- The slot of its tuple after a call. -/
def Call.slot (e : Option PendingEntry) : Call → Option PendingEntry
  | .recordPending _ ts => some (e.getD ⟨ts⟩)
  | .tryMatch _ _ _ => none
  | _ => e

/-- The samples that a call adds, given the slot of its tuple. -/
def Call.sampled (e : Option PendingEntry) : Call → List UInt64
  | .tryMatch _ r _ => sampleOf (e.map PendingEntry.sendTs) r
  | _ => []

variable (cfg : HookConfig)

/-- The same open requests and counters, and the same samples in some order. -/
structure SameUpToOrder (s t : StatsCollector) : Prop where
  pending : s.pending = t.pending
  latency : s.latency.Perm t.latency
  counters : s.counters = t.counters

private theorem sameUpToOrder_equivalence : Equivalence SameUpToOrder where
  refl _ := ⟨rfl, .refl _, rfl⟩
  symm h := ⟨h.pending.symm, h.latency.symm, h.counters.symm⟩
  trans h h' := ⟨h.pending.trans h'.pending, h.latency.trans h'.latency, h.counters.trans h'.counters⟩

/-! ### One call -/

/-- A call on a tuple changes the slot of the tuple, and no other. -/
structure OfTuple (q : Tuple) (c : Call) (s s' : StatsCollector) : Prop where
  slot : ∀ k, s'.pending.lookup k = if k = q.key then c.slot (s.pending.lookup k) else s.pending.lookup k
  latency : s'.latency = s.latency ++ c.sampled (s.pending.lookup q.key)
  counters : s'.counters = s.counters

private theorem step_ofTuple {q : Tuple} {c : Call} (hc : c.tuple = some q) (s : StatsCollector) :
    OfTuple q c s (s.step cfg c) := by
  have hne : ∀ now, c ≠ .flushReport now := by
    rintro now rfl
    cases hc
  have hcnt := counters_call cfg hne s
  cases c with
  | recordPending q' ts =>
    cases hc
    refine ⟨fun k => lookup_recordPending s q ts k, ?_, hcnt⟩
    rw [latency_step]
    exact (List.append_nil _).symm
  | tryMatch q' r ty =>
    cases hc
    exact ⟨fun k => lookup_tryMatch s q r ty k, latency_step_tryMatch cfg s q r ty, hcnt⟩
  | evictExpired now o => cases hc
  | flushReport now => cases hc

private theorem step_congr {q : Tuple} {c : Call} (hc : c.tuple = some q) {s t : StatsCollector} (h : SameUpToOrder s t) :
    SameUpToOrder (s.step cfg c) (t.step cfg c) := by
  have hs := step_ofTuple cfg hc s
  have ht := step_ofTuple cfg hc t
  refine ⟨Finmap.ext_lookup fun k => ?_, ?_, hs.counters.trans (h.counters.trans ht.counters.symm)⟩
  · rw [hs.slot, ht.slot, h.pending]
  · rw [hs.latency, ht.latency, h.pending]
    exact h.latency.append_right _

/-- Calls on different tuples may be swapped. -/
private theorem step_comm {q q' : Tuple} {c c' : Call} (hc : c.tuple = some q) (hc' : c'.tuple = some q') (hne : q ≠ q')
    (s : StatsCollector) : SameUpToOrder ((s.step cfg c).step cfg c') ((s.step cfg c').step cfg c) := by
  have h1 := step_ofTuple cfg hc s
  have h2 := step_ofTuple cfg hc' s
  have h12 := step_ofTuple cfg hc' (s.step cfg c)
  have h21 := step_ofTuple cfg hc (s.step cfg c')
  have hkey : q.key ≠ q'.key := fun h => hne (Tuple.key_inj.1 h)
  refine ⟨Finmap.ext_lookup fun k => ?_, ?_, ?_⟩
  · rw [h12.slot, h21.slot, h1.slot, h2.slot]
    by_cases hk : k = q.key
    · have hk' : ¬ k = q'.key := fun h => hkey (hk.symm.trans h)
      simp only [if_pos hk, if_neg hk']
    · simp only [if_neg hk]
  · -- each call finds its slot as it was
    rw [h12.latency, h21.latency, h1.latency, h2.latency, h1.slot, h2.slot, if_neg hkey.symm, if_neg hkey,
      List.append_assoc, List.append_assoc]
    exact (List.perm_append_comm).append_left _
  · rw [h12.counters, h21.counters, h1.counters, h2.counters]

/-! ### Runs -/

/-- A report sorts the samples, so it does not see their order. -/
private theorem flushLatency_congr {s t : StatsCollector} (h : s.latency.Perm t.latency) :
    s.flushLatency.2 = t.flushLatency.2 := by
  have hsort : s.latency.insertionSort (· ≤ ·) = t.latency.insertionSort (· ≤ ·) :=
    ((List.perm_insertionSort _ _).trans (h.trans (List.perm_insertionSort _ _).symm)).eq_of_pairwise'
      (List.pairwise_insertionSort _ _) (List.pairwise_insertionSort _ _)
  have hnil : s.latency = [] ↔ t.latency = [] := by
    rw [← List.length_eq_zero_iff, h.length_eq, List.length_eq_zero_iff]
  unfold flushLatency
  by_cases hs : s.latency = []
  · rw [if_pos hs, if_pos (hnil.1 hs)]
  · rw [if_neg hs, if_neg (fun ht => hs (hnil.2 ht)), hsort]

private theorem flushReport_congr {s t : StatsCollector} (h : SameUpToOrder s t) (now : UInt64) :
    (s.flushReport cfg now).2 = (t.flushReport cfg now).2 := by
  have hsend : s.modSend = t.modSend := congrArg Counters.modSend h.counters
  have hrecv : s.modRecv = t.modRecv := congrArg Counters.modRecv h.counters
  have hlast : s.lastReportNs = t.lastReportNs := congrArg Counters.lastReportNs h.counters
  have hw : s.logWriter = t.logWriter := congrArg Counters.logWriter h.counters
  cases hs : s.logWriter with
  | true =>
    have hlines : ∀ m, s.moduleLines cfg now m = t.moduleLines cfg now m := by
      intro m
      rw [moduleLines_eq, moduleLines_eq, hsend, hrecv]
      unfold StatsCollector.elapse
      rw [hlast]
    rw [(flushReport_counters cfg hs now).2, (flushReport_counters cfg (hw.symm.trans hs) now).2,
      flushLatency_congr h.latency]
    exact congrArg (· ++ _) (List.flatMap_congr fun m _ => hlines m)
  | false => rw [flushReport_of_no_writer cfg hs, flushReport_of_no_writer cfg (hw.symm.trans hs)]

/-- Two sequences of matching calls with the same calls on every tuple, in the same order, lead to the same open requests
and, up to their order, the same samples; the reports that follow are the same, line by line. -/
theorem interleaving_irrelevant (s : StatsCollector) {as bs : List Call} (has : ∀ c ∈ as, c.tuple ≠ none)
    (hbs : ∀ c ∈ bs, c.tuple ≠ none) (h : SameByKey Call.tuple as bs) :
    (runFrom (step cfg) s as).pending = (runFrom (step cfg) s bs).pending ∧
      (runFrom (step cfg) s as).latency.Perm (runFrom (step cfg) s bs).latency ∧
      (runFrom (step cfg) s as).flushLatency.2 = (runFrom (step cfg) s bs).flushLatency.2 ∧
      ∀ now, ((runFrom (step cfg) s as).flushReport cfg now).2 = ((runFrom (step cfg) s bs).flushReport cfg now).2 := by
  have hrel : SameUpToOrder (runFrom (step cfg) s as) (runFrom (step cfg) s bs) := by
    refine runFrom_interleave sameUpToOrder_equivalence ?_ ?_ has hbs h s
    · intro s t c hc hst
      obtain ⟨q, hq⟩ := Option.ne_none_iff_exists'.1 hc
      exact step_congr cfg hq hst
    · intro s c c' hc hc' hne
      obtain ⟨q, hq⟩ := Option.ne_none_iff_exists'.1 hc
      obtain ⟨q', hq'⟩ := Option.ne_none_iff_exists'.1 hc'
      exact step_comm cfg hq hq' (fun he => hne (by rw [hq, hq', he])) s
  exact ⟨hrel.pending, hrel.latency, flushLatency_congr hrel.latency, flushReport_congr cfg hrel⟩

/-- Two conversations, one after the other and interleaved. -/
theorem interleaving_irrelevant_two :
    let q : Tuple := ⟨1, 1, 1, 1⟩
    let q' : Tuple := ⟨1, 1, 1, 2⟩
    let as : List Call := [.recordPending q 5, .tryMatch q 9 0x80, .recordPending q' 6, .tryMatch q' 8 0x80]
    let bs : List Call := [.recordPending q 5, .recordPending q' 6, .tryMatch q' 8 0x80, .tryMatch q 9 0x80]
    (runFrom (step ⟨[], 3⟩) (fresh ⟨[], 3⟩ true) as).latency.Perm
      (runFrom (step ⟨[], 3⟩) (fresh ⟨[], 3⟩ true) bs).latency := by
  intro q q' as bs
  have has : ∀ c ∈ as, c.tuple ≠ none := by simp [as, Call.tuple]
  have hbs : ∀ c ∈ bs, c.tuple ≠ none := by simp [bs, Call.tuple]
  refine (interleaving_irrelevant ⟨[], 3⟩ (fresh ⟨[], 3⟩ true) has hbs fun k => ?_).2.1
  · by_cases h : some q = k
    · subst h
      rfl
    · by_cases h' : some q' = k
      · subst h'
        rfl
      · simp [as, bs, Call.tuple, h, h']

end VsomeipCollector

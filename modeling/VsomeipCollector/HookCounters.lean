import VsomeipCollector.Reports

/-!
# The counters of the hooks and the reports

`flush_report` resets the counters of all hooks, but no line of a report prints them (`LogLine.printed`).  So what was
printed and what the counters hold add up to the events of a hook exactly as long as no report comes after an event
(`countersReported_iff`).
-/

namespace VsomeipCollector

open Table Run StatsCollector

/-- The counters of a hook that a line prints.  Lines are about a module, the samples, a request or an event: none of
their formats has the counters of a hook. -/
def LogLine.printed (_hook : String) : LogLine → HookStats
  | latency .. => {}
  | modStats .. => {}
  | latencyStats .. => {}
  | timeout .. => {}
  | event .. => {}

/-- What the lines of a log have printed of one counter of a hook. -/
def printedSum (hook : String) (counter : HookStats → UInt64) (log : List LogLine) : Nat :=
  (log.map fun l => (counter (l.printed hook)).toNat).sum

/-- What was printed for a hook and what its counters hold are the events of `ops`. -/
structure HookReported (hook : String) (ops : List Operation) (s : Session) : Prop where
  total : printedSum hook HookStats.total s.log + (s.stats.hookStat hook).total.toNat =
    ops.countP (Operation.isEventOf hook)
  succ : printedSum hook HookStats.succ s.log + (s.stats.hookStat hook).succ.toNat =
    ops.countP (Operation.isSuccOf hook)
  fail : printedSum hook HookStats.fail s.log + (s.stats.hookStat hook).fail.toNat =
    ops.countP (Operation.isFailOf hook)

variable (cfg : HookConfig)

/-- After the run with a log writer, for every hook. -/
def CountersReported (ops : List Operation) : Prop :=
  ∃ s, operations cfg true ops = some s ∧ ∀ hook, HookReported hook ops s

/-- No report of the run comes after an event. -/
def NoReportAfterEvent (ops : List Operation) : Prop :=
  ∀ pre now post, ops = pre ++ .call (.flushReport now) :: post → ∀ hook, pre.countP (Operation.isEventOf hook) = 0

/-- The run keeps the counts of its events: entry events name modules of the table, no report comes after an event, and
no counter overflows. -/
structure CountsKept (ops : List Operation) : Prop where
  inTable : ∀ op ∈ ops, op.InTable cfg
  no_report : NoReportAfterEvent ops
  few : ∀ hook, ops.countP (Operation.isEventOf hook) < 2 ^ 64

variable {cfg}

private theorem printedSum_eq_zero (hook : String) (counter : HookStats → UInt64) (h : counter {} = 0)
    (log : List LogLine) : printedSum hook counter log = 0 := by
  unfold printedSum
  rw [List.sum_eq_zero_iff_forall_eq_nat]
  intro n hn
  obtain ⟨l, -, rfl⟩ := List.mem_map.1 hn
  have hl : l.printed hook = {} := by cases l <;> rfl
  rw [hl, h]
  rfl

/-- Nothing is printed, so the counters alone have to hold the events. -/
private theorem hookReported_iff {hook : String} {ops : List Operation} {s : Session} :
    HookReported hook ops s ↔ (s.stats.hookStat hook).total.toNat = ops.countP (Operation.isEventOf hook) ∧
      (s.stats.hookStat hook).succ.toNat = ops.countP (Operation.isSuccOf hook) ∧
      (s.stats.hookStat hook).fail.toNat = ops.countP (Operation.isFailOf hook) := by
  have h1 := printedSum_eq_zero hook HookStats.total rfl s.log
  have h2 := printedSum_eq_zero hook HookStats.succ rfl s.log
  have h3 := printedSum_eq_zero hook HookStats.fail rfl s.log
  constructor
  · rintro ⟨ht, hs, hf⟩
    omega
  · rintro ⟨ht, hs, hf⟩
    exact ⟨by omega, by omega, by omega⟩

/-- A run has no report, or splits at its last one. -/
private theorem sinceReport_split (ops : List Operation) :
    sinceReport ops = ops ∨ ∃ pre now, ops = pre ++ .call (.flushReport now) :: sinceReport ops := by
  induction ops using List.reverseRecOn with
  | nil => exact Or.inl rfl
  | append_singleton ops op ih =>
    rw [sinceReport_concat]
    cases hop : op.isReport with
    | true =>
      cases op with
      | processEvent hdr h r l => cases hop
      | setLogWriter w => cases hop
      | call c =>
        cases c with
        | flushReport now => exact Or.inr ⟨ops, now, rfl⟩
        | recordPending q ts => cases hop
        | tryMatch q r ty => cases hop
        | evictExpired now o => cases hop
    | false =>
      rcases ih with ih | ⟨pre, now, ih⟩
      · left
        rw [ih]
        rfl
      · right
        refine ⟨pre, now, ?_⟩
        conv => lhs; rw [ih]
        simp

/-- If no report comes after an event, all events came after the last report. -/
private theorem countP_sinceReport {ops : List Operation} (h : NoReportAfterEvent ops) {hook : String}
    {p : Operation → Bool} (hp : ∀ op, p op = true → op.isEventOf hook = true) :
    (sinceReport ops).countP p = ops.countP p := by
  rcases sinceReport_split ops with he | ⟨pre, now, he⟩
  · rw [he]
  · have h0 : pre.countP (Operation.isEventOf hook) = 0 := h pre now _ he hook
    have hle : pre.countP p ≤ pre.countP (Operation.isEventOf hook) := List.countP_mono_left fun op _ => hp op
    have hflush : p (.call (.flushReport now)) = false := by
      cases hc : p (.call (.flushReport now)) with
      | false => rfl
      | true => cases hp _ hc
    conv => rhs; rw [he]
    rw [List.countP_append, List.countP_cons_of_neg (by simp [hflush])]
    omega

private theorem isEventOf_of_isSuccOf {hook : String} {op : Operation} (h : op.isSuccOf hook = true) :
    op.isEventOf hook = true := by
  cases op with
  | processEvent hdr hk r l =>
    unfold Operation.isSuccOf at h
    rw [Bool.and_eq_true, Bool.and_eq_true] at h
    exact h.1.1
  | setLogWriter w => cases h
  | call c => cases h

private theorem isEventOf_of_isFailOf {hook : String} {op : Operation} (h : op.isFailOf hook = true) :
    op.isEventOf hook = true := by
  cases op with
  | processEvent hdr hk r l =>
    unfold Operation.isFailOf at h
    rw [Bool.and_eq_true, Bool.and_eq_true] at h
    exact h.1.1
  | setLogWriter w => cases h
  | call c => cases h

private theorem sinceReport_suffix (pre : List Operation) (now : UInt64) (post : List Operation) :
    sinceReport (pre ++ .call (.flushReport now) :: post) <:+ post := by
  induction post using List.reverseRecOn with
  | nil =>
    rw [sinceReport_concat]
    exact List.suffix_rfl
  | append_singleton post op ih =>
    rw [← List.cons_append, ← List.append_assoc, sinceReport_concat]
    split
    · exact List.nil_suffix
    · obtain ⟨l, hl⟩ := ih
      refine ⟨l, ?_⟩
      rw [← List.append_assoc, hl]

/-- A report forgets the events before it. -/
private theorem countsKept_of_reported {ops : List Operation} (hkeep : ∀ op ∈ ops, op.KeepsWriter)
    (h : CountersReported cfg ops) : CountsKept cfg ops := by
  obtain ⟨s, hs, hrep⟩ := h
  have hin := inTable_of_operations cfg hs
  obtain ⟨t, ht, -, hcounts⟩ := operations_countsSince cfg hin hkeep
  cases hs.symm.trans ht
  have htotal : ∀ hook, (UInt64.ofNat ((sinceReport ops).countP (Operation.isEventOf hook))).toNat =
      ops.countP (Operation.isEventOf hook) := by
    intro hook
    have htotal := (hookReported_iff.1 (hrep hook)).1
    rwa [hcounts.hook] at htotal
  refine ⟨hin, ?_, fun hook => ?_⟩
  · rintro pre now post rfl hook
    have hle := (sinceReport_suffix pre now post).sublist.countP_le (p := Operation.isEventOf hook)
    have hmod := htotal hook
    rw [UInt64.toNat_ofNat'] at hmod
    have hmodle := Nat.mod_le ((sinceReport (pre ++ .call (.flushReport now) :: post)).countP (Operation.isEventOf hook))
      (2 ^ 64)
    rw [List.countP_append, List.countP_cons_of_neg (by simp [Operation.isEventOf])] at hmod
    omega
  · rw [← htotal hook]
    exact UInt64.toNat_lt _

private theorem reported_of_countsKept {ops : List Operation} (hkeep : ∀ op ∈ ops, op.KeepsWriter)
    (h : CountsKept cfg ops) : CountersReported cfg ops := by
  obtain ⟨s, hs, -, hcounts⟩ := operations_countsSince cfg h.inTable hkeep
  refine ⟨s, hs, fun hook => hookReported_iff.2 ?_⟩
  have hone : ∀ p : Operation → Bool, (∀ op, p op = true → op.isEventOf hook = true) →
      (UInt64.ofNat ((sinceReport ops).countP p)).toNat = ops.countP p := by
    intro p hp
    have hle : ops.countP p ≤ ops.countP (Operation.isEventOf hook) := List.countP_mono_left fun op _ => hp op
    have hlt := h.few hook
    rw [countP_sinceReport h.no_report hp, UInt64.toNat_ofNat_of_lt' (by show _ < 2 ^ 64; omega)]
  rw [hcounts.hook]
  exact ⟨hone _ fun _ h => h, hone _ fun _ h => isEventOf_of_isSuccOf h, hone _ fun _ h => isEventOf_of_isFailOf h⟩

private theorem CountsKept.of_prefix {pre ops : List Operation} (hpre : pre <+: ops) (h : CountsKept cfg ops) :
    CountsKept cfg pre := by
  refine ⟨fun op hop => h.inTable op (hpre.subset hop), ?_, fun hook => ?_⟩
  · obtain ⟨post, rfl⟩ := hpre
    intro pre' now post' he hook
    exact h.no_report pre' now (post' ++ post) (by rw [he]; simp) hook
  · exact Nat.lt_of_le_of_lt hpre.sublist.countP_le (h.few hook)

/-- The events of every hook are accounted for after a run exactly where the run keeps the counts; and then they are at
every point of it. -/
theorem countersReported_iff {ops : List Operation} (hkeep : ∀ op ∈ ops, op.KeepsWriter) :
    (CountersReported cfg ops ↔ CountsKept cfg ops) ∧
      (CountsKept cfg ops → ∀ pre, pre <+: ops → CountersReported cfg pre) := by
  refine ⟨⟨countsKept_of_reported hkeep, reported_of_countsKept hkeep⟩, fun h pre hpre => ?_⟩
  exact reported_of_countsKept (fun op hop => hkeep op (hpre.subset hop)) (h.of_prefix hpre)

/-- An event of the return probe of `send`. -/
def sendReturned (retval : Int64) : Operation :=
  .processEvent ⟨5, 1, 1, Vector.replicate 16 0, 1, 1, dirSend, true⟩ "rm_send_ret" retval none

/-- Calls of `send` after a report, one of which failed. -/
theorem countersReported_iff_report_first :
    CountersReported ⟨[], 3⟩ [.call (.flushReport 3), sendReturned 0,
      .processEvent ⟨6, 1, 1, Vector.replicate 16 0, 1, 0, dirSend, false⟩ "rm_send_entry" 0 none,
      sendReturned (-1)] := by
  refine (countersReported_iff (by simp [sendReturned, Operation.KeepsWriter])).1.2
    ⟨by simp [sendReturned, Operation.InTable], ?_, fun hook => ?_⟩
  · rintro pre now post he hook
    rcases pre with _ | ⟨op, pre⟩
    · rfl
    · -- there is no report but the first operation
      rw [List.cons_append, List.cons.injEq] at he
      have hmem : Operation.call (.flushReport now) ∈ pre ++ .call (.flushReport now) :: post := by simp
      rw [← he.2] at hmem
      simp [sendReturned] at hmem
  · exact Nat.lt_of_le_of_lt List.countP_le_length (by decide)

/-- The report after the event resets its counter and prints it nowhere. -/
theorem counters_discarded : ¬ CountersReported ⟨[], 3⟩ [sendReturned 0, .call (.flushReport 9)] := by
  intro h
  have hkept := countsKept_of_reported (by simp [sendReturned, Operation.KeepsWriter]) h
  have h0 := hkept.no_report [sendReturned 0] 9 [] rfl "rm_send_ret"
  revert h0
  decide

end VsomeipCollector

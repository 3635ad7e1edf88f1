import VsomeipCollector.Reports

/-!
# The interval that a report prints

The line of a module prints what its counters have gathered and the time `elapsed` since the marker `last_report_ns_`.
The counters gather from the last report that was written (`Period`); the marker is the time of the last call of
`flush_report`, which also moves it when there is no log writer and nothing is reset.  So the two agree after a report
that was written.  Before the first call there is no marker, and `elapsed` is zero.
-/

namespace VsomeipCollector

open Table Run StatsCollector

/-! ### Periods -/

/-- What a caller knows after a sequence of operations. -/
structure Period where
  /-- A log writer is set. -/
  writer : Bool
  /-- The time from which the counters of the modules gather. -/
  start : UInt64
  /-- The operations since then. -/
  ops : List Operation
  /-- The time of the last call of `flush_report`, and whether a log writer was set. -/
  lastFlush : Option (UInt64 × Bool)

/-- A report that is written begins a period. -/
def Period.step (p : Period) : Operation → Period
  | .call (.flushReport t) =>
    if p.writer then { p with start := t, ops := [], lastFlush := some (t, true) }
    else { p with ops := p.ops ++ [.call (.flushReport t)], lastFlush := some (t, false) }
  | .setLogWriter w => { p with writer := w, ops := p.ops ++ [.setLogWriter w] }
  | op => { p with ops := p.ops ++ [op] }

/-- The period after the operations `ops` on a collector that was constructed at `created`. -/
def reportPeriod (w : Bool) (created : UInt64) (ops : List Operation) : Period :=
  runFrom Period.step ⟨w, created, [], none⟩ ops

/-- The clock values of the calls of `flush_report`. -/
def flushTimes (ops : List Operation) : List UInt64 :=
  ops.filterMap fun
    | .call (.flushReport t) => some t
    | _ => none

theorem reportPeriod_concat (w : Bool) (created : UInt64) (ops : List Operation) (op : Operation) :
    reportPeriod w created (ops ++ [op]) = (reportPeriod w created ops).step op := runFrom_concat ..

/-- Where the last call wrote its report, it began the period. -/
theorem reportPeriod_start {w : Bool} {created : UInt64} {ops : List Operation} {t : UInt64}
    (h : (reportPeriod w created ops).lastFlush = some (t, true)) : (reportPeriod w created ops).start = t := by
  induction ops using List.reverseRecOn with
  | nil => cases h
  | append_singleton ops op ih =>
    rw [reportPeriod_concat] at h ⊢
    unfold Period.step at h ⊢
    split at h
    · split at h
      · rename_i hw
        rw [if_pos hw]
        cases h
        rfl
      · cases h
    · exact ih h
    · exact ih h

/-- The last call is one of the run. -/
theorem mem_flushTimes {w : Bool} {created : UInt64} {ops : List Operation} {t : UInt64} {b : Bool}
    (h : (reportPeriod w created ops).lastFlush = some (t, b)) : t ∈ flushTimes ops := by
  induction ops using List.reverseRecOn with
  | nil => cases h
  | append_singleton ops op ih =>
    rw [reportPeriod_concat] at h
    unfold flushTimes
    rw [List.filterMap_append, List.mem_append]
    unfold Period.step at h
    split at h
    · right
      split at h
      · cases h
        simp
      · cases h
        simp
    · exact .inl (ih h)
    · exact .inl (ih h)

variable (cfg : HookConfig)

/-- The collector counts for the period, and its marker is the time of the last call. -/
structure CountsPeriod (p : Period) (s : StatsCollector) : Prop where
  writer : s.logWriter = p.writer
  marker : s.lastReportNs = (p.lastFlush.map Prod.fst).getD 0
  counts : Counts cfg p.ops s

/-! ### One operation -/

/-- An operation that is no report goes on with the period. -/
private theorem step_of_no_report (p : Period) {op : Operation} (hop : op.isReport = false) :
    p.step op = { p with writer := op.writerAfter p.writer, ops := p.ops ++ [op] } := by
  cases op with
  | processEvent hdr hook retval latency | setLogWriter w => rfl
  | call c =>
    cases c with
    | flushReport now => cases hop
    | recordPending q ts | tryMatch q r ty | evictExpired now o => rfl

/-- A written report resets the counters, another call only moves the marker. -/
private theorem countsPeriod_flushReport {p : Period} {s : StatsCollector} (hs : CountsPeriod cfg p s) (now : UInt64) :
    CountsPeriod cfg (p.step (.call (.flushReport now))) (s.flushReport cfg now).1 := by
  unfold Period.step
  dsimp only
  cases hw : s.logWriter with
  | true =>
    obtain ⟨hrep, -⟩ := flushReport_counters cfg hw now
    rw [← hs.writer, hw, if_pos rfl]
    exact ⟨(flushReport_frame cfg s now).2.2.trans hw, hrep.lastReportNs, counts_reported cfg hrep⟩
  | false =>
    have hcounts : Counts cfg (p.ops ++ [.call (.flushReport now)]) s :=
      counts_concat cfg (fun _ _ _ _ h => by cases h) hs.counts
    rw [flushReport_of_no_writer cfg hw, ← hs.writer, hw, if_neg Bool.false_ne_true]
    exact ⟨rfl, rfl, hcounts.hook, hcounts.send, hcounts.recv⟩

/-- What a caller knows stays true. -/
theorem operate_countsPeriod {p : Period} {s s' : Session} {op : Operation} (hs : CountsPeriod cfg p s.stats)
    (hsized : Sized cfg s.stats) (h : s.operate cfg op = some s') : CountsPeriod cfg (p.step op) s'.stats := by
  cases hrep : op.isReport with
  | true =>
    obtain ⟨now, rfl⟩ := op.isReport_iff.1 hrep
    cases h
    exact countsPeriod_flushReport cfg hs now
  | false =>
    have hnext := operate_gathered cfg hsized hrep h hs.counts
    rw [step_of_no_report p hrep]
    have hwriter : s'.stats.logWriter = op.writerAfter p.writer := by
      rw [hnext.writer, hs.writer]
    exact ⟨hwriter, hnext.marker.trans hs.marker, hnext.counts⟩

/-! ### Runs -/

/-- Along every run the collector counts for the period. -/
theorem operations_countsPeriod (w : Bool) (created : UInt64) {ops : List Operation} {s : Session}
    (h : operations cfg w ops = some s) :
    CountsPeriod cfg (reportPeriod w created ops) s.stats ∧ Sized cfg s.stats := by
  refine runFrom_lift_induct
    (fun ops s => CountsPeriod cfg (reportPeriod w created ops) s.stats ∧ Sized cfg s.stats) ?_ ?_ h
  · exact ⟨⟨rfl, rfl, counts_fresh cfg w⟩, sized_fresh cfg w⟩
  · rintro ops s op s' ⟨hcounts, hsized⟩ hop
    rw [reportPeriod_concat]
    exact ⟨operate_countsPeriod cfg hcounts hsized hop, sized_of_operate cfg hsized hop⟩

/-! ### The lines of a report -/

/-- A line of a module stands in a report only if the report is written, for a module of the table. -/
theorem mem_flushReport {s : StatsCollector} {now : UInt64} {nm : String} {el snd rcv : UInt64}
    (h : .modStats nm el snd rcv ∈ (s.flushReport cfg now).2) :
    s.logWriter = true ∧ ∃ m, (1 ≤ m ∧ m ≤ cfg.maxModuleId) ∧ .modStats nm el snd rcv ∈ s.moduleLines cfg now m := by
  cases hw : s.logWriter with
  | false =>
    rw [flushReport_of_no_writer cfg hw] at h
    cases h
  | true =>
    rw [(flushReport_counters cfg hw now).2, List.mem_append] at h
    rcases h with h | h
    · obtain ⟨m, hm, hline⟩ := List.mem_flatMap.1 h
      rw [List.mem_range'_1] at hm
      exact ⟨rfl, m, by omega, hline⟩
    · -- the summary is no line of a module
      unfold flushLatency at h
      split at h
      · cases h
      · cases List.mem_singleton.1 h

/-- The time that a report prints, where the marker is the time of an earlier call. -/
theorem toNat_elapse {s : StatsCollector} {now : UInt64} (h : s.lastReportNs ≤ now) :
    (s.elapse now).toNat = if s.lastReportNs = 0 then 0 else now.toNat - s.lastReportNs.toNat := by
  unfold StatsCollector.elapse
  by_cases hz : s.lastReportNs = 0
  · rw [if_neg (not_not.2 hz), if_pos hz]
    rfl
  · rw [if_pos hz, if_neg hz, UInt64.toNat_sub_of_le _ _ h]

/-- The clock of a run that ends with a call at `now`: it does not go back. -/
def ClockOrdered (created : UInt64) (ops : List Operation) (now : UInt64) : Prop :=
  (created :: (flushTimes ops ++ [now])).Pairwise (· ≤ ·)

theorem ClockOrdered.le {created now t : UInt64} {ops : List Operation} (h : ClockOrdered created ops now)
    (ht : t ∈ flushTimes ops) : t ≤ now := by
  unfold ClockOrdered at h
  rw [List.pairwise_cons, List.pairwise_append] at h
  exact h.2.2.2 t ht now (List.mem_singleton.2 rfl)

/-- What the line of module `m` says of the period. -/
structure CountsOf (p : Period) (nm : String) (snd rcv : UInt64) (m : Nat) : Prop where
  inTable : 1 ≤ m ∧ m ≤ cfg.maxModuleId
  name : nm = ((cfg.fileGroups.find? fun g => g.moduleId == m).map FileGroup.name).getD "?"
  send : snd = UInt64.ofNat (p.ops.countP (Operation.isSend m))
  recv : rcv = UInt64.ofNat (p.ops.countP (Operation.isRecv m))

/-- In every run the line of a module counts the events of the period.  The time it prints is zero before the first
call of `flush_report`; where the last call wrote its report, it is the time from the start of the period (from a
report at clock value zero it is zero again: this value is the marker's "none").  The values are those that the line is
made from, before its text is cut to the buffer. -/
theorem intervals_match_counts (w : Bool) (created : UInt64) {ops : List Operation} {s : Session}
    (hs : operations cfg w ops = some s) {now : UInt64} (hclock : ClockOrdered created ops now) {nm : String}
    {el snd rcv : UInt64} (hline : .modStats nm el snd rcv ∈ (s.stats.flushReport cfg now).2) :
    (∃ m, CountsOf cfg (reportPeriod w created ops) nm snd rcv m) ∧
      ((reportPeriod w created ops).lastFlush = none → el.toNat = 0) ∧
      ∀ t, (reportPeriod w created ops).lastFlush = some (t, true) → (reportPeriod w created ops).start = t ∧
        el.toNat = if t = 0 then 0 else now.toNat - (reportPeriod w created ops).start.toNat := by
  obtain ⟨hcounts, -⟩ := operations_countsPeriod cfg w created hs
  obtain ⟨-, m, hm, hline⟩ := mem_flushReport cfg hline
  rw [moduleLines_eq] at hline
  split at hline
  · cases hline
  · cases List.mem_singleton.1 hline
    have hmarker := hcounts.marker
    have hsend := hcounts.counts.send m hm.1 hm.2
    have hrecv := hcounts.counts.recv m hm.1 hm.2
    refine ⟨⟨m, hm, rfl, hsend, hrecv⟩, fun hnone => ?_, fun t hlast => ?_⟩
    · rw [hnone] at hmarker
      rw [toNat_elapse (hmarker ▸ UInt64.zero_le), hmarker]
      rfl
    · rw [hlast] at hmarker
      have hle : s.stats.lastReportNs ≤ now := hmarker ▸ hclock.le (mem_flushTimes hlast)
      have hstart := reportPeriod_start hlast
      refine ⟨hstart, ?_⟩
      rw [toNat_elapse hle, hmarker, hstart]
      rfl

/-- Twenty after a report that was written, the line of the one event since then says twenty. -/
theorem intervals_match_counts_second :
    let ops : List Operation :=
      [.call (.flushReport 10), .processEvent ⟨15, 1, 1, Vector.replicate 16 0, 1, 0, dirSend, false⟩ "rm_send" 0 none]
    ∃ s, operations ⟨[], 3⟩ true ops = some s ∧ .modStats "?" 20 1 0 ∈ (s.stats.flushReport ⟨[], 3⟩ 30).2 ∧
      (reportPeriod true 5 ops).start = 10 ∧
      (20 : UInt64).toNat = (30 : UInt64).toNat - (reportPeriod true 5 ops).start.toNat := by
  intro ops
  have hin : ∀ op ∈ ops, op.InTable ⟨[], 3⟩ := by simp [ops, Operation.InTable]
  obtain ⟨s, hs, -⟩ := operations_isSome ⟨[], 3⟩ true hin
  have hline : .modStats "?" 20 1 0 ∈ (s.stats.flushReport ⟨[], 3⟩ 30).2 := by
    cases hs
    decide
  have hclock : ClockOrdered 5 ops 30 := by
    unfold ClockOrdered
    decide
  obtain ⟨-, -, h⟩ := intervals_match_counts ⟨[], 3⟩ true 5 hs hclock hline
  exact ⟨s, hs, hline, h 10 rfl⟩

/-- The time of a line is not always that of the period.  The first report prints zero, though its counts gather from
the construction. -/
theorem intervals_differ :
    ¬ ∀ (cfg : HookConfig) (w : Bool) (created : UInt64) (ops : List Operation) (s : Session) (now : UInt64)
        (nm : String) (el snd rcv : UInt64), operations cfg w ops = some s → ClockOrdered created ops now →
      .modStats nm el snd rcv ∈ (s.stats.flushReport cfg now).2 →
      el.toNat = now.toNat - (reportPeriod w created ops).start.toNat := by
  intro h
  have hclock :
      ClockOrdered 5 [.processEvent ⟨6, 1, 1, Vector.replicate 16 0, 1, 0, dirSend, false⟩ "rm_send" 0 none] 10 := by
    unfold ClockOrdered
    decide
  have hfalse := h ⟨[], 3⟩ true 5 _ _ 10 "?" 0 1 0 rfl hclock (by decide)
  exact absurd hfalse (by decide)

-- a call without a log writer at 20 moves the marker: the line at 30 says ten, but its event is of the period from 10
example :
    let e : Operation := .processEvent ⟨15, 1, 1, Vector.replicate 16 0, 1, 0, dirSend, false⟩ "rm_send" 0 none
    let ops : List Operation :=
      [.call (.flushReport 10), e, .setLogWriter false, .call (.flushReport 20), .setLogWriter true]
    ((operations ⟨[], 3⟩ true ops).map fun s => (s.stats.flushReport ⟨[], 3⟩ 30).2) = some [.modStats "?" 10 1 0] ∧
      (reportPeriod true 5 ops).start = 10 := by
  decide

end VsomeipCollector

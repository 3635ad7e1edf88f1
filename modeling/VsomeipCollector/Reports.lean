import Mathlib.Data.List.DropRight
import VsomeipCollector.Operations

/-!
# The counters between two reports

As long as a log writer is set, every report resets the counters of the hooks and of the modules.  So along such a run
the counters hold, modulo `2 ^ 64`, the events since the last report (`sinceReport`, `operations_countsSince`).
-/

namespace VsomeipCollector

open Table Run StatsCollector

/-! ### Events since the last report -/

def Operation.isReport : Operation → Bool
  | .call (.flushReport _) => true
  | _ => false

/-- The operations after the last report. -/
def sinceReport (ops : List Operation) : List Operation := ops.rtakeWhile fun op => !op.isReport

/-- The operation is an event of the hook. -/
def Operation.isEventOf (hook : String) : Operation → Bool
  | .processEvent _ h _ _ => h == hook
  | _ => false

/-- The operation is an event of the return probe of the hook, with return value 0. -/
def Operation.isSuccOf (hook : String) : Operation → Bool
  | .processEvent hdr h retval _ => h == hook && hdr.isRetprobe && retval == 0
  | _ => false

/-- The operation is an event of the return probe of the hook, with another return value. -/
def Operation.isFailOf (hook : String) : Operation → Bool
  | .processEvent hdr h retval _ => h == hook && hdr.isRetprobe && retval != 0
  | _ => false

/-- The counters of a hook after the events of `ops`. -/
def hookCount (hook : String) (ops : List Operation) : HookStats where
  total := UInt64.ofNat (ops.countP (Operation.isEventOf hook))
  succ := UInt64.ofNat (ops.countP (Operation.isSuccOf hook))
  fail := UInt64.ofNat (ops.countP (Operation.isFailOf hook))

theorem sinceReport_concat (ops : List Operation) (op : Operation) :
    sinceReport (ops ++ [op]) = if op.isReport then [] else sinceReport ops ++ [op] := by
  unfold sinceReport
  rw [List.rtakeWhile_concat]
  cases op.isReport <;> rfl

theorem countP_concat (p : Operation → Bool) (ops : List Operation) (op : Operation) :
    UInt64.ofNat ((ops ++ [op]).countP p) = UInt64.ofNat (ops.countP p) + if p op then 1 else 0 := by
  rw [List.countP_append, List.countP_singleton, UInt64.ofNat_add]
  cases p op <;> rfl

variable (cfg : HookConfig)

/-- The counters are those of the events `ops`. -/
structure Counts (ops : List Operation) (s : StatsCollector) : Prop where
  hook : ∀ h, s.hookStat h = hookCount h ops
  send : ∀ m, 1 ≤ m → m ≤ cfg.maxModuleId → s.modSend.getD m 0 = UInt64.ofNat (ops.countP (Operation.isSend m))
  recv : ∀ m, 1 ≤ m → m ≤ cfg.maxModuleId → s.modRecv.getD m 0 = UInt64.ofNat (ops.countP (Operation.isRecv m))

/-- The operation leaves the log writer set. -/
def Operation.KeepsWriter (op : Operation) : Prop := op ≠ .setLogWriter false

/-! ### One operation -/

private theorem hookCount_concat (h : String) (ops : List Operation) (hdr : EventHeader) (hook : String) (retval : Int64)
    (latency : Option RoutingEvent) :
    hookCount h (ops ++ [.processEvent hdr hook retval latency]) =
      if h = hook then (hookCount hook ops).count hdr.isRetprobe retval else hookCount h ops := by
  unfold hookCount
  rw [countP_concat, countP_concat, countP_concat]
  by_cases he : h = hook
  · subst he
    unfold HookStats.count
    cases hr : hdr.isRetprobe with
    | false => simp [Operation.isEventOf, Operation.isSuccOf, Operation.isFailOf, hr]
    | true =>
      by_cases hz : retval = 0
      · simp [Operation.isEventOf, Operation.isSuccOf, Operation.isFailOf, hr, hz]
      · simp [Operation.isEventOf, Operation.isSuccOf, Operation.isFailOf, hr, hz]
  · have hne : ¬ hook = h := fun h' => he h'.symm
    simp [Operation.isEventOf, Operation.isSuccOf, Operation.isFailOf, he, hne]

/-- An operation that is no event adds nothing to the counts. -/
theorem counts_concat {ops : List Operation} {op : Operation} (hop : ∀ hdr h r l, op ≠ .processEvent hdr h r l)
    {s : StatsCollector} (hs : Counts cfg ops s) : Counts cfg (ops ++ [op]) s := by
  have h0 : ∀ p : Operation → Bool, p op = false →
      UInt64.ofNat ((ops ++ [op]).countP p) = UInt64.ofNat (ops.countP p) := by
    intro p hp
    rw [countP_concat, hp]
    exact UInt64.add_zero _
  cases op with
  | processEvent hdr h r l => exact absurd rfl (hop hdr h r l)
  | setLogWriter w | call c =>
    constructor
    · intro h
      unfold hookCount
      rw [h0 _ rfl, h0 _ rfl, h0 _ rfl]
      exact hs.hook h
    · intro m h1 h2
      rw [h0 _ rfl]
      exact hs.send m h1 h2
    · intro m h1 h2
      rw [h0 _ rfl]
      exact hs.recv m h1 h2

/-- The counts do not look at the matching. -/
private theorem counts_of_counters {ops : List Operation} {s t : StatsCollector} (hc : t.counters = s.counters)
    (hs : Counts cfg ops s) : Counts cfg ops t where
  hook h := (hookStat_of_counters hc h).trans (hs.hook h)
  send m h1 h2 := (congrArg (fun c : Counters => c.modSend.getD m 0) hc).trans (hs.send m h1 h2)
  recv m h1 h2 := (congrArg (fun c : Counters => c.modRecv.getD m 0) hc).trans (hs.recv m h1 h2)

/-- An event is added to the counts. -/
private theorem counts_counted {ops : List Operation} {s : StatsCollector} {hdr : EventHeader} (hsized : Sized cfg s)
    (hin : hdr.isRetprobe = false → hdr.moduleId.toNat ≤ cfg.maxModuleId) (hook : String) (retval : Int64)
    (latency : Option RoutingEvent) (hs : Counts cfg ops s) :
    Counts cfg (ops ++ [.processEvent hdr hook retval latency]) (s.counted hdr hook retval) := by
  have hplace := hsized.place cfg hin
  constructor
  · intro h
    rw [hookStat_counted, hs.hook, hs.hook]
    exact (hookCount_concat h ops hdr hook retval latency).symm
  · intro m h1 h2
    rw [getD_modSend_counted hplace, hs.send m h1 h2, countP_concat]
    rfl
  · intro m h1 h2
    rw [getD_modRecv_counted hplace, hs.recv m h1 h2, countP_concat]
    rfl

/-- After a report the counts begin again. -/
theorem counts_reported {s s' : StatsCollector} {now : UInt64} (h : Reported cfg s s' now) :
    Counts cfg [] s' := by
  constructor
  · intro hook
    unfold StatsCollector.hookStat
    rw [h.hookStats, lookup_mapValues]
    cases s.hookStats.lookup hook <;> rfl
  · intro m h1 h2
    rw [h.send, if_pos ⟨h1, h2⟩]
    rfl
  · intro m h1 h2
    rw [h.recv, if_pos ⟨h1, h2⟩]
    rfl

/-- Whether a log writer is set after the operation, where `w` says whether one was before. -/
def Operation.writerAfter (w : Bool) : Operation → Bool
  | .setLogWriter w' => w'
  | _ => w

/-- What an operation other than a report leaves of the counters. -/
structure Gathered (ops : List Operation) (op : Operation) (s s' : StatsCollector) : Prop where
  counts : Counts cfg (ops ++ [op]) s'
  marker : s'.lastReportNs = s.lastReportNs
  writer : s'.logWriter = op.writerAfter s.logWriter

/-- An operation that is no report goes on with the counts. -/
theorem operate_gathered {s s' : Session} {op : Operation} {ops : List Operation} (hsized : Sized cfg s.stats)
    (hop : op.isReport = false) (h : s.operate cfg op = some s') (hs : Counts cfg ops s.stats) :
    Gathered cfg ops op s.stats s'.stats := by
  have hin := inTable_of_operate cfg hsized h
  cases op with
  | processEvent hdr hook retval latency =>
    obtain ⟨t, ht, hc⟩ := operate_processEvent cfg hsized hin hook retval latency
    obtain rfl : t = s' := Option.some.inj (ht.symm.trans h)
    have hnext := counts_counted cfg hsized hin hook retval latency hs
    exact ⟨counts_of_counters cfg hc hnext, congrArg Counters.lastReportNs hc, congrArg Counters.logWriter hc⟩
  | setLogWriter w =>
    cases h
    have hnext : Counts cfg (ops ++ [.setLogWriter w]) s.stats := counts_concat cfg (fun _ _ _ _ h => by cases h) hs
    exact ⟨⟨hnext.hook, hnext.send, hnext.recv⟩, rfl, rfl⟩
  | call c =>
    cases h
    have hcall : ∀ now, c ≠ .flushReport now := by
      rintro now rfl
      cases hop
    have hc := counters_call cfg hcall s.stats
    have hnext : Counts cfg (ops ++ [.call c]) s.stats := counts_concat cfg (fun _ _ _ _ h => by cases h) hs
    exact ⟨counts_of_counters cfg hc hnext, congrArg Counters.lastReportNs hc, congrArg Counters.logWriter hc⟩

theorem Operation.isReport_iff (op : Operation) : op.isReport = true ↔ ∃ now, op = .call (.flushReport now) := by
  constructor
  · intro h
    unfold Operation.isReport at h
    split at h
    · exact ⟨_, rfl⟩
    · cases h
  · rintro ⟨now, rfl⟩
    rfl

/-- Where an operation starts with a log writer and leaves it, the counts go on, or begin again after a report. -/
theorem operate_counts {s s' : Session} {op : Operation} {ops : List Operation} (hsized : Sized cfg s.stats)
    (hw : s.stats.logWriter = true) (hkeep : op.KeepsWriter) (h : s.operate cfg op = some s')
    (hs : Counts cfg ops s.stats) :
    s'.stats.logWriter = true ∧ Counts cfg (if op.isReport then [] else ops ++ [op]) s'.stats := by
  cases hrep : op.isReport with
  | true =>
    obtain ⟨now, rfl⟩ := op.isReport_iff.1 hrep
    cases h
    obtain ⟨hreported, -⟩ := flushReport_counters cfg hw now
    exact ⟨(flushReport_frame cfg s.stats now).2.2.trans hw, counts_reported cfg hreported⟩
  | false =>
    have hnext := operate_gathered cfg hsized hrep h hs
    refine ⟨?_, hnext.counts⟩
    rw [hnext.writer, hw]
    cases op with
    | setLogWriter w =>
      cases w with
      | true => rfl
      | false => exact absurd rfl hkeep
    | processEvent hdr hook retval latency | call c => rfl

/-! ### Runs -/

/-- Nothing is counted yet. -/
theorem counts_fresh (w : Bool) : Counts cfg [] (fresh cfg w) where
  hook _ := rfl
  send m _ _ := getD_replicate_zero _ m
  recv m _ _ := getD_replicate_zero _ m

/-- Along a run with a log writer the counters are those of the events since the last report. -/
theorem operations_countsSince {ops : List Operation} (hin : ∀ op ∈ ops, op.InTable cfg)
    (hkeep : ∀ op ∈ ops, op.KeepsWriter) :
    ∃ s, operations cfg true ops = some s ∧ s.stats.logWriter = true ∧ Counts cfg (sinceReport ops) s.stats := by
  induction ops using List.reverseRecOn with
  | nil => exact ⟨_, rfl, rfl, counts_fresh cfg true⟩
  | append_singleton ops op ih =>
    have hin' : ∀ o ∈ ops, o.InTable cfg := fun o ho => hin o (by simp [ho])
    obtain ⟨s, hs, hw, hcounts⟩ := ih hin' fun o ho => hkeep o (by simp [ho])
    obtain ⟨t, ht, hsized⟩ := operations_isSome cfg true hin'
    cases hs.symm.trans ht
    have hop := hin op (by simp)
    obtain ⟨s', hs', -⟩ := operate_isSome cfg hsized hop
    have hnext := operate_counts cfg hsized hw (hkeep op (by simp)) hs' hcounts
    rw [← sinceReport_concat] at hnext
    refine ⟨s', ?_, hnext⟩
    unfold operations at hs ⊢
    rw [runFrom_concat, hs]
    exact hs'

end VsomeipCollector

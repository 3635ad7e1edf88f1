import VsomeipCollector.Handler

/-!
# Runs of all operations of the statistics collector

Besides the calls of the matching, a collector receives events and is given a log writer.  An event changes the
counters of its hook and its module (`counted`), its callback only the open requests and samples; a report that is
written hands out the counters of the modules and resets all counters (`flushReport_counters`).  An event whose module
lies in the counter tables is always processed (`operations_isSome`).
-/

namespace VsomeipCollector

open Table Run StatsCollector

variable (cfg : HookConfig)

/-- A call of a public function.  `process_event` gets the callback of the routing module with the event that the
callback reads, or none. -/
inductive Operation where
  | processEvent (hdr : EventHeader) (hook : String) (retval : Int64) (latency : Option RoutingEvent)
  | setLogWriter (w : Bool)
  | call (c : Call)

/-- `none` is a module index outside the counter tables. -/
def Session.operate (s : Session) : Operation → Option Session
  | .processEvent hdr hook retval none =>
    (s.stats.processEvent hdr () hook retval none).map fun r => ⟨r.1, s.log ++ r.2⟩
  | .processEvent hdr hook retval (some e) =>
    (s.stats.processEvent hdr e hook retval (some onLatency)).map fun r => ⟨r.1, s.log ++ r.2⟩
  | .setLogWriter w => some ⟨s.stats.setLogWriter w, s.log⟩
  | .call c => some (s.step cfg c)

/-- The session after a sequence of operations on a fresh collector. -/
def operations (w : Bool) (ops : List Operation) : Option Session :=
  runFrom (lift (Session.operate cfg)) (some ⟨fresh cfg w, []⟩) ops

/-- The module of an entry event is one of the counter tables. -/
def Operation.InTable : Operation → Prop
  | .processEvent hdr _ _ _ => hdr.isRetprobe = false → hdr.moduleId.toNat ≤ cfg.maxModuleId
  | _ => True

/-- The event counts as one sent by its module. -/
def EventHeader.isSend (hdr : EventHeader) : Bool := !hdr.isRetprobe && hdr.direction = dirSend

/-- The event counts as one received by its module: every other direction does. -/
def EventHeader.isRecv (hdr : EventHeader) : Bool := !hdr.isRetprobe && hdr.direction ≠ dirSend

/-- The operation is an event that its module sent. -/
def Operation.isSend (m : Nat) : Operation → Bool
  | .processEvent hdr _ _ _ => hdr.moduleId.toNat == m && hdr.isSend
  | _ => false

/-- The operation is an event that its module received. -/
def Operation.isRecv (m : Nat) : Operation → Bool
  | .processEvent hdr _ _ _ => hdr.moduleId.toNat == m && hdr.isRecv
  | _ => false

/-- The counter tables have a place for every module. -/
structure Sized (s : StatsCollector) : Prop where
  send : s.modSend.length = cfg.maxModuleId + 1
  recv : s.modRecv.length = cfg.maxModuleId + 1

/-! ### The counters -/

/-- The parts of the collector that the matching neither reads nor writes, and the log writer. -/
structure Counters where
  hookStats : Tbl String HookStats
  modSend : List UInt64
  modRecv : List UInt64
  lastReportNs : UInt64
  logWriter : Bool

def StatsCollector.counters (s : StatsCollector) : Counters :=
  ⟨s.hookStats, s.modSend, s.modRecv, s.lastReportNs, s.logWriter⟩

/-- A table of counters with the counter of `m` increased, if so wanted. -/
def bumpIf (on : Bool) (m : Nat) (counts : List UInt64) : List UInt64 :=
  if on then counts.set m (counts.getD m 0 + 1) else counts

private theorem getD_bumpIf {on : Bool} {k m : Nat} {counts : List UInt64} (hk : on = true → k < counts.length) :
    (bumpIf on k counts).getD m 0 = counts.getD m 0 + if k == m && on then 1 else 0 := by
  unfold bumpIf
  cases on with
  | false => simp
  | true =>
    have hk := hk rfl
    by_cases h : k = m
    · subst h
      simp [List.getD_eq_getElem?_getD, hk]
    · simp [List.getD_eq_getElem?_getD, h]

/-- The collector after an event was counted. -/
def StatsCollector.counted (s : StatsCollector) (hdr : EventHeader) (hook : String) (retval : Int64) : StatsCollector :=
  { s with
    hookStats := s.hookStats.insert hook (((s.hookStats.lookup hook).getD {}).count hdr.isRetprobe retval)
    modSend := bumpIf hdr.isSend hdr.moduleId.toNat s.modSend
    modRecv := bumpIf hdr.isRecv hdr.moduleId.toNat s.modRecv }

/-- The counter tables have a place for an entry event of the table. -/
theorem Sized.place {s : StatsCollector} (hsized : Sized cfg s) {hdr : EventHeader}
    (hin : hdr.isRetprobe = false → hdr.moduleId.toNat ≤ cfg.maxModuleId) :
    hdr.isRetprobe = false → hdr.moduleId.toNat < s.modSend.length ∧ hdr.moduleId.toNat < s.modRecv.length := by
  intro hret
  have h := hin hret
  exact ⟨by rw [hsized.send]; omega, by rw [hsized.recv]; omega⟩

section

variable {s : StatsCollector} {hdr : EventHeader}
  (hin : hdr.isRetprobe = false → hdr.moduleId.toNat < s.modSend.length ∧ hdr.moduleId.toNat < s.modRecv.length)

include hin

theorem getD_modSend_counted (hook : String) (retval : Int64) (m : Nat) :
    (s.counted hdr hook retval).modSend.getD m 0 =
      s.modSend.getD m 0 + if hdr.moduleId.toNat == m && hdr.isSend then 1 else 0 := by
  refine getD_bumpIf fun h => (hin ?_).1
  unfold EventHeader.isSend at h
  simpa using (Bool.and_eq_true_iff.1 h).1

theorem getD_modRecv_counted (hook : String) (retval : Int64) (m : Nat) :
    (s.counted hdr hook retval).modRecv.getD m 0 =
      s.modRecv.getD m 0 + if hdr.moduleId.toNat == m && hdr.isRecv then 1 else 0 := by
  refine getD_bumpIf fun h => (hin ?_).2
  unfold EventHeader.isRecv at h
  simpa using (Bool.and_eq_true_iff.1 h).1

end

/-- The counters of a hook; a hook without events has none yet. -/
def StatsCollector.hookStat (s : StatsCollector) (hook : String) : HookStats := (s.hookStats.lookup hook).getD {}

theorem Call.flushReport_or (c : Call) : (∃ now, c = .flushReport now) ∨ ∀ now, c ≠ .flushReport now := by
  cases c with
  | flushReport now => exact Or.inl ⟨now, rfl⟩
  | recordPending q ts | tryMatch q r ty | evictExpired now o => exact Or.inr fun _ h => by cases h

/-- Only a report touches the counters. -/
theorem counters_call {c : Call} (h : ∀ now, c ≠ .flushReport now) (s : StatsCollector) :
    (s.call cfg c).1.counters = s.counters := by
  cases c with
  | flushReport now => exact absurd rfl (h now)
  | recordPending q ts =>
    unfold call recordPending
    dsimp only
    split <;> rfl
  | tryMatch q r ty =>
    unfold call tryMatch
    dsimp only
    split
    · rfl
    · split <;> rfl
  | evictExpired now o => rfl

/-- The callback leaves the counters alone. -/
theorem counters_onLatency (e : RoutingEvent) (hook : String) (s : StatsCollector) :
    (onLatency e hook s).1.counters = s.counters := by
  rw [onLatency_eq ⟨[], 0⟩]
  cases hc : e.latencyCall with
  | none => rfl
  | some c => exact counters_call _ (latencyCall_ne_flush c hc) s

private theorem countModule_eq {s : StatsCollector} {hdr : EventHeader}
    (hin : hdr.isRetprobe = false → hdr.moduleId.toNat < s.modSend.length ∧ hdr.moduleId.toNat < s.modRecv.length) :
    s.countModule hdr = some { s with
      modSend := bumpIf hdr.isSend hdr.moduleId.toNat s.modSend
      modRecv := bumpIf hdr.isRecv hdr.moduleId.toNat s.modRecv } := by
  unfold countModule bumpIf EventHeader.isSend EventHeader.isRecv
  cases hret : hdr.isRetprobe with
  | true => simp
  | false =>
    obtain ⟨hs, hr⟩ := hin hret
    by_cases hd : hdr.direction = dirSend
    · simp [hd, List.getElem?_eq_getElem hs]
    · simp [hd, List.getElem?_eq_getElem hr]

/-- Only an entry probe needs a place in the counter tables. -/
theorem processEvent_eq {π : Type} {s : StatsCollector} {hdr : EventHeader}
    (hin : hdr.isRetprobe = false → hdr.moduleId.toNat < s.modSend.length ∧ hdr.moduleId.toNat < s.modRecv.length)
    (payload : π) (hook : String) (retval : Int64)
    (cb : Option (π → String → StatsCollector → StatsCollector × List LogLine)) :
    s.processEvent hdr payload hook retval cb =
      some (match cb with
        | some f => f payload hook (s.counted hdr hook retval)
        | none => (s.counted hdr hook retval, [])) := by
  unfold processEvent
  dsimp only
  have h := countModule_eq (s := { s with
    hookStats := s.hookStats.insert hook (((s.hookStats.lookup hook).getD {}).count hdr.isRetprobe retval) }) hin
  rw [h]
  cases cb <;> rfl

theorem hookStat_of_counters {s t : StatsCollector} (h : s.counters = t.counters) (hook : String) :
    s.hookStat hook = t.hookStat hook :=
  congrArg (fun c : Counters => (c.hookStats.lookup hook).getD {}) h

/-- An event changes the counters of its own hook only. -/
theorem hookStat_counted (s : StatsCollector) (hdr : EventHeader) (hook : String) (retval : Int64) (h : String) :
    (s.counted hdr hook retval).hookStat h =
      if h = hook then (s.hookStat hook).count hdr.isRetprobe retval else s.hookStat h := by
  unfold StatsCollector.hookStat counted
  by_cases he : h = hook
  · subst he
    simp
  · simp [he, Finmap.lookup_insert_of_ne]

/-- An event in the table is processed: its counters change as `counted` says, whatever the callback. -/
theorem operate_processEvent {s : Session} {hdr : EventHeader} (hsized : Sized cfg s.stats)
    (hin : hdr.isRetprobe = false → hdr.moduleId.toNat ≤ cfg.maxModuleId) (hook : String) (retval : Int64)
    (latency : Option RoutingEvent) :
    ∃ s', s.operate cfg (.processEvent hdr hook retval latency) = some s' ∧
      s'.stats.counters = (s.stats.counted hdr hook retval).counters := by
  unfold Session.operate
  cases latency with
  | none =>
    dsimp only
    rw [processEvent_eq (hsized.place cfg hin)]
    exact ⟨_, rfl, rfl⟩
  | some e =>
    dsimp only
    rw [processEvent_eq (hsized.place cfg hin)]
    exact ⟨_, rfl, counters_onLatency ..⟩

/-- An entry event outside the tables stops the run. -/
private theorem processEvent_eq_none {π : Type} {s : StatsCollector} {hdr : EventHeader} (hsized : Sized cfg s)
    (hret : hdr.isRetprobe = false) (hout : cfg.maxModuleId < hdr.moduleId.toNat) (payload : π) (hook : String)
    (retval : Int64) (cb : Option (π → String → StatsCollector → StatsCollector × List LogLine)) :
    s.processEvent hdr payload hook retval cb = none := by
  have hs : s.modSend[hdr.moduleId.toNat]? = none := List.getElem?_eq_none (by rw [hsized.send]; omega)
  have hr : s.modRecv[hdr.moduleId.toNat]? = none := List.getElem?_eq_none (by rw [hsized.recv]; omega)
  unfold processEvent countModule
  simp [hret, hs, hr]

/-- An event is processed where it needs no counter or has one. -/
theorem processEvent_isSome_iff {π : Type} {s : StatsCollector} {hdr : EventHeader} (hsized : Sized cfg s) (payload : π)
    (hook : String) (retval : Int64) (cb : Option (π → String → StatsCollector → StatsCollector × List LogLine)) :
    (s.processEvent hdr payload hook retval cb).isSome ↔
      hdr.isRetprobe = true ∨ hdr.moduleId.toNat ≤ cfg.maxModuleId := by
  by_cases hin : hdr.isRetprobe = false → hdr.moduleId.toNat ≤ cfg.maxModuleId
  · rw [processEvent_eq (hsized.place cfg hin)]
    refine iff_of_true rfl ?_
    cases hret : hdr.isRetprobe with
    | true => exact .inl rfl
    | false => exact .inr (hin hret)
  · rw [Classical.not_imp] at hin
    obtain ⟨hret, hout⟩ := hin
    rw [processEvent_eq_none cfg hsized hret (Nat.lt_of_not_le hout)]
    refine iff_of_false (by simp) ?_
    rintro (h | h)
    · exact absurd (h.symm.trans hret) (by decide)
    · exact hout h

/-! ### The counters and the reports -/

/-- The time a report at `now` prints as elapsed. -/
def StatsCollector.elapse (s : StatsCollector) (now : UInt64) : UInt64 :=
  if s.lastReportNs ≠ 0 then now - s.lastReportNs else 0

/-- The part of a report for module `m`. -/
def StatsCollector.moduleLines (cfg : HookConfig) (s : StatsCollector) (now : UInt64) (m : Nat) : List LogLine :=
  (flushModule cfg (s.elapse now) s m).2

/-- An active module gets one line with its counters, an idle one none. -/
theorem moduleLines_eq (s : StatsCollector) (now : UInt64) (m : Nat) :
    s.moduleLines cfg now m =
      if s.modSend.getD m 0 = 0 ∧ s.modRecv.getD m 0 = 0 then []
      else [.modStats (cfg.reportName m) (s.elapse now) (s.modSend.getD m 0) (s.modRecv.getD m 0)] := by
  unfold moduleLines flushModule
  dsimp only
  split <;> rfl

/-- What a report leaves of the counters. -/
structure Reported (s s' : StatsCollector) (now : UInt64) : Prop where
  send : ∀ m, s'.modSend.getD m 0 = if 1 ≤ m ∧ m ≤ cfg.maxModuleId then 0 else s.modSend.getD m 0
  recv : ∀ m, s'.modRecv.getD m 0 = if 1 ≤ m ∧ m ≤ cfg.maxModuleId then 0 else s.modRecv.getD m 0
  hookStats : s'.hookStats = mapValues (fun _ => {}) s.hookStats
  lastReportNs : s'.lastReportNs = now
  sizes : s'.modSend.length = s.modSend.length ∧ s'.modRecv.length = s.modRecv.length

private theorem getD_set_zero (counts : List UInt64) (m m' : Nat) :
    (counts.set m 0).getD m' 0 = if m' = m then 0 else counts.getD m' 0 := by
  rw [List.getD_eq_getElem?_getD, List.getD_eq_getElem?_getD, List.getElem?_set]
  by_cases h : m = m'
  · subst h
    rw [if_pos rfl, if_pos rfl]
    split <;> rfl
  · rw [if_neg h, if_neg (Ne.symm h)]

/-- The part of a report for one module resets the counters of this module and no others. -/
private theorem flushModule_counters (elapse : UInt64) (s : StatsCollector) (m : Nat) :
    (∀ m', (flushModule cfg elapse s m).1.modSend.getD m' 0 = if m' = m then 0 else s.modSend.getD m' 0) ∧
      (∀ m', (flushModule cfg elapse s m).1.modRecv.getD m' 0 = if m' = m then 0 else s.modRecv.getD m' 0) ∧
      (flushModule cfg elapse s m).1.modSend.length = s.modSend.length ∧
      (flushModule cfg elapse s m).1.modRecv.length = s.modRecv.length ∧
      (flushModule cfg elapse s m).1.hookStats = s.hookStats ∧
      (flushModule cfg elapse s m).1.lastReportNs = s.lastReportNs := by
  unfold flushModule
  dsimp only
  split
  · rename_i hz
    -- an idle module has nothing to reset
    refine ⟨fun m' => ?_, fun m' => ?_, rfl, rfl, rfl, rfl⟩
    · split
      · rename_i he; rw [he]; exact hz.1
      · rfl
    · split
      · rename_i he; rw [he]; exact hz.2
      · rfl
  · exact ⟨getD_set_zero _ m, getD_set_zero _ m, List.length_set, List.length_set, rfl, rfl⟩

/-- The line of a module depends on the counters of this module only. -/
private theorem flushModule_congr (elapse : UInt64) {s t : StatsCollector} {m : Nat}
    (hs : s.modSend.getD m 0 = t.modSend.getD m 0) (hr : s.modRecv.getD m 0 = t.modRecv.getD m 0) :
    (flushModule cfg elapse s m).2 = (flushModule cfg elapse t m).2 := by
  unfold flushModule
  dsimp only
  rw [hs, hr]
  split <;> rfl

private theorem flushModules_counters (elapse : UInt64) {ms : List Nat} (hms : ms.Nodup) (s : StatsCollector) :
    (flushModules cfg elapse ms s).2 = ms.flatMap (fun m => (flushModule cfg elapse s m).2) ∧
      (∀ m', (flushModules cfg elapse ms s).1.modSend.getD m' 0 = if m' ∈ ms then 0 else s.modSend.getD m' 0) ∧
      (∀ m', (flushModules cfg elapse ms s).1.modRecv.getD m' 0 = if m' ∈ ms then 0 else s.modRecv.getD m' 0) ∧
      (flushModules cfg elapse ms s).1.modSend.length = s.modSend.length ∧
      (flushModules cfg elapse ms s).1.modRecv.length = s.modRecv.length ∧
      (flushModules cfg elapse ms s).1.hookStats = s.hookStats ∧
      (flushModules cfg elapse ms s).1.lastReportNs = s.lastReportNs := by
  induction ms generalizing s with
  | nil => simp [flushModules]
  | cons m ms ih =>
    rw [List.nodup_cons] at hms
    obtain ⟨hs, hr, hls, hlr, hh, ht⟩ := flushModule_counters cfg elapse s m
    obtain ⟨ihl, ihs, ihr, ihls, ihlr, ihh, iht⟩ := ih hms.2 (flushModule cfg elapse s m).1
    unfold flushModules
    dsimp only
    refine ⟨?_, fun m' => ?_, fun m' => ?_, ihls.trans hls, ihlr.trans hlr, ihh.trans hh, iht.trans ht⟩
    · -- the later modules do not see that `m` was reset
      rw [ihl, List.flatMap_cons]
      congr 1
      refine List.flatMap_congr fun m' hm' => flushModule_congr cfg elapse ?_ ?_
      · rw [hs, if_neg (fun he : m' = m => hms.1 (he ▸ hm'))]
      · rw [hr, if_neg (fun he : m' = m => hms.1 (he ▸ hm'))]
    · rw [ihs, hs]
      by_cases h1 : m' ∈ ms <;> by_cases h2 : m' = m <;> simp [h1, h2]
    · rw [ihr, hr]
      by_cases h1 : m' ∈ ms <;> by_cases h2 : m' = m <;> simp [h1, h2]

private theorem flushLatency_counters (s : StatsCollector) :
    s.flushLatency.1.counters = s.counters ∧
      ∀ t : StatsCollector, t.latency = s.latency → t.flushLatency.2 = s.flushLatency.2 := by
  unfold flushLatency
  refine ⟨by split <;> rfl, fun t ht => ?_⟩
  rw [ht]
  split <;> rfl

private theorem mem_modules {m : Nat} : m ∈ List.range' 1 cfg.maxModuleId ↔ 1 ≤ m ∧ m ≤ cfg.maxModuleId := by
  rw [List.mem_range'_1]
  omega

/-- A report that is written has the lines of the modules in order, then the summary, and resets the counters. -/
theorem flushReport_counters {s : StatsCollector} (hw : s.logWriter = true) (now : UInt64) :
    Reported cfg s (s.flushReport cfg now).1 now ∧
      (s.flushReport cfg now).2 =
        (List.range' 1 cfg.maxModuleId).flatMap (s.moduleLines cfg now) ++ s.flushLatency.2 := by
  have hnodup : (List.range' 1 cfg.maxModuleId).Nodup := List.nodup_range'
  obtain ⟨hl, hs, hr, hls, hlr, hh, ht⟩ :=
    flushModules_counters cfg (s.elapse now) hnodup { s with lastReportNs := now }
  obtain ⟨-, hlat, -, -⟩ := flushModules_frame cfg (s.elapse now) (List.range' 1 cfg.maxModuleId)
    { s with lastReportNs := now }
  unfold flushReport
  dsimp only
  rw [if_pos hw]
  unfold StatsCollector.elapse at hl hs hr hls hlr hh ht hlat
  generalize flushModules cfg _ _ _ = r at hl hs hr hls hlr hh ht hlat ⊢
  obtain ⟨hc, hlines⟩ := flushLatency_counters r.1
  have hcs : r.1.flushLatency.1.modSend = r.1.modSend := congrArg Counters.modSend hc
  have hcr : r.1.flushLatency.1.modRecv = r.1.modRecv := congrArg Counters.modRecv hc
  have hch : r.1.flushLatency.1.hookStats = r.1.hookStats := congrArg Counters.hookStats hc
  have hct : r.1.flushLatency.1.lastReportNs = r.1.lastReportNs := congrArg Counters.lastReportNs hc
  refine ⟨⟨fun m => ?_, fun m => ?_, ?_, ?_, ?_, ?_⟩, ?_⟩
  · simp only [hcs, hs, mem_modules]
  · simp only [hcr, hr, mem_modules]
  · simp only [hch, hh]
  · exact hct.trans ht
  · exact (congrArg List.length hcs).trans hls
  · exact (congrArg List.length hcr).trans hlr
  · rw [hl, ← hlines s hlat.symm]
    have hcongr : ∀ m, (flushModule cfg (s.elapse now) { s with lastReportNs := now } m).2 = s.moduleLines cfg now m :=
      fun m => flushModule_congr cfg _ rfl rfl
    exact congrArg (· ++ s.flushLatency.2) (List.flatMap_congr fun m _ => hcongr m)

/-- A report without a log writer notes its time and changes nothing else. -/
theorem flushReport_of_no_writer {s : StatsCollector} (hw : s.logWriter = false) (now : UInt64) :
    s.flushReport cfg now = ({ s with lastReportNs := now }, []) := by
  unfold flushReport
  dsimp only
  rw [hw]
  rfl

/-! ### Runs -/

theorem getD_replicate_zero (n m : Nat) : (List.replicate n (0 : UInt64)).getD m 0 = 0 := by
  rw [List.getD_eq_getElem?_getD, List.getElem?_replicate]
  split <;> rfl

theorem sized_fresh (w : Bool) : Sized cfg (fresh cfg w) := ⟨List.length_replicate, List.length_replicate⟩

private theorem length_bumpIf (on : Bool) (m : Nat) (counts : List UInt64) :
    (bumpIf on m counts).length = counts.length := by
  unfold bumpIf
  split
  · exact List.length_set
  · rfl

private theorem sized_of_counters {s s' : StatsCollector} (hc : s'.counters = s.counters) (hs : Sized cfg s) :
    Sized cfg s' where
  send := (congrArg (fun c => c.modSend.length) hc).trans hs.send
  recv := (congrArg (fun c => c.modRecv.length) hc).trans hs.recv

/-- Operations in the table go through and keep the sizes of the tables. -/
theorem operate_isSome {s : Session} {op : Operation} (hsized : Sized cfg s.stats) (hin : op.InTable cfg) :
    ∃ s', s.operate cfg op = some s' ∧ Sized cfg s'.stats := by
  cases op with
  | processEvent hdr hook retval latency =>
    obtain ⟨s', hs', hc⟩ := operate_processEvent cfg hsized hin hook retval latency
    refine ⟨s', hs', ?_, ?_⟩
    · exact (congrArg (fun c => c.modSend.length) hc).trans ((length_bumpIf ..).trans hsized.send)
    · exact (congrArg (fun c => c.modRecv.length) hc).trans ((length_bumpIf ..).trans hsized.recv)
  | setLogWriter w => exact ⟨_, rfl, hsized.send, hsized.recv⟩
  | call c =>
    refine ⟨_, rfl, ?_⟩
    show Sized cfg (s.stats.call cfg c).1
    rcases c.flushReport_or with ⟨now, rfl⟩ | hc
    · cases hw : s.stats.logWriter with
      | true =>
        obtain ⟨hsend, hrecv⟩ := (flushReport_counters cfg hw now).1.sizes
        exact ⟨hsend.trans hsized.send, hrecv.trans hsized.recv⟩
      | false =>
        unfold call
        dsimp only
        rw [flushReport_of_no_writer cfg hw]
        exact ⟨hsized.send, hsized.recv⟩
    · exact sized_of_counters cfg (counters_call cfg hc s.stats) hsized

theorem inTable_of_operate {s s' : Session} {op : Operation} (hsized : Sized cfg s.stats)
    (h : s.operate cfg op = some s') : op.InTable cfg := by
  cases op with
  | processEvent hdr hook retval latency =>
    intro hret
    by_contra hout
    have hnone : s.operate cfg (.processEvent hdr hook retval latency) = none := by
      unfold Session.operate
      cases latency with
      | none => exact Option.map_eq_none_iff.2 (processEvent_eq_none cfg hsized hret (Nat.lt_of_not_le hout) ..)
      | some e => exact Option.map_eq_none_iff.2 (processEvent_eq_none cfg hsized hret (Nat.lt_of_not_le hout) ..)
    rw [hnone] at h
    cases h
  | setLogWriter w => trivial
  | call c => trivial

theorem sized_of_operate {s s' : Session} {op : Operation} (hsized : Sized cfg s.stats)
    (h : s.operate cfg op = some s') : Sized cfg s'.stats := by
  obtain ⟨t, ht, hsized'⟩ := operate_isSome cfg hsized (inTable_of_operate cfg hsized h)
  cases h.symm.trans ht
  exact hsized'

/-- A run in the table goes through. -/
theorem operations_isSome (w : Bool) {ops : List Operation} (hin : ∀ op ∈ ops, op.InTable cfg) :
    ∃ s, operations cfg w ops = some s ∧ Sized cfg s.stats := by
  unfold operations
  induction ops using List.reverseRecOn with
  | nil => exact ⟨_, rfl, sized_fresh cfg w⟩
  | append_singleton ops op ih =>
    obtain ⟨s, hs, hsized⟩ := ih fun o ho => hin o (by simp [ho])
    obtain ⟨s', hs', hsized'⟩ := operate_isSome cfg hsized (hin op (by simp))
    rw [runFrom_concat, hs]
    exact ⟨s', hs', hsized'⟩

/-- A run that goes through is in the table. -/
theorem inTable_of_operations {w : Bool} {ops : List Operation} {s : Session} (h : operations cfg w ops = some s) :
    ∀ op ∈ ops, op.InTable cfg := by
  have hrun : (∀ op ∈ ops, op.InTable cfg) ∧ Sized cfg s.stats := by
    refine runFrom_lift_induct (fun ops s => (∀ op ∈ ops, op.InTable cfg) ∧ Sized cfg s.stats) ?_ ?_ h
    · exact ⟨by simp, sized_fresh cfg w⟩
    · rintro ops s op s' ⟨hin, hsized⟩ hop
      refine ⟨fun o ho => ?_, sized_of_operate cfg hsized hop⟩
      rcases List.mem_append.1 ho with ho | ho
      · exact hin o ho
      · rw [List.mem_singleton.1 ho]
        exact inTable_of_operate cfg hsized hop
  exact hrun.1

end VsomeipCollector

import VsomeipCollector.Feed
import VsomeipCollector.Program

/-!
# What the callback does with a record

`ringbuf_callback` hands a record to the handler of its module.  For a record that a program submitted this is handling
the event that the program made (`callback_bytes`), and the handler finds the counters of the module (`handled_isSome`):
the `MODULE_*` macro that the program was compiled with is a row of the counter tables.
-/

namespace VsomeipCollector

open Access Patch Run StatsCollector

/-! ### Events of records -/

def Dispatched.hdr : Dispatched → EventHeader
  | .routing e _ => e.hdr
  | .app e _ => e.hdr
  | .sd e _ => e.hdr

/-- The event that a record of the module holds, with the name of its hook in the group. -/
def EventKind.event (g : FileGroup) (data : List UInt8) : EventKind → Dispatched
  | routing => .routing (.ofBytes data) (g.hookName (.ofBytes data))
  | app => .app (.ofBytes data) (g.hookName (.ofBytes data))
  | sd => .sd (.ofBytes data) (g.hookName (.ofBytes data))

/-- `ringbuf_callback`, and what it leaves of the session. -/
def Session.callback (g : FileGroup) (formats : Bool) (s : Session) (data : List UInt8) : Option Session :=
  match ringbufCallback g (some ⟨s.stats, formats⟩) data with
  | .ok (some res) => some ⟨res.1, s.log ++ res.2⟩
  | .ok none => some s
  | .error _ => none

/-- What a handler leaves of a session; without a line for the event where the writer does not get to it. -/
def Session.handle (formats : Bool) (s : Session) (d : Dispatched) : Option Session :=
  let r :=
    match d with
    | .routing e hook => routingEventHandler e hook s.stats
    | .app e hook => appEventHandler e hook s.stats
    | .sd e hook => sdEventHandler e hook s.stats
  (r.map (withoutLine formats)).map fun r => ⟨r.1, s.log ++ r.2⟩

/-- With a writer that writes every event, handling is what the loop of `main` does with an event. -/
theorem Session.handle_true (s : Session) (d : Dispatched) : s.handle true d = s.dispatch d := by
  unfold handle dispatch withoutLine
  cases d with
  | routing e hook | app e hook | sd e hook => simp

theorem Session.handle_event (k : EventKind) (g : FileGroup) (formats : Bool) (s : Session) (data : List UInt8) :
    s.handle formats (k.event g data) =
      ((k.handler data (g.hookName (.ofBytes data)) s.stats).map (withoutLine formats)).map fun r =>
        ⟨r.1, s.log ++ r.2⟩ := by
  cases k <;> rfl

/-! ### Events of firings -/

/-- A probe: the macro of its hook, and what it says of the message. -/
structure Probe where
  hook : String
  direction : UInt8
  isRet : Bool

def RoutingProg.probe : RoutingProg → Probe
  | rmSendEntry => ⟨"HOOK_RM_SEND_ENTRY", dirSend, false⟩
  | rmSendRet => ⟨"HOOK_RM_SEND_RET", dirSend, true⟩
  | rmSendToEntry => ⟨"HOOK_RM_SEND_TO_ENTRY", dirSend, false⟩
  | rmSendToRet => ⟨"HOOK_RM_SEND_TO_RET", dirSend, true⟩
  | rmOnMessage => ⟨"HOOK_RM_ON_MESSAGE", dirRecv, false⟩

def AppProg.probe : AppProg → Probe
  | appSendEntry => ⟨"HOOK_APP_SEND_ENTRY", dirSend, false⟩
  | appSendRet => ⟨"HOOK_APP_SEND_RET", dirSend, true⟩
  | appOnMessage => ⟨"HOOK_APP_ON_MESSAGE", dirRecv, false⟩

def SdProg.probe : SdProg → Probe
  | sdSend => ⟨"HOOK_SD_SEND", dirSend, false⟩
  | sdProcessOffer => ⟨"HOOK_SD_PROCESS_OFFER", dirRecv, false⟩
  | sdSendSubscription => ⟨"HOOK_SD_SEND_SUBSCRIPTION", dirSend, false⟩
  | sdHandleSubscription => ⟨"HOOK_SD_HANDLE_SUBSCRIPTION", dirRecv, false⟩

def Shot.probe : {k : EventKind} → Shot k → Probe
  | .routing, x => RoutingProg.probe x.prog
  | .app, x => AppProg.probe x.prog
  | .sd, x => SdProg.probe x.prog

/-- The name of a module, and what its macro is called after. -/
def EventKind.moduleName : EventKind → String
  | routing => "routing"
  | app => "app"
  | sd => "sd"

def EventKind.upperName : EventKind → String
  | routing => "ROUTING"
  | app => "APP"
  | sd => "SD"

theorem EventKind.upper_moduleName (py : PyUpper) (k : EventKind) : py.upper k.moduleName = k.upperName := by
  have hall : (k.moduleName.toList.all fun c => decide (c.toNat < 128)) = true := by cases k <;> rfl
  apply String.toList_injective
  rw [py.toList_upper _ fun c hc => of_decide_eq_true (List.all_eq_true.1 hall c hc)]
  cases k <;> rfl

theorem EventKind.moduleName_inj {k k' : EventKind} (h : k.moduleName = k'.moduleName) : k = k' := by
  revert h
  cases k <;> cases k' <;> decide

section

variable (ids : Macros)

/-- The common header that a firing writes. -/
def Shot.hdr {k : EventKind} (x : Shot k) : EventHeader :=
  fillHeader x.kernel noHeader (ids.byte ("MODULE_" ++ k.upperName)) (ids.byte x.probe.hook) x.probe.direction
    x.probe.isRet

/-- The event that is submitted from a slot, with the name of its hook in the group. -/
def Shot.dispatched (g : FileGroup) : {k : EventKind} → Shot k → List UInt8 → Option Dispatched
  | .routing, x, slot =>
    (Firing.submit ids ⟨x.prog, x.ctx, x.kernel, true⟩ (.ofBytes slot)).map fun e => .routing e (g.hookName e.hdr)
  | .app, x, slot =>
    (AppProg.submit ids x.kernel (some (.ofBytes slot)) x.ctx x.prog).map fun e => .app e (g.hookName e.hdr)
  | .sd, x, slot =>
    (SdProg.submit ids x.kernel (some (.ofBytes slot)) x.ctx x.prog).map fun e => .sd e (g.hookName e.hdr)

end

namespace Shot

variable {ids : Macros} {slot bs : List UInt8}

/-- The record of a firing holds the event that it submits. -/
theorem dispatched_of_bytes {k : EventKind} (g : FileGroup) (x : Shot k) (hslot : slot.length = k.slotSize)
    (hbs : x.bytes ids slot = some bs) : x.dispatched ids g slot = some (k.event g bs) := by
  cases k with
  | routing =>
    obtain ⟨e, he⟩ := x.submit_routing ids slot
    simp only [bytes, he, Option.map_some, Option.some.injEq] at hbs
    subst hbs
    have hofBytes : RoutingEvent.ofBytes (e.toBytes slot) = e := e.ofBytes_toBytes hslot.ge
    have hhdr : EventHeader.ofBytes (e.toBytes slot) = e.hdr := by rw [← RoutingEvent.hdr_ofBytes, hofBytes]
    simp only [dispatched, he, Option.map_some, EventKind.event, hofBytes, hhdr]
  | app =>
    obtain ⟨e, he⟩ := x.submit_app ids slot
    simp only [bytes, he, Option.map_some, Option.some.injEq] at hbs
    subst hbs
    have hofBytes : AppEvent.ofBytes (e.toBytes slot) = e := e.ofBytes_toBytes hslot.ge
    have hhdr : EventHeader.ofBytes (e.toBytes slot) = e.hdr := by rw [← AppEvent.hdr_ofBytes, hofBytes]
    simp only [dispatched, he, Option.map_some, EventKind.event, hofBytes, hhdr]
  | sd =>
    obtain ⟨e, he⟩ := x.submit_sd ids slot
    simp only [bytes, he, Option.map_some, Option.some.injEq] at hbs
    subst hbs
    have hofBytes : SdEvent.ofBytes (e.toBytes slot) = e := e.ofBytes_toBytes hslot.ge
    have hhdr : EventHeader.ofBytes (e.toBytes slot) = e.hdr := by rw [← SdEvent.hdr_ofBytes, hofBytes]
    simp only [dispatched, he, Option.map_some, EventKind.event, hofBytes, hhdr]

private theorem hdr_submitRouting {k : Kernel} {e e' : RoutingEvent} {hookId dir : UInt8} {isRet : Bool} {data : UInt64}
    {len : UInt32} {retval : Int64} (h : submitRouting ids k (some e) hookId dir isRet data len retval = some e') :
    e'.hdr = fillHeader k e.hdr (ids.byte "MODULE_ROUTING") hookId dir isRet := by
  have hread : ∀ e : RoutingEvent, (readSomeipHeader k e data len).1.hdr = e.hdr := by
    intro e
    unfold readSomeipHeader
    split
    · rfl
    · split <;> rfl
  unfold submitRouting at h
  obtain rfl := Option.some.inj h
  dsimp only
  split
  · exact hread _
  · rfl

/-- The header is written in full, so it does not depend on the slot. -/
theorem hdr_dispatched {k : EventKind} {g : FileGroup} {x : Shot k} {d : Dispatched}
    (h : x.dispatched ids g slot = some d) : d.hdr = x.hdr ids := by
  cases k with
  | routing =>
    obtain ⟨e, he, rfl⟩ := Option.map_eq_some_iff.1 h
    obtain ⟨prog, ctx, kernel⟩ := x
    show e.hdr = _
    have hsub : Firing.submit ids ⟨prog, ctx, kernel, true⟩ (.ofBytes slot) = some e := he
    unfold Firing.submit at hsub
    clear he h
    cases prog with
    | rmSendEntry | rmSendRet | rmSendToEntry | rmSendToRet | rmOnMessage =>
      have hhdr := hdr_submitRouting hsub
      exact hhdr
  | app =>
    obtain ⟨e, he, rfl⟩ := Option.map_eq_some_iff.1 h
    obtain ⟨prog, ctx, kernel⟩ := x
    clear h
    cases prog with
    | appSendEntry | appSendRet | appOnMessage =>
      obtain rfl := Option.some.inj he
      rfl
  | sd =>
    obtain ⟨e, he, rfl⟩ := Option.map_eq_some_iff.1 h
    obtain ⟨prog, ctx, kernel⟩ := x
    clear h
    cases prog with
    | sdSend | sdProcessOffer | sdSendSubscription | sdHandleSubscription =>
      obtain rfl := Option.some.inj he
      rfl

end Shot

theorem EventKind.readEnd_le_slotSize (formats : Bool) (k : EventKind) : k.readEnd formats ≤ k.slotSize := by
  cases k <;> cases formats <;> decide

theorem EventKind.hdr_event (k : EventKind) (g : FileGroup) (data : List UInt8) : (k.event g data).hdr = .ofBytes data := by
  cases k <;> rfl

/-- The return probes are those of functions that send. -/
theorem Shot.send_of_isRet {k : EventKind} (x : Shot k) (h : x.probe.isRet = true) : x.probe.direction = dirSend := by
  cases k with
  | routing | app | sd =>
    obtain ⟨prog, ctx, kernel⟩ := x
    cases prog with
    | _ => first | rfl | cases h

/-- The record of an event that a firing made has all that its handler reads: even if the name filled its 16 bytes, the
direction behind it, or that the event is no return event, ends it. -/
theorem Shot.holds {k : EventKind} {ids : Macros} {g : FileGroup} {x : Shot k} {slot data : List UInt8}
    (hlen : data.length = k.slotSize) (hevent : x.dispatched ids g slot = some (k.event g data)) (formats : Bool) :
    k.Holds formats data := by
  have hread := (k.readEnd_le_slotSize formats).trans hlen.ge
  refine ⟨hread, fun _ => ?_⟩
  have hsize := (k.size_le_readEnd formats).trans hread
  have hhdr : EventHeader.ofBytes data = x.hdr ids := by rw [← k.hdr_event g, x.hdr_dispatched hevent]
  by_cases hret : x.probe.isRet = true
  · have hdirection : decode8 data EventHeader.directionAt = 0 :=
      (congrArg EventHeader.direction hhdr).trans (x.send_of_isRet hret)
    exact EventHeader.nameEnds_of_decode8 (by decide) (Nat.lt_of_lt_of_le (by decide) hsize) hdirection
  · have hentry : decode8 data EventHeader.isRetprobeAt = 0 := by
      have hflag := congrArg EventHeader.isRetprobe hhdr
      have hflag : decide (decode8 data EventHeader.isRetprobeAt ≠ 0) = x.probe.isRet := hflag
      rw [Bool.eq_false_iff.2 hret, decide_eq_false_iff_not, Decidable.not_not] at hflag
      exact hflag
    exact EventHeader.nameEnds_of_decode8 (by decide) (Nat.lt_of_lt_of_le (by decide) hsize) hentry

/-! ### Handling them -/

section

variable {files : List FileJson} {load : String → Option OffsetTable} {cfg : HookConfig}
  (hgen : genConfig files load = some cfg) {g : FileGroup} (hg : g ∈ cfg.fileGroups) {k : EventKind}
  (hk : linked g.handler = some k)

include hgen hg hk

/-- The callback handles the event of a record that has all that the handler reads. -/
theorem callback_eq (formats : Bool) (s : Session) {data : List UInt8} (hholds : k.Holds formats data) :
    s.callback g formats data = s.handle formats (k.event g data) := by
  have hsize := (k.size_le_readEnd formats).trans hholds.1
  unfold Session.callback
  rw [Session.handle_event, ringbufCallback_eq hgen hg hk ⟨s.stats, formats⟩ hsize, k.handlerAt_eq _ _ _ hholds,
    orFault_map]
  cases (k.handler data (g.hookName (EventHeader.ofBytes data)) s.stats).map (withoutLine formats) <;> rfl

omit hgen hg in
/-- The handler of a group is called after its module. -/
theorem name_of_linked {fg : FileJson} {lu : OffsetTable} (he : g = genFileGroup fg lu) : fg.name = k.moduleName := by
  subst he
  have hname : ∀ name, fg.name ++ "_event_handler" = name ++ "_event_handler" → fg.name = name := by
    intro name h
    simpa using h
  unfold linked genFileGroup at hk
  dsimp only at hk
  split at hk
  · cases hk
    exact hname "routing" ‹_›
  · split at hk
    · cases hk
      exact hname "app" ‹_›
    · split at hk
      · cases hk
        exact hname "sd" ‹_›
      · cases hk

/-- The macro of a module is a row of the counter tables. -/
theorem module_in_table (py : PyUpper) :
    ((genHookIds py files).byte ("MODULE_" ++ k.upperName)).toNat ≤ cfg.maxModuleId := by
  obtain ⟨fg, hfg, lu, he⟩ := genConfig_mem hgen hg
  have hupper : py.upper fg.name = k.upperName := by rw [name_of_linked hk he, k.upper_moduleName]
  obtain ⟨fg', hlast⟩ := Option.isSome_iff_exists.1 (lastModule_isSome py hfg)
  rw [hupper] at hlast
  have hmem := (lastModule_eq_some hlast).1
  unfold Macros.byte
  rw [value_module, hlast]
  exact (UInt8.toNat_ofNat' ..).trans_le ((Nat.mod_le ..).trans ((genConfig_eq_some hgen).2.2 fg' hmem))

end

/-- What an event is to the statistics. -/
def Dispatched.operation : Dispatched → Operation
  | .routing e hook => .processEvent e.hdr hook e.retval (some e)
  | .app e hook => .processEvent e.hdr hook e.retval none
  | .sd e hook => .processEvent e.hdr hook 0 none

/-- What the log writer is handed of an event. -/
def Dispatched.line : Dispatched → LogLine
  | .routing e hook => .event e.hdr hook e.payloadText
  | .app e hook => .event e.hdr hook e.payloadText
  | .sd e hook => .event e.hdr hook e.payloadText

/-- A handler does the operation and writes the line. -/
theorem Session.handle_eq (cfg : HookConfig) (formats : Bool) (s : Session) (d : Dispatched) :
    s.handle formats d = (s.operate cfg d.operation).map fun t =>
      ⟨t.stats, t.log ++ if formats then [d.line] else []⟩ := by
  have hline : ∀ (t : StatsCollector) (lines : List LogLine) (l : LogLine),
      (⟨(withoutLine formats (t, lines ++ [l])).1, s.log ++ (withoutLine formats (t, lines ++ [l])).2⟩ : Session) =
        ⟨t, s.log ++ lines ++ if formats then [l] else []⟩ := by
    intro t lines l
    cases formats <;> simp [withoutLine]
  cases d with
  | routing e hook =>
    show ((Option.map _ (s.stats.processEvent e.hdr e hook e.retval (some onLatency))).map _).map _ =
      ((s.stats.processEvent e.hdr e hook e.retval (some onLatency)).map _).map _
    simp only [Option.map_map]
    exact congrArg (Option.map · _) (funext fun r => hline r.1 r.2 _)
  | app e hook =>
    show ((Option.map _ (s.stats.processEvent e.hdr e hook e.retval none)).map _).map _ = (Option.map _ _).map _
    simp only [Option.map_map]
    exact congrArg (Option.map · _) (funext fun r => hline r.1 r.2 _)
  | sd e hook =>
    show ((Option.map _ (s.stats.processEvent e.hdr e hook 0 none)).map _).map _ = (Option.map _ _).map _
    simp only [Option.map_map]
    exact congrArg (Option.map · _) (funext fun r => hline r.1 r.2 _)

/-- An event whose module has counters is handled. -/
theorem Session.handle_isSome {cfg : HookConfig} {s : Session} (hsized : Sized cfg s.stats) (formats : Bool)
    {d : Dispatched} (hin : d.hdr.moduleId.toNat ≤ cfg.maxModuleId) :
    ∃ s', s.handle formats d = some s' ∧ Sized cfg s'.stats := by
  have htable : d.operation.InTable cfg := by
    cases d with
    | routing e hook | app e hook | sd e hook => exact fun _ => hin
  obtain ⟨t, ht, hsized'⟩ := operate_isSome cfg hsized htable
  refine ⟨⟨t.stats, t.log ++ if formats then [d.line] else []⟩, ?_, hsized'⟩
  rw [handle_eq cfg, ht]
  rfl

end VsomeipCollector

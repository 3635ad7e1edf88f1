import VsomeipCollector.StatsSpec

/-!
# The handlers of the modules (`src/user/handler`)

A handler receives the event of its module together with the name of the hook.  It passes the event to
`process_event`, with `on_latency` as the callback in the routing module and no callback in the others, and then to
the log writer, with a callback `format_payload` that writes the fields of the module into a buffer.

`on_latency` makes at most one call of the matching (`latencyCall`), so a delivered event moves the open requests
and the samples as that call does (`deliver_core`).
-/

namespace VsomeipCollector

open Table Run StatsCollector

/-! ### routing -/

def RoutingEvent.tuple (e : RoutingEvent) : Tuple := ⟨e.serviceId, e.methodId, e.clientId, e.sessionId⟩

def msgTypeText (t : UInt8) : String :=
  if t = someipMtRequest then "REQUEST"
  else if t = someipMtRequestNoReturn then "REQ_NORET"
  else if t = someipMtNotification then "NOTIFICATION"
  else if t = someipMtRequestAck then "REQ_ACK"
  else if t = someipMtResponse then "RESPONSE"
  else if t = someipMtError then "ERROR" else "UNKNOWN"

/-- What the format string of `format_payload` expands to, before it is cut to the buffer. -/
def RoutingEvent.payloadText (e : RoutingEvent) : String :=
  "\"svc\":" ++ toString e.serviceId.toNat ++ ",\"method\":" ++ toString e.methodId.toNat ++
    ",\"client\":" ++ toString e.clientId.toNat ++ ",\"session\":" ++ toString e.sessionId.toNat ++
    ",\"msg_type\":\"" ++ msgTypeText e.messageType ++ "\",\"ret_code\":" ++ toString e.returnCode.toNat ++
    ",\"len\":" ++ toString e.payloadLength.toNat ++ ",\"retval\":" ++ toString e.retval.toInt

def RoutingEvent.formatPayload (e : RoutingEvent) (size : Nat) : String := snprintf size e.payloadText

/-- The latency callback of the routing module. -/
def onLatency (e : RoutingEvent) (_hook : String) (s : StatsCollector) : StatsCollector × List LogLine :=
  if e.hdr.isRetprobe then (s, [])
  else
    let s :=
      if e.hdr.direction = dirSend ∧ (e.messageType = someipMtRequest ∨ e.messageType = someipMtRequestNoReturn) then
        s.recordPending e.serviceId e.methodId e.clientId e.sessionId e.hdr.timestampNs
      else s
    if e.hdr.direction = dirRecv ∧
        (e.messageType = someipMtResponse ∨ e.messageType = someipMtError ∨ e.messageType = someipMtNotification) then
      s.tryMatch e.serviceId e.methodId e.clientId e.sessionId e.hdr.timestampNs e.messageType
    else (s, [])

def routingEventHandler (e : RoutingEvent) (hook : String) (s : StatsCollector) :
    Option (StatsCollector × List LogLine) :=
  (s.processEvent e.hdr e hook e.retval (some onLatency)).map fun r =>
    (r.1, r.2 ++ [.event e.hdr hook e.payloadText])

/-! ### app and sd -/

def AppEvent.payloadText (e : AppEvent) : String :=
  "\"this\":\"" ++ hex e.thisPtr.toNat ++ "\",\"msg\":\"" ++ hex e.messagePtr.toNat ++ "\",\"retval\":" ++
    toString e.retval.toInt

def AppEvent.formatPayload (e : AppEvent) (size : Nat) : String := snprintf size e.payloadText

def appEventHandler (e : AppEvent) (hook : String) (s : StatsCollector) : Option (StatsCollector × List LogLine) :=
  (s.processEvent e.hdr e hook e.retval none).map fun r => (r.1, r.2 ++ [.event e.hdr hook e.payloadText])

def SdEvent.payloadText (e : SdEvent) : String :=
  "\"svc\":" ++ toString e.serviceId.toNat ++ ",\"inst\":" ++ toString e.instanceId.toNat ++
    ",\"evg\":" ++ toString e.eventgroupId.toNat ++ ",\"ttl\":" ++ toString e.ttl.toNat

def SdEvent.formatPayload (e : SdEvent) (size : Nat) : String := snprintf size e.payloadText

def sdEventHandler (e : SdEvent) (hook : String) (s : StatsCollector) : Option (StatsCollector × List LogLine) :=
  (s.processEvent e.hdr e hook 0 none).map fun r => (r.1, r.2 ++ [.event e.hdr hook e.payloadText])

/-! ### Dispatch (`Collector::ringbuf_callback`) -/

/-- The name under which a group dispatches an event. -/
def FileGroup.hookName (g : FileGroup) (hdr : EventHeader) : String :=
  if hdr.hookId.toNat < g.hookCount then g.hookNames.getD hdr.hookId.toNat "unknown" else "unknown"

/-! ### The call that an event makes -/

/-- The call of `record_pending` or `try_match` that a routing event leads to, if any. -/
def RoutingEvent.latencyCall (e : RoutingEvent) : Option Call :=
  if e.hdr.isRetprobe then none
  else if e.hdr.direction = dirSend ∧ (e.messageType = someipMtRequest ∨ e.messageType = someipMtRequestNoReturn) then
    some (.recordPending e.tuple e.hdr.timestampNs)
  else if e.hdr.direction = dirRecv ∧
      (e.messageType = someipMtResponse ∨ e.messageType = someipMtError ∨ e.messageType = someipMtNotification) then
    some (.tryMatch e.tuple e.hdr.timestampNs e.messageType)
  else none

/-- An optional call. -/
def StatsCollector.callOpt (cfg : HookConfig) (s : StatsCollector) : Option Call → StatsCollector × List LogLine
  | some c => s.call cfg c
  | none => (s, [])

/-- The two directions exclude each other, so the callback makes at most one call. -/
theorem onLatency_eq (cfg : HookConfig) (e : RoutingEvent) (hook : String) (s : StatsCollector) :
    onLatency e hook s = s.callOpt cfg e.latencyCall := by
  unfold onLatency RoutingEvent.latencyCall
  by_cases hr : e.hdr.isRetprobe = true
  · rw [if_pos hr, if_pos hr]; rfl
  · rw [if_neg hr, if_neg hr]
    by_cases hs : e.hdr.direction = dirSend ∧
        (e.messageType = someipMtRequest ∨ e.messageType = someipMtRequestNoReturn)
    · -- a sent event is no received one, so the second test of the callback fails
      have hd : ¬ (e.hdr.direction = dirRecv ∧ (e.messageType = someipMtResponse ∨ e.messageType = someipMtError ∨
          e.messageType = someipMtNotification)) := by
        rw [hs.1]
        exact fun h => absurd h.1 (by decide)
      rw [if_pos hs, if_pos hs]
      dsimp only
      rw [if_neg hd]
      rfl
    · rw [if_neg hs, if_neg hs]
      dsimp only
      split <;> rfl

/-! ### What matching depends on -/

/-- The parts of the collector that matching reads and writes. -/
structure Core where
  pending : Tbl UInt64 PendingEntry
  latency : List UInt64
  logWriter : Bool

def StatsCollector.core (s : StatsCollector) : Core := ⟨s.pending, s.latency, s.logWriter⟩

theorem core_eq_iff {s t : StatsCollector} :
    s.core = t.core ↔ s.pending = t.pending ∧ s.latency = t.latency ∧ s.logWriter = t.logWriter := by
  simp [StatsCollector.core]

theorem core_countModule {s t : StatsCollector} {hdr : EventHeader} (h : s.countModule hdr = some t) :
    t.core = s.core := by
  unfold countModule at h
  dsimp only at h
  split at h
  · cases h; rfl
  · split at h
    · obtain ⟨n, -, rfl⟩ := Option.map_eq_some_iff.1 h
      rfl
    · obtain ⟨n, -, rfl⟩ := Option.map_eq_some_iff.1 h
      rfl

/-- Matching does not look at the counters. -/
private theorem callOpt_congr (cfg : HookConfig) {s t : StatsCollector} (h : s.core = t.core) {oc : Option Call}
    (hoc : ∀ c ∈ oc, ∀ now, c ≠ .flushReport now) :
    (s.callOpt cfg oc).1.core = (t.callOpt cfg oc).1.core ∧ (s.callOpt cfg oc).2 = (t.callOpt cfg oc).2 := by
  obtain ⟨h1, h2, h3⟩ := core_eq_iff.1 h
  cases oc with
  | none => exact ⟨h, rfl⟩
  | some c =>
    cases c with
    | flushReport now => exact absurd rfl (hoc _ rfl now)
    | recordPending q ts =>
      unfold StatsCollector.callOpt call recordPending
      dsimp only
      rw [h1]
      split
      · exact ⟨core_eq_iff.2 ⟨rfl, h2, h3⟩, rfl⟩
      · exact ⟨h, rfl⟩
    | tryMatch q r ty =>
      unfold StatsCollector.callOpt call tryMatch
      dsimp only
      rw [h1, h3]
      split
      · exact ⟨h, rfl⟩
      · split
        · exact ⟨core_eq_iff.2 ⟨rfl, h2, rfl⟩, rfl⟩
        · exact ⟨core_eq_iff.2 ⟨rfl, by simp [h2], rfl⟩, rfl⟩
    | evictExpired now o =>
      unfold StatsCollector.callOpt call evictExpired
      dsimp only
      rw [h1, h3]
      exact ⟨core_eq_iff.2 ⟨rfl, h2, rfl⟩, rfl⟩

theorem latencyCall_ne_flush {e : RoutingEvent} : ∀ c ∈ e.latencyCall, ∀ now, c ≠ .flushReport now := by
  intro c hc now
  unfold RoutingEvent.latencyCall at hc
  split at hc
  · cases hc
  · split at hc
    · cases hc; exact fun h => by cases h
    · split at hc
      · cases hc; exact fun h => by cases h
      · cases hc

/-- Without a callback an event is only counted. -/
private theorem core_processEvent_none {π : Type} {s : StatsCollector} {hdr : EventHeader} {payload : π} {hook : String}
    {retval : Int64} {r : StatsCollector × List LogLine} (h : s.processEvent hdr payload hook retval none = some r) :
    r.1.core = s.core := by
  unfold processEvent at h
  obtain ⟨t, ht, rfl⟩ := Option.map_eq_some_iff.1 h
  exact (core_countModule ht).trans rfl

theorem appEventHandler_core {e : AppEvent} {hook : String} {s : StatsCollector} {r : StatsCollector × List LogLine}
    (h : appEventHandler e hook s = some r) : r.1.core = s.core := by
  unfold appEventHandler at h
  obtain ⟨r', hr', rfl⟩ := Option.map_eq_some_iff.1 h
  have hcore := core_processEvent_none hr'
  exact hcore

theorem sdEventHandler_core {e : SdEvent} {hook : String} {s : StatsCollector} {r : StatsCollector × List LogLine}
    (h : sdEventHandler e hook s = some r) : r.1.core = s.core := by
  unfold sdEventHandler at h
  obtain ⟨r', hr', rfl⟩ := Option.map_eq_some_iff.1 h
  have hcore := core_processEvent_none hr'
  exact hcore

/-- A handled event changes open requests and samples as its call does, and writes the lines of the call and its own. -/
theorem routingEventHandler_core (cfg : HookConfig) {e : RoutingEvent} {hook : String} {s : StatsCollector}
    {r : StatsCollector × List LogLine} (h : routingEventHandler e hook s = some r) :
    r.1.core = (s.callOpt cfg e.latencyCall).1.core ∧
      r.2 = (s.callOpt cfg e.latencyCall).2 ++ [.event e.hdr hook e.payloadText] := by
  unfold routingEventHandler processEvent at h
  obtain ⟨r', hr', rfl⟩ := Option.map_eq_some_iff.1 h
  obtain ⟨t, ht, rfl⟩ := Option.map_eq_some_iff.1 hr'
  have hc : t.core = s.core := (core_countModule ht).trans rfl
  obtain ⟨h1, h2⟩ := callOpt_congr cfg hc latencyCall_ne_flush
  dsimp only
  rw [onLatency_eq cfg]
  exact ⟨h1, by rw [h2]⟩

end VsomeipCollector

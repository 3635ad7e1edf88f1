import VsomeipCollector.Operations
import VsomeipCollector.Library.Access

/-!
# Dispatch of delivered records (`Collector::ringbuf_callback`)

The ring buffer delivers a record as a pointer and a size.  The callback checks that a common header fits, and the handler
of the group then reads the record as an event of its module.  The functions here are those of `Handler` once more,
over the bytes of the record: every field is read where the structure has it, when the source reads it, and every
access is checked against the size of the record or of the table it indexes.

On a record that is large enough they do what the functions over events do (`routingEventHandlerAt_eq` and the others).
When all accesses are within bounds is said by `dispatch_in_bounds_iff`.
-/

namespace VsomeipCollector

open Access Endian StatsCollector

/-- The tables that dispatching indexes. -/
inductive IndexedTable where
  | hookNames
  | modSend
  | modRecv
deriving DecidableEq, Repr

/-! ### Fields -/

section

variable (data : List UInt8) (off : Nat)

def decode8 : UInt8 := UInt8.ofNat (ofLittle (bytesAt data off 1))
def decode16 : UInt16 := UInt16.ofNat (ofLittle (bytesAt data off 2))
def decode32 : UInt32 := UInt32.ofNat (ofLittle (bytesAt data off 4))
def decode64 : UInt64 := UInt64.ofNat (ofLittle (bytesAt data off 8))

def read8 : Checked IndexedTable UInt8 := UInt8.ofNat <$> readLittle data off 1
def read16 : Checked IndexedTable UInt16 := UInt16.ofNat <$> readLittle data off 2
def read32 : Checked IndexedTable UInt32 := UInt32.ofNat <$> readLittle data off 4
def read64 : Checked IndexedTable UInt64 := UInt64.ofNat <$> readLittle data off 8

variable {data} {off}

theorem read8_eq (h : off + 1 ≤ data.length) : read8 data off = .ok (decode8 data off) := by
  unfold read8
  rw [readLittle_eq h, map_ok]
  rfl

theorem read16_eq (h : off + 2 ≤ data.length) : read16 data off = .ok (decode16 data off) := by
  unfold read16
  rw [readLittle_eq h, map_ok]
  rfl

theorem read32_eq (h : off + 4 ≤ data.length) : read32 data off = .ok (decode32 data off) := by
  unfold read32
  rw [readLittle_eq h, map_ok]
  rfl

theorem read64_eq (h : off + 8 ≤ data.length) : read64 data off = .ok (decode64 data off) := by
  unfold read64
  rw [readLittle_eq h, map_ok]
  rfl

end

/-! ### The common header (`event_header.h`) -/

namespace EventHeader

def timestampAt : Nat := 0
def pidAt : Nat := 8
def tidAt : Nat := 12
def commAt : Nat := 16
def moduleIdAt : Nat := 32
def hookIdAt : Nat := 33
def directionAt : Nat := 34
def isRetprobeAt : Nat := 35

/-- `sizeof(struct event_header)`, a multiple of the alignment of the time stamp. -/
def size : Nat := 40

/-- The header that the bytes of a record represent. -/
def ofBytes (data : List UInt8) : EventHeader where
  timestampNs := decode64 data timestampAt
  pid := decode32 data pidAt
  tid := decode32 data tidAt
  comm := Vector.ofFn fun i : Fin 16 => (bytesAt data commAt 16).getD i 0
  moduleId := decode8 data moduleIdAt
  hookId := decode8 data hookIdAt
  direction := decode8 data directionAt
  isRetprobe := decode8 data isRetprobeAt ≠ 0

/-- What the writers read of the header: the numbers, and the name by `%s`, up to its zero byte.  Where the 16 bytes of
`comm` have none the read goes on in what follows them.  A line is represented with the 16 bytes of the field. -/
def readAll (data : List UInt8) : Checked IndexedTable EventHeader := do
  let timestampNs ← read64 data timestampAt
  let pid ← read32 data pidAt
  let tid ← read32 data tidAt
  let moduleId ← read8 data moduleIdAt
  let hookId ← read8 data hookIdAt
  let direction ← read8 data directionAt
  let isRetprobe ← read8 data isRetprobeAt
  let _name ← readCString data commAt
  return ⟨timestampNs, pid, tid, (ofBytes data).comm, moduleId, hookId, direction, isRetprobe ≠ 0⟩

/-- Some byte of the name, or of what follows it in the record, is zero. -/
def NameEnds (data : List UInt8) : Prop := 0 ∈ data.drop commAt

instance (data : List UInt8) : Decidable (NameEnds data) := inferInstanceAs (Decidable (0 ∈ data.drop commAt))

/-- A field of one byte behind the name that is zero ends it. -/
theorem nameEnds_of_decode8 {data : List UInt8} {off : Nat} (hoff : commAt ≤ off) (hlt : off < data.length)
    (hzero : decode8 data off = 0) : NameEnds data := by
  have hbyte : decode8 data off = data[off] := by
    have hbytes : bytesAt data off 1 = [data[off]] := by
      unfold bytesAt
      rw [List.drop_eq_getElem_cons hlt, List.take_succ_cons, List.take_zero]
    unfold decode8
    rw [hbytes]
    simp [ofLittle]
  have hdrop : (data.drop commAt)[off - commAt]? = some 0 := by
    rw [List.getElem?_drop, Nat.add_sub_cancel' hoff, List.getElem?_eq_getElem hlt, ← hbyte, hzero]
  exact List.mem_of_getElem? hdrop

theorem readAll_eq {data : List UInt8} (h : size ≤ data.length) (hname : NameEnds data) :
    readAll data = .ok (ofBytes data) := by
  obtain ⟨name, hname⟩ := (safe_readCString_iff (T := IndexedTable) data commAt).2 hname
  unfold size at h
  unfold readAll
  rw [read64_eq (by unfold timestampAt; omega), read32_eq (by unfold pidAt; omega), read32_eq (by unfold tidAt; omega),
    read8_eq (by unfold moduleIdAt; omega), read8_eq (by unfold hookIdAt; omega),
    read8_eq (by unfold directionAt; omega), read8_eq (by unfold isRetprobeAt; omega), hname]
  rfl

/-- A name without an end is read beyond the record. -/
theorem not_safe_readAll {data : List UInt8} (hname : ¬ NameEnds data) : ¬ Safe (readAll data) := by
  have hread : ¬ Safe (readCString data commAt : Checked IndexedTable _) := by
    rwa [safe_readCString_iff]
  exact not_safe_bind fun _ => not_safe_bind fun _ => not_safe_bind fun _ => not_safe_bind fun _ =>
    not_safe_bind fun _ => not_safe_bind fun _ => not_safe_bind fun _ => not_safe_bind_left hread _

end EventHeader

/-! ### Events (`routing_event.h`, `app_event.h`, `sd_event.h`) -/

namespace RoutingEvent

def serviceIdAt : Nat := 40
def methodIdAt : Nat := 42
def clientIdAt : Nat := 44
def sessionIdAt : Nat := 46
def protocolVersionAt : Nat := 48
def interfaceVersionAt : Nat := 49
def messageTypeAt : Nat := 50
def returnCodeAt : Nat := 51
def payloadLengthAt : Nat := 52
def retvalAt : Nat := 56

def ofBytes (data : List UInt8) : RoutingEvent where
  hdr := .ofBytes data
  serviceId := decode16 data serviceIdAt
  methodId := decode16 data methodIdAt
  clientId := decode16 data clientIdAt
  sessionId := decode16 data sessionIdAt
  protocolVersion := decode8 data protocolVersionAt
  interfaceVersion := decode8 data interfaceVersionAt
  messageType := decode8 data messageTypeAt
  returnCode := decode8 data returnCodeAt
  payloadLength := decode32 data payloadLengthAt
  retval := (decode64 data retvalAt).toInt64

end RoutingEvent

namespace AppEvent

def thisPtrAt : Nat := 40
def messagePtrAt : Nat := 48
def retvalAt : Nat := 56

def ofBytes (data : List UInt8) : AppEvent where
  hdr := .ofBytes data
  thisPtr := decode64 data thisPtrAt
  messagePtr := decode64 data messagePtrAt
  retval := (decode64 data retvalAt).toInt64

end AppEvent

namespace SdEvent

def serviceIdAt : Nat := 40
def instanceIdAt : Nat := 42
def eventgroupIdAt : Nat := 44
/-- Two bytes of padding stand before it. -/
def ttlAt : Nat := 48

def ofBytes (data : List UInt8) : SdEvent where
  hdr := .ofBytes data
  serviceId := decode16 data serviceIdAt
  instanceId := decode16 data instanceIdAt
  eventgroupId := decode16 data eventgroupIdAt
  ttl := decode32 data ttlAt

end SdEvent

/-! ### The handlers over bytes -/

/-- A callback for the matching, as `process_event` gets it. -/
abbrev LatencyCallback := List UInt8 → String → StatsCollector → Checked IndexedTable (StatsCollector × List LogLine)

/-- The part of `process_event` that counts the events of the modules. -/
def countModuleAt (s : StatsCollector) (data : List UInt8) (isRetprobe : Bool) : Checked IndexedTable StatsCollector :=
  if isRetprobe then pure s
  else do
    let direction ← read8 data EventHeader.directionAt
    let moduleId ← read8 data EventHeader.moduleIdAt
    let m := moduleId.toNat
    if direction = dirSend then do
      let n ← index .modSend s.modSend m
      pure { s with modSend := s.modSend.set m (n + 1) }
    else do
      let n ← index .modRecv s.modRecv m
      pure { s with modRecv := s.modRecv.set m (n + 1) }

/-- `process_event`: all it reads of the record stands in the common header. -/
def processEventAt (s : StatsCollector) (data : List UInt8) (hook : String) (retval : Int64)
    (onLatency : Option LatencyCallback) : Checked IndexedTable (StatsCollector × List LogLine) := do
  let isRetprobe ← read8 data EventHeader.isRetprobeAt
  let h := ((s.hookStats.lookup hook).getD {}).count (isRetprobe ≠ 0) retval
  let s ← countModuleAt { s with hookStats := s.hookStats.insert hook h } data (isRetprobe ≠ 0)
  match onLatency with
  | some f => f data hook s
  | none => pure (s, [])

/-- The identification of a message. -/
def readTuple (data : List UInt8) : Checked IndexedTable Tuple := do
  let svc ← read16 data RoutingEvent.serviceIdAt
  let method ← read16 data RoutingEvent.methodIdAt
  let client ← read16 data RoutingEvent.clientIdAt
  let session ← read16 data RoutingEvent.sessionIdAt
  return ⟨svc, method, client, session⟩

/-- The first test of `on_latency`. -/
def recordAt (data : List UInt8) (s : StatsCollector) : Checked IndexedTable StatsCollector := do
  let direction ← read8 data EventHeader.directionAt
  if direction = dirSend then do
    let messageType ← read8 data RoutingEvent.messageTypeAt
    if messageType = someipMtRequest ∨ messageType = someipMtRequestNoReturn then do
      let q ← readTuple data
      let ts ← read64 data EventHeader.timestampAt
      return s.recordPending q.svc q.method q.client q.session ts
    else return s
  else return s

/-- The second test of `on_latency`. -/
def matchAt (data : List UInt8) (s : StatsCollector) : Checked IndexedTable (StatsCollector × List LogLine) := do
  let direction ← read8 data EventHeader.directionAt
  if direction = dirRecv then do
    let messageType ← read8 data RoutingEvent.messageTypeAt
    if messageType = someipMtResponse ∨ messageType = someipMtError ∨ messageType = someipMtNotification then do
      let q ← readTuple data
      let ts ← read64 data EventHeader.timestampAt
      return s.tryMatch q.svc q.method q.client q.session ts messageType
    else return (s, [])
  else return (s, [])

def onLatencyAt : LatencyCallback := fun data _hook s => do
  let isRetprobe ← read8 data EventHeader.isRetprobeAt
  if isRetprobe ≠ 0 then return (s, [])
  else do
    let s ← recordAt data s
    matchAt data s

/-- `write_event`; `formats` says whether the writer gets to the payload: `StdoutWriter` always does, `FileWriter` if it
has its file open. -/
def writeEventAt (formats : Bool) (data : List UInt8) (hook : String)
    (formatPayload : List UInt8 → Checked IndexedTable String) : Checked IndexedTable (List LogLine) :=
  if formats then do
    let hdr ← EventHeader.readAll data
    let payload ← formatPayload data
    return [.event hdr hook payload]
  else pure []

/-- A header for events of which only the payload is formatted. -/
def noHeader : EventHeader := ⟨0, 0, 0, Vector.replicate 16 0, 0, 0, 0, false⟩

def RoutingEvent.formatPayloadAt (data : List UInt8) : Checked IndexedTable String := do
  let svc ← read16 data serviceIdAt
  let method ← read16 data methodIdAt
  let client ← read16 data clientIdAt
  let session ← read16 data sessionIdAt
  let messageType ← read8 data messageTypeAt
  let returnCode ← read8 data returnCodeAt
  let payloadLength ← read32 data payloadLengthAt
  let retval ← read64 data retvalAt
  return payloadText ⟨noHeader, svc, method, client, session, 0, 0, messageType, returnCode, payloadLength,
    retval.toInt64⟩

def AppEvent.formatPayloadAt (data : List UInt8) : Checked IndexedTable String := do
  let thisPtr ← read64 data thisPtrAt
  let messagePtr ← read64 data messagePtrAt
  let retval ← read64 data retvalAt
  return payloadText ⟨noHeader, thisPtr, messagePtr, retval.toInt64⟩

def SdEvent.formatPayloadAt (data : List UInt8) : Checked IndexedTable String := do
  let svc ← read16 data serviceIdAt
  let inst ← read16 data instanceIdAt
  let evg ← read16 data eventgroupIdAt
  let ttl ← read32 data ttlAt
  return payloadText ⟨noHeader, svc, inst, evg, ttl⟩

section

variable (formats : Bool) (data : List UInt8) (hook : String) (s : StatsCollector)

def routingEventHandlerAt : Checked IndexedTable (StatsCollector × List LogLine) := do
  let retval ← read64 data RoutingEvent.retvalAt
  let r ← processEventAt s data hook retval.toInt64 (some onLatencyAt)
  let lines ← writeEventAt formats data hook RoutingEvent.formatPayloadAt
  return (r.1, r.2 ++ lines)

def appEventHandlerAt : Checked IndexedTable (StatsCollector × List LogLine) := do
  let retval ← read64 data AppEvent.retvalAt
  let r ← processEventAt s data hook retval.toInt64 none
  let lines ← writeEventAt formats data hook AppEvent.formatPayloadAt
  return (r.1, r.2 ++ lines)

def sdEventHandlerAt : Checked IndexedTable (StatsCollector × List LogLine) := do
  let r ← processEventAt s data hook 0 none
  let lines ← writeEventAt formats data hook SdEvent.formatPayloadAt
  return (r.1, r.2 ++ lines)

end

/-! ### What the handlers do on records that are large enough -/

/-- The access of an entry event whose module has no counters. -/
def EventHeader.moduleFault (hdr : EventHeader) : Fault IndexedTable :=
  .index (if hdr.direction = dirSend then .modSend else .modRecv) hdr.moduleId.toNat

section

variable {data : List UInt8}

private theorem readHeader8_eq (hlen : EventHeader.size ≤ data.length) (off : Nat) (h : off < EventHeader.size) :
    read8 data off = .ok (decode8 data off) := read8_eq (by omega)

theorem countModuleAt_eq (hlen : EventHeader.size ≤ data.length) (s : StatsCollector) :
    countModuleAt s data (EventHeader.ofBytes data).isRetprobe =
      orFault (EventHeader.ofBytes data).moduleFault (s.countModule (EventHeader.ofBytes data)) := by
  have hdir := readHeader8_eq hlen EventHeader.directionAt (by decide)
  have hmod := readHeader8_eq hlen EventHeader.moduleIdAt (by decide)
  unfold countModuleAt countModule EventHeader.moduleFault
  dsimp only
  split
  · rfl
  · rw [hdir, ok_bind, hmod, ok_bind]
    show (if (EventHeader.ofBytes data).direction = dirSend then _ else _) = _
    split
    · rw [index_eq, orFault_bind]
      rfl
    · rw [index_eq, orFault_bind]
      rfl

/-- Where the callback over bytes does what the one over events does, `process_event` does so too. -/
theorem processEventAt_eq {π : Type} (hlen : EventHeader.size ≤ data.length) (s : StatsCollector) (payload : π)
    (hook : String) (retval : Int64) {cbAt : Option LatencyCallback}
    {cb : Option (π → String → StatsCollector → StatsCollector × List LogLine)}
    (hcb : Option.Rel (fun f g => ∀ t, f data hook t = .ok (g payload hook t)) cbAt cb) :
    processEventAt s data hook retval cbAt =
      orFault (EventHeader.ofBytes data).moduleFault (s.processEvent (EventHeader.ofBytes data) payload hook retval cb) := by
  have hret := readHeader8_eq hlen EventHeader.isRetprobeAt (by decide)
  have hcount := countModuleAt_eq hlen { s with
    hookStats := s.hookStats.insert hook
      (((s.hookStats.lookup hook).getD {}).count (EventHeader.ofBytes data).isRetprobe retval) }
  unfold processEventAt processEvent
  have hflag : decide (decode8 data EventHeader.isRetprobeAt ≠ 0) = (EventHeader.ofBytes data).isRetprobe := rfl
  rw [hret, ok_bind]
  simp only [hflag]
  rw [hcount]
  cases countModule _ (EventHeader.ofBytes data) with
  | none => rfl
  | some t =>
    cases hcb with
    | none => rfl
    | some h => exact h t

private theorem readTuple_eq (hlen : 48 ≤ data.length) : readTuple data = .ok (RoutingEvent.ofBytes data).tuple := by
  unfold readTuple
  rw [read16_eq (by unfold RoutingEvent.serviceIdAt; omega), read16_eq (by unfold RoutingEvent.methodIdAt; omega),
    read16_eq (by unfold RoutingEvent.clientIdAt; omega), read16_eq (by unfold RoutingEvent.sessionIdAt; omega)]
  rfl

private theorem recordAt_eq (hlen : 64 ≤ data.length) (s : StatsCollector) :
    recordAt data s = .ok
      (if (RoutingEvent.ofBytes data).hdr.direction = dirSend ∧
          ((RoutingEvent.ofBytes data).messageType = someipMtRequest ∨
            (RoutingEvent.ofBytes data).messageType = someipMtRequestNoReturn) then
        s.recordPending (RoutingEvent.ofBytes data).serviceId (RoutingEvent.ofBytes data).methodId
          (RoutingEvent.ofBytes data).clientId (RoutingEvent.ofBytes data).sessionId
          (RoutingEvent.ofBytes data).hdr.timestampNs
      else s) := by
  unfold recordAt
  rw [read8_eq (by unfold EventHeader.directionAt; omega), read8_eq (by unfold RoutingEvent.messageTypeAt; omega),
    readTuple_eq (by omega), read64_eq (by unfold EventHeader.timestampAt; omega)]
  simp only [ok_bind]
  exact ite_ite_ok _ _ _ _

private theorem matchAt_eq (hlen : 64 ≤ data.length) (s : StatsCollector) :
    matchAt data s = .ok
      (if (RoutingEvent.ofBytes data).hdr.direction = dirRecv ∧
          ((RoutingEvent.ofBytes data).messageType = someipMtResponse ∨
            (RoutingEvent.ofBytes data).messageType = someipMtError ∨
            (RoutingEvent.ofBytes data).messageType = someipMtNotification) then
        s.tryMatch (RoutingEvent.ofBytes data).serviceId (RoutingEvent.ofBytes data).methodId
          (RoutingEvent.ofBytes data).clientId (RoutingEvent.ofBytes data).sessionId
          (RoutingEvent.ofBytes data).hdr.timestampNs (RoutingEvent.ofBytes data).messageType
      else (s, [])) := by
  unfold matchAt
  rw [read8_eq (by unfold EventHeader.directionAt; omega), read8_eq (by unfold RoutingEvent.messageTypeAt; omega),
    readTuple_eq (by omega), read64_eq (by unfold EventHeader.timestampAt; omega)]
  simp only [ok_bind]
  exact ite_ite_ok _ _ _ _

theorem onLatencyAt_eq (hlen : 64 ≤ data.length) (hook : String) (s : StatsCollector) :
    onLatencyAt data hook s = .ok (onLatency (RoutingEvent.ofBytes data) hook s) := by
  have hret : (RoutingEvent.ofBytes data).hdr.isRetprobe = decide (decode8 data EventHeader.isRetprobeAt ≠ 0) := rfl
  unfold onLatencyAt onLatency
  rw [read8_eq (by unfold EventHeader.isRetprobeAt; omega), hret]
  simp only [ok_bind, recordAt_eq hlen, matchAt_eq hlen, decide_eq_true_eq]
  split <;> rfl

private theorem RoutingEvent.formatPayloadAt_eq (hlen : 64 ≤ data.length) :
    formatPayloadAt data = .ok (ofBytes data).payloadText := by
  unfold formatPayloadAt
  rw [read16_eq (by unfold serviceIdAt; omega), read16_eq (by unfold methodIdAt; omega),
    read16_eq (by unfold clientIdAt; omega), read16_eq (by unfold sessionIdAt; omega),
    read8_eq (by unfold messageTypeAt; omega), read8_eq (by unfold returnCodeAt; omega),
    read32_eq (by unfold payloadLengthAt; omega), read64_eq (by unfold retvalAt; omega)]
  rfl

private theorem AppEvent.formatPayloadAt_eq (hlen : 64 ≤ data.length) :
    formatPayloadAt data = .ok (ofBytes data).payloadText := by
  unfold formatPayloadAt
  rw [read64_eq (by unfold thisPtrAt; omega), read64_eq (by unfold messagePtrAt; omega),
    read64_eq (by unfold retvalAt; omega)]
  rfl

private theorem SdEvent.formatPayloadAt_eq (hlen : 52 ≤ data.length) :
    formatPayloadAt data = .ok (ofBytes data).payloadText := by
  unfold formatPayloadAt
  rw [read16_eq (by unfold serviceIdAt; omega), read16_eq (by unfold instanceIdAt; omega),
    read16_eq (by unfold eventgroupIdAt; omega), read32_eq (by unfold ttlAt; omega)]
  rfl

private theorem writeEventAt_eq (hlen : EventHeader.size ≤ data.length) (formats : Bool)
    (hname : formats = true → EventHeader.NameEnds data) (hook : String)
    {formatPayload : List UInt8 → Checked IndexedTable String} {payload : String}
    (hp : formats = true → formatPayload data = .ok payload) :
    writeEventAt formats data hook formatPayload =
      .ok (if formats then [.event (EventHeader.ofBytes data) hook payload] else []) := by
  unfold writeEventAt
  split
  · rename_i hf
    rw [EventHeader.readAll_eq hlen (hname hf), hp hf]
    rfl
  · rfl

end

/-! ### The three modules -/

/-- The modules whose events the program has handlers for. -/
inductive EventKind where
  | routing
  | app
  | sd
deriving DecidableEq, Repr

namespace EventKind

/-- The handler of a module, over bytes. -/
def handlerAt : EventKind → Bool → List UInt8 → String → StatsCollector →
    Checked IndexedTable (StatsCollector × List LogLine)
  | routing => routingEventHandlerAt
  | app => appEventHandlerAt
  | sd => sdEventHandlerAt

/-- The handler of a module, on the event that the bytes represent. -/
def handler (data : List UInt8) (hook : String) (s : StatsCollector) : EventKind → Option (StatsCollector × List LogLine)
  | routing => routingEventHandler (.ofBytes data) hook s
  | app => appEventHandler (.ofBytes data) hook s
  | sd => sdEventHandler (.ofBytes data) hook s

/-- Where the last byte ends that the handler of a module and its callbacks read. -/
def readEnd (formats : Bool) : EventKind → Nat
  | routing => 64
  | app => 64
  | sd => if formats then 52 else EventHeader.size

/-- The record holds all the fields that the handler reads, and the end of the name if it is printed. -/
def Holds (k : EventKind) (formats : Bool) (data : List UInt8) : Prop :=
  k.readEnd formats ≤ data.length ∧ (formats = true → EventHeader.NameEnds data)

instance (k : EventKind) (formats : Bool) (data : List UInt8) : Decidable (k.Holds formats data) :=
  inferInstanceAs (Decidable (_ ∧ _))

/-- The record holds all that the handler reads, and names a module with counters unless it is a return event. -/
def Fits (k : EventKind) (cfg : HookConfig) (formats : Bool) (data : List UInt8) : Prop :=
  k.Holds formats data ∧
    (decode8 data EventHeader.isRetprobeAt ≠ 0 ∨ (decode8 data EventHeader.moduleIdAt).toNat ≤ cfg.maxModuleId)

theorem size_le_readEnd (formats : Bool) (k : EventKind) : EventHeader.size ≤ k.readEnd formats := by
  cases k <;> cases formats <;> decide

end EventKind

/-- The lines without that of the event, which comes last, where the writer does not get to it. -/
def withoutLine (formats : Bool) (r : StatsCollector × List LogLine) : StatsCollector × List LogLine :=
  if formats then r else (r.1, r.2.dropLast)

private theorem withoutLine_append (formats : Bool) (r : StatsCollector × List LogLine) (l : LogLine) :
    withoutLine formats (r.1, r.2 ++ [l]) = (r.1, r.2 ++ if formats then [l] else []) := by
  cases formats <;> simp [withoutLine]

section

variable {data : List UInt8} (formats : Bool) (hook : String) (s : StatsCollector)

/-- On a record that is large enough the handler over bytes does what the handler does, and stops where that has no
result. -/
theorem EventKind.handlerAt_eq (k : EventKind) (hholds : k.Holds formats data) :
    k.handlerAt formats data hook s =
      orFault (EventHeader.ofBytes data).moduleFault ((k.handler data hook s).map (withoutLine formats)) := by
  obtain ⟨hlen, hname⟩ := hholds
  have hsize := (k.size_le_readEnd formats).trans hlen
  cases k with
  | routing =>
    have hlen : 64 ≤ data.length := hlen
    show routingEventHandlerAt formats data hook s = orFault _ ((routingEventHandler (.ofBytes data) hook s).map _)
    unfold routingEventHandlerAt routingEventHandler
    rw [read64_eq (by unfold RoutingEvent.retvalAt; omega), ok_bind,
      processEventAt_eq hsize s (RoutingEvent.ofBytes data) hook _ (.some (onLatencyAt_eq hlen hook)),
      writeEventAt_eq hsize formats hname hook fun _ => RoutingEvent.formatPayloadAt_eq hlen, Option.map_map]
    simp only [ok_bind, Function.comp_def, withoutLine_append]
    exact orFault_bind ..
  | app =>
    have hlen : 64 ≤ data.length := hlen
    show appEventHandlerAt formats data hook s = orFault _ ((appEventHandler (.ofBytes data) hook s).map _)
    unfold appEventHandlerAt appEventHandler
    rw [read64_eq (by unfold AppEvent.retvalAt; omega), ok_bind,
      processEventAt_eq hsize s (AppEvent.ofBytes data) hook _ .none,
      writeEventAt_eq hsize formats hname hook fun _ => AppEvent.formatPayloadAt_eq hlen, Option.map_map]
    simp only [ok_bind, Function.comp_def, withoutLine_append]
    exact orFault_bind ..
  | sd =>
    have hlen : formats = true → 52 ≤ data.length := by
      rintro rfl
      exact hlen
    show sdEventHandlerAt formats data hook s = orFault _ ((sdEventHandler (.ofBytes data) hook s).map _)
    unfold sdEventHandlerAt sdEventHandler
    rw [processEventAt_eq hsize s (SdEvent.ofBytes data) hook 0 .none,
      writeEventAt_eq hsize formats hname hook fun hf => SdEvent.formatPayloadAt_eq (hlen hf), Option.map_map]
    simp only [ok_bind, Function.comp_def, withoutLine_append]
    exact orFault_bind ..

private theorem not_safe_read64 (off : Nat) (h : data.length < off + 8) : ¬ Safe (read64 data off) := by
  unfold read64
  rw [readLittle_eq_error h]
  exact not_safe_error _

private theorem SdEvent.not_safe_formatPayloadAt (hlen : data.length < 52) : ¬ Safe (formatPayloadAt data) := by
  have hread : ¬ Safe (read32 data ttlAt) := by
    unfold read32
    rw [readLittle_eq_error (by unfold ttlAt; omega)]
    exact not_safe_error _
  unfold formatPayloadAt
  exact not_safe_bind fun _ => not_safe_bind fun _ => not_safe_bind fun _ => not_safe_bind_left hread _

/-- A record that ends earlier, or does not hold the end of a name that is printed, is read beyond its end. -/
theorem EventKind.not_safe_handlerAt (k : EventKind) (hsize : EventHeader.size ≤ data.length)
    (hholds : ¬ k.Holds formats data) : ¬ Safe (k.handlerAt formats data hook s) := by
  by_cases hlen : k.readEnd formats ≤ data.length
  · -- all the fields are there, so the name is printed and has no end
    have hprinted : ¬ (formats = true → EventHeader.NameEnds data) := fun hname => hholds ⟨hlen, hname⟩
    obtain ⟨rfl, hendless⟩ := Classical.not_imp.1 hprinted
    have hwrite (formatPayload : List UInt8 → Checked IndexedTable String) :
        ¬ Safe (writeEventAt true data hook formatPayload) :=
      not_safe_bind_left (EventHeader.not_safe_readAll hendless) _
    cases k with
    | routing => exact not_safe_bind fun _ => not_safe_bind fun _ => not_safe_bind_left (hwrite _) _
    | app => exact not_safe_bind fun _ => not_safe_bind fun _ => not_safe_bind_left (hwrite _) _
    | sd => exact not_safe_bind fun _ => not_safe_bind_left (hwrite _) _
  · have hlen : data.length < k.readEnd formats := Nat.not_le.1 hlen
    cases k with
    | routing =>
      have hread := not_safe_read64 RoutingEvent.retvalAt hlen
      exact not_safe_bind_left hread _
    | app =>
      have hread := not_safe_read64 AppEvent.retvalAt hlen
      exact not_safe_bind_left hread _
    | sd =>
      cases formats with
      | true =>
        have hwrite : ¬ Safe (writeEventAt true data hook SdEvent.formatPayloadAt) :=
          not_safe_bind fun _ => not_safe_bind_left (SdEvent.not_safe_formatPayloadAt hlen) _
        exact not_safe_bind fun _ => not_safe_bind_left hwrite _
      | false => exact absurd hsize (Nat.not_le.2 hlen)

/-- A handler over events has no result only for an entry event outside the counter tables. -/
theorem EventKind.handler_isSome_iff {cfg : HookConfig} {hook : String} {s : StatsCollector} (hsized : Sized cfg s)
    (k : EventKind) :
    (k.handler data hook s).isSome ↔
      decode8 data EventHeader.isRetprobeAt ≠ 0 ∨ (decode8 data EventHeader.moduleIdAt).toNat ≤ cfg.maxModuleId := by
  have hret : (EventHeader.ofBytes data).isRetprobe = true ↔ decode8 data EventHeader.isRetprobeAt ≠ 0 :=
    decide_eq_true_iff
  rw [← hret]
  cases k with
  | routing | app | sd =>
    show (Option.map _ _).isSome ↔ _
    rw [Option.isSome_map]
    exact processEvent_isSome_iff cfg hsized ..

end

/-- Handlers keep the sizes of the counter tables. -/
theorem EventKind.handler_sized {cfg : HookConfig} {hook : String} {s : StatsCollector} (hsized : Sized cfg s)
    {k : EventKind} {r : StatsCollector × List LogLine} (h : k.handler data hook s = some r) : Sized cfg r.1 := by
  have hop : ∃ (op : Operation) (log : List LogLine), Session.operate cfg ⟨s, []⟩ op = some ⟨r.1, log⟩ := by
    cases k with
    | routing =>
      obtain ⟨r', hr', rfl⟩ := Option.map_eq_some_iff.1 h
      exact ⟨.processEvent _ hook _ (some (.ofBytes data)), _, Option.map_eq_some_iff.2 ⟨r', hr', rfl⟩⟩
    | app =>
      obtain ⟨r', hr', rfl⟩ := Option.map_eq_some_iff.1 h
      exact ⟨.processEvent _ hook _ none, _, Option.map_eq_some_iff.2 ⟨r', hr', rfl⟩⟩
    | sd =>
      obtain ⟨r', hr', rfl⟩ := Option.map_eq_some_iff.1 h
      exact ⟨.processEvent _ hook _ none, _, Option.map_eq_some_iff.2 ⟨r', hr', rfl⟩⟩
  obtain ⟨op, log, hop⟩ := hop
  exact sized_of_operate cfg (s := ⟨s, []⟩) hsized hop

/-! ### The callback -/

/-- `event_ctx_`: the collector of the statistics, and whether the log writer gets to the payload of an event. -/
structure EventContext where
  stats : StatsCollector
  formats : Bool

/-- The function behind the linker symbol of a handler. -/
def linked (symbol : String) : Option EventKind :=
  if symbol = "routing_event_handler" then some .routing
  else if symbol = "app_event_handler" then some .app
  else if symbol = "sd_event_handler" then some .sd else none

/-- The name of a hook, if the table of the group has one. -/
def FileGroup.lookupName (g : FileGroup) (hookId : UInt8) : Checked IndexedTable String :=
  if hookId.toNat < g.hookCount then index .hookNames g.hookNames hookId.toNat else pure "unknown"

/-- The result is `none` for a record that is dropped. -/
def ringbufCallback (g : FileGroup) (ctx : Option EventContext) (data : List UInt8) :
    Checked IndexedTable (Option (StatsCollector × List LogLine)) :=
  if data.length < EventHeader.size then pure none
  else
    match ctx with
    | none => pure none
    | some c => do
      let hookId ← read8 data EventHeader.hookIdAt
      let hookName ← g.lookupName hookId
      match linked g.handler with
      | some k => some <$> k.handlerAt c.formats data hookName c.stats
      | none => pure (some (c.stats, []))

private theorem lookupName_eq {g : FileGroup} (hcount : g.hookNames.length = g.hookCount) (hdr : EventHeader) :
    g.lookupName hdr.hookId = .ok (g.hookName hdr) := by
  unfold FileGroup.lookupName FileGroup.hookName
  split
  · rename_i hlt
    rw [← hcount] at hlt
    rw [index_eq, List.getD_eq_getElem?_getD, List.getElem?_eq_getElem hlt]
    rfl
  · rfl

section

variable {files : List FileJson} {load : String → Option OffsetTable} {cfg : HookConfig}
  (hgen : genConfig files load = some cfg) {g : FileGroup} (hg : g ∈ cfg.fileGroups)

include hgen hg

/-- A record with a common header is handed to the handler of the group, under the name of its hook. -/
theorem ringbufCallback_eq {k : EventKind} (hk : linked g.handler = some k) (c : EventContext) {data : List UInt8}
    (hsize : EventHeader.size ≤ data.length) :
    ringbufCallback g (some c) data =
      some <$> k.handlerAt c.formats data (g.hookName (EventHeader.ofBytes data)) c.stats := by
  have hcount : g.hookNames.length = g.hookCount := by
    obtain ⟨fg, -, lu, rfl⟩ := genConfig_mem hgen hg
    exact List.length_map ..
  have hname : g.lookupName (decode8 data EventHeader.hookIdAt) = .ok (g.hookName (EventHeader.ofBytes data)) :=
    lookupName_eq hcount (EventHeader.ofBytes data)
  unfold ringbufCallback
  rw [if_neg (Nat.not_lt.2 hsize)]
  dsimp only
  rw [readHeader8_eq hsize EventHeader.hookIdAt (by decide), ok_bind, hname, ok_bind, hk]

private theorem safe_ringbufCallback_iff {k : EventKind} (hk : linked g.handler = some k) {c : EventContext}
    (hsized : Sized cfg c.stats) (data : List UInt8) :
    Safe (ringbufCallback g (some c) data) ↔ data.length < EventHeader.size ∨ k.Fits cfg c.formats data := by
  by_cases hsize : data.length < EventHeader.size
  · refine iff_of_true ⟨none, ?_⟩ (.inl hsize)
    unfold ringbufCallback
    exact if_pos hsize
  · rw [ringbufCallback_eq hgen hg hk c (Nat.not_lt.1 hsize), safe_map_iff]
    simp only [hsize, false_or]
    by_cases hholds : k.Holds c.formats data
    · rw [k.handlerAt_eq _ _ _ hholds, safe_orFault_iff, Option.isSome_map, k.handler_isSome_iff hsized]
      exact (and_iff_right hholds).symm
    · have hunsafe := k.not_safe_handlerAt c.formats (g.hookName (EventHeader.ofBytes data)) c.stats
        (Nat.not_lt.1 hsize) hholds
      exact iff_of_false hunsafe fun h => hholds h.1

/-- All accesses of the callback are within bounds exactly where the record is dropped or fits the module. -/
theorem dispatch_in_bounds_iff {k : EventKind} (hk : linked g.handler = some k) {ctx : Option EventContext}
    (hctx : ∀ c ∈ ctx, Sized cfg c.stats) (data : List UInt8) :
    Safe (ringbufCallback g ctx data) ↔
      data.length < EventHeader.size ∨ ctx = none ∨ ∃ c ∈ ctx, k.Fits cfg c.formats data := by
  cases ctx with
  | none =>
    refine iff_of_true ⟨none, ?_⟩ (.inr (.inl rfl))
    unfold ringbufCallback
    split <;> rfl
  | some c =>
    rw [safe_ringbufCallback_iff hgen hg hk (hctx c rfl)]
    simp

end

/-- The routing module with one hook. -/
def oneHookFile : FileJson :=
  ⟨"routing", "routing_events", 1, "libvsomeip3", "/usr/lib/libvsomeip3.so", [⟨"rm_send_entry", "send()", false⟩]⟩

def oneHookGroup : FileGroup := genFileGroup oneHookFile [("send()", some 64)]

def oneHookConfig : HookConfig := ⟨[oneHookGroup], 1⟩

/-- A record of zeros of the size of a routing event, from a module. -/
def zeroRecord (moduleId : UInt8) : List UInt8 := (List.replicate 64 0).set EventHeader.moduleIdAt moduleId

/-- An event of the routing module fits its handler. -/
theorem dispatch_in_bounds_iff_routing :
    Safe (ringbufCallback oneHookGroup (some ⟨fresh oneHookConfig true, true⟩) (zeroRecord 1)) := by
  have hgen : genConfig [oneHookFile] (fun _ => some [("send()", some 64)]) = some oneHookConfig := rfl
  have hg : oneHookGroup ∈ oneHookConfig.fileGroups := List.mem_singleton_self _
  have hk : linked oneHookGroup.handler = some .routing := rfl
  have hctx : ∀ c ∈ some (⟨fresh oneHookConfig true, true⟩ : EventContext), Sized oneHookConfig c.stats := by
    rintro c ⟨⟩
    exact sized_fresh oneHookConfig true
  refine (dispatch_in_bounds_iff hgen hg hk hctx (zeroRecord 1)).2 ?_
  exact .inr (.inr ⟨_, rfl, by decide, .inr (by decide)⟩)

/-- A return event of the size of a routing event in which no byte is zero from the name on. -/
def endlessRecord : List UInt8 := List.replicate 16 0 ++ List.replicate 48 1

/-- A record with no more than a common header is read up to byte 64, a name without an end is read beyond the record,
and a module without counters is counted all the same. -/
theorem record_read_beyond_end :
    genConfig [oneHookFile] (fun _ => some [("send()", some 64)]) = some oneHookConfig ∧
      ringbufCallback oneHookGroup (some ⟨fresh oneHookConfig true, true⟩) (List.replicate 40 0) =
        .error (.read 56 8) ∧
      ringbufCallback oneHookGroup (some ⟨fresh oneHookConfig true, true⟩) (zeroRecord 200) =
        .error (.index .modSend 200) ∧
      ringbufCallback oneHookGroup (some ⟨fresh oneHookConfig true, true⟩) endlessRecord = .error (.read 64 1) ∧
      ¬ ∀ data, Safe (ringbufCallback oneHookGroup (some ⟨fresh oneHookConfig true, true⟩) data) := by
  have hshort : ringbufCallback oneHookGroup (some ⟨fresh oneHookConfig true, true⟩) (List.replicate 40 0) =
      .error (.read 56 8) := rfl
  refine ⟨rfl, hshort, rfl, rfl, fun h => ?_⟩
  obtain ⟨r, hr⟩ := h (List.replicate 40 0)
  rw [hshort] at hr
  cases hr

/-! ### A stream of records -/

/-- The records that are delivered one after the other, each with the group of its ring buffer. -/
def dispatchAll (formats : Bool) : List (FileGroup × List UInt8) → StatsCollector → Checked IndexedTable StatsCollector
  | [], s => pure s
  | (g, data) :: records, s => do
    let r ← ringbufCallback g (some ⟨s, formats⟩) data
    dispatchAll formats records ((r.map Prod.fst).getD s)

section

variable {files : List FileJson} {load : String → Option OffsetTable} {cfg : HookConfig}
  (hgen : genConfig files load = some cfg)

include hgen

private theorem sized_of_ringbufCallback {g : FileGroup} (hg : g ∈ cfg.fileGroups) {k : EventKind}
    (hk : linked g.handler = some k) {formats : Bool} {s : StatsCollector} (hsized : Sized cfg s) {data : List UInt8}
    {r : Option (StatsCollector × List LogLine)} (h : ringbufCallback g (some ⟨s, formats⟩) data = .ok r) :
    Sized cfg ((r.map Prod.fst).getD s) := by
  by_cases hsize : data.length < EventHeader.size
  · unfold ringbufCallback at h
    rw [if_pos hsize] at h
    cases h
    exact hsized
  · have hsafe := (safe_ringbufCallback_iff hgen hg hk hsized data).1 ⟨r, h⟩
    have hholds : k.Holds formats data := (hsafe.resolve_left hsize).1
    rw [ringbufCallback_eq hgen hg hk _ (Nat.not_lt.1 hsize), k.handlerAt_eq _ _ _ hholds, orFault_map] at h
    dsimp only at h
    cases hhandler : k.handler data (g.hookName (EventHeader.ofBytes data)) s with
    | none =>
      rw [hhandler] at h
      cases h
    | some t =>
      rw [hhandler] at h
      cases h
      -- the line of the event is left out, the state is that of the handler
      have hstate : (withoutLine formats t).1 = t.1 := by
        unfold withoutLine
        split <;> rfl
      show Sized cfg (withoutLine formats t).1
      rw [hstate]
      exact EventKind.handler_sized hsized hhandler

/-- A stream of records is handled within bounds exactly where each of its records is dropped or fits its module. -/
theorem dispatchAll_in_bounds_iff (formats : Bool) {records : List (FileGroup × List UInt8)}
    (hrec : ∀ r ∈ records, r.1 ∈ cfg.fileGroups ∧ (linked r.1.handler).isSome) {s : StatsCollector}
    (hsized : Sized cfg s) :
    Safe (dispatchAll formats records s) ↔
      ∀ r ∈ records, r.2.length < EventHeader.size ∨ ∃ k ∈ linked r.1.handler, k.Fits cfg formats r.2 := by
  induction records generalizing s with
  | nil => exact iff_of_true (safe_ok s) (by simp)
  | cons r records ih =>
    obtain ⟨g, data⟩ := r
    obtain ⟨hg, hlinked⟩ := hrec _ List.mem_cons_self
    obtain ⟨k, hk⟩ := Option.isSome_iff_exists.1 hlinked
    dsimp only at hg hk
    have hfirst : Safe (ringbufCallback g (some ⟨s, formats⟩) data) ↔
        data.length < EventHeader.size ∨ ∃ k ∈ linked g.handler, k.Fits cfg formats data := by
      rw [safe_ringbufCallback_iff hgen hg hk hsized, hk]
      simp
    rw [List.forall_mem_cons, ← hfirst]
    by_cases hsafe : Safe (ringbufCallback g (some ⟨s, formats⟩) data)
    · obtain ⟨t, ht⟩ := hsafe
      have hrest := ih (fun r hr => hrec r (List.mem_cons_of_mem _ hr)) (sized_of_ringbufCallback hgen hg hk hsized ht)
      rw [dispatchAll, ht, ok_bind, hrest]
      exact (and_iff_right (safe_ok t)).symm
    · exact iff_of_false (not_safe_bind_left hsafe _) fun h => hsafe h.1

end

end VsomeipCollector

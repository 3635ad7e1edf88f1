import VsomeipCollector.Common
import VsomeipCollector.Config

/-!
# The BPF programs (`src/bpf`)

Each program fires at a uprobe or uretprobe, reserves a slot of its ring buffer, fills the event in the slot and
submits it.  A reserved slot is not cleared: it is an argument of the functions below, with whatever it held before
(`none` is a full ring buffer, where nothing is submitted).

The identifiers of modules and hooks are the macros of `hook_ids.h`, cut to the eight bits of their parameters.
-/

namespace VsomeipCollector

/-- The registers of the probed function that the programs read. -/
structure PtRegs where
  parm1 : UInt64 := 0
  parm2 : UInt64 := 0
  parm3 : UInt64 := 0
  parm4 : UInt64 := 0
  parm5 : UInt64 := 0
  rc : UInt64 := 0

/-- What the helpers of the kernel return during one firing. -/
structure Kernel where
  pidTgid : UInt64
  ktimeNs : UInt64
  comm : Vector UInt8 16
  /-- `bpf_probe_read_user` of 16 bytes; `none` is a negative result. -/
  probeReadUser : UInt64 → Option (Vector UInt8 16)

/-- The value of a macro as a `uint8_t` argument. -/
def Macros.byte (ids : Macros) (name : String) : UInt8 := UInt8.ofNat (ids.value name)

/-! ### `common.bpf.h` -/

def fillHeader (k : Kernel) (h : EventHeader) (moduleId hookId direction : UInt8) (isRet : Bool) : EventHeader :=
  { h with
    timestampNs := k.ktimeNs
    pid := (k.pidTgid >>> 32).toUInt32
    tid := k.pidTgid.toUInt32
    moduleId := moduleId
    hookId := hookId
    direction := direction
    isRetprobe := isRet
    comm := k.comm }

/-- Two bytes of the wire, most significant first. -/
def be16 (hdr : Vector UInt8 16) (i : Nat) : UInt16 :=
  (hdr.getD i 0).toUInt16 <<< 8 ||| (hdr.getD (i + 1) 0).toUInt16

def be32 (hdr : Vector UInt8 16) (i : Nat) : UInt32 :=
  (hdr.getD i 0).toUInt32 <<< 24 ||| (hdr.getD (i + 1) 0).toUInt32 <<< 16 |||
    (hdr.getD (i + 2) 0).toUInt32 <<< 8 ||| (hdr.getD (i + 3) 0).toUInt32

/-- The event after the call, and the result of the call. -/
def readSomeipHeader (k : Kernel) (e : RoutingEvent) (data : UInt64) (len : UInt32) : RoutingEvent × Int :=
  if data = 0 ∨ len.toNat < someipHeaderSize then (e, -1)
  else
    match k.probeReadUser data with
    | none => (e, -1)
    | some hdr =>
      ({ e with
        serviceId := be16 hdr 0
        methodId := be16 hdr 2
        payloadLength := be32 hdr 4
        clientId := be16 hdr 8
        sessionId := be16 hdr 10
        protocolVersion := hdr.getD 12 0
        interfaceVersion := hdr.getD 13 0
        messageType := hdr.getD 14 0
        returnCode := hdr.getD 15 0 }, 0)

/-! ### `routing.bpf.c` -/

def submitRouting (ids : Macros) (k : Kernel) (slot : Option RoutingEvent) (hookId dir : UInt8) (isRet : Bool)
    (data : UInt64) (len : UInt32) (retval : Int64) : Option RoutingEvent :=
  slot.map fun e =>
    let e := { e with hdr := fillHeader k e.hdr (ids.byte "MODULE_ROUTING") hookId dir isRet }
    -- the result of the reader is ignored
    let e := if data ≠ 0 ∧ someipHeaderSize ≤ len.toNat then (readSomeipHeader k e data len).1 else e
    { e with retval := retval }

section

variable (ids : Macros) (k : Kernel) (slot : Option RoutingEvent) (ctx : PtRegs)

def hookRmSendEntry : Option RoutingEvent :=
  submitRouting ids k slot (ids.byte "HOOK_RM_SEND_ENTRY") dirSend false ctx.parm3 ctx.parm4.toUInt32 0

def hookRmSendRet : Option RoutingEvent :=
  submitRouting ids k slot (ids.byte "HOOK_RM_SEND_RET") dirSend true 0 0 ctx.rc.toInt64

def hookRmSendToEntry : Option RoutingEvent :=
  submitRouting ids k slot (ids.byte "HOOK_RM_SEND_TO_ENTRY") dirSend false ctx.parm3 ctx.parm4.toUInt32 0

def hookRmSendToRet : Option RoutingEvent :=
  submitRouting ids k slot (ids.byte "HOOK_RM_SEND_TO_RET") dirSend true 0 0 ctx.rc.toInt64

def hookRmOnMessage : Option RoutingEvent :=
  submitRouting ids k slot (ids.byte "HOOK_RM_ON_MESSAGE") dirRecv false ctx.parm2 ctx.parm3.toUInt32 0

end

/-! ### `app.bpf.c` -/

def submitApp (ids : Macros) (k : Kernel) (slot : Option AppEvent) (hookId dir : UInt8) (isRet : Bool)
    (thisPtr msgPtr : UInt64) (retval : Int64) : Option AppEvent :=
  slot.map fun e =>
    { e with
      hdr := fillHeader k e.hdr (ids.byte "MODULE_APP") hookId dir isRet
      thisPtr := thisPtr
      messagePtr := msgPtr
      retval := retval }

section

variable (ids : Macros) (k : Kernel) (slot : Option AppEvent) (ctx : PtRegs)

def hookAppSendEntry : Option AppEvent :=
  submitApp ids k slot (ids.byte "HOOK_APP_SEND_ENTRY") dirSend false ctx.parm1 ctx.parm2 0

def hookAppSendRet : Option AppEvent :=
  submitApp ids k slot (ids.byte "HOOK_APP_SEND_RET") dirSend true 0 0 ctx.rc.toInt64

def hookAppOnMessage : Option AppEvent :=
  submitApp ids k slot (ids.byte "HOOK_APP_ON_MESSAGE") dirRecv false ctx.parm1 ctx.parm2 0

end

/-! ### `sd.bpf.c` -/

def submitSd (ids : Macros) (k : Kernel) (slot : Option SdEvent) (hookId dir : UInt8) (svc inst evg : UInt16) :
    Option SdEvent :=
  slot.map fun e =>
    { e with
      hdr := fillHeader k e.hdr (ids.byte "MODULE_SD") hookId dir false
      serviceId := svc
      instanceId := inst
      eventgroupId := evg
      ttl := 0 }

section

variable (ids : Macros) (k : Kernel) (slot : Option SdEvent) (ctx : PtRegs)

def hookSdSend : Option SdEvent :=
  submitSd ids k slot (ids.byte "HOOK_SD_SEND") dirSend 0 0 ctx.parm2.toUInt16

def hookSdProcessOffer : Option SdEvent :=
  submitSd ids k slot (ids.byte "HOOK_SD_PROCESS_OFFER") dirRecv ctx.parm2.toUInt16 ctx.parm3.toUInt16 0

def hookSdSendSubscription : Option SdEvent :=
  submitSd ids k slot (ids.byte "HOOK_SD_SEND_SUBSCRIPTION") dirSend ctx.parm3.toUInt16 ctx.parm4.toUInt16
    ctx.parm5.toUInt16

def hookSdHandleSubscription : Option SdEvent :=
  submitSd ids k slot (ids.byte "HOOK_SD_HANDLE_SUBSCRIPTION") dirRecv ctx.parm2.toUInt16 ctx.parm3.toUInt16
    ctx.parm4.toUInt16

end

/-! ### What the reader and the submit functions write -/

/-- The reader succeeds. -/
def Kernel.readable (k : Kernel) (data : UInt64) (len : UInt32) : Bool :=
  data ≠ 0 && someipHeaderSize ≤ len.toNat && (k.probeReadUser data).isSome

/-- A reader that fails leaves the event as it was. -/
theorem readSomeipHeader_of_not_readable {k : Kernel} {data : UInt64} {len : UInt32} (e : RoutingEvent)
    (h : k.readable data len = false) : readSomeipHeader k e data len = (e, -1) := by
  unfold readSomeipHeader
  by_cases hg : data = 0 ∨ len.toNat < someipHeaderSize
  · rw [if_pos hg]
  · rw [if_neg hg]
    have hn : k.probeReadUser data = none := by
      rw [not_or, Nat.not_lt] at hg
      simpa [Kernel.readable, hg] using h
    rw [hn]

/-- The common header is written in full. -/
theorem fillHeader_congr (k : Kernel) (h h' : EventHeader) (moduleId hookId direction : UInt8) (isRet : Bool) :
    fillHeader k h moduleId hookId direction isRet = fillHeader k h' moduleId hookId direction isRet := rfl

/-- With a readable header the event of the routing module does not depend on the slot. -/
theorem submitRouting_congr (ids : Macros) {k : Kernel} {data : UInt64} {len : UInt32}
    (h : k.readable data len = true) (e e' : RoutingEvent) (hookId dir : UInt8) (isRet : Bool) (retval : Int64) :
    submitRouting ids k (some e) hookId dir isRet data len retval =
      submitRouting ids k (some e') hookId dir isRet data len retval := by
  unfold Kernel.readable at h
  simp only [Bool.and_eq_true, decide_eq_true_eq] at h
  obtain ⟨hg, hs⟩ := h
  obtain ⟨hdr, hread⟩ := Option.isSome_iff_exists.1 hs
  have hn : ¬ (data = 0 ∨ len.toNat < someipHeaderSize) := by
    rw [not_or, Nat.not_lt]
    exact hg
  unfold submitRouting readSomeipHeader
  simp only [Option.map_some, if_pos hg, if_neg hn, hread]
  rw [fillHeader_congr k e.hdr e'.hdr]

/-- Without one it keeps the fields of the message header from the slot. -/
theorem submitRouting_of_not_readable (ids : Macros) {k : Kernel} {data : UInt64} {len : UInt32} (e : RoutingEvent)
    (h : k.readable data len = false) (hookId dir : UInt8) (isRet : Bool) (retval : Int64) :
    submitRouting ids k (some e) hookId dir isRet data len retval =
      some { e with hdr := fillHeader k e.hdr (ids.byte "MODULE_ROUTING") hookId dir isRet, retval := retval } := by
  unfold submitRouting
  simp only [Option.map_some, readSomeipHeader_of_not_readable _ h, ite_self]

end VsomeipCollector

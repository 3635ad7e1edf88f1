import VsomeipCollector.Dispatch
import VsomeipCollector.Bpf
import VsomeipCollector.Library.Patch

/-!
# Layout of the events (`src/common`)

A program writes the fields of its event into the bytes of the reserved slot, each where the structure has it; padding
is not written.  `patches` lists what is written and where, `toBytes` is the slot afterwards.  What the callback reads
from these bytes is the event (`ofBytes_toBytes`), and the padding holds what the slot held.
-/

namespace VsomeipCollector

open Endian Patch

/-! ### What is written -/

namespace EventHeader

def patches (h : EventHeader) : List (Nat × List UInt8) :=
  [(timestampAt, toLittle 8 h.timestampNs.toNat), (pidAt, toLittle 4 h.pid.toNat), (tidAt, toLittle 4 h.tid.toNat),
    (commAt, h.comm.toList), (moduleIdAt, [h.moduleId]), (hookIdAt, [h.hookId]), (directionAt, [h.direction]),
    (isRetprobeAt, [if h.isRetprobe then 1 else 0])]

/-- Where the header has its fields. -/
def layout : List (Nat × Nat) :=
  [(timestampAt, 8), (pidAt, 4), (tidAt, 4), (commAt, 16), (moduleIdAt, 1), (hookIdAt, 1), (directionAt, 1),
    (isRetprobeAt, 1)]

theorem places_patches (h : EventHeader) : places h.patches = layout := by
  simp [places, patches, layout]

end EventHeader

namespace RoutingEvent

def patches (e : RoutingEvent) : List (Nat × List UInt8) :=
  e.hdr.patches ++
    [(serviceIdAt, toLittle 2 e.serviceId.toNat), (methodIdAt, toLittle 2 e.methodId.toNat),
      (clientIdAt, toLittle 2 e.clientId.toNat), (sessionIdAt, toLittle 2 e.sessionId.toNat),
      (protocolVersionAt, [e.protocolVersion]), (interfaceVersionAt, [e.interfaceVersion]),
      (messageTypeAt, [e.messageType]), (returnCodeAt, [e.returnCode]),
      (payloadLengthAt, toLittle 4 e.payloadLength.toNat), (retvalAt, toLittle 8 e.retval.toUInt64.toNat)]

def layout : List (Nat × Nat) :=
  EventHeader.layout ++
    [(serviceIdAt, 2), (methodIdAt, 2), (clientIdAt, 2), (sessionIdAt, 2), (protocolVersionAt, 1),
      (interfaceVersionAt, 1), (messageTypeAt, 1), (returnCodeAt, 1), (payloadLengthAt, 4), (retvalAt, 8)]

/-- `sizeof(struct routing_event)`. -/
def size : Nat := 64

def toBytes (e : RoutingEvent) (slot : List UInt8) : List UInt8 := patchAll slot e.patches

theorem places_patches (e : RoutingEvent) : places e.patches = layout := by
  unfold places patches
  rw [List.map_append, ← places, e.hdr.places_patches]
  simp [layout]

end RoutingEvent

namespace AppEvent

def patches (e : AppEvent) : List (Nat × List UInt8) :=
  e.hdr.patches ++
    [(thisPtrAt, toLittle 8 e.thisPtr.toNat), (messagePtrAt, toLittle 8 e.messagePtr.toNat),
      (retvalAt, toLittle 8 e.retval.toUInt64.toNat)]

def layout : List (Nat × Nat) := EventHeader.layout ++ [(thisPtrAt, 8), (messagePtrAt, 8), (retvalAt, 8)]

/-- `sizeof(struct app_event)`. -/
def size : Nat := 64

def toBytes (e : AppEvent) (slot : List UInt8) : List UInt8 := patchAll slot e.patches

theorem places_patches (e : AppEvent) : places e.patches = layout := by
  unfold places patches
  rw [List.map_append, ← places, e.hdr.places_patches]
  simp [layout]

end AppEvent

namespace SdEvent

def patches (e : SdEvent) : List (Nat × List UInt8) :=
  e.hdr.patches ++
    [(serviceIdAt, toLittle 2 e.serviceId.toNat), (instanceIdAt, toLittle 2 e.instanceId.toNat),
      (eventgroupIdAt, toLittle 2 e.eventgroupId.toNat), (ttlAt, toLittle 4 e.ttl.toNat)]

def layout : List (Nat × Nat) :=
  EventHeader.layout ++ [(serviceIdAt, 2), (instanceIdAt, 2), (eventgroupIdAt, 2), (ttlAt, 4)]

/-- `sizeof(struct sd_event)`, a multiple of the alignment of the time stamp. -/
def size : Nat := 56

def toBytes (e : SdEvent) (slot : List UInt8) : List UInt8 := patchAll slot e.patches

theorem places_patches (e : SdEvent) : places e.patches = layout := by
  unfold places patches
  rw [List.map_append, ← places, e.hdr.places_patches]
  simp [layout]

end SdEvent

/-! ### The layouts -/

/-- The places of a layout are apart and within the structure. -/
def WellPlaced (layout : List (Nat × Nat)) (size : Nat) : Prop :=
  layout.Pairwise Apart ∧ ∀ p ∈ layout, p.1 + p.2 ≤ size

instance (layout : List (Nat × Nat)) (size : Nat) : Decidable (WellPlaced layout size) :=
  inferInstanceAs (Decidable (layout.Pairwise Apart ∧ ∀ p ∈ layout, p.1 + p.2 ≤ size))

theorem RoutingEvent.wellPlaced : WellPlaced RoutingEvent.layout RoutingEvent.size := by decide

theorem AppEvent.wellPlaced : WellPlaced AppEvent.layout AppEvent.size := by decide

theorem SdEvent.wellPlaced : WellPlaced SdEvent.layout SdEvent.size := by decide

/-! ### Reading back -/

section

variable {fields : List (Nat × List UInt8)} {layout : List (Nat × Nat)} {size : Nat} {slot : List UInt8}
  (hwell : WellPlaced layout size) (hplaces : places fields = layout) (hslot : size ≤ slot.length)

include hwell hplaces hslot

private theorem places_le : ∀ p ∈ places fields, p.1 + p.2 ≤ slot.length := by
  intro p hp
  rw [hplaces] at hp
  exact Nat.le_trans (hwell.2 p hp) hslot

private theorem bytesAt_field {off : Nat} {bs : List UInt8} (hf : (off, bs) ∈ fields) :
    Access.bytesAt (patchAll slot fields) off bs.length = bs :=
  slice_patchAll (places_le hwell hplaces hslot) (by rw [hplaces]; exact hwell.1) hf

private theorem ofLittle_field {off k n : Nat} (hn : n < 256 ^ k) (hf : (off, toLittle k n) ∈ fields) :
    ofLittle (Access.bytesAt (patchAll slot fields) off k) = n := by
  have hread := bytesAt_field hwell hplaces hslot hf
  rw [length_toLittle] at hread
  rw [hread, ofLittle_toLittle hn]

private theorem decode8_field {off : Nat} {b : UInt8} (hf : (off, [b]) ∈ fields) :
    decode8 (patchAll slot fields) off = b := by
  have hread := bytesAt_field hwell hplaces hslot hf
  unfold decode8
  rw [show 1 = [b].length from rfl, hread]
  simp [ofLittle]

private theorem decode16_field {off : Nat} {x : UInt16} (hf : (off, toLittle 2 x.toNat) ∈ fields) :
    decode16 (patchAll slot fields) off = x := by
  unfold decode16
  rw [ofLittle_field hwell hplaces hslot x.toNat_lt hf]
  exact UInt16.ofNat_toNat

private theorem decode32_field {off : Nat} {x : UInt32} (hf : (off, toLittle 4 x.toNat) ∈ fields) :
    decode32 (patchAll slot fields) off = x := by
  unfold decode32
  rw [ofLittle_field hwell hplaces hslot x.toNat_lt hf]
  exact UInt32.ofNat_toNat

private theorem decode64_field {off : Nat} {x : UInt64} (hf : (off, toLittle 8 x.toNat) ∈ fields) :
    decode64 (patchAll slot fields) off = x := by
  unfold decode64
  rw [ofLittle_field hwell hplaces hslot x.toNat_lt hf]
  exact UInt64.ofNat_toNat

private theorem decodeComm_field {off : Nat} {comm : Vector UInt8 16} (hf : (off, comm.toList) ∈ fields) :
    (Vector.ofFn fun i : Fin 16 => (Access.bytesAt (patchAll slot fields) off 16).getD i 0) = comm := by
  have hread := bytesAt_field hwell hplaces hslot hf
  rw [Vector.length_toList] at hread
  rw [hread]
  ext i hi
  rw [Vector.getElem_ofFn, List.getD_eq_getElem?_getD, List.getElem?_eq_getElem (by simpa using hi)]
  rfl

private theorem decodeRetval_field {off : Nat} {x : Int64} (hf : (off, toLittle 8 x.toUInt64.toNat) ∈ fields) :
    (decode64 (patchAll slot fields) off).toInt64 = x := by
  rw [decode64_field hwell hplaces hslot hf]
  exact Int64.toInt64_toUInt64 x

/-- The header is read back from every structure that begins with it. -/
private theorem header_field {h : EventHeader} (hf : ∀ f ∈ h.patches, f ∈ fields) :
    EventHeader.ofBytes (patchAll slot fields) = h := by
  have hret := decode8_field hwell hplaces hslot
    (hf (EventHeader.isRetprobeAt, [if h.isRetprobe then 1 else 0]) (by simp [EventHeader.patches]))
  have hflag : decide (decode8 (patchAll slot fields) EventHeader.isRetprobeAt ≠ 0) = h.isRetprobe := by
    rw [hret]
    cases h.isRetprobe <;> rfl
  unfold EventHeader.ofBytes
  rw [decode64_field hwell hplaces hslot (hf _ (by simp [EventHeader.patches]) : (_, toLittle 8 h.timestampNs.toNat) ∈ _),
    decode32_field hwell hplaces hslot
      (hf _ (by simp [EventHeader.patches]) : (EventHeader.pidAt, toLittle 4 h.pid.toNat) ∈ _),
    decode32_field hwell hplaces hslot
      (hf _ (by simp [EventHeader.patches]) : (EventHeader.tidAt, toLittle 4 h.tid.toNat) ∈ _),
    decodeComm_field hwell hplaces hslot (hf _ (by simp [EventHeader.patches]) : (_, h.comm.toList) ∈ _),
    decode8_field hwell hplaces hslot (hf _ (by simp [EventHeader.patches]) : (EventHeader.moduleIdAt, [h.moduleId]) ∈ _),
    decode8_field hwell hplaces hslot (hf _ (by simp [EventHeader.patches]) : (EventHeader.hookIdAt, [h.hookId]) ∈ _),
    decode8_field hwell hplaces hslot
      (hf _ (by simp [EventHeader.patches]) : (EventHeader.directionAt, [h.direction]) ∈ _), hflag]

end

/-! ### Round trips -/

section

variable {slot : List UInt8}

theorem RoutingEvent.hdr_ofBytes (data : List UInt8) : (RoutingEvent.ofBytes data).hdr = .ofBytes data := rfl

theorem RoutingEvent.length_toBytes (e : RoutingEvent) (hslot : size ≤ slot.length) : (e.toBytes slot).length = slot.length :=
  length_patchAll (places_le wellPlaced e.places_patches hslot)

theorem RoutingEvent.ofBytes_toBytes (e : RoutingEvent) (hslot : size ≤ slot.length) : ofBytes (e.toBytes slot) = e := by
  have hp := e.places_patches
  have hhdr : EventHeader.ofBytes (patchAll slot e.patches) = e.hdr :=
    header_field wellPlaced hp hslot fun f hf => List.mem_append_left _ hf
  have h8 : ∀ {off : Nat} {b : UInt8}, (off, [b]) ∈ e.patches → decode8 (patchAll slot e.patches) off = b :=
    decode8_field wellPlaced hp hslot
  have h16 : ∀ {off : Nat} {x : UInt16}, (off, toLittle 2 x.toNat) ∈ e.patches →
      decode16 (patchAll slot e.patches) off = x := decode16_field wellPlaced hp hslot
  have h32 : decode32 (patchAll slot e.patches) payloadLengthAt = e.payloadLength :=
    decode32_field wellPlaced hp hslot (by simp [patches])
  have h64 : (decode64 (patchAll slot e.patches) retvalAt).toInt64 = e.retval :=
    decodeRetval_field wellPlaced hp hslot (by simp [patches])
  unfold ofBytes toBytes
  rw [hhdr, h16 (show (serviceIdAt, toLittle 2 e.serviceId.toNat) ∈ e.patches by simp [patches]),
    h16 (show (methodIdAt, toLittle 2 e.methodId.toNat) ∈ e.patches by simp [patches]),
    h16 (show (clientIdAt, toLittle 2 e.clientId.toNat) ∈ e.patches by simp [patches]),
    h16 (show (sessionIdAt, toLittle 2 e.sessionId.toNat) ∈ e.patches by simp [patches]),
    h8 (show (protocolVersionAt, [e.protocolVersion]) ∈ e.patches by simp [patches]),
    h8 (show (interfaceVersionAt, [e.interfaceVersion]) ∈ e.patches by simp [patches]),
    h8 (show (messageTypeAt, [e.messageType]) ∈ e.patches by simp [patches]),
    h8 (show (returnCodeAt, [e.returnCode]) ∈ e.patches by simp [patches]), h32, h64]

theorem AppEvent.hdr_ofBytes (data : List UInt8) : (AppEvent.ofBytes data).hdr = .ofBytes data := rfl

theorem AppEvent.length_toBytes (e : AppEvent) (hslot : size ≤ slot.length) : (e.toBytes slot).length = slot.length :=
  length_patchAll (places_le wellPlaced e.places_patches hslot)

theorem AppEvent.ofBytes_toBytes (e : AppEvent) (hslot : size ≤ slot.length) : ofBytes (e.toBytes slot) = e := by
  have hp := e.places_patches
  have hhdr : EventHeader.ofBytes (patchAll slot e.patches) = e.hdr :=
    header_field wellPlaced hp hslot fun f hf => List.mem_append_left _ hf
  have hthis : decode64 (patchAll slot e.patches) thisPtrAt = e.thisPtr :=
    decode64_field wellPlaced hp hslot (by simp [patches])
  have hmessage : decode64 (patchAll slot e.patches) messagePtrAt = e.messagePtr :=
    decode64_field wellPlaced hp hslot (by simp [patches])
  have hretval : (decode64 (patchAll slot e.patches) retvalAt).toInt64 = e.retval :=
    decodeRetval_field wellPlaced hp hslot (by simp [patches])
  unfold ofBytes toBytes
  rw [hhdr, hthis, hmessage, hretval]

theorem SdEvent.hdr_ofBytes (data : List UInt8) : (SdEvent.ofBytes data).hdr = .ofBytes data := rfl

theorem SdEvent.length_toBytes (e : SdEvent) (hslot : size ≤ slot.length) : (e.toBytes slot).length = slot.length :=
  length_patchAll (places_le wellPlaced e.places_patches hslot)

theorem SdEvent.ofBytes_toBytes (e : SdEvent) (hslot : size ≤ slot.length) : ofBytes (e.toBytes slot) = e := by
  have hp := e.places_patches
  have hhdr : EventHeader.ofBytes (patchAll slot e.patches) = e.hdr :=
    header_field wellPlaced hp hslot fun f hf => List.mem_append_left _ hf
  have h16 : ∀ {off : Nat} {x : UInt16}, (off, toLittle 2 x.toNat) ∈ e.patches →
      decode16 (patchAll slot e.patches) off = x := decode16_field wellPlaced hp hslot
  have httl : decode32 (patchAll slot e.patches) ttlAt = e.ttl := decode32_field wellPlaced hp hslot (by simp [patches])
  unfold ofBytes toBytes
  rw [hhdr, h16 (show (serviceIdAt, toLittle 2 e.serviceId.toNat) ∈ e.patches by simp [patches]),
    h16 (show (instanceIdAt, toLittle 2 e.instanceId.toNat) ∈ e.patches by simp [patches]),
    h16 (show (eventgroupIdAt, toLittle 2 e.eventgroupId.toNat) ∈ e.patches by simp [patches]), httl]

end

end VsomeipCollector

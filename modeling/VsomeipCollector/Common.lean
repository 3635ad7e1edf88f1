import Mathlib.Data.Nat.Notation

/-!
# Constants and event structures (`src/common`)

The SOME/IP constants of `vsomeip_types.h` and the event structures that the BPF programs submit and the user side
reads: a common header (`event_header.h`) followed by the fields of the module.
-/

namespace VsomeipCollector

/-! ### Message types, header layout, directions (`vsomeip_types.h`) -/

def someipMtRequest : UInt8 := 0x00
def someipMtRequestNoReturn : UInt8 := 0x01
def someipMtNotification : UInt8 := 0x02
def someipMtRequestAck : UInt8 := 0x40
def someipMtResponse : UInt8 := 0x80
def someipMtError : UInt8 := 0x81

def someipHeaderSize : Nat := 16

def dirSend : UInt8 := 0
def dirRecv : UInt8 := 1

/-! ### Event structures -/

structure EventHeader where
  timestampNs : UInt64
  pid : UInt32
  tid : UInt32
  comm : Vector UInt8 16
  moduleId : UInt8
  hookId : UInt8
  direction : UInt8
  isRetprobe : Bool
deriving DecidableEq, Repr

structure RoutingEvent where
  hdr : EventHeader
  serviceId : UInt16
  methodId : UInt16
  clientId : UInt16
  sessionId : UInt16
  protocolVersion : UInt8
  interfaceVersion : UInt8
  messageType : UInt8
  returnCode : UInt8
  payloadLength : UInt32
  retval : Int64
deriving DecidableEq, Repr

structure AppEvent where
  hdr : EventHeader
  thisPtr : UInt64
  messagePtr : UInt64
  retval : Int64
deriving DecidableEq, Repr

structure SdEvent where
  hdr : EventHeader
  serviceId : UInt16
  instanceId : UInt16
  eventgroupId : UInt16
  ttl : UInt32
deriving DecidableEq, Repr

end VsomeipCollector

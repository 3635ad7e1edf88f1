import VsomeipCollector.Common
import VsomeipCollector.Library.Numerals

/-!
# Log lines (`src/user/output/log_writer.h`)

What the program hands to its log writer.  A line is kept as the values its format string prints: the intervals
and latencies in nanoseconds, before the conversion to floating point.
-/

namespace VsomeipCollector

open Numerals

/-! ### Texts -/

/-- `snprintf` of a text into a buffer of `size` bytes: it is cut so that its terminator fits.  Of a character that is cut
in two nothing is kept here. -/
def snprintf (size : Nat) (text : String) : String := String.ofList (fitting (size - 1) text.toList)

/-- The conversion `0x%x`. -/
def hex (n : Nat) : String := "0x" ++ String.ofList (Nat.toDigits 16 n)

/-! ### Lines -/

inductive LogLine where
  /-- `write_latency` from `try_match`. -/
  | latency (svc method client session : UInt16) (typeStr : String) (sendTs recvTs lat : UInt64)
  /-- `write_stats` from `flush_report`: the traffic of one module. -/
  | modStats (nm : String) (elapse send recv : UInt64)
  /-- `write_stats` from `flush_report`: the summary of the samples. -/
  | latencyStats (samples : Nat) (avgUs p50Us p99Us maxUs : UInt64)
  /-- `write_stats` from `evict_expired`. -/
  | timeout (key elapsedMs : UInt64)
  /-- `write_event` from a handler, with the text its `format_payload` made. -/
  | event (hdr : EventHeader) (hook payload : String)
deriving DecidableEq, Repr

namespace LogLine

/-- The line is a `[LATENCY]` line. -/
def isLatency : LogLine → Bool
  | latency .. => true
  | _ => false

/-- The line reports a request that timed out. -/
def isTimeout : LogLine → Bool
  | timeout .. => true
  | _ => false

/-- How many samples the line summarises. -/
def samples : LogLine → Nat
  | latencyStats n .. => n
  | _ => 0

end LogLine

end VsomeipCollector

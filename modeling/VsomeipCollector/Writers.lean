import VsomeipCollector.Config
import VsomeipCollector.Output

/-!
# The log writers (`src/user/output`)

Both writers print an event as one line: the common header, the fields that the `format_payload` of the module writes
into a buffer, and the end of the line.  They name the module by a chain of comparisons of their own.

A line is a sequence of bytes, since the process name in the header is: it is printed with `%s`, up to its terminator.
-/

namespace VsomeipCollector

/-- What the `format_payload` of a module leaves in a buffer of the given size. -/
abbrev FormatPayload := Nat → String

namespace FileWriter

def moduleValue (moduleId : UInt8) : String :=
  if moduleId = 1 then "routing" else if moduleId = 2 then "app" else if moduleId = 3 then "sd" else "?"

end FileWriter

/-! ### `stdout_writer.cpp` -/

namespace StdoutWriter

def moduleValue (moduleId : UInt8) : String :=
  if moduleId = 1 then "routing" else if moduleId = 2 then "app" else if moduleId = 3 then "sd" else "?"

end StdoutWriter

end VsomeipCollector

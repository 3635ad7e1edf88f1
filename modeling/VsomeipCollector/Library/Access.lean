import VsomeipCollector.Library.Endian

/-!
# Accesses within bounds

A computation over a record of bytes and some tables that stops at its first access out of bounds, with the access.  It
is safe if it does not stop so; then all its accesses were within their bounds.
-/

namespace Access

open Endian

universe u v

/-- An access out of bounds: of bytes of the record, or of an entry of a table. -/
inductive Fault (T : Type u) where
  | read (off width : Nat)
  | index (table : T) (i : Nat)
deriving DecidableEq, Repr

abbrev Checked (T : Type u) (α : Type v) := Except (Fault T) α

variable {T : Type u} {α β : Type v}

/-- The `width` bytes at `off`. -/
def bytesAt (data : List UInt8) (off width : Nat) : List UInt8 := (data.drop off).take width

def readBytes (data : List UInt8) (off width : Nat) : Checked T (List UInt8) :=
  if off + width ≤ data.length then .ok (bytesAt data off width) else .error (.read off width)

/-- A number of `width` bytes, the least significant first. -/
def readLittle (data : List UInt8) (off width : Nat) : Checked T Nat := ofLittle <$> readBytes data off width

/-- The string at `off`, up to the first zero byte: without one the read goes on after the last byte. -/
def readCString (data : List UInt8) (off : Nat) : Checked T (List UInt8) :=
  if 0 ∈ data.drop off then .ok ((data.drop off).takeWhile (· ≠ 0)) else .error (.read (max off data.length) 1)

def index (table : T) (xs : List α) (i : Nat) : Checked T α :=
  match xs[i]? with
  | some x => .ok x
  | none => .error (.index table i)

/-- The value, or a stop at the access `f`. -/
def orFault (f : Fault T) : Option α → Checked T α
  | some a => .ok a
  | none => .error f

/-- The computation ends without an access out of bounds. -/
def Safe (c : Checked T α) : Prop := ∃ a, c = .ok a

theorem safe_ok (a : α) : Safe (.ok a : Checked T α) := ⟨a, rfl⟩

theorem not_safe_error (f : Fault T) : ¬ Safe (.error f : Checked T α) := by
  rintro ⟨a, h⟩
  cases h

theorem not_safe_bind_left {c : Checked T α} (h : ¬ Safe c) (f : α → Checked T β) : ¬ Safe (c >>= f) := by
  cases c with
  | ok a => exact absurd (safe_ok a) h
  | error e => exact not_safe_error e

/-- A computation that stops later on is not safe either. -/
theorem not_safe_bind {c : Checked T α} {f : α → Checked T β} (h : ∀ a, ¬ Safe (f a)) : ¬ Safe (c >>= f) := by
  cases c with
  | ok a => exact h a
  | error e => exact not_safe_error e

theorem safe_orFault_iff (f : Fault T) (o : Option α) : Safe (orFault f o) ↔ o.isSome := by
  cases o with
  | some a => exact iff_of_true (safe_ok a) rfl
  | none => exact iff_of_false (not_safe_error f) (by simp)

@[simp] theorem ok_bind (a : α) (f : α → Checked T β) : (Except.ok a >>= f) = f a := rfl

@[simp] theorem map_ok (f : α → β) (a : α) : f <$> (Except.ok a : Checked T α) = .ok (f a) := rfl

@[simp] theorem map_error (f : α → β) (e : Fault T) : f <$> (Except.error e : Checked T α) = .error e := rfl

/-- Two tests that lead to one of two results. -/
theorem ite_ite_ok (p q : Prop) [Decidable p] [Decidable q] (a b : α) :
    (if p then if q then .ok a else .ok b else .ok b : Checked T α) = .ok (if p ∧ q then a else b) := by
  by_cases hp : p
  · by_cases hq : q
    · rw [if_pos hp, if_pos hq, if_pos ⟨hp, hq⟩]
    · rw [if_pos hp, if_neg hq, if_neg fun h => hq h.2]
  · rw [if_neg hp, if_neg fun h => hp h.1]

theorem index_eq (table : T) (xs : List α) (i : Nat) : index table xs i = orFault (.index table i) xs[i]? := by
  unfold index orFault
  cases xs[i]? <;> rfl

theorem orFault_bind (f : Fault T) (o : Option α) (g : α → β) :
    (orFault f o >>= fun a => pure (g a)) = orFault f (o.map g) := by
  cases o <;> rfl

theorem orFault_map (f : Fault T) (o : Option α) (g : α → β) : g <$> orFault f o = orFault f (o.map g) := by
  cases o <;> rfl

theorem safe_map_iff (g : α → β) (c : Checked T α) : Safe (g <$> c) ↔ Safe c := by
  cases c with
  | ok a => exact iff_of_true (safe_ok (g a)) (safe_ok a)
  | error e => exact iff_of_false (not_safe_error e) (not_safe_error e)

theorem readBytes_eq {data : List UInt8} {off width : Nat} (h : off + width ≤ data.length) :
    (readBytes data off width : Checked T _) = .ok (bytesAt data off width) := if_pos h

theorem readLittle_eq {data : List UInt8} {off width : Nat} (h : off + width ≤ data.length) :
    (readLittle data off width : Checked T _) = .ok (ofLittle (bytesAt data off width)) := by
  unfold readLittle
  rw [readBytes_eq h, map_ok]

theorem readLittle_eq_error {data : List UInt8} {off width : Nat} (h : data.length < off + width) :
    (readLittle data off width : Checked T _) = .error (.read off width) := by
  unfold readLittle readBytes
  rw [if_neg (Nat.not_le.2 h), map_error]

theorem safe_readCString_iff (data : List UInt8) (off : Nat) :
    Safe (readCString data off : Checked T _) ↔ 0 ∈ data.drop off := by
  unfold readCString
  split
  · rename_i hzero
    exact iff_of_true (safe_ok _) hzero
  · rename_i hzero
    exact iff_of_false (not_safe_error _) hzero

end Access

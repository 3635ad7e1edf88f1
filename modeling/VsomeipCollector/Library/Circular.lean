import Mathlib.Data.List.Basic
import Mathlib.Data.Nat.Notation

/-!
# Circular memory

A memory of `size` cells is addressed by positions that only grow: position `pos` is the cell `pos % size`.  Within a
window of `size` positions different positions are different cells, so what is written there at some positions can be
read back (`read_write`) and is not seen at others (`ChangedWithin.read_eq`).
-/

namespace Circular

variable {α : Type*} (size : Nat)

/-- The contents of the `n` positions from `pos` on. -/
def read (mem : Nat → α) (pos n : Nat) : List α := (List.range n).map fun i => mem ((pos + i) % size)

/-- Writes at the positions from `pos` on. -/
def write (mem : Nat → α) (pos : Nat) : List α → Nat → α
  | [] => mem
  | x :: xs => write (fun j => if j = pos % size then x else mem j) (pos + 1) xs

@[simp] theorem length_read (mem : Nat → α) (pos n : Nat) : (read size mem pos n).length = n := by simp [read]

theorem getElem_read (mem : Nat → α) (pos n i : Nat) (h : i < (read size mem pos n).length) :
    (read size mem pos n)[i] = mem ((pos + i) % size) := by simp [read]

theorem read_add (mem : Nat → α) (pos m n : Nat) :
    read size mem pos (m + n) = read size mem pos m ++ read size mem (pos + m) n := by
  unfold read
  rw [List.range_add, List.map_append, List.map_map]
  simp only [Function.comp_def, Nat.add_assoc]

theorem read_mod_add (mem : Nat → α) (pos k n : Nat) : read size mem (pos % size + k) n = read size mem (pos + k) n := by
  unfold read
  apply List.map_congr_left
  intro i _
  rw [Nat.add_assoc, Nat.add_assoc, Nat.mod_add_mod]

variable {size}

theorem read_congr {mem mem' : Nat → α} {pos n : Nat}
    (h : ∀ i < n, mem ((pos + i) % size) = mem' ((pos + i) % size)) : read size mem pos n = read size mem' pos n :=
  List.map_congr_left fun i hi => h i (List.mem_range.1 hi)

/-- Different positions of a window are different cells. -/
theorem mod_ne {a b : Nat} (hlt : a < b) (hwin : b < a + size) : a % size ≠ b % size := by
  intro h
  have hdvd : (b - a) % size = 0 := Nat.sub_mod_eq_zero_of_mod_eq h.symm
  rw [Nat.mod_eq_of_lt (by omega)] at hdvd
  omega

theorem write_of_ne {mem : Nat → α} {pos : Nat} {xs : List α} {j : Nat}
    (h : ∀ i < xs.length, j ≠ (pos + i) % size) : write size mem pos xs j = mem j := by
  induction xs generalizing mem pos with
  | nil => rfl
  | cons x xs ih =>
    unfold write
    rw [ih]
    · exact if_neg (h 0 (by simp))
    · intro i hi
      have hj := h (i + 1) (by simpa using hi)
      rwa [Nat.add_assoc, Nat.add_comm 1 i]

theorem write_apply {mem : Nat → α} {pos : Nat} {xs : List α} (hsize : xs.length ≤ size) {i : Nat} (hi : i < xs.length) :
    write size mem pos xs ((pos + i) % size) = xs[i] := by
  induction xs generalizing mem pos i with
  | nil => cases hi
  | cons x xs ih =>
    simp only [List.length_cons] at hsize hi
    unfold write
    cases i with
    | zero =>
      -- the later cells are others
      rw [Nat.add_zero, write_of_ne]
      · exact if_pos rfl
      · exact fun k hk => mod_ne (by omega) (by omega)
    | succ i =>
      rw [show pos + (i + 1) = pos + 1 + i by omega, ih (by omega) (by omega)]
      rfl

theorem read_write (mem : Nat → α) (pos : Nat) {xs : List α} (hsize : xs.length ≤ size) :
    read size (write size mem pos xs) pos xs.length = xs := by
  apply List.ext_getElem (length_read ..)
  intro i h1 h2
  rw [getElem_read, write_apply hsize h2]

variable (size) in
/-- `mem'` is `mem` but for the cells of the `n` positions from `pos` on. -/
def ChangedWithin (mem mem' : Nat → α) (pos n : Nat) : Prop :=
  ∀ i, (∀ k < n, i % size ≠ (pos + k) % size) → mem' (i % size) = mem (i % size)

theorem changedWithin_write (mem : Nat → α) (pos : Nat) (xs : List α) :
    ChangedWithin size mem (write size mem pos xs) pos xs.length := fun _ h => write_of_ne h

theorem ChangedWithin.mono {mem mem' : Nat → α} {pos n n' : Nat} (h : ChangedWithin size mem mem' pos n) (hle : n ≤ n') :
    ChangedWithin size mem mem' pos n' := fun i hi => h i fun k hk => hi k (Nat.lt_of_lt_of_le hk hle)

theorem ChangedWithin.shift {mem mem' : Nat → α} {pos d n : Nat} (h : ChangedWithin size mem mem' (pos + d) n) :
    ChangedWithin size mem mem' pos (d + n) := by
  intro i hi
  refine h i fun k hk => ?_
  rw [Nat.add_assoc]
  exact hi (d + k) (by omega)

/-- What changes at other positions of a window is not seen. -/
theorem ChangedWithin.read_eq {mem mem' : Nat → α} {base pos n q m : Nat} (h : ChangedWithin size mem mem' pos n)
    (hpos : base ≤ pos) (hpos' : pos + n ≤ base + size) (hq : base ≤ q) (hq' : q + m ≤ base + size)
    (hdisj : pos + n ≤ q ∨ q + m ≤ pos) : read size mem' q m = read size mem q m := by
  apply read_congr
  intro i hi
  apply h
  intro k hk
  rcases hdisj with hle | hle
  · exact (mod_ne (by omega) (by omega)).symm
  · exact mod_ne (by omega) (by omega)

end Circular

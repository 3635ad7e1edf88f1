import Mathlib.Data.List.Basic
import Mathlib.Data.Nat.Notation

/-!
# Fields of a record in memory

A record is a list of cells, a field of it some cells at an offset.  `patchAll` writes fields over what the record held.
Fields that are apart from each other are all read back (`slice_patchAll`), and the cells that belong to no field, such
as padding, keep what they held (`getElem?_patchAll`).
-/

namespace Patch

variable {α : Type*}

/-- The `width` cells at `off`. -/
def slice (data : List α) (off width : Nat) : List α := (data.drop off).take width

/-- The cells `xs` written at `off`. -/
def patch (data : List α) (off : Nat) (xs : List α) : List α := data.take off ++ xs ++ data.drop (off + xs.length)

/-- All fields written, each at its offset. -/
def patchAll (data : List α) (fields : List (Nat × List α)) : List α :=
  fields.foldl (fun d f => patch d f.1 f.2) data

/-- Two places, each an offset with a width, have no cell in common. -/
def Apart (p q : Nat × Nat) : Prop := p.1 + p.2 ≤ q.1 ∨ q.1 + q.2 ≤ p.1

instance (p q : Nat × Nat) : Decidable (Apart p q) :=
  inferInstanceAs (Decidable (p.1 + p.2 ≤ q.1 ∨ q.1 + q.2 ≤ p.1))

/-- The places of fields. -/
def places (fields : List (Nat × List α)) : List (Nat × Nat) := fields.map fun f => (f.1, f.2.length)

section

variable {data xs : List α} {off : Nat} (h : off + xs.length ≤ data.length)

include h

@[simp] theorem length_patch : (patch data off xs).length = data.length := by
  unfold patch
  simp only [List.length_append, List.length_take, List.length_drop]
  omega

theorem getElem?_patch_of_not_mem {i : Nat} (hi : i < off ∨ off + xs.length ≤ i) : (patch data off xs)[i]? = data[i]? := by
  have htake : (data.take off).length = off := by
    rw [List.length_take]
    omega
  unfold patch
  rcases hi with hi | hi
  · rw [List.append_assoc, List.getElem?_append_left (by omega), List.getElem?_take_of_lt hi]
  · rw [List.getElem?_append_right (by rw [List.length_append]; omega), List.getElem?_drop, List.length_append, htake,
      Nat.add_sub_cancel' hi]

theorem slice_patch_self : slice (patch data off xs) off xs.length = xs := by
  have htake : (data.take off).length = off := by
    rw [List.length_take]
    omega
  unfold slice patch
  rw [List.append_assoc, List.drop_append_of_le_length (by omega), List.drop_eq_nil_of_le (by omega), List.nil_append,
    List.take_left]

end

theorem slice_congr {data data' : List α} {off width : Nat} (h : ∀ i, off ≤ i → i < off + width → data[i]? = data'[i]?) :
    slice data off width = slice data' off width := by
  apply List.ext_getElem?
  intro i
  unfold slice
  by_cases hi : i < width
  · rw [List.getElem?_take_of_lt hi, List.getElem?_take_of_lt hi, List.getElem?_drop, List.getElem?_drop]
    exact h (off + i) (by omega) (by omega)
  · rw [List.getElem?_take_eq_none (by omega), List.getElem?_take_eq_none (by omega)]

private theorem in_tail {f : Nat × List α} {fields : List (Nat × List α)} {data : List α}
    (hin : ∀ p ∈ places (f :: fields), p.1 + p.2 ≤ data.length) :
    f.1 + f.2.length ≤ data.length ∧ ∀ p ∈ places fields, p.1 + p.2 ≤ (patch data f.1 f.2).length := by
  have hf : f.1 + f.2.length ≤ data.length := hin (f.1, f.2.length) List.mem_cons_self
  refine ⟨hf, fun p hp => ?_⟩
  rw [length_patch hf]
  exact hin p (List.mem_cons_of_mem _ hp)

section

variable {fields : List (Nat × List α)} {data : List α} (hin : ∀ p ∈ places fields, p.1 + p.2 ≤ data.length)

include hin

@[simp] theorem length_patchAll : (patchAll data fields).length = data.length := by
  induction fields generalizing data with
  | nil => rfl
  | cons f fields ih =>
    obtain ⟨hf, htail⟩ := in_tail hin
    exact (ih htail).trans (length_patch hf)

/-- Cells outside of the fields keep what they held. -/
theorem getElem?_patchAll {i : Nat} (hi : ∀ p ∈ places fields, i < p.1 ∨ p.1 + p.2 ≤ i) :
    (patchAll data fields)[i]? = data[i]? := by
  induction fields generalizing data with
  | nil => rfl
  | cons f fields ih =>
    obtain ⟨hf, htail⟩ := in_tail hin
    have hrec := ih htail fun p hp => hi p (List.mem_cons_of_mem _ hp)
    exact hrec.trans (getElem?_patch_of_not_mem hf (hi (f.1, f.2.length) List.mem_cons_self))

/-- Fields that are apart are all read back. -/
theorem slice_patchAll (hapart : (places fields).Pairwise Apart) {f : Nat × List α} (hf : f ∈ fields) :
    slice (patchAll data fields) f.1 f.2.length = f.2 := by
  induction fields generalizing data with
  | nil => cases hf
  | cons g fields ih =>
    obtain ⟨hg, htail⟩ := in_tail hin
    obtain ⟨hhead, htails⟩ := List.pairwise_cons.1 hapart
    rcases List.mem_cons.1 hf with rfl | hf
    · -- what is written later is elsewhere
      have hkeep : slice (patchAll (patch data f.1 f.2) fields) f.1 f.2.length =
          slice (patch data f.1 f.2) f.1 f.2.length := by
        apply slice_congr
        intro i hi hi'
        apply getElem?_patchAll htail
        intro p hp
        rcases hhead p hp with h | h
        · exact .inl (Nat.lt_of_lt_of_le hi' h)
        · exact .inr (Nat.le_trans h hi)
      exact hkeep.trans (slice_patch_self hg)
    · exact ih htail htails hf

end

end Patch

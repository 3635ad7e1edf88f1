import Mathlib.Algebra.BigOperators.Group.List.Basic
import Mathlib.Algebra.Order.BigOperators.Group.List
import Mathlib.Algebra.Order.Ring.Nat
import Mathlib.Data.List.Sort

/-!
# Quantiles and means of samples

In a sorted list the entry at place `i` has `i + 1` entries up to it and all but `i` from it on.  So the entry at place
`p * n / 100` is a `p`-th percentile (`isPercentile_get`): a sample for which `p` percent of the samples are at most,
and `100 - p` percent at least, the sample.  The mean of numbers, rounded down, lies between two bounds of the numbers.
-/

namespace Quantile

variable {α : Type*} {r : α → α → Prop}

/-- `v` is a sample with at least `p` percent of the samples below or equal, and the others above or equal. -/
structure IsPercentile (r : α → α → Prop) [DecidableRel r] (p : Nat) (v : α) (l : List α) : Prop where
  mem : v ∈ l
  below : p * l.length ≤ 100 * l.countP (r · v)
  above : (100 - p) * l.length ≤ 100 * l.countP (r v ·)

/-- Later entries of a sorted list are not smaller. -/
theorem rel_get (hr : ∀ a, r a a) {l : List α} (h : l.Pairwise r) {i j : Nat} (hij : i ≤ j)
    (hj : j < l.length) : r (l.get ⟨i, by omega⟩) (l.get ⟨j, hj⟩) := by
  rcases Nat.eq_or_lt_of_le hij with rfl | hlt
  · exact hr _
  · exact List.pairwise_iff_get.1 h _ _ hlt

variable [DecidableRel r]

/-- The entries up to a place of a sorted list. -/
theorem succ_le_countP (hr : ∀ a, r a a) {l : List α} (h : l.Pairwise r) {i : Nat} (hi : i < l.length) :
    i + 1 ≤ l.countP (r · (l.get ⟨i, hi⟩)) := by
  have hall : ∀ x ∈ l.take (i + 1), decide (r x (l.get ⟨i, hi⟩)) = true := by
    intro x hx
    obtain ⟨j, hj, rfl⟩ := List.mem_take_iff_getElem.1 hx
    exact decide_eq_true (rel_get hr h (by omega) hi)
  have hsub := (List.take_sublist (i + 1) l).countP_le (p := fun x => decide (r x (l.get ⟨i, hi⟩)))
  rw [List.countP_eq_length.2 hall, List.length_take] at hsub
  omega

/-- The entries from a place of a sorted list on. -/
theorem sub_le_countP (hr : ∀ a, r a a) {l : List α} (h : l.Pairwise r) {i : Nat} (hi : i < l.length) :
    l.length - i ≤ l.countP (r (l.get ⟨i, hi⟩) ·) := by
  have hall : ∀ x ∈ l.drop i, decide (r (l.get ⟨i, hi⟩) x) = true := by
    intro x hx
    obtain ⟨j, hj, rfl⟩ := List.mem_drop_iff_getElem.1 hx
    have hj' : i + j < l.length := by omega
    exact decide_eq_true (rel_get hr h (Nat.le_add_right i j) hj')
  have hsub := (List.drop_sublist i l).countP_le (p := fun x => decide (r (l.get ⟨i, hi⟩) x))
  rw [List.countP_eq_length.2 hall, List.length_drop] at hsub
  exact hsub

/-- The place of a percentile is one of the list. -/
theorem rank_lt {n p : Nat} (hn : 0 < n) (hp : p < 100) : n * p / 100 < n := by
  have h : n * p < n * 100 := Nat.mul_lt_mul_of_pos_left hp hn
  omega

/-- The entry at the place of a percentile is one, also of the samples before they were sorted. -/
theorem isPercentile_get (hr : ∀ a, r a a) {l s : List α} (hs : s.Pairwise r) (hperm : s.Perm l) {p : Nat}
    (hp : p ≤ 100) (hi : s.length * p / 100 < s.length) : IsPercentile r p (s.get ⟨s.length * p / 100, hi⟩) l where
  mem := hperm.mem_iff.1 (List.get_mem _ _)
  below := by
    have h := succ_le_countP hr hs hi
    rw [hperm.countP_eq] at h
    rw [← hperm.length_eq, Nat.mul_comm p]
    omega
  above := by
    have h := sub_le_countP hr hs hi
    rw [hperm.countP_eq] at h
    have hsplit : (100 - p) * s.length + s.length * p = 100 * s.length := by
      rw [Nat.mul_comm s.length, ← Nat.add_mul, Nat.sub_add_cancel hp]
    rw [← hperm.length_eq]
    omega

/-! ### Means -/

/-- Bounded numbers have a bounded sum. -/
theorem sum_le_length_mul {l : List Nat} {hi : Nat} (h : ∀ x ∈ l, x ≤ hi) : l.sum ≤ l.length * hi := by
  simpa using List.sum_le_card_nsmul l hi h

/-- A mean rounded down lies between two bounds of the numbers. -/
theorem mean_between {l : List Nat} (hl : l ≠ []) {lo hi : Nat} (hlo : ∀ x ∈ l, lo ≤ x) (hhi : ∀ x ∈ l, x ≤ hi) :
    lo ≤ l.sum / l.length ∧ l.sum / l.length ≤ hi := by
  have hpos : 0 < l.length := List.length_pos_iff.2 hl
  have hle : l.length * lo ≤ l.sum := by
    simpa using List.card_nsmul_le_sum l lo hlo
  constructor
  · rw [Nat.le_div_iff_mul_le hpos, Nat.mul_comm]
    exact hle
  · exact Nat.div_le_of_le_mul (sum_le_length_mul hhi)

end Quantile

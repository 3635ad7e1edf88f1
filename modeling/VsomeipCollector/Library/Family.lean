import Mathlib.Logic.Function.Basic
import VsomeipCollector.Library.Run

/-!
# A family of machines

Machines of different kinds take their steps one at a time, in any order.  None of them sees the others: the state of a
machine after a run of the family is its state after its own actions (`runFrom_family`), and what it puts out on the way
is what it puts out in these (`collect_family`).
-/

namespace Family

open Run

variable {ι : Type*} [DecidableEq ι] {σ α : ι → Type*}

/-- One of the machines takes a step. -/
def step (next : ∀ i, σ i → α i → σ i) (s : ∀ i, σ i) (a : Σ i, α i) : ∀ i, σ i :=
  Function.update s a.1 (next a.1 (s a.1) a.2)

/-- The action, if the machine takes it. -/
def ownAction (i : ι) (a : Σ i, α i) : Option (α i) := if h : a.1 = i then some (h ▸ a.2) else none

/-- The actions of one machine. -/
def part (i : ι) (as : List (Σ i, α i)) : List (α i) := as.filterMap (ownAction i)

/-- The values that belong to one machine. -/
def valuesOf {β : Type*} (i : ι) (ys : List (ι × β)) : List β :=
  ys.filterMap fun y => if y.1 = i then some y.2 else none

theorem ownAction_self (i : ι) (a : α i) : ownAction i ⟨i, a⟩ = some a := dif_pos rfl

theorem ownAction_of_ne {i j : ι} (h : j ≠ i) (a : α j) : ownAction i ⟨j, a⟩ = none := dif_neg h

theorem part_append (i : ι) (as bs : List (Σ i, α i)) : part i (as ++ bs) = part i as ++ part i bs :=
  List.filterMap_append

theorem valuesOf_append {β : Type*} (i : ι) (xs ys : List (ι × β)) :
    valuesOf i (xs ++ ys) = valuesOf i xs ++ valuesOf i ys := List.filterMap_append

theorem valuesOf_map_self {β : Type*} (i : ι) (ys : List β) : valuesOf i (ys.map (Prod.mk i)) = ys := by
  unfold valuesOf
  rw [List.filterMap_map]
  simp

theorem valuesOf_map_of_ne {β : Type*} {i j : ι} (h : j ≠ i) (ys : List β) : valuesOf i (ys.map (Prod.mk j)) = [] := by
  unfold valuesOf
  rw [List.filterMap_map]
  simp [h]

theorem valuesOf_map {β γ : Type*} (f : β → γ) (i : ι) (ys : List (ι × β)) :
    valuesOf i (ys.map (Prod.map id f)) = (valuesOf i ys).map f := by
  unfold valuesOf
  rw [List.filterMap_map, List.map_filterMap]
  refine List.filterMap_congr fun y _ => ?_
  show (if y.1 = i then some (f y.2) else none) = (if y.1 = i then some y.2 else none).map f
  split <;> rfl

theorem mem_valuesOf {β : Type*} {ys : List (ι × β)} {y : ι × β} (h : y ∈ ys) : y.2 ∈ valuesOf y.1 ys :=
  List.mem_filterMap.2 ⟨y, h, if_pos rfl⟩

theorem filter_eq_map_valuesOf {β : Type*} (i : ι) (ys : List (ι × β)) :
    ys.filter (fun y => y.1 = i) = (valuesOf i ys).map (Prod.mk i) := by
  induction ys with
  | nil => rfl
  | cons y ys ih =>
    obtain ⟨j, b⟩ := y
    unfold valuesOf at ih ⊢
    by_cases h : j = i
    · subst h
      simp [ih]
    · simp [h, ih]

theorem part_map_self (i : ι) (as : List (α i)) : part i (as.map (Sigma.mk i)) = as := by
  unfold part
  rw [List.filterMap_map]
  simp [ownAction_self]

theorem part_map_of_ne {i j : ι} (h : j ≠ i) (as : List (α j)) : part i (as.map (Sigma.mk j)) = [] := by
  unfold part
  rw [List.filterMap_map]
  simp [ownAction_of_ne h]

/-- Where the machines act one after the other, each has its own actions. -/
theorem part_flatMap (f : ∀ i, List (α i)) {is : List ι} (his : is.Nodup) (i : ι) :
    part i (is.flatMap fun j => (f j).map (Sigma.mk j)) = if i ∈ is then f i else [] := by
  induction is with
  | nil => rfl
  | cons j is ih =>
    obtain ⟨hj, his⟩ := List.nodup_cons.1 his
    rw [List.flatMap_cons, part_append, ih his]
    by_cases h : j = i
    · subst h
      rw [part_map_self, if_neg hj, if_pos List.mem_cons_self, List.append_nil]
    · rw [part_map_of_ne h, List.nil_append]
      simp only [List.mem_cons, Ne.symm h, false_or]

variable (next : ∀ i, σ i → α i → σ i)

/-- A machine is where its own actions lead. -/
theorem runFrom_family (s : ∀ i, σ i) (as : List (Σ i, α i)) (i : ι) :
    runFrom (step next) s as i = runFrom (next i) (s i) (part i as) := by
  induction as using List.reverseRecOn with
  | nil => rfl
  | append_singleton as a ih =>
    obtain ⟨j, a⟩ := a
    rw [runFrom_concat, part_append, runFrom_append, ← ih]
    by_cases h : j = i
    · subst h
      show Function.update _ j _ j = runFrom _ _ ([⟨j, a⟩].filterMap (ownAction j))
      rw [Function.update_self, List.filterMap_cons_some (ownAction_self j a)]
      rfl
    · show Function.update _ j _ i = runFrom _ _ ([⟨j, a⟩].filterMap (ownAction i))
      rw [Function.update_of_ne (Ne.symm h), List.filterMap_cons_none (ownAction_of_ne h a)]
      rfl

/-- A machine puts out what it puts out in its own actions. -/
theorem collect_family {β : Type*} (out : ∀ i, σ i → α i → List β) (s : ∀ i, σ i) (as : List (Σ i, α i)) (i : ι) :
    valuesOf i (collect (step next) (fun s a => (out a.1 (s a.1) a.2).map (Prod.mk a.1)) s as) =
      collect (next i) (out i) (s i) (part i as) := by
  induction as using List.reverseRecOn with
  | nil => rfl
  | append_singleton as a ih =>
    obtain ⟨j, a⟩ := a
    rw [collect_concat, valuesOf_append, part_append, collect_append, ih, runFrom_family]
    congr 1
    by_cases h : j = i
    · subst h
      show valuesOf j (List.map _ _) = collect _ _ _ ([⟨j, a⟩].filterMap (ownAction j))
      rw [valuesOf_map_self, List.filterMap_cons_some (ownAction_self j a), ← runFrom_family]
      exact (List.append_nil _).symm
    · show valuesOf i (List.map _ _) = collect _ _ _ ([⟨j, a⟩].filterMap (ownAction i))
      rw [valuesOf_map_of_ne h, List.filterMap_cons_none (ownAction_of_ne h a)]
      rfl

end Family

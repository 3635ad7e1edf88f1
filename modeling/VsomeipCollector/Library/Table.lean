import Mathlib.Data.Finmap
import Mathlib.Data.List.Sort

/-!
# Unordered tables

A hash table with unspecified iteration order is a finite map (`Finmap`): two tables with the same content are
equal.  Code that walks such a table sees its entries in some order, given here as an `Enumeration`, a choice of a
list for every multiset.

`eraseLoop` is the loop that walks a table and erases as it goes.  Whatever the order, it erases exactly the
entries that satisfy the condition (`lookup_eraseLoop`, `entries_eraseLoop`) and meets each of them once
(`eraseLoop_snd`).
-/

namespace Table

/-- An order in which to walk through a multiset. -/
structure Enumeration (α : Type*) where
  list : Multiset α → List α
  coe_list : ∀ m, (list m : Multiset α) = m

namespace Enumeration

variable {α : Type*}

@[simp] theorem mem_list (o : Enumeration α) {m : Multiset α} {a : α} : a ∈ o.list m ↔ a ∈ m := by
  rw [← Multiset.mem_coe, o.coe_list]

/-- The elements in the order of an injective numbering. -/
def sortedBy (f : α → Nat) (hf : Function.Injective f) : Enumeration α :=
  have : IsTrans α (f · ≤ f ·) := ⟨fun _ _ _ => Nat.le_trans⟩
  have : Std.Antisymm (α := α) (f · ≤ f ·) := ⟨fun _ _ h h' => hf (Nat.le_antisymm h h')⟩
  have : Std.Total (α := α) (f · ≤ f ·) := ⟨fun a b => Nat.le_total (f a) (f b)⟩
  { list := fun m => Quot.liftOn m (List.insertionSort (f · ≤ f ·)) fun _ _ h =>
      ((List.perm_insertionSort _ _).trans (h.trans (List.perm_insertionSort _ _).symm)).eq_of_pairwise'
        (List.pairwise_insertionSort _ _) (List.pairwise_insertionSort _ _)
    coe_list := fun m => Quot.inductionOn m fun l => Multiset.coe_eq_coe.2 (List.perm_insertionSort _ l) }

end Enumeration

variable {κ ν μ : Type*}

/-- A table of values under keys. -/
abbrev Tbl (κ ν : Type*) := Finmap fun _ : κ => ν

/-- A key with its value. -/
abbrev Entry (κ ν : Type*) := Sigma fun _ : κ => ν

/-- Replace every value, keeping the keys. -/
def mapValues (f : ν → μ) (t : Tbl κ ν) : Tbl κ μ where
  entries := t.entries.map fun e => ⟨e.1, f e.2⟩
  nodupKeys := by
    rw [← Multiset.nodup_keys]
    simpa [Multiset.keys, Multiset.map_map] using Multiset.nodup_keys.2 t.nodupKeys

variable [DecidableEq κ]

/-- An entry of a table is what the table holds under its key. -/
theorem mem_entries_iff {t : Tbl κ ν} {e : Entry κ ν} : e ∈ t.entries ↔ t.lookup e.1 = some e.2 :=
  Finmap.lookup_eq_some_iff.symm

theorem lookup_mapValues (f : ν → μ) (t : Tbl κ ν) (k : κ) :
    (mapValues f t).lookup k = (t.lookup k).map f := by
  cases h : t.lookup k with
  | some v =>
    have he : (⟨k, v⟩ : Entry κ ν) ∈ t.entries := mem_entries_iff.2 h
    have hf : (⟨k, f v⟩ : Entry κ μ) ∈ (mapValues f t).entries := Multiset.mem_map.2 ⟨_, he, rfl⟩
    exact mem_entries_iff.1 hf
  | none =>
    rw [Option.map_none, Option.eq_none_iff_forall_not_mem]
    intro u hu
    have hf : (⟨k, u⟩ : Entry κ μ) ∈ (mapValues f t).entries := mem_entries_iff.2 hu
    obtain ⟨⟨k', v⟩, he, hk⟩ := Multiset.mem_map.1 hf
    cases hk
    rw [mem_entries_iff] at he
    cases h.symm.trans he

theorem card_entries_insert {t : Tbl κ ν} {k : κ} (h : t.lookup k = none) (v : ν) :
    Multiset.card (t.insert k v).entries = Multiset.card t.entries + 1 := by
  rw [Finmap.entries_insert_of_notMem (Finmap.lookup_eq_none.1 h), Multiset.card_cons]

theorem card_entries_erase {t : Tbl κ ν} {k : κ} {v : ν} (h : t.lookup k = some v) :
    Multiset.card (t.erase k).entries + 1 = Multiset.card t.entries := by
  have hk : k ∈ t.keys := Finmap.mem_keys.2 (Finmap.mem_of_lookup_eq_some h)
  have hc : ∀ u : Tbl κ ν, Multiset.card u.entries = u.keys.card := by
    intro u; simp [Finmap.keys, Multiset.keys, Finset.card]
  rw [hc, hc, Finmap.keys_erase, Finset.card_erase_add_one hk]

/-! ### Erasing while walking -/

/-- Walk through the entries `visit` and erase from `t` those that satisfy `p`; the erased entries are returned in
the order in which the walk met them. -/
def eraseLoop (p : Entry κ ν → Bool) : List (Entry κ ν) → Tbl κ ν → Tbl κ ν × List (Entry κ ν)
  | [], t => (t, [])
  | e :: visit, t =>
    if p e then
      let r := eraseLoop p visit (t.erase e.1)
      (r.1, e :: r.2)
    else eraseLoop p visit t

theorem eraseLoop_snd (p : Entry κ ν → Bool) (visit : List (Entry κ ν)) (t : Tbl κ ν) :
    (eraseLoop p visit t).2 = visit.filter p := by
  induction visit generalizing t with
  | nil => rfl
  | cons e visit ih =>
    unfold eraseLoop
    split
    · rename_i hp; simp [ih, hp]
    · rename_i hp; simp [ih, hp]

private theorem lookup_eraseLoop_of_mem {p : Entry κ ν → Bool} {visit : List (Entry κ ν)} {t : Tbl κ ν} {k : κ}
    (h : t.lookup k = none ∨ ∃ e ∈ visit, e.1 = k ∧ p e) : (eraseLoop p visit t).1.lookup k = none := by
  induction visit generalizing t with
  | nil =>
    rcases h with h | ⟨e, he, _⟩
    · exact h
    · cases he
  | cons e visit ih =>
    unfold eraseLoop
    split
    · rename_i hp
      apply ih
      by_cases hk : k = e.1
      · left; rw [hk, Finmap.lookup_erase]
      · rcases h with h | ⟨e', he', hek, hpe⟩
        · left; rw [Finmap.lookup_erase_ne hk, h]
        · rcases List.mem_cons.1 he' with rfl | he'
          · exact absurd hek.symm hk
          · exact Or.inr ⟨e', he', hek, hpe⟩
    · rename_i hp
      apply ih
      rcases h with h | ⟨e', he', hek, hpe⟩
      · exact Or.inl h
      · rcases List.mem_cons.1 he' with rfl | he'
        · exact absurd hpe hp
        · exact Or.inr ⟨e', he', hek, hpe⟩

private theorem lookup_eraseLoop_of_forall {p : Entry κ ν → Bool} {visit : List (Entry κ ν)} {t : Tbl κ ν} {k : κ}
    (h : ∀ e ∈ visit, e.1 = k → ¬ p e) : (eraseLoop p visit t).1.lookup k = t.lookup k := by
  induction visit generalizing t with
  | nil => rfl
  | cons e visit ih =>
    unfold eraseLoop
    have ih' := fun t => ih (t := t) fun e' he' => h e' (List.mem_cons_of_mem _ he')
    split
    · rename_i hp
      have hk : k ≠ e.1 := fun hk => h e (List.mem_cons_self ..) hk.symm hp
      show (eraseLoop p visit (t.erase e.1)).1.lookup k = _
      rw [ih', Finmap.lookup_erase_ne hk]
    · exact ih' t

/-- The walk through the whole table keeps, under each key, the value that does not satisfy the condition. -/
theorem lookup_eraseLoop (p : Entry κ ν → Bool) (o : Enumeration (Entry κ ν)) (t : Tbl κ ν) (k : κ) :
    (eraseLoop p (o.list t.entries) t).1.lookup k = (t.lookup k).filter fun v => !p ⟨k, v⟩ := by
  cases h : t.lookup k with
  | none => exact lookup_eraseLoop_of_mem (Or.inl h)
  | some v =>
    have hm : (⟨k, v⟩ : Entry κ ν) ∈ o.list t.entries := by rw [o.mem_list, mem_entries_iff]; exact h
    rw [Option.filter_some]
    -- the walk meets the entry of `k`, and no other entry under `k`
    by_cases hp : p ⟨k, v⟩ = true
    · rw [lookup_eraseLoop_of_mem (Or.inr ⟨⟨k, v⟩, hm, rfl, hp⟩), hp]
      rfl
    · rw [lookup_eraseLoop_of_forall, h, Bool.eq_false_of_not_eq_true hp]
      · rfl
      · rintro ⟨k', v'⟩ he rfl
        rw [o.mem_list, mem_entries_iff, h] at he
        cases he
        exact hp

/-- As a multiset: the walk keeps the entries that do not satisfy the condition. -/
theorem entries_eraseLoop (p : Entry κ ν → Bool) (o : Enumeration (Entry κ ν)) (t : Tbl κ ν) :
    (eraseLoop p (o.list t.entries) t).1.entries = t.entries.filter fun e => ¬ p e := by
  refine (Multiset.Nodup.ext (Finmap.nodup_entries _) ((Finmap.nodup_entries t).filter _)).2 fun e => ?_
  rw [mem_entries_iff, lookup_eraseLoop, Multiset.mem_filter, mem_entries_iff, Option.filter_eq_some_iff]
  simp

/-- As a multiset: the walk erases the entries that satisfy the condition. -/
theorem coe_eraseLoop_snd (p : Entry κ ν → Bool) (o : Enumeration (Entry κ ν)) (t : Tbl κ ν) :
    ((eraseLoop p (o.list t.entries) t).2 : Multiset (Entry κ ν)) = t.entries.filter fun e => p e := by
  rw [eraseLoop_snd]
  conv => rhs; rw [← o.coe_list t.entries]
  rw [Multiset.filter_coe]
  simp

/-- What the walk erases and what it keeps is all there was. -/
theorem card_eraseLoop (p : Entry κ ν → Bool) (o : Enumeration (Entry κ ν)) (t : Tbl κ ν) :
    Multiset.card (eraseLoop p (o.list t.entries) t).1.entries +
      (eraseLoop p (o.list t.entries) t).2.length = Multiset.card t.entries := by
  rw [entries_eraseLoop, ← Multiset.coe_card, coe_eraseLoop_snd, Nat.add_comm, ← Multiset.card_add,
    Multiset.filter_add_not]

/-- A walk followed by one whose condition is weaker leaves what the second would have left alone, and the two
together erase what it would have erased. -/
theorem eraseLoop_eraseLoop {p q : Entry κ ν → Bool} {t : Tbl κ ν} (hpq : ∀ e ∈ t.entries, p e = true → q e = true)
    (o o' o'' : Enumeration (Entry κ ν)) :
    let t' := (eraseLoop p (o.list t.entries) t).1
    (eraseLoop q (o'.list t'.entries) t').1 = (eraseLoop q (o''.list t.entries) t).1 ∧
      ((eraseLoop p (o.list t.entries) t).2 ++ (eraseLoop q (o'.list t'.entries) t').2).Perm
        (eraseLoop q (o''.list t.entries) t).2 := by
  intro t'
  have ht' : t'.entries = t.entries.filter fun e => ¬ p e := entries_eraseLoop p o t
  constructor
  · refine Finmap.ext ?_
    rw [entries_eraseLoop, ht', Multiset.filter_filter, entries_eraseLoop]
    refine Multiset.filter_congr fun e he => ⟨fun h => h.1, fun h => ⟨h, fun hp => h (hpq e he hp)⟩⟩
  · refine Multiset.coe_eq_coe.1 ?_
    rw [← Multiset.coe_add, coe_eraseLoop_snd, coe_eraseLoop_snd, coe_eraseLoop_snd, ht', Multiset.filter_filter]
    -- the entries of the second walk split into those the first erased and the others
    have hp : (t.entries.filter fun e => p e) = (t.entries.filter fun e => q e).filter fun e => p e := by
      rw [Multiset.filter_filter]
      exact Multiset.filter_congr fun e he => ⟨fun h => ⟨h, hpq e he h⟩, fun h => h.1⟩
    have hn : (t.entries.filter fun e => q e ∧ ¬ p e) = (t.entries.filter fun e => q e).filter fun e => ¬ p e := by
      rw [Multiset.filter_filter]
      exact Multiset.filter_congr fun e _ => and_comm
    rw [hp, hn, Multiset.filter_add_not]

end Table

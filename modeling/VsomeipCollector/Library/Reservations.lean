import Mathlib.Data.List.TakeWhile
import VsomeipCollector.Library.Run

/-!
# A queue of reservations

Several producers and one consumer share a queue.  A producer reserves an entry, fills it as it likes and then commits
or discards it, in any order with the others.  The consumer takes the entries in the order of their reservation, and
waits at the first one that is still open.

A step leaves the entries that are closed as they are (`step_closed`).  Whatever the order of steps, the consumer has
been handed the committed ones of the entries it has passed, in order and each once (`received_eq`).
-/

namespace Reservations

open Run

variable {α : Type*}

inductive Entry (α : Type*) where
  /-- Reserved, with what it holds so far. -/
  | filling (a : α)
  | committed (a : α)
  | discarded
deriving DecidableEq, Repr

namespace Entry

def isOpen : Entry α → Bool
  | filling _ => true
  | committed _ => false
  | discarded => false

/-- What the consumer is handed of it. -/
def handed : Entry α → Option α
  | filling _ => none
  | committed a => some a
  | discarded => none

def fill (a : α) : Entry α → Entry α
  | filling _ => filling a
  | e => e

def commit : Entry α → Entry α
  | filling a => committed a
  | e => e

def discard : Entry α → Entry α
  | filling _ => discarded
  | e => e

end Entry

/-- All entries that were ever reserved, and how many of them the consumer has passed. -/
structure Queue (α : Type*) where
  entries : List (Entry α) := []
  taken : Nat := 0

inductive Op (α : Type*) where
  | reserve (a : α)
  | fill (i : Nat) (a : α)
  | commit (i : Nat)
  | discard (i : Nat)
  | take

namespace Queue

/-- The entry that the consumer takes next, if it need not wait. -/
def next (q : Queue α) : Option (Entry α) := (q.entries[q.taken]?).filter fun e => !e.isOpen

def step (q : Queue α) : Op α → Queue α
  | .reserve a => { q with entries := q.entries ++ [.filling a] }
  | .fill i a => { q with entries := q.entries.modify i (Entry.fill a) }
  | .commit i => { q with entries := q.entries.modify i Entry.commit }
  | .discard i => { q with entries := q.entries.modify i Entry.discard }
  | .take => if q.next.isSome then { q with taken := q.taken + 1 } else q

/-- What the consumer is handed in a step. -/
def out (q : Queue α) : Op α → List α
  | .take => (q.next.bind Entry.handed).toList
  | _ => []

def run (ops : List (Op α)) : Queue α := runFrom step {} ops

/-- What the consumer has been handed. -/
def received (ops : List (Op α)) : List α := collect step out {} ops

/-- The entries that the consumer can pass before it has to wait. -/
def ready (q : Queue α) : List (Entry α) := (q.entries.drop q.taken).takeWhile fun e => !e.isOpen

/-- What the entries that were passed hold. -/
def passed (q : Queue α) : List α := (q.entries.take q.taken).filterMap Entry.handed

end Queue

/-! ### Entries -/

/-- A closed entry does not change. -/
theorem Entry.closed_fixed {e : Entry α} (h : e.isOpen = false) (a : α) :
    e.fill a = e ∧ e.commit = e ∧ e.discard = e := by
  cases e with
  | filling a => cases h
  | committed a | discarded => exact ⟨rfl, rfl, rfl⟩

namespace Queue

theorem next_eq_some {q : Queue α} {e : Entry α} :
    q.next = some e ↔ q.entries[q.taken]? = some e ∧ e.isOpen = false := by
  simp [next, Option.filter_eq_some_iff]

theorem step_take (q : Queue α) :
    q.step .take = if q.next.isSome then { q with taken := q.taken + 1 } else q := rfl

/-! ### What can be passed -/

theorem ready_of_next {q : Queue α} {e : Entry α} (h : q.next = some e) : q.ready = e :: (q.step .take).ready := by
  obtain ⟨hget, hclosed⟩ := next_eq_some.1 h
  obtain ⟨hlt, rfl⟩ := List.getElem?_eq_some_iff.1 hget
  rw [step_take, h]
  unfold ready
  rw [List.drop_eq_getElem_cons hlt, List.takeWhile_cons]
  simp only [hclosed, Bool.not_false, Option.isSome_some, ↓reduceIte]

theorem ready_of_open {q : Queue α} {e : Entry α} (h : q.entries[q.taken]? = some e) (he : e.isOpen = true) :
    q.ready = [] := by
  obtain ⟨hlt, rfl⟩ := List.getElem?_eq_some_iff.1 h
  unfold ready
  rw [List.drop_eq_getElem_cons hlt, List.takeWhile_cons]
  simp only [he, Bool.not_true, Bool.false_eq_true, ↓reduceIte]

theorem length_ready_le (q : Queue α) : q.ready.length ≤ q.entries.length - q.taken := by
  unfold ready
  rw [← List.length_drop]
  exact (List.takeWhile_sublist _).length_le

/-- Where no entry is open all of them can be passed. -/
theorem ready_of_closed {q : Queue α} (h : ∀ e ∈ q.entries, e.isOpen = false) : q.ready = q.entries.drop q.taken := by
  apply List.takeWhile_eq_self_iff.2
  intro e he
  rw [h e (List.mem_of_mem_drop he)]
  rfl

/-! ### One step -/

/-- The entries that were passed are there, and closed. -/
def Sound (q : Queue α) : Prop := q.taken ≤ q.entries.length ∧ ∀ e ∈ q.entries.take q.taken, e.isOpen = false

/-- A step leaves the closed entries as they are. -/
theorem step_closed (q : Queue α) (op : Op α) {i : Nat} {e : Entry α} (hi : q.entries[i]? = some e)
    (he : e.isOpen = false) : (q.step op).entries[i]? = some e := by
  have hmodify : ∀ (j : Nat) (f : Entry α → Entry α), f e = e → (q.entries.modify j f)[i]? = some e := by
    intro j f hf
    rw [List.getElem?_modify, hi]
    split
    · exact congrArg some hf
    · rfl
  cases op with
  | reserve a =>
    obtain ⟨hlt, -⟩ := List.getElem?_eq_some_iff.1 hi
    show (q.entries ++ [Entry.filling a])[i]? = some e
    rw [List.getElem?_append_left hlt]
    exact hi
  | fill j a => exact hmodify j _ (Entry.closed_fixed he a).1
  | commit j =>
    refine hmodify j _ ?_
    cases e with
    | filling a => cases he
    | committed a | discarded => rfl
  | discard j =>
    refine hmodify j _ ?_
    cases e with
    | filling a => cases he
    | committed a | discarded => rfl
  | take =>
    rw [step_take]
    split <;> exact hi

private theorem length_le_step (q : Queue α) (op : Op α) : q.entries.length ≤ (q.step op).entries.length := by
  cases op with
  | reserve a => simp [step]
  | fill i a | commit i | discard i => simp [step]
  | take =>
    rw [step_take]
    split <;> exact Nat.le_refl _

/-- The entries that were passed stay as they are. -/
theorem take_step {q : Queue α} (hq : q.Sound) (op : Op α) :
    (q.step op).entries.take q.taken = q.entries.take q.taken := by
  apply List.ext_getElem?
  intro i
  by_cases hi : i < q.taken
  · rw [List.getElem?_take_of_lt hi, List.getElem?_take_of_lt hi]
    have hlt : i < q.entries.length := Nat.lt_of_lt_of_le hi hq.1
    have hget := List.getElem?_eq_getElem hlt
    rw [hget]
    refine step_closed q op hget (hq.2 _ ?_)
    exact List.mem_take_iff_getElem.2 ⟨i, by omega, rfl⟩
  · rw [List.getElem?_take_eq_none (by omega), List.getElem?_take_eq_none (by omega)]

theorem step_taken_cases (q : Queue α) (op : Op α) :
    ((q.step op).taken = q.taken ∧ q.out op = []) ∨
      ∃ e, op = .take ∧ q.next = some e ∧ q.step op = { q with taken := q.taken + 1 } ∧ q.out op = e.handed.toList := by
  cases op with
  | take =>
    rw [step_take]
    unfold out
    cases hn : q.next with
    | none => exact .inl ⟨rfl, rfl⟩
    | some e => exact .inr ⟨e, rfl, rfl, rfl, rfl⟩
  | reserve a | fill i a | commit i | discard i => exact .inl ⟨rfl, rfl⟩

private theorem take_next {q : Queue α} {e : Entry α} (h : q.next = some e) :
    q.entries.take (q.taken + 1) = q.entries.take q.taken ++ [e] := by
  rw [List.take_add_one, (next_eq_some.1 h).1]
  rfl

theorem Sound.step {q : Queue α} (hq : q.Sound) (op : Op α) : (q.step op).Sound := by
  rcases step_taken_cases q op with ⟨htaken, -⟩ | ⟨e, rfl, hn, hstep, -⟩
  · refine ⟨?_, ?_⟩
    · rw [htaken]
      exact Nat.le_trans hq.1 (length_le_step q op)
    · rw [htaken, take_step hq]
      exact hq.2
  · obtain ⟨hget, hclosed⟩ := next_eq_some.1 hn
    obtain ⟨hlt, -⟩ := List.getElem?_eq_some_iff.1 hget
    rw [hstep]
    refine ⟨hlt, ?_⟩
    show ∀ e' ∈ q.entries.take (q.taken + 1), e'.isOpen = false
    rw [take_next hn]
    intro e' he'
    rcases List.mem_append.1 he' with he' | he'
    · exact hq.2 e' he'
    · rw [List.mem_singleton.1 he']
      exact hclosed

/-- A step hands out what the entry it passes holds. -/
theorem passed_step {q : Queue α} (hq : q.Sound) (op : Op α) : (q.step op).passed = q.passed ++ q.out op := by
  rcases step_taken_cases q op with ⟨htaken, hout⟩ | ⟨e, rfl, hn, hstep, hout⟩
  · unfold passed
    rw [htaken, take_step hq, hout, List.append_nil]
  · rw [hstep, hout]
    unfold passed
    rw [take_next hn, List.filterMap_append]
    cases e with
    | filling a | committed a | discarded => rfl

/-! ### Runs -/

theorem sound_run (ops : List (Op α)) : (run ops).Sound :=
  runFrom_invariant Sound (fun _ op h => h.step op) ⟨Nat.le_refl 0, by simp⟩ ops

/-- Whatever the order of steps, the consumer has been handed the committed ones of the entries it has passed, in the
order of their reservation and each once. -/
theorem received_eq (ops : List (Op α)) : received ops = (run ops).passed := by
  induction ops using List.reverseRecOn with
  | nil => rfl
  | append_singleton ops op ih =>
    unfold received run at ih ⊢
    rw [collect_concat, runFrom_concat, ih]
    exact (passed_step (sound_run ops) op).symm

end Queue

end Reservations

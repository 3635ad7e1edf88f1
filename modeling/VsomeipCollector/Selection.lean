import VsomeipCollector.Config
import VsomeipCollector.Library.Fields

/-!
# Selecting modules (`src/user/main.cpp`)

`main` goes through the table `file_groups` and creates a collector for every module that `--enable` and `--disable`
leave on.  It does not take the lists apart but searches them for the name of the module as a substring, so a name is
also found inside a longer one.  When that makes a difference is said by `selection_follows_lists_iff`.
-/

namespace VsomeipCollector

open Fields

/-! ### The loop over `file_groups` -/

/-- `std::string::find`; `none` is `npos`. -/
def stringFind (text name : String) : Option Nat := firstOccurrence name.toList text.toList

/-- What the loop has made so far. -/
structure Registered where
  collectors : List FileGroup := []
  enabledNames : String := ""
deriving DecidableEq, Repr

def isEnabled (enableList disableList modName : String) : Bool :=
  let enabled := true
  let enabled := if enableList ≠ "" then (stringFind enableList modName).isSome else enabled
  if disableList ≠ "" then
    if (stringFind disableList modName).isSome then false else enabled
  else enabled

/-- One round: `new Collector(&file_groups[i])`, if the module is enabled. -/
def register (enableList disableList : String) (r : Registered) (g : FileGroup) : Registered :=
  if isEnabled enableList disableList g.name then
    { collectors := r.collectors ++ [g]
      enabledNames := (if r.enabledNames ≠ "" then r.enabledNames ++ " " else r.enabledNames) ++ g.name }
  else r

def registerAll (enableList disableList : String) (groups : List FileGroup) : Registered :=
  groups.foldl (register enableList disableList) {}

/-! ### The lists as the user wrote them -/

/-- The elements of a comma-separated list; the empty argument has none. -/
def elements (list : String) : List String :=
  if list = "" then [] else (list.toList.splitOn ',').map String.ofList

/-- The module is to be monitored. -/
def Wanted (enableList disableList name : String) : Prop :=
  (enableList = "" ∨ name ∈ elements enableList) ∧ name ∉ elements disableList

/-- The name occurs inside an element of the list. -/
def OccursIn (name list : String) : Prop := ∃ x ∈ elements list, name.toList <:+: x.toList

/-- The name occurs inside an element of the list and is no element itself. -/
def MerelyOccursIn (name list : String) : Prop := OccursIn name list ∧ name ∉ elements list

instance (enableList disableList name : String) : Decidable (Wanted enableList disableList name) :=
  inferInstanceAs (Decidable ((enableList = "" ∨ name ∈ elements enableList) ∧ name ∉ elements disableList))

instance (name list : String) : Decidable (OccursIn name list) :=
  inferInstanceAs (Decidable (∃ x ∈ elements list, name.toList <:+: x.toList))

instance (name list : String) : Decidable (MerelyOccursIn name list) :=
  inferInstanceAs (Decidable (OccursIn name list ∧ name ∉ elements list))

theorem OccursIn.of_mem {name list : String} (h : name ∈ elements list) : OccursIn name list :=
  ⟨name, h, List.infix_rfl⟩

/-! ### What the loop creates -/

private theorem registerAll_from (enableList disableList : String) (groups : List FileGroup) (r : Registered) :
    (groups.foldl (register enableList disableList) r).collectors =
      r.collectors ++ groups.filter fun g => isEnabled enableList disableList g.name := by
  induction groups generalizing r with
  | nil => simp
  | cons g groups ih =>
    rw [List.foldl_cons, ih]
    unfold register
    split
    · rename_i h
      simp [h]
    · rename_i h
      simp [h]

/-- The collectors are made in the order of the table, one for each enabled module. -/
theorem collectors_registerAll (enableList disableList : String) (groups : List FileGroup) :
    (registerAll enableList disableList groups).collectors =
      groups.filter fun g => isEnabled enableList disableList g.name :=
  (registerAll_from enableList disableList groups {}).trans (List.nil_append _)

/-- A name without a comma is found in a list exactly where it occurs inside an element. -/
theorem stringFind_isSome_iff {name list : String} (hcomma : ',' ∉ name.toList) (hlist : list ≠ "") :
    (stringFind list name).isSome ↔ OccursIn name list := by
  unfold stringFind OccursIn elements
  rw [firstOccurrence_isSome_iff, infix_iff_exists_field hcomma, if_neg hlist]
  simp

private theorem not_occursIn_empty (name : String) : ¬ OccursIn name "" := by
  rintro ⟨x, hx, -⟩
  cases hx

theorem isEnabled_iff {name : String} (hcomma : ',' ∉ name.toList) (enableList disableList : String) :
    isEnabled enableList disableList name ↔
      (enableList = "" ∨ OccursIn name enableList) ∧ ¬ OccursIn name disableList := by
  have henable : (if enableList ≠ "" then (stringFind enableList name).isSome else true) = true ↔
      enableList = "" ∨ OccursIn name enableList := by
    by_cases he : enableList = ""
    · simp [he]
    · simp [he, stringFind_isSome_iff hcomma he]
  unfold isEnabled
  dsimp only
  by_cases hd : disableList = ""
  · rw [hd, if_neg (fun h => h rfl), henable]
    simp [not_occursIn_empty]
  · rw [if_pos hd, ← stringFind_isSome_iff hcomma hd]
    split
    · rename_i hfound
      simp [hfound]
    · rename_i hfound
      rw [henable]
      simp [hfound]

/-! ### When the selection is the one asked for -/

private theorem selected_iff_wanted (enableList disableList : String) {groups : List FileGroup} {g : FileGroup}
    (hg : g ∈ groups) (hcomma : ',' ∉ g.name.toList) :
    (g ∈ (registerAll enableList disableList groups).collectors ↔ Wanted enableList disableList g.name) ↔
      (MerelyOccursIn g.name enableList → OccursIn g.name disableList) ∧
        (MerelyOccursIn g.name disableList → enableList ≠ "" ∧ g.name ∉ elements enableList) := by
  have hmem : g ∈ (registerAll enableList disableList groups).collectors ↔
      (enableList = "" ∨ OccursIn g.name enableList) ∧ ¬ OccursIn g.name disableList := by
    rw [collectors_registerAll, List.mem_filter, ← isEnabled_iff hcomma]
    exact and_iff_right hg
  have hempty : enableList = "" → ¬ OccursIn g.name enableList := fun h => h ▸ not_occursIn_empty g.name
  rw [hmem]
  unfold Wanted MerelyOccursIn
  constructor
  · intro h
    refine ⟨fun ⟨hin, hnot⟩ => ?_, fun ⟨hin, hnot⟩ => ⟨fun he => ?_, fun he => ?_⟩⟩
    · by_contra hd
      rcases (h.1 ⟨.inr hin, hd⟩).1 with he | he
      · exact hempty he hin
      · exact hnot he
    · exact (h.2 ⟨.inl he, hnot⟩).2 hin
    · exact (h.2 ⟨.inr he, hnot⟩).2 hin
  · rintro ⟨henable, hdisable⟩
    constructor
    · rintro ⟨he, hd⟩
      refine ⟨he.imp_right fun hin => ?_, fun hnot => hd (.of_mem hnot)⟩
      by_contra hnot
      exact hd (henable ⟨hin, hnot⟩)
    · rintro ⟨he, hnot⟩
      refine ⟨he.imp_right .of_mem, fun hin => ?_⟩
      obtain ⟨hne, hnot'⟩ := hdisable ⟨hin, hnot⟩
      exact he.elim hne hnot'

/-- The selection follows the lists exactly where no name that merely occurs inside an element decides it: one found
in the enable list is found in the disable list too, and one found in the disable list is not asked for anyway. -/
theorem selection_follows_lists_iff (enableList disableList : String) {groups : List FileGroup}
    (hcomma : ∀ g ∈ groups, ',' ∉ g.name.toList) :
    (∀ g ∈ groups, g ∈ (registerAll enableList disableList groups).collectors ↔
      Wanted enableList disableList g.name) ↔
    ∀ g ∈ groups, (MerelyOccursIn g.name enableList → OccursIn g.name disableList) ∧
      (MerelyOccursIn g.name disableList → enableList ≠ "" ∧ g.name ∉ elements enableList) :=
  forall₂_congr fun g hg => selected_iff_wanted enableList disableList hg (hcomma g hg)

/-- A module of which only the name matters. -/
def namedGroup (name : String) (moduleId : Nat) : FileGroup :=
  ⟨name, "events", moduleId, 0, [], [], name ++ "_event_handler"⟩

/-- The shipped modules, two of them asked for. -/
theorem selection_follows_lists_iff_shipped :
    let groups := [namedGroup "routing" 1, namedGroup "app" 2, namedGroup "sd" 3]
    (registerAll "routing,app" "" groups).collectors = [namedGroup "routing" 1, namedGroup "app" 2] ∧
      ∀ g ∈ groups, g ∈ (registerAll "routing,app" "" groups).collectors ↔ Wanted "routing,app" "" g.name := by
  intro groups
  have hcomma : ∀ g ∈ groups, ',' ∉ g.name.toList := by decide
  exact ⟨by decide, (selection_follows_lists_iff "routing,app" "" hcomma).2 (by decide)⟩

/-- Where the shipped modules have been joined by `sd2`, asking for it creates a collector for `sd` too. -/
theorem sd_selected_by_sd2 :
    let groups := [namedGroup "routing" 1, namedGroup "app" 2, namedGroup "sd" 3, namedGroup "sd2" 4]
    ¬ ∀ g ∈ groups, g ∈ (registerAll "sd2" "" groups).collectors ↔ Wanted "sd2" "" g.name := by
  decide

end VsomeipCollector

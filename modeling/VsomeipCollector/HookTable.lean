import VsomeipCollector.Config

/-!
# The generated table and its declared length

`hook_count` of a group is the number of hooks in `hooks.json`; `hook_cfgs_<name>` has an initialiser for those whose
symbol the offset table knows.  The two agree exactly where no symbol is missing (`tablesMatch_iff`); otherwise the
loop of `attach`, which trusts `hook_count`, reads behind the array.
-/

namespace VsomeipCollector

/-- The generated group `g` of the file `fg` has an entry for every hook, in order, and declares as many. -/
structure TableMatches (fg : FileJson) (lu : OffsetTable) (g : FileGroup) : Prop where
  count : g.hookCount = g.hooks.length
  each : ∀ (i : Nat) (h : HookJson), fg.hooks[i]? = some h →
    ∃ off, lu.get h.demangled = some off ∧ g.hooks[i]? = some ⟨h.name, fg.targetPath, off, h.retprobe⟩
  /-- No index of the loop of `attach` lies behind the array. -/
  inBounds : ∀ i < g.hookCount, i < g.hooks.length

/-- Every group of the generated table matches its file. -/
def TablesMatch (files : List FileJson) (load : String → Option OffsetTable) (cfg : HookConfig) : Prop :=
  ∀ (i : Nat) fg lu g, files[i]? = some fg → load fg.lib = some lu → cfg.fileGroups[i]? = some g →
    TableMatches fg lu g

/-- The offset table of the library of `fg` has an offset for every hook. -/
def SymbolsFound (load : String → Option OffsetTable) (fg : FileJson) : Prop :=
  ∀ h ∈ fg.hooks, ∃ lu, load fg.lib = some lu ∧ lu.get h.demangled ≠ none

/-- The initialisers are as many as the hooks exactly where no symbol is missing. -/
private theorem length_genHookCfgs_eq_iff (fg : FileJson) (lu : OffsetTable) :
    (genHookCfgs fg lu).length = fg.hooks.length ↔ ∀ h ∈ fg.hooks, lu.get h.demangled ≠ none := by
  unfold genHookCfgs
  generalize hf : (fun h : HookJson => (lu.get h.demangled).map fun off =>
    (⟨h.name, fg.targetPath, off, h.retprobe⟩ : HookCfg)) = f
  have hnone : ∀ h, f h = none ↔ lu.get h.demangled = none := fun h => by rw [← hf, Option.map_eq_none_iff]
  have hle := List.length_filterMap_le f fg.hooks
  constructor
  · intro heq h hh hn
    have hlt := List.length_filterMap_lt_length_iff_exists.2 ⟨h, hh, (hnone h).2 hn⟩
    exact absurd heq (Nat.ne_of_lt hlt)
  · intro hall
    refine Nat.le_antisymm hle (Nat.le_of_not_lt fun hlt => ?_)
    obtain ⟨h, hh, hn⟩ := List.length_filterMap_lt_length_iff_exists.1 hlt
    exact hall h hh ((hnone h).1 hn)

/-- With all symbols found the initialiser at `i` is that of hook `i`. -/
private theorem getElem?_genHookCfgs {fg : FileJson} {lu : OffsetTable}
    (hall : ∀ h ∈ fg.hooks, lu.get h.demangled ≠ none) {i : Nat} {h : HookJson} (hi : fg.hooks[i]? = some h) :
    ∃ off, lu.get h.demangled = some off ∧
      (genHookCfgs fg lu)[i]? = some ⟨h.name, fg.targetPath, off, h.retprobe⟩ := by
  unfold genHookCfgs
  generalize fg.hooks = hs at hall hi
  induction hs generalizing i with
  | nil => cases hi
  | cons h' hs ih =>
    obtain ⟨off', hoff'⟩ := Option.ne_none_iff_exists'.1 (hall h' (by simp))
    rw [List.filterMap_cons, hoff']
    cases i with
    | zero =>
      cases hi
      exact ⟨off', hoff', rfl⟩
    | succ i => exact ih (fun h hh => hall h (by simp [hh])) hi

/-- A generated group matches its file exactly where no symbol is missing. -/
theorem tableMatches_iff (fg : FileJson) (lu : OffsetTable) :
    TableMatches fg lu (genFileGroup fg lu) ↔ ∀ h ∈ fg.hooks, lu.get h.demangled ≠ none := by
  have hlen := length_genHookCfgs_eq_iff fg lu
  constructor
  · exact fun h => hlen.1 h.count.symm
  · intro hall
    have hcount : (genFileGroup fg lu).hookCount = (genFileGroup fg lu).hooks.length := (hlen.2 hall).symm
    exact {
      count := hcount
      each := fun i h hi => getElem?_genHookCfgs hall hi
      inBounds := fun i hi => hcount ▸ hi }

/-- Where the generator completes, its tables match their declared lengths exactly when every symbol was found. -/
theorem tablesMatch_iff {files : List FileJson} {load : String → Option OffsetTable} {cfg : HookConfig}
    (hgen : genConfig files load = some cfg) : TablesMatch files load cfg ↔ ∀ fg ∈ files, SymbolsFound load fg := by
  constructor
  · intro hm fg hfg h hh
    obtain ⟨i, hi⟩ := List.getElem?_of_mem hfg
    obtain ⟨lu, hlu, hg⟩ := genConfig_group hgen hi
    exact ⟨lu, hlu, (tableMatches_iff fg lu).1 (hm i fg lu _ hi hlu hg) h hh⟩
  · intro hf i fg lu g hi hlu hg
    obtain ⟨lu', hlu', hg'⟩ := genConfig_group hgen hi
    cases hlu.symm.trans hlu'
    cases hg.symm.trans hg'
    refine (tableMatches_iff fg lu).2 fun h hh => ?_
    obtain ⟨lu', hlu', hne⟩ := hf fg (List.mem_of_getElem? hi) h hh
    cases hlu.symm.trans hlu'
    exact hne

/-- A file with two hooks, the symbol of the first of which is `f` and of the second `g`. -/
def twoHooks : FileJson where
  name := "sd"
  ringbufMap := "sd_events"
  moduleId := 3
  lib := "lib.so"
  targetPath := "/usr/lib/lib.so"
  hooks := [⟨"sd_f", "f()", false⟩, ⟨"sd_g", "g()", true⟩]

theorem tablesMatch_iff_complete :
    TablesMatch [twoHooks] (fun _ => some [("f()", some 64), ("g()", some 128)])
      ⟨[genFileGroup twoHooks [("f()", some 64), ("g()", some 128)]], 3⟩ := by
  refine (tablesMatch_iff rfl).2 fun fg hfg h hh => ?_
  cases List.mem_singleton.1 hfg
  refine ⟨_, rfl, ?_⟩
  revert h
  decide

/-- Without the symbol `f` the table has one entry and declares two. -/
theorem symbol_missing :
    genConfig [twoHooks] (fun _ => some [("g()", some 128)]) = some ⟨[genFileGroup twoHooks [("g()", some 128)]], 3⟩ ∧
      ¬ TablesMatch [twoHooks] (fun _ => some [("g()", some 128)])
        ⟨[genFileGroup twoHooks [("g()", some 128)]], 3⟩ := by
  refine ⟨rfl, fun hm => ?_⟩
  have hcount := (hm 0 twoHooks _ _ rfl rfl rfl).count
  revert hcount
  decide

end VsomeipCollector

import Mathlib.Data.List.Forall2
import Mathlib.Data.List.Induction
import Mathlib.Data.List.MinMax

/-!
# Configuration: `hooks.json` and the generated headers (`scripts/gen_hook_config.sh`)

`hooks.json` lists the modules and their hooks.  The generator turns it, together with the symbol offset tables, into
`hook_ids.h` (the `MODULE_*` and `HOOK_*` macros, `genHookIds`) and `hook_config.h` (the table `file_groups`,
`genConfig`).  A hook whose symbol the offset table lacks gets no initialiser in `hook_cfgs_<name>` but is counted in
`hook_count` all the same.
-/

namespace VsomeipCollector

/-! ### `hooks.json` -/

structure HookJson where
  name : String
  demangled : String
  retprobe : Bool := false
deriving DecidableEq, Repr

structure FileJson where
  name : String
  ringbufMap : String
  moduleId : Nat
  lib : String
  targetPath : String
  hooks : List HookJson
deriving DecidableEq, Repr

/-- The rows of `<lib>.offsets.demangled.tsv` with a seventh column: the demangled name and the file offset, which
is absent where the first column is empty. -/
abbrev OffsetTable := List (String × Option UInt64)

/-- `lu.get(name)`: of several rows with one name the last is the one kept. -/
def OffsetTable.get (lu : OffsetTable) (name : String) : Option UInt64 :=
  ((lu.filter fun row => row.1 == name).getLast?).bind Prod.snd

/-! ### `hook_ids.h` -/

/-- The macros of a generated header in the order of their `#define` lines. -/
abbrev Macros := List (String × Nat)

/-- The header has a definition of the macro. -/
def Macros.Defines (ms : Macros) (name : String) : Prop := name ∈ ms.map Prod.fst

instance (ms : Macros) (name : String) : Decidable (ms.Defines name) :=
  inferInstanceAs (Decidable (name ∈ ms.map Prod.fst))

/-- The value of a macro after the whole header was read: a later definition replaces an earlier one.  What uses a macro
that the header does not define does not compile; the value 0 stands for no program. -/
def Macros.value (ms : Macros) (name : String) : Nat :=
  ((ms.filter fun m => m.1 == name).getLast?.map Prod.snd).getD 0

/-- Python's `str.upper`.  On ASCII text, which C names are made of, it is the map of the letters; what its tables say
of other characters is left open. -/
structure PyUpper where
  upper : String → String
  toList_upper : ∀ s, (∀ c ∈ s.toList, c.toNat < 128) → (upper s).toList = s.toList.map Char.toUpper

/-- The upper-casing of the letters alone. -/
def PyUpper.letters : PyUpper := ⟨fun s => String.ofList (s.toList.map Char.toUpper), fun _ _ => String.toList_ofList⟩

def genHookIds (py : PyUpper) (files : List FileJson) : Macros :=
  files.map (fun fg => ("MODULE_" ++ py.upper fg.name, fg.moduleId)) ++
    files.flatMap fun fg => fg.hooks.mapIdx fun i h => ("HOOK_" ++ py.upper h.name, i)

/-- The last module whose upper-cased name is `u`. -/
def lastModule (py : PyUpper) (files : List FileJson) (u : String) : Option FileJson :=
  (files.filter fun fg => py.upper fg.name == u).getLast?

/-- The index, in its file, of the last hook of all files whose upper-cased name is `u`. -/
def lastPlace (py : PyUpper) (files : List FileJson) (u : String) : Option Nat :=
  ((files.flatMap fun fg => fg.hooks.zipIdx).filter fun h => py.upper h.1.name == u).getLast?.map Prod.snd

private theorem beq_append (p a b : String) : (p ++ a == p ++ b) = (a == b) := by
  rw [Bool.eq_iff_iff]
  simp

private theorem module_ne_hook (a b : String) : "MODULE_" ++ a ≠ "HOOK_" ++ b := by
  intro h
  have h' := congrArg String.toList h
  simp at h'

/-- A `MODULE_*` macro has the identifier of the last module that defines it. -/
theorem value_module (py : PyUpper) (files : List FileJson) (u : String) :
    (genHookIds py files).value ("MODULE_" ++ u) = ((lastModule py files u).map FileJson.moduleId).getD 0 := by
  have hhooks : ((files.flatMap fun fg => fg.hooks.mapIdx fun i h => ("HOOK_" ++ py.upper h.name, i)).filter
      fun m => m.1 == "MODULE_" ++ u) = [] := by
    rw [List.filter_eq_nil_iff]
    intro m hm
    obtain ⟨fg, -, hm⟩ := List.mem_flatMap.1 hm
    obtain ⟨i, hi, rfl⟩ := List.mem_mapIdx.1 hm
    simpa using (module_ne_hook u _).symm
  unfold genHookIds Macros.value lastModule
  rw [List.filter_append, hhooks, List.append_nil, List.filter_map, List.getLast?_map, Option.map_map]
  simp only [Function.comp_def, beq_append]

/-- A `HOOK_*` macro has the index of the last hook that defines it. -/
theorem value_hook (py : PyUpper) (files : List FileJson) (u : String) :
    (genHookIds py files).value ("HOOK_" ++ u) = (lastPlace py files u).getD 0 := by
  have hmodules : ((files.map fun fg => ("MODULE_" ++ py.upper fg.name, fg.moduleId)).filter
      fun m => m.1 == "HOOK_" ++ u) = [] := by
    rw [List.filter_eq_nil_iff]
    intro m hm
    obtain ⟨fg, -, rfl⟩ := List.mem_map.1 hm
    simpa using module_ne_hook _ u
  have hmap : (files.flatMap fun fg => fg.hooks.mapIdx fun i h => ("HOOK_" ++ py.upper h.name, i)) =
      (files.flatMap fun fg => fg.hooks.zipIdx).map fun h => ("HOOK_" ++ py.upper h.1.name, h.2) := by
    rw [List.map_flatMap]
    simp only [List.mapIdx_eq_zipIdx_map]
  unfold genHookIds Macros.value lastPlace
  rw [List.filter_append, hmodules, List.nil_append, hmap, List.filter_map, List.getLast?_map, Option.map_map]
  simp only [Function.comp_def, beq_append]

theorem lastModule_eq_some {py : PyUpper} {files : List FileJson} {u : String} {fg : FileJson}
    (h : lastModule py files u = some fg) : fg ∈ files ∧ py.upper fg.name = u := by
  have hmem := List.mem_filter.1 (List.mem_of_getLast? h)
  exact ⟨hmem.1, beq_iff_eq.1 hmem.2⟩

theorem lastModule_isSome (py : PyUpper) {files : List FileJson} {fg : FileJson} (h : fg ∈ files) :
    (lastModule py files (py.upper fg.name)).isSome := by
  unfold lastModule
  rw [List.getLast?_isSome]
  exact List.ne_nil_of_mem (List.mem_filter.2 ⟨h, beq_self_eq_true _⟩)

theorem lastPlace_eq_some {py : PyUpper} {files : List FileJson} {u : String} {j : Nat}
    (h : lastPlace py files u = some j) :
    ∃ fg ∈ files, ∃ h : HookJson, fg.hooks[j]? = some h ∧ py.upper h.name = u := by
  obtain ⟨⟨hk, j'⟩, hl, rfl⟩ := Option.map_eq_some_iff.1 h
  have hmem := List.mem_filter.1 (List.mem_of_getLast? hl)
  obtain ⟨fg, hfg, hz⟩ := List.mem_flatMap.1 hmem.1
  exact ⟨fg, hfg, hk, List.mem_zipIdx_iff_getElem?.1 hz, beq_iff_eq.1 hmem.2⟩

theorem lastPlace_isSome (py : PyUpper) {files : List FileJson} {fg : FileJson} {i : Nat} {h : HookJson}
    (hfg : fg ∈ files) (hi : fg.hooks[i]? = some h) : (lastPlace py files (py.upper h.name)).isSome := by
  unfold lastPlace
  rw [Option.isSome_map, List.getLast?_isSome]
  have hz : (h, i) ∈ files.flatMap fun fg => fg.hooks.zipIdx :=
    List.mem_flatMap.2 ⟨fg, hfg, List.mem_zipIdx_iff_getElem?.2 hi⟩
  exact List.ne_nil_of_mem (List.mem_filter.2 ⟨hz, beq_self_eq_true _⟩)

/-! ### `hook_config.h` -/

structure HookCfg where
  name : String
  targetPath : String
  offset : UInt64
  retprobe : Bool
deriving DecidableEq, Repr

structure FileGroup where
  name : String
  ringbufMap : String
  moduleId : Nat
  hookCount : Nat
  hooks : List HookCfg
  hookNames : List String
  /-- The linker symbol of the handler function. -/
  handler : String
deriving DecidableEq, Repr

structure HookConfig where
  fileGroups : List FileGroup
  maxModuleId : Nat
deriving DecidableEq, Repr

/-- The name under which a report has a module: that of the first group with its identifier. -/
def HookConfig.reportName (cfg : HookConfig) (m : Nat) : String :=
  ((cfg.fileGroups.find? fun g => g.moduleId == m).map FileGroup.name).getD "?"

/-- The initialisers of `hook_cfgs_<name>`. -/
def genHookCfgs (fg : FileJson) (lu : OffsetTable) : List HookCfg :=
  fg.hooks.filterMap fun h =>
    (lu.get h.demangled).map fun off => ⟨h.name, fg.targetPath, off, h.retprobe⟩

def genFileGroup (fg : FileJson) (lu : OffsetTable) : FileGroup where
  name := fg.name
  ringbufMap := fg.ringbufMap
  moduleId := fg.moduleId
  hookCount := fg.hooks.length
  hooks := genHookCfgs fg lu
  hookNames := fg.hooks.map HookJson.name
  handler := fg.name ++ "_event_handler"

/-- `none` is the exit of the script on a missing offset table or an empty list of files. -/
def genConfig (files : List FileJson) (load : String → Option OffsetTable) : Option HookConfig := do
  let groups ← files.mapM fun fg => (load fg.lib).map (genFileGroup fg)
  let maxMod ← (files.map FileJson.moduleId).max?
  return ⟨groups, maxMod⟩

/-! ### The groups of a generated table -/

section

variable {files : List FileJson} {load : String → Option OffsetTable} {cfg : HookConfig}

private theorem forall₂_of_mapM {α β : Type*} {f : α → Option β} {xs : List α} {ys : List β}
    (h : xs.mapM f = some ys) : List.Forall₂ (fun x y => f x = some y) xs ys := by
  induction xs generalizing ys with
  | nil =>
    cases h
    exact .nil
  | cons x xs ih =>
    rw [List.mapM_cons] at h
    obtain ⟨y, hy, h⟩ := Option.bind_eq_some_iff.1 h
    obtain ⟨ys', hys, h⟩ := Option.bind_eq_some_iff.1 h
    cases h
    exact .cons hy (ih hys)

theorem genConfig_eq_some (h : genConfig files load = some cfg) :
    List.Forall₂ (fun fg g => ∃ lu, load fg.lib = some lu ∧ g = genFileGroup fg lu) files cfg.fileGroups ∧
      (∃ fg ∈ files, fg.moduleId = cfg.maxModuleId) ∧ ∀ fg ∈ files, fg.moduleId ≤ cfg.maxModuleId := by
  unfold genConfig at h
  obtain ⟨groups, hg, h⟩ := Option.bind_eq_some_iff.1 h
  obtain ⟨maxMod, hm, h⟩ := Option.bind_eq_some_iff.1 h
  cases h
  refine ⟨(forall₂_of_mapM hg).imp ?_, ?_⟩
  · intro fg g hfg
    obtain ⟨lu, hlu, rfl⟩ := Option.map_eq_some_iff.1 hfg
    exact ⟨lu, hlu, rfl⟩
  · obtain ⟨hmem, hle⟩ := List.max?_eq_some_iff.1 hm
    exact ⟨List.mem_map.1 hmem, fun fg hfg => hle _ (List.mem_map_of_mem hfg)⟩

/-- Every group is made from a file. -/
theorem genConfig_mem (h : genConfig files load = some cfg) {g : FileGroup} (hg : g ∈ cfg.fileGroups) :
    ∃ fg ∈ files, ∃ lu, g = genFileGroup fg lu := by
  obtain ⟨hlen, hget⟩ := List.forall₂_iff_get.1 (genConfig_eq_some h).1
  obtain ⟨i, hi, rfl⟩ := List.mem_iff_getElem.1 hg
  obtain ⟨lu, -, hlu⟩ := hget i (hlen ▸ hi) hi
  exact ⟨_, List.get_mem files ⟨i, hlen ▸ hi⟩, lu, hlu⟩

/-- The group of a file is the one made with the offset table of its library. -/
theorem genConfig_group (h : genConfig files load = some cfg) {i : Nat} {fg : FileJson} (hi : files[i]? = some fg) :
    ∃ lu, load fg.lib = some lu ∧ cfg.fileGroups[i]? = some (genFileGroup fg lu) := by
  obtain ⟨hlen, hget⟩ := List.forall₂_iff_get.1 (genConfig_eq_some h).1
  obtain ⟨hlt, rfl⟩ := List.getElem?_eq_some_iff.1 hi
  obtain ⟨lu, hlu, hg⟩ := hget i hlt (hlen ▸ hlt)
  exact ⟨lu, hlu, List.getElem?_eq_some_iff.2 ⟨hlen ▸ hlt, hg⟩⟩

end

end VsomeipCollector

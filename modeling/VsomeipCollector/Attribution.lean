import VsomeipCollector.Bpf
import VsomeipCollector.Handler

/-!
# Which hook an event is attributed to

A hook is numbered within its file, but the macro that carries the number to its BPF program is named after the hook
alone, and the number travels in eight bits.  The user side takes the number back to a name within the file.  So an
event gets the name of its hook exactly where the last hook that defines the macro stands at the same place, modulo
256 (`attributed_iff`).
-/

namespace VsomeipCollector

variable (py : PyUpper) (files : List FileJson)

/-- The identifier in the events of the hook `h`: its macro as a `uint8_t`. -/
def HookJson.eventId (h : HookJson) : UInt8 := (genHookIds py files).byte ("HOOK_" ++ py.upper h.name)

/-- Every event that the program of a hook submits is dispatched under the name of the hook. -/
def Attributed (cfg : HookConfig) : Prop :=
  ∀ (f : Nat) fg g h, files[f]? = some fg → cfg.fileGroups[f]? = some g → h ∈ fg.hooks →
    ∀ k hdr moduleId dir isRet, g.hookName (fillHeader k hdr moduleId (h.eventId py files) dir isRet) = h.name

/-- The last hook with the same upper-cased name stands at the place `i` of `h`, modulo 256.  A hook that is called like
the default of the lookup is also found where there is no hook. -/
def PlaceKept (fg : FileJson) (i : Nat) (h : HookJson) : Prop :=
  ∃ j, lastPlace py files (py.upper h.name) = some j ∧
    (j % 256 = i ∨ h.name = "unknown" ∧ fg.hooks.length ≤ j % 256)

/-- Hooks with one upper-cased name stand at one place of their files, and no file has more than 256 hooks. -/
structure OnePlace : Prop where
  few : ∀ fg ∈ files, fg.hooks.length ≤ 256
  place : ∀ fg ∈ files, ∀ fg' ∈ files, ∀ (i j : Nat) (h h' : HookJson), fg.hooks[i]? = some h → fg'.hooks[j]? = some h' →
    py.upper h.name = py.upper h'.name → i = j

variable {py files}

/-- A name that occurs once in its file is looked up exactly under its own index. -/
private theorem hookName_eq_iff {fg : FileJson} {lu : OffsetTable} {i : Nat} {h : HookJson} {hdr : EventHeader}
    (hd : (fg.hooks.map HookJson.name).Nodup) (hi : fg.hooks[i]? = some h) :
    (genFileGroup fg lu).hookName hdr = h.name ↔
      hdr.hookId.toNat = i ∨ h.name = "unknown" ∧ fg.hooks.length ≤ hdr.hookId.toNat := by
  have hname : (fg.hooks.map HookJson.name)[i]? = some h.name := by rw [List.getElem?_map, hi]; rfl
  obtain ⟨hilt, -⟩ := List.getElem?_eq_some_iff.1 hi
  unfold FileGroup.hookName genFileGroup
  dsimp only
  generalize hdr.hookId.toNat = v
  by_cases hv : v < fg.hooks.length
  · have hget : (fg.hooks.map HookJson.name)[v]? = some ((fg.hooks.map HookJson.name).getD v "unknown") := by
      rw [List.getD_eq_getElem?_getD, List.getElem?_eq_getElem (by rw [List.length_map]; exact hv)]
      rfl
    rw [if_pos hv]
    constructor
    · intro he
      left
      rw [he] at hget
      exact (List.getElem?_inj (by rw [List.length_map]; exact hv) hd).1 (hget.trans hname.symm)
    · rintro (rfl | ⟨-, hle⟩)
      · exact Option.some.inj (hget.symm.trans hname)
      · omega
  · rw [if_neg hv]
    constructor
    · exact fun he => Or.inr ⟨he.symm, Nat.le_of_not_lt hv⟩
    · rintro (rfl | ⟨he, -⟩)
      · exact absurd hilt hv
      · exact he.symm

/-- The identifier of an event is the place of the last hook with the name of its macro. -/
private theorem eventId_toNat {h : HookJson} {j : Nat} (hj : lastPlace py files (py.upper h.name) = some j) :
    (h.eventId py files).toNat = j % 256 := by
  unfold HookJson.eventId Macros.byte
  rw [value_hook, hj]
  exact UInt8.toNat_ofNat'

/-- Without a hook of the name of the default, keeping the places is having one place for each upper-cased name. -/
private theorem placeKept_iff_onePlace (hnone : ∀ fg ∈ files, ∀ h ∈ fg.hooks, h.name ≠ "unknown") :
    (∀ fg ∈ files, ∀ (i : Nat) (h : HookJson), fg.hooks[i]? = some h → PlaceKept py files fg i h) ↔
      OnePlace py files := by
  constructor
  · intro hkept
    -- the last place is known for both hooks of a pair, and it is the same
    have hplace : ∀ fg ∈ files, ∀ (i : Nat) (h : HookJson), fg.hooks[i]? = some h →
        ∃ j, lastPlace py files (py.upper h.name) = some j ∧ j % 256 = i := by
      intro fg hfg i h hi
      obtain ⟨j, hj, hji | ⟨hu, -⟩⟩ := hkept fg hfg i h hi
      · exact ⟨j, hj, hji⟩
      · exact absurd hu (hnone fg hfg h (List.mem_of_getElem? hi))
    constructor
    · intro fg hfg
      by_contra hlen
      have h256 : 256 < fg.hooks.length := Nat.lt_of_not_le hlen
      obtain ⟨j, -, hji⟩ := hplace fg hfg 256 _ (List.getElem?_eq_getElem h256)
      omega
    · intro fg hfg fg' hfg' i i' h h' hi hi' hu
      obtain ⟨j, hj, rfl⟩ := hplace fg hfg i h hi
      obtain ⟨j', hj', rfl⟩ := hplace fg' hfg' i' h' hi'
      rw [hu, hj'] at hj
      rw [Option.some.inj hj]
  · intro hone fg hfg i h hi
    obtain ⟨j, hj⟩ := Option.isSome_iff_exists.1 (lastPlace_isSome py hfg hi)
    obtain ⟨fg', hfg', h', hj', hu⟩ := lastPlace_eq_some hj
    obtain rfl := hone.place fg hfg fg' hfg' i j h h' hi hj' hu.symm
    obtain ⟨hlt, -⟩ := List.getElem?_eq_some_iff.1 hi
    exact ⟨i, hj, Or.inl (Nat.mod_eq_of_lt (Nat.lt_of_lt_of_le hlt (hone.few fg hfg)))⟩

/-- Events are attributed to their hooks exactly where every hook keeps its place. -/
theorem attributed_iff {load : String → Option OffsetTable} {cfg : HookConfig} (hgen : genConfig files load = some cfg)
    (hdistinct : ∀ fg ∈ files, (fg.hooks.map HookJson.name).Nodup) :
    (Attributed py files cfg ↔
        ∀ fg ∈ files, ∀ (i : Nat) (h : HookJson), fg.hooks[i]? = some h → PlaceKept py files fg i h) ∧
      ((∀ fg ∈ files, ∀ h ∈ fg.hooks, h.name ≠ "unknown") → (Attributed py files cfg ↔ OnePlace py files)) := by
  have hiff : Attributed py files cfg ↔
      ∀ fg ∈ files, ∀ (i : Nat) (h : HookJson), fg.hooks[i]? = some h → PlaceKept py files fg i h := by
    constructor
    · intro hattr fg hfg i h hi
      obtain ⟨f, hf⟩ := List.getElem?_of_mem hfg
      obtain ⟨lu, -, hg⟩ := genConfig_group hgen hf
      obtain ⟨j, hj⟩ := Option.isSome_iff_exists.1 (lastPlace_isSome py hfg hi)
      have hname := hattr f fg _ h hf hg (List.mem_of_getElem? hi) ⟨0, 0, Vector.replicate 16 0, fun _ => none⟩
        ⟨0, 0, 0, Vector.replicate 16 0, 0, 0, 0, false⟩ 0 0 false
      rw [hookName_eq_iff (hdistinct fg hfg) hi] at hname
      have hid := eventId_toNat hj
      exact ⟨j, hj, hid ▸ hname⟩
    · intro hkept f fg g h hf hg hh k hdr moduleId dir isRet
      obtain ⟨i, hi⟩ := List.getElem?_of_mem hh
      have hfg := List.mem_of_getElem? hf
      obtain ⟨lu, -, hg'⟩ := genConfig_group hgen hf
      cases hg.symm.trans hg'
      obtain ⟨j, hj, hcase⟩ := hkept fg hfg i h hi
      rw [hookName_eq_iff (hdistinct fg hfg) hi]
      have hid := eventId_toNat hj
      exact hid ▸ hcase
  exact ⟨hiff, fun hnone => hiff.trans (placeKept_iff_onePlace hnone)⟩

/-- A file of the given name and identifier whose hooks have the given names. -/
def fileOf (name : String) (moduleId : Nat) (hooks : List String) : FileJson where
  name := name
  ringbufMap := name ++ "_events"
  moduleId := moduleId
  lib := "lib.so"
  targetPath := "/usr/lib/lib.so"
  hooks := hooks.map fun n => ⟨n, n ++ "()", false⟩

/-- In one file with two hooks every event is attributed to its hook. -/
theorem attributed_iff_two_hooks :
    Attributed PyUpper.letters [fileOf "sd" 3 ["send", "offer"]]
      ⟨[genFileGroup (fileOf "sd" 3 ["send", "offer"]) []], 3⟩ := by
  have hg : genConfig [fileOf "sd" 3 ["send", "offer"]] (fun _ => some []) =
    some ⟨[genFileGroup (fileOf "sd" 3 ["send", "offer"]) []], 3⟩ := rfl
  refine (attributed_iff hg (by decide)).1.2 fun fg hfg i h hi => ?_
  cases List.mem_singleton.1 hfg
  rcases i with _ | _ | i
  · cases hi
    exact ⟨0, by decide +kernel, Or.inl rfl⟩
  · cases hi
    exact ⟨1, by decide +kernel, Or.inl rfl⟩
  · cases hi

/-- Two files with a hook `send`, at different places: the events of the one are taken for another hook. -/
theorem hook_mistaken :
    let files := [fileOf "app" 2 ["send", "receive"], fileOf "sd" 3 ["offer", "send"]]
    genConfig files (fun _ => some []) = some ⟨files.map fun fg => genFileGroup fg [], 3⟩ ∧
      (∀ fg ∈ files, (fg.hooks.map HookJson.name).Nodup) ∧
      ¬ Attributed PyUpper.letters files ⟨files.map fun fg => genFileGroup fg [], 3⟩ := by
  intro files
  refine ⟨rfl, by decide, fun hattr => ?_⟩
  have hname := hattr 0 _ _ ⟨"send", "send()", false⟩ rfl rfl (by decide) ⟨0, 0, Vector.replicate 16 0, fun _ => none⟩
    ⟨0, 0, 0, Vector.replicate 16 0, 0, 0, 0, false⟩ 2 dirSend false
  revert hname
  decide +kernel

end VsomeipCollector

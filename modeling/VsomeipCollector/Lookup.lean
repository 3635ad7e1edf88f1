import VsomeipCollector.Attach

/-!
# Finding the program of a hook

A module follows the recipe when the hook `N` of its configuration is implemented by the C function `hook_N` in the
section `uprobe/N` or `uretprobe/N`.  `attach` looks its programs up by the name of the hook, but libbpf knows a
program by the name of its function, so the lookup never finds the program of the hook: every hook is attached exactly
in the modules that have none (`attachesAll_iff`).
-/

namespace VsomeipCollector

open Run Collector

/-- The C function of a hook. -/
def HookJson.function (h : HookJson) : String := "hook_" ++ h.name

/-- The object has a program for every hook, with the section and the function that the recipe asks for. -/
def Recipe (fg : FileJson) (programs : List Program) : Prop :=
  ∀ h ∈ fg.hooks, ∃ p ∈ programs, p.name = h.function ∧ (p.sec = "uprobe/" ++ h.name ∨ p.sec = "uretprobe/" ++ h.name)

/-- Lookups are those of libbpf, and nothing else fails. -/
structure AllSucceed (programs : List Program) (env : AttachEnv) : Prop where
  find : ∀ i name, env.findProgram i name = findProgramByName programs name
  attachUprobe : ∀ i, env.attachUprobe i = true
  findMap : env.findMap = true
  ringBufferNew : env.ringBufferNew = true

/-- The result and the state of an `attach` that has attached every hook to its program. -/
structure EveryHook (fg : FileJson) (r : Int × Sys) : Prop where
  result : r.1 = fg.hooks.length
  card : Multiset.card r.2.liveLinks = fg.hooks.length
  each : ∀ i h, fg.hooks[i]? = some h → ∃ l ∈ r.2.liveLinks, l.hook = i ∧ l.prog.name = h.function

/-- With any object that follows the recipe, `attach` attaches every hook wherever it finds a loaded object. -/
def AttachesAll (fg : FileJson) (lu : OffsetTable) : Prop :=
  ∀ programs ops env pid, Recipe fg programs → (Sys.run (genFileGroup fg lu) ops).c.obj ≠ none →
    AllSucceed programs env → EveryHook fg (attach (genFileGroup fg lu) env pid (Sys.run (genFileGroup fg lu) ops))

/-! ### The names -/

/-- The programs of the recipe and no others. -/
def recipePrograms (fg : FileJson) : List Program :=
  fg.hooks.map fun h => ⟨h.function, (if h.retprobe then "uretprobe/" else "uprobe/") ++ h.name⟩

theorem recipe_recipePrograms (fg : FileJson) : Recipe fg (recipePrograms fg) := by
  intro h hh
  refine ⟨_, List.mem_map_of_mem hh, rfl, ?_⟩
  dsimp only
  cases h.retprobe
  · exact Or.inl rfl
  · exact Or.inr rfl

/-- A hook does not have the name of its function. -/
theorem function_ne_name (h : HookJson) : h.name ≠ h.function := by
  intro he
  have hl := congrArg String.length he
  unfold HookJson.function at hl
  rw [String.length_append] at hl
  have h5 : "hook_".length = 5 := rfl
  omega

theorem name_of_findProgramByName {programs : List Program} {name : String} {p : Program}
    (h : findProgramByName programs name = some p) : p ∈ programs ∧ p.name = name := by
  have hp := List.find?_some h
  rw [Bool.and_eq_true, beq_iff_eq] at hp
  exact ⟨List.mem_of_find?_eq_some h, hp.2⟩

/-! ### Every hook -/

/-- An index whose entry of the table lies after its end. -/
private theorem hookAt_overrun {g : FileGroup} {env : AttachEnv} {i : Nat} (h : g.hooks.length ≤ i) :
    hookAt g env i = env.overrun i := by
  unfold hookAt
  rw [List.getElem?_eq_none h]
  rfl

/-- Where the symbol of the first hook has an offset, the first entry of the table is the first hook. -/
private theorem hookAt_zero {fg : FileJson} {lu : OffsetTable} {env : AttachEnv} {h : HookJson} {hs : List HookJson}
    {off : UInt64} (hh : fg.hooks = h :: hs) (hoff : lu.get h.demangled = some off) :
    (hookAt (genFileGroup fg lu) env 0).name = h.name := by
  unfold hookAt genFileGroup genHookCfgs
  simp [hh, hoff]

/-- The table is shorter than its declared length if the first hook got no entry. -/
private theorem length_hooks_lt {fg : FileJson} {lu : OffsetTable} {h : HookJson} {hs : List HookJson}
    (hh : fg.hooks = h :: hs) (hoff : lu.get h.demangled = none) :
    (genFileGroup fg lu).hooks.length < fg.hooks.length := by
  show (genHookCfgs fg lu).length < _
  unfold genHookCfgs
  have hle := List.length_filterMap_le
    (fun h : HookJson => (lu.get h.demangled).map fun off => (⟨h.name, fg.targetPath, off, h.retprobe⟩ : HookCfg)) hs
  rw [hh, List.filterMap_cons, hoff, List.length_cons]
  exact Nat.lt_succ_of_le hle

/-- An environment in which nothing fails, with the programs of the recipe; after the table lie empty names. -/
private def recipeEnv (fg : FileJson) : AttachEnv :=
  ⟨fun _ name => findProgramByName (recipePrograms fg) name, fun _ => true, true, true, 0, fun _ => ⟨"", "", 0, false⟩⟩

private theorem name_ne_empty {fg : FileJson} {p : Program} (hp : p ∈ recipePrograms fg) : p.name ≠ "" := by
  obtain ⟨h, -, rfl⟩ := List.mem_map.1 hp
  intro he
  have hl := congrArg String.length he
  unfold HookJson.function at hl
  rw [String.length_append] at hl
  have h5 : "hook_".length = 5 := rfl
  have h0 : "".length = 0 := rfl
  omega

/-- A module that has a hook is not attached in full: after the end of the table nothing need be found, and in it
only programs of other names are. -/
private theorem not_attachesAll {fg : FileJson} {lu : OffsetTable} {h : HookJson} {hs : List HookJson}
    (hh : fg.hooks = h :: hs) : ¬ AttachesAll fg lu := by
  intro hall
  have hobj : (Sys.run (genFileGroup fg lu) [.init ⟨true, true⟩]).c.obj = some 0 := rfl
  have hev := hall _ [.init ⟨true, true⟩] (recipeEnv fg) 0 (recipe_recipePrograms fg)
    (by rw [hobj]; exact Option.some_ne_none 0) ⟨fun _ _ => rfl, fun _ => rfl, rfl, rfl⟩
  have hmap : (recipeEnv fg).findMap = true := rfl
  obtain ⟨hret, -, hlinks⟩ := attach_ok (genFileGroup fg lu) 0 hobj hmap rfl
  have hlive := liveLinks_attach (genFileGroup fg lu) [.init ⟨true, true⟩] (recipeEnv fg) 0
  have hhooks := hooks_newLinks (genFileGroup fg lu) (recipeEnv fg) 0 0 (List.range fg.hooks.length) 1
  -- every index of the loop was attached
  have hattaches : ∀ i < fg.hooks.length, attaches (genFileGroup fg lu) (recipeEnv fg) i = true := by
    have hlen := congrArg List.length hhooks
    have hcount : (newLinks (genFileGroup fg lu) (recipeEnv fg) 0 0 (List.range fg.hooks.length) 1).length =
        fg.hooks.length := Int.ofNat.inj (hret.symm.trans hev.result)
    rw [List.length_map, hcount] at hlen
    have hfull : ((List.range fg.hooks.length).filter (attaches (genFileGroup fg lu) (recipeEnv fg))).length =
        (List.range fg.hooks.length).length := by rw [← hlen, List.length_range]
    intro i hi
    exact List.length_filter_eq_length_iff.1 hfull i (List.mem_range.2 hi)
  cases hoff : lu.get h.demangled with
  | none =>
    -- the table is too short, so some lookup is for what lies behind it
    have hat := hattaches _ (length_hooks_lt hh hoff)
    unfold attaches at hat
    rw [hookAt_overrun (Nat.le_refl _), Bool.and_eq_true] at hat
    obtain ⟨p, hp⟩ := Option.isSome_iff_exists.1 hat.1
    obtain ⟨hmem, hname⟩ := name_of_findProgramByName hp
    exact name_ne_empty hmem hname
  | some off =>
    -- the first link is on a program with the name of the hook, which its function does not have
    obtain ⟨l, hl, hhook, hprog⟩ := hev.each 0 h (by rw [hh]; rfl)
    have hl' : l ∈ newLinks (genFileGroup fg lu) (recipeEnv fg) 0 0 (List.range fg.hooks.length) 1 := by
      rw [hlive, Multiset.mem_coe, hlinks] at hl
      exact hl
    obtain ⟨-, -, hcfg, hfind⟩ := mem_newLinks _ _ _ _ hl'
    have hname := (name_of_findProgramByName hfind).2
    rw [hcfg, hhook, hookAt_zero hh hoff] at hname
    exact function_ne_name h (hname.symm.trans hprog)

/-- A module without hooks never holds a link. -/
private theorem links_nil {g : FileGroup} (hg : g.hookCount = 0) (ops : List CollectorOp) :
    (∃ lost, Inv lost (Sys.run g ops)) ∧ (Sys.run g ops).c.links = [] := by
  refine runFrom_invariant (fun s => (∃ lost, Inv lost s) ∧ s.c.links = []) ?_ ⟨⟨0, inv_start⟩, rfl⟩ ops
  rintro s op ⟨⟨lost, h⟩, hl⟩
  refine ⟨⟨_, h.step g op⟩, ?_⟩
  cases op with
  | init env => exact (links_init env s).1.trans hl
  | detach =>
    show (Collector.detach s).c.links = []
    rw [detach_eq h]
  | destroy =>
    show (Collector.destroy s).c.links = []
    rw [destroy_eq h]
  | attach env pid =>
    have hb : (beforeLoop s).c.links = [] := by
      obtain ⟨-, -, -, -, hbl⟩ := inv_beforeLoop h
      rw [hbl, hl, ite_self]
    show (Collector.attach g env pid s).2.c.links = []
    cases ho : s.c.obj with
    | none =>
      unfold Collector.attach
      rw [ho]
      exact hl
    | some o =>
      have hnew : newLinks g env pid o (List.range g.hookCount) (beforeLoop s).lib.next = [] := by rw [hg]; rfl
      by_cases hm : env.findMap = true ∧ env.ringBufferNew = true
      · rw [(attach_ok g pid ho hm.1 hm.2).2.2, hb, hnew]
        rfl
      · have hf : env.findMap = false ∨ env.ringBufferNew = false := by
          cases hx : env.findMap <;> cases hy : env.ringBufferNew <;> simp_all
        rw [(attach_late g pid ho hf).2.2, hb, hnew]
        rfl

/-- All hooks of a module are attached, from every state with a loaded object that follows the recipe, exactly when
there are no hooks. -/
theorem attachesAll_iff (fg : FileJson) (lu : OffsetTable) : AttachesAll fg lu ↔ fg.hooks = [] := by
  constructor
  · intro hall
    cases hh : fg.hooks with
    | nil => rfl
    | cons h hs => exact absurd hall (not_attachesAll hh)
  · intro hnil programs ops env pid _ hobj hall
    have hg : (genFileGroup fg lu).hookCount = 0 := by
      show fg.hooks.length = 0
      rw [hnil]
      rfl
    obtain ⟨o, ho⟩ := Option.ne_none_iff_exists'.1 hobj
    obtain ⟨hret, -, -⟩ := attach_ok (genFileGroup fg lu) pid ho hall.findMap hall.ringBufferNew
    have hlive := liveLinks_attach (genFileGroup fg lu) ops env pid
    have hempty := (links_nil hg (ops ++ [.attach env pid])).2
    rw [run_attach] at hempty
    rw [hempty] at hlive
    refine ⟨?_, ?_, ?_⟩
    · rw [hret, hg, hnil]
      rfl
    · rw [hlive, hnil]
      rfl
    · intro i h hi
      rw [hnil] at hi
      cases hi

/-- The routing module of the shipped `hooks.json`. -/
def routingFile : FileJson where
  name := "routing"
  ringbufMap := "routing_events"
  moduleId := 1
  lib := "libvsomeip3.so.3.7.4"
  targetPath := "/usr/lib/libvsomeip3.so.3"
  hooks :=
    let send := "vsomeip_v3::routing_manager_impl::send(unsigned short, unsigned char const*, unsigned int, " ++
      "unsigned short, bool, unsigned short, vsomeip_sec_client_t const*, unsigned char, bool, bool)"
    let sendTo := "vsomeip_v3::routing_manager_impl::send_to(std::shared_ptr<vsomeip_v3::endpoint_definition> " ++
      "const&, unsigned char const*, unsigned int, unsigned short)"
    let onMessage := "vsomeip_v3::routing_manager_impl::on_message(unsigned char const*, unsigned int, " ++
      "vsomeip_v3::boardnet_endpoint*, boost::asio::ip::address const&, unsigned short, bool)"
    [⟨"rm_send_entry", send, false⟩, ⟨"rm_send_ret", send, true⟩, ⟨"rm_send_to_entry", sendTo, false⟩,
      ⟨"rm_send_to_ret", sendTo, true⟩, ⟨"rm_on_message", onMessage, false⟩]

/-- With every symbol in the offset table none of its hooks is attached. -/
theorem routing_not_attached :
    ¬ AttachesAll routingFile (routingFile.hooks.map fun h => (h.demangled, some 0x1000)) := by
  intro hall
  have hev := hall (recipePrograms routingFile) [.init ⟨true, true⟩]
    ⟨fun _ name => findProgramByName (recipePrograms routingFile) name, fun _ => true, true, true, 5,
      fun _ => ⟨"", "", 0, false⟩⟩
    7 (recipe_recipePrograms routingFile) nofun ⟨fun _ _ => rfl, fun _ => rfl, rfl, rfl⟩
  have hret := hev.result
  revert hret
  decide +kernel

end VsomeipCollector

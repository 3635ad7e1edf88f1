import VsomeipCollector.Attribution
import VsomeipCollector.Reports
import VsomeipCollector.Writers

/-!
# The names of modules

A report looks the name of a module up in the generated table; the writers have the names of three modules built in and
print `?` for all others.  So the writers and the reports name a module alike exactly where it is one of those three, with
the name and the identifier that the writers know, and no later module takes its macro (`namedAlike_iff`).
-/

namespace VsomeipCollector

open Run StatsCollector

variable (py : PyUpper) (files : List FileJson) (cfg : HookConfig)

/-- The identifier in the events of a module: its macro as a `uint8_t`. -/
def FileJson.eventModule (fg : FileJson) : UInt8 := (genHookIds py files).byte ("MODULE_" ++ py.upper fg.name)

/-- Along a run with a log writer, the next report has a line for the module with the identifier `id`, with this name. -/
def ReportNames (name : String) (id : Nat) : Prop :=
  ∀ ops : List Operation, (∀ op ∈ ops, op.InTable cfg) → (∀ op ∈ ops, op.KeepsWriter) →
    (sinceReport ops).length < 2 ^ 64 → (∃ op ∈ sinceReport ops, op.isSend id = true ∨ op.isRecv id = true) →
    ∀ s, operations cfg true ops = some s → ∀ now,
      .modStats name (s.stats.elapse now) (UInt64.ofNat ((sinceReport ops).countP (Operation.isSend id)))
        (UInt64.ofNat ((sinceReport ops).countP (Operation.isRecv id))) ∈ (s.stats.flushReport cfg now).2

/-- The writers and the reports name the module as it is configured. -/
structure NamedAlike (fg : FileJson) : Prop where
  file : FileWriter.moduleValue (fg.eventModule py files) = fg.name
  stdout : StdoutWriter.moduleValue (fg.eventModule py files) = fg.name
  report : ReportNames cfg fg.name (fg.eventModule py files).toNat

/-- The module is one that the writers know. -/
def BuiltIn (fg : FileJson) : Prop :=
  fg.moduleId = 1 ∧ fg.name = "routing" ∨ fg.moduleId = 2 ∧ fg.name = "app" ∨ fg.moduleId = 3 ∧ fg.name = "sd"

/-- The macros that `stdout_writer.cpp` and the BPF programs use. -/
def usedMacros : List String :=
  ["MODULE_ROUTING", "MODULE_APP", "MODULE_SD", "HOOK_RM_SEND_ENTRY", "HOOK_RM_SEND_RET", "HOOK_RM_SEND_TO_ENTRY",
    "HOOK_RM_SEND_TO_RET", "HOOK_RM_ON_MESSAGE", "HOOK_APP_SEND_ENTRY", "HOOK_APP_SEND_RET", "HOOK_APP_ON_MESSAGE",
    "HOOK_SD_SEND", "HOOK_SD_PROCESS_OFFER", "HOOK_SD_SEND_SUBSCRIPTION", "HOOK_SD_HANDLE_SUBSCRIPTION"]

/-- A character that an identifier may have. -/
def InIdentifier (c : Char) : Prop := c.isAlphanum = true ∨ c = '_' ∨ 128 ≤ c.toNat

instance (c : Char) : Decidable (InIdentifier c) := inferInstanceAs (Decidable (_ ∨ _ ∨ _))

-- by recursion on the list, as for `Plain`
instance (cs : List Char) : Decidable (∀ c ∈ cs, InIdentifier c) := List.decidableBAll _ cs

/-- With the headers made from `hooks.json` the program compiles: the macros that it uses are defined, and the names of
the modules, which are parts of identifiers in `hook_config.h`, have no other characters than these. -/
structure Buildable : Prop where
  macros : ∀ name ∈ usedMacros, (genHookIds py files).Defines name
  names : ∀ fg ∈ files, ∀ c ∈ fg.name.toList, InIdentifier c

variable {py files cfg}

private theorem Buildable.name_ne (h : Buildable py files) {fg : FileJson} (hfg : fg ∈ files) : fg.name ≠ "?" := by
  intro hname
  have hmark : '?' ∈ fg.name.toList := by
    rw [hname]
    decide
  exact absurd (h.names fg hfg '?' hmark) (by decide)

/-! ### The writers -/

private theorem moduleValue_eq_iff {fg : FileJson} (hfit : fg.moduleId < 256) (hname : fg.name ≠ "?") :
    FileWriter.moduleValue (UInt8.ofNat fg.moduleId) = fg.name ↔ BuiltIn fg := by
  have hid : ∀ n < 256, UInt8.ofNat fg.moduleId = UInt8.ofNat n ↔ fg.moduleId = n := by
    intro n hn
    constructor
    · intro h
      have h' := congrArg UInt8.toNat h
      rwa [UInt8.toNat_ofNat_of_lt' hfit, UInt8.toNat_ofNat_of_lt' hn] at h'
    · rintro rfl
      rfl
  have h1 : UInt8.ofNat fg.moduleId = 1 ↔ fg.moduleId = 1 := hid 1 (by decide)
  have h2 : UInt8.ofNat fg.moduleId = 2 ↔ fg.moduleId = 2 := hid 2 (by decide)
  have h3 : UInt8.ofNat fg.moduleId = 3 ↔ fg.moduleId = 3 := hid 3 (by decide)
  unfold FileWriter.moduleValue BuiltIn
  simp only [h1, h2, h3]
  by_cases c1 : fg.moduleId = 1
  · simp [c1, eq_comm]
  · by_cases c2 : fg.moduleId = 2
    · simp [c2, eq_comm]
    · by_cases c3 : fg.moduleId = 3
      · simp [c3, eq_comm]
      · simp [c1, c2, c3, hname.symm]

/-- The macro of a module has the identifier of the last module with its upper-cased name. -/
private theorem eventModule_eq {fg fg' : FileJson} (h : lastModule py files (py.upper fg.name) = some fg') :
    fg.eventModule py files = UInt8.ofNat fg'.moduleId := by
  unfold FileJson.eventModule Macros.byte
  rw [value_module, h]
  rfl

/-! ### The reports -/

/-- The lookup by identifier finds the group of the file. -/
theorem find_group {load : String → Option OffsetTable} {groups : List FileGroup}
    (h : List.Forall₂ (fun fg g => ∃ lu, load fg.lib = some lu ∧ g = genFileGroup fg lu) files groups)
    (hids : (files.map FileJson.moduleId).Nodup) {fg : FileJson} (hfg : fg ∈ files) :
    (groups.find? fun g => g.moduleId == fg.moduleId).map FileGroup.name = some fg.name := by
  induction h with
  | nil => cases hfg
  | cons hg h ih =>
    rename_i fg' g files groups
    obtain ⟨lu, -, rfl⟩ := hg
    rw [List.map_cons, List.nodup_cons] at hids
    rcases List.mem_cons.1 hfg with rfl | hfg
    · rw [List.find?_cons_of_pos (by exact beq_self_eq_true fg.moduleId)]
      rfl
    · have hne : ¬ fg'.moduleId = fg.moduleId := fun he => hids.1 (he ▸ List.mem_map_of_mem hfg)
      rw [List.find?_cons_of_neg (by simpa [genFileGroup] using hne)]
      exact ih hids.2 hfg

/-- A counter of fewer events than it can hold is not zero if there was an event. -/
private theorem ofNat_countP_ne_zero {p : Operation → Bool} {ops : List Operation} (hlen : ops.length < 2 ^ 64)
    (h : ∃ op ∈ ops, p op = true) : UInt64.ofNat (ops.countP p) ≠ 0 := by
  have hpos : 0 < ops.countP p := List.countP_pos_iff.2 h
  have hle : ops.countP p ≤ ops.length := List.countP_le_length
  intro h0
  have h' := congrArg UInt64.toNat h0
  rw [UInt64.toNat_ofNat_of_lt' (by show _ < 2 ^ 64; omega)] at h'
  have hz : (0 : UInt64).toNat = 0 := rfl
  omega

private theorem reportNames_reportName {id : Nat} (h1 : 1 ≤ id) (h2 : id ≤ cfg.maxModuleId) :
    ReportNames cfg (cfg.reportName id) id := by
  intro ops hin hkeep hlen hentry s hs now
  obtain ⟨t, ht, hw, hcounts⟩ := operations_countsSince cfg hin hkeep
  cases hs.symm.trans ht
  have hactive : ¬ (s.stats.modSend.getD id 0 = 0 ∧ s.stats.modRecv.getD id 0 = 0) := by
    rw [hcounts.send id h1 h2, hcounts.recv id h1 h2]
    rintro ⟨hz1, hz2⟩
    obtain ⟨op, hop, hs | hr⟩ := hentry
    · exact ofNat_countP_ne_zero hlen ⟨op, hop, hs⟩ hz1
    · exact ofNat_countP_ne_zero hlen ⟨op, hop, hr⟩ hz2
  rw [(flushReport_counters cfg hw now).2, List.mem_append]
  left
  refine List.mem_flatMap.2 ⟨id, List.mem_range'_1.2 (by omega), ?_⟩
  rw [moduleLines_eq, if_neg hactive, hcounts.send id h1 h2, hcounts.recv id h1 h2]
  exact List.mem_singleton.2 rfl

/-- An entry event of the identifier `id`. -/
private def eventOf (id : Nat) : Operation :=
  .processEvent ⟨0, 0, 0, Vector.replicate 16 0, UInt8.ofNat id, 0, dirSend, false⟩ "" 0 none

private theorem isSend_eventOf {id : Nat} (hid : id < 256) (m : Nat) :
    (eventOf id).isSend m = (id == m) ∧ (eventOf id).isRecv m = false := by
  have htoNat : (UInt8.ofNat id).toNat = id := UInt8.toNat_ofNat_of_lt' hid
  have hsend : (eventOf id).isSend m = ((UInt8.ofNat id).toNat == m && true) := rfl
  have hrecv : (eventOf id).isRecv m = ((UInt8.ofNat id).toNat == m && false) := rfl
  rw [hsend, hrecv, htoNat, Bool.and_true, Bool.and_false]
  exact ⟨rfl, rfl⟩

/-- After a single event the report has a line for its identifier alone, and none for the identifier 0. -/
private theorem name_of_reportNames {name : String} {id : Nat} (hid : id < 256) (hmax : id ≤ cfg.maxModuleId)
    (h : ReportNames cfg name id) : 1 ≤ id ∧ cfg.reportName id = name := by
  have hin : ∀ o ∈ [eventOf id], o.InTable cfg := fun o ho => by
    rw [List.mem_singleton.1 ho]
    exact fun _ => (UInt8.toNat_ofNat_of_lt' hid).trans_le hmax
  have hkeep : ∀ o ∈ [eventOf id], o.KeepsWriter := fun o ho => by
    rw [List.mem_singleton.1 ho]
    exact Operation.noConfusion
  have hself : (eventOf id).isSend id = true := by rw [(isSend_eventOf hid id).1, beq_self_eq_true]
  obtain ⟨s, hs, hw, hcounts⟩ := operations_countsSince cfg hin hkeep
  have hline := h [eventOf id] hin hkeep (show 1 < 2 ^ 64 by decide) ⟨_, List.mem_singleton.2 rfl, Or.inl hself⟩ s hs 0
  rw [(flushReport_counters cfg hw 0).2, List.mem_append] at hline
  rcases hline with hline | hline
  · obtain ⟨m, hm, hline⟩ := List.mem_flatMap.1 hline
    obtain ⟨h1, h2⟩ := List.mem_range'_1.1 hm
    by_cases he : id = m
    · subst he
      rw [moduleLines_eq] at hline
      split at hline
      · cases hline
      · injection List.mem_singleton.1 hline with hname
        exact ⟨h1, hname.symm⟩
    · -- the module is idle
      obtain ⟨hsend, hrecv⟩ := isSend_eventOf hid m
      rw [beq_false_of_ne he] at hsend
      have hnone : ∀ p : Operation → Bool, p (eventOf id) = false →
          UInt64.ofNat ((sinceReport [eventOf id]).countP p) = 0 := by
        intro p hp
        have hsince : sinceReport [eventOf id] = [eventOf id] := rfl
        rw [hsince, List.countP_singleton, hp]
        rfl
      have hidle : s.stats.modSend.getD m 0 = 0 ∧ s.stats.modRecv.getD m 0 = 0 := by
        rw [hcounts.send m h1 (by omega), hcounts.recv m h1 (by omega)]
        exact ⟨hnone _ hsend, hnone _ hrecv⟩
      rw [moduleLines_eq, if_pos hidle] at hline
      cases hline
  · unfold flushLatency at hline
    split at hline
    · cases hline
    · cases List.mem_singleton.1 hline

/-! ### The names -/

section

variable {load : String → Option OffsetTable} (hgen : genConfig files load = some cfg) (hbuild : Buildable py files)
  (hnames : (files.map FileJson.name).Nodup) (hids : (files.map FileJson.moduleId).Nodup)
  (hfit : ∀ fg ∈ files, fg.moduleId < 256)

include hgen hbuild hnames hids hfit

/-- A module is named alike exactly where it is built in and has its macro for itself. -/
private theorem namedAlike_iff_builtIn {fg : FileJson} (hfg : fg ∈ files) :
    NamedAlike py files cfg fg ↔ BuiltIn fg ∧ lastModule py files (py.upper fg.name) = some fg := by
  obtain ⟨hgroups, -, hmax⟩ := genConfig_eq_some hgen
  have hreported : ∀ fg ∈ files, cfg.reportName fg.moduleId = fg.name := by
    intro fg hfg
    unfold HookConfig.reportName
    rw [find_group hgroups hids hfg]
    rfl
  constructor
  · intro h
    obtain ⟨fg', hlast⟩ := Option.isSome_iff_exists.1 (lastModule_isSome py hfg)
    have hfg' := (lastModule_eq_some hlast).1
    have hid := eventModule_eq hlast
    have hreport := h.report
    rw [hid, UInt8.toNat_ofNat_of_lt' (hfit fg' hfg')] at hreport
    -- the report has the name of the module that the macro is of
    have hname := (name_of_reportNames (hfit fg' hfg') (hmax fg' hfg') hreport).2
    rw [hreported fg' hfg'] at hname
    obtain rfl : fg' = fg := List.inj_on_of_nodup_map hnames hfg' hfg hname
    have hfile := h.file
    rw [hid] at hfile
    exact ⟨(moduleValue_eq_iff (hfit fg' hfg') (hbuild.name_ne hfg')).1 hfile, hlast⟩
  · rintro ⟨hbuilt, hlast⟩
    have hid := eventModule_eq hlast
    have hvalue : FileWriter.moduleValue (fg.eventModule py files) = fg.name := by
      rw [hid]
      exact (moduleValue_eq_iff (hfit fg hfg) (hbuild.name_ne hfg)).2 hbuilt
    have hpos : 1 ≤ fg.moduleId := by rcases hbuilt with ⟨h, -⟩ | ⟨h, -⟩ | ⟨h, -⟩ <;> omega
    refine ⟨hvalue, hvalue, ?_⟩
    rw [hid, UInt8.toNat_ofNat_of_lt' (hfit fg hfg), ← hreported fg hfg]
    exact reportNames_reportName hpos (hmax fg hfg)

/-- For configurations with distinct names and identifiers, with which the program compiles: all modules with hooks are
named alike, along every run with fewer than `2 ^ 64` operations between two reports, exactly where each of them is
built into the writers and has its macro for itself. -/
theorem namedAlike_iff :
    (∀ fg ∈ files, fg.hooks ≠ [] → NamedAlike py files cfg fg) ↔
      ∀ fg ∈ files, fg.hooks ≠ [] → BuiltIn fg ∧ lastModule py files (py.upper fg.name) = some fg :=
  forall₃_congr fun _ hfg _ => namedAlike_iff_builtIn hgen hbuild hnames hids hfit hfg

end

def shippedRouting : FileJson :=
  fileOf "routing" 1 ["rm_send_entry", "rm_send_ret", "rm_send_to_entry", "rm_send_to_ret", "rm_on_message"]

def shippedApp : FileJson := fileOf "app" 2 ["app_send_entry", "app_send_ret", "app_on_message"]

def shippedSd : FileJson :=
  fileOf "sd" 3 ["sd_send", "sd_process_offer", "sd_send_subscription", "sd_handle_subscription"]

/-- The modules and hooks of the shipped configuration. -/
def shippedFiles : List FileJson := [shippedRouting, shippedApp, shippedSd]

def shippedConfig : HookConfig := ⟨shippedFiles.map fun fg => genFileGroup fg [], 3⟩

private theorem buildable_shipped (more : List FileJson) (h : ∀ fg ∈ more, ∀ c ∈ fg.name.toList, InIdentifier c) :
    Buildable PyUpper.letters (shippedFiles ++ more) where
  macros name hname := by
    have hshipped : ∀ name ∈ usedMacros, (genHookIds PyUpper.letters shippedFiles).Defines name := by decide +kernel
    have hmem : ∀ m ∈ genHookIds PyUpper.letters shippedFiles, m ∈ genHookIds PyUpper.letters (shippedFiles ++ more) := by
      unfold genHookIds
      intro m hm
      rw [List.map_append, List.flatMap_append]
      simp only [List.mem_append] at hm ⊢
      tauto
    obtain ⟨m, hm, rfl⟩ := List.mem_map.1 (hshipped name hname)
    exact List.mem_map_of_mem (hmem m hm)
  names fg hfg := by
    have hshipped : ∀ fg ∈ shippedFiles, ∀ c ∈ fg.name.toList, InIdentifier c := by decide +kernel
    rcases List.mem_append.1 hfg with hfg | hfg
    · exact hshipped fg hfg
    · exact h fg hfg

theorem namedAlike_iff_shipped : NamedAlike PyUpper.letters shippedFiles shippedConfig shippedRouting ∧
    NamedAlike PyUpper.letters shippedFiles shippedConfig shippedApp ∧
    NamedAlike PyUpper.letters shippedFiles shippedConfig shippedSd := by
  have hgen : genConfig shippedFiles (fun _ => some []) = some shippedConfig := rfl
  have hbuild : Buildable PyUpper.letters shippedFiles := by simpa using buildable_shipped [] (by simp)
  have hbuilt : ∀ fg ∈ shippedFiles, BuiltIn fg ∧
      lastModule PyUpper.letters shippedFiles (PyUpper.letters.upper fg.name) = some fg := by
    unfold BuiltIn
    decide +kernel
  have halike := (namedAlike_iff hgen hbuild (by decide) (by decide) (by decide)).2 fun fg hfg _ => hbuilt fg hfg
  exact ⟨halike _ (by decide) (by decide), halike _ (by decide) (by decide), halike _ (by decide) (by decide)⟩

/-- The module that the manual adds to the shipped ones. -/
def extendedFiles : List FileJson := shippedFiles ++ [fileOf "abc" 4 ["ght"]]

/-- The writers do not know its name. -/
theorem added_module_unnamed :
    genConfig extendedFiles (fun _ => some []) = some ⟨extendedFiles.map fun fg => genFileGroup fg [], 4⟩ ∧
      Buildable PyUpper.letters extendedFiles ∧ (extendedFiles.map FileJson.name).Nodup ∧
      (extendedFiles.map FileJson.moduleId).Nodup ∧
      ¬ ∀ fg ∈ extendedFiles, fg.hooks ≠ [] →
        NamedAlike PyUpper.letters extendedFiles ⟨extendedFiles.map fun fg => genFileGroup fg [], 4⟩ fg := by
  refine ⟨rfl, buildable_shipped _ (by decide +kernel), by decide, by decide, fun h => ?_⟩
  have hname := (h (fileOf "abc" 4 ["ght"]) (by simp [extendedFiles]) (by decide)).file
  revert hname
  decide +kernel

end VsomeipCollector

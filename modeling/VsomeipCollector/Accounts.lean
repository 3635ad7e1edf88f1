import VsomeipCollector.Hub
import VsomeipCollector.Names
import VsomeipCollector.Traffic

/-!
# From firings to the reports

What the reports in the log say of a module, together with what its counters hold, counts the firings of its programs:
of the entry probes that send, and of those that receive.  Every firing that got a slot and was passed is counted once,
under the name that the configuration has for the module (`firings_accounted`).
-/

namespace VsomeipCollector

open Family Run StatsCollector

/-! ### What the log says of a module -/

/-- The line reports the traffic of the module with this name. -/
def LogLine.reports (name : String) : LogLine → Bool
  | modStats nm _ _ _ => nm == name
  | _ => false

/-- A quantity of the lines of a module in a log. -/
def sumIn (value : LogLine → UInt64) (name : String) (log : List LogLine) : UInt64 :=
  ((log.filter (LogLine.reports name)).map value).sum

/-- What the reports in a log say that the module sent. -/
def sentIn (name : String) (log : List LogLine) : UInt64 := sumIn LogLine.send name log

def receivedIn (name : String) (log : List LogLine) : UInt64 := sumIn LogLine.recv name log

private theorem sumIn_append (value : LogLine → UInt64) (name : String) (log more : List LogLine) :
    sumIn value name (log ++ more) = sumIn value name log + sumIn value name more := by
  unfold sumIn
  rw [List.filter_append, List.map_append, List.sum_append]

private theorem sumIn_filter (value : LogLine → UInt64) (name : String) (log : List LogLine) :
    sumIn value name (log.filter LogLine.isModStats) = sumIn value name log := by
  have hreports : ∀ l : LogLine, (l.reports name && l.isModStats) = l.reports name := by
    intro l
    cases l with
    | modStats nm elapse send recv => exact Bool.and_true _
    | latency | latencyStats | timeout | event => rfl
  unfold sumIn
  rw [List.filter_filter, List.filter_congr fun l _ => hreports l]

private theorem flatMap_single {f : Nat → List LogLine} {xs : List Nat} (hxs : xs.Nodup) {x : Nat} (hx : x ∈ xs)
    (hf : ∀ y, y ≠ x → f y = []) : xs.flatMap f = f x := by
  induction xs with
  | nil => cases hx
  | cons y ys ih =>
    obtain ⟨hy, hys⟩ := List.nodup_cons.1 hxs
    rw [List.flatMap_cons]
    rcases List.mem_cons.1 hx with rfl | hx
    · have hnone : ys.flatMap f = [] := List.flatMap_eq_nil_iff.2 fun z hz => hf z fun he => hy (he ▸ hz)
      rw [hnone, List.append_nil]
    · rw [hf y fun he => hy (he ▸ hx), List.nil_append]
      exact ih hys hx

/-! ### Modules apart -/

/-- The modules have macros and identifiers of their own, which the events can carry. -/
structure DistinctModules (py : PyUpper) (files : List FileJson) : Prop where
  upper : (files.map fun fg => py.upper fg.name).Nodup
  ids : (files.map FileJson.moduleId).Nodup
  range : ∀ fg ∈ files, 1 ≤ fg.moduleId ∧ fg.moduleId ≤ 255

section

variable {py : PyUpper} {files : List FileJson} {load : String → Option OffsetTable} {cfg : HookConfig}
  (hgen : genConfig files load = some cfg) (hdistinct : DistinctModules py files)

include hdistinct

private theorem eq_of_upper {fg fg' : FileJson} (h : fg ∈ files) (h' : fg' ∈ files)
    (he : py.upper fg.name = py.upper fg'.name) : fg = fg' := List.inj_on_of_nodup_map hdistinct.upper h h' he

include hgen

variable (m : Member cfg)

private theorem member_file : ∃ fg ∈ files, fg.name = m.kind.moduleName ∧ m.group.name = fg.name ∧
    m.group.moduleId = fg.moduleId ∧
    ((genHookIds py files).byte ("MODULE_" ++ m.kind.upperName)).toNat = m.group.moduleId := by
  obtain ⟨fg, hfg, lu, he⟩ := genConfig_mem hgen m.mem
  have hname : fg.name = m.kind.moduleName := name_of_linked m.linked he
  have hupper : py.upper fg.name = m.kind.upperName := by rw [hname, m.kind.upper_moduleName]
  refine ⟨fg, hfg, hname, by rw [he]; rfl, by rw [he]; rfl, ?_⟩
  obtain ⟨fg', hlast⟩ := Option.isSome_iff_exists.1 (lastModule_isSome py hfg)
  obtain ⟨hmem, hupper'⟩ := lastModule_eq_some hlast
  obtain rfl := eq_of_upper hdistinct hmem hfg hupper'
  have hrange := hdistinct.range fg' hfg
  unfold Macros.byte
  rw [value_module, ← hupper, hlast, he]
  exact UInt8.toNat_ofNat_of_lt' (by show fg'.moduleId < 256; omega)

theorem moduleId_in_table : 1 ≤ m.group.moduleId ∧ m.group.moduleId ≤ cfg.maxModuleId := by
  obtain ⟨fg, hfg, -, -, hid, -⟩ := member_file hgen hdistinct m
  rw [hid]
  exact ⟨(hdistinct.range fg hfg).1, (genConfig_eq_some hgen).2.2 fg hfg⟩

/-- No other module is reported under the name. -/
private theorem reportName_eq_iff (i : Nat) : cfg.reportName i = m.group.name ↔ i = m.group.moduleId := by
  obtain ⟨fg, hfg, hname, hgname, hid, -⟩ := member_file hgen hdistinct m
  have hforall := (genConfig_eq_some hgen).1
  unfold HookConfig.reportName
  constructor
  · intro h
    by_cases hi : ∃ fg' ∈ files, fg'.moduleId = i
    · obtain ⟨fg', hfg', rfl⟩ := hi
      rw [find_group hforall hdistinct.ids hfg', Option.getD_some, hgname] at h
      rw [hid, eq_of_upper hdistinct hfg' hfg (by rw [h])]
    · have hnone : cfg.fileGroups.find? (fun g => g.moduleId == i) = none := by
        rw [List.find?_eq_none]
        intro g hg hgi
        obtain ⟨fg', hfg', lu, rfl⟩ := genConfig_mem hgen hg
        exact hi ⟨fg', hfg', eq_of_beq hgi⟩
      rw [hnone, hgname, hname] at h
      exact absurd h (by cases m.kind <;> decide)
  · rintro rfl
    rw [hid, find_group hforall hdistinct.ids hfg, hgname]
    rfl

/-- The lines about a module are not cut. -/
private theorem lines_fit {s : Session} {op : Operation} : ∀ l ∈ s.moduleOut cfg m.group.moduleId op, l.Fits := by
  obtain ⟨fg, -, hname, hgname, -⟩ := member_file hgen hdistinct m
  refine moduleOut_fits cfg ?_
  rw [(reportName_eq_iff hgen hdistinct m _).2 rfl, hgname, hname]
  cases m.kind <;> decide

/-! ### One intake -/

omit hgen hdistinct in
private theorem reports_moduleOut {s : Session} {op : Operation} {i : Nat} :
    ∀ l ∈ s.moduleOut cfg i op, ∀ name, l.reports name = true ↔ cfg.reportName i = name := by
  intro l hl name
  obtain ⟨elapse, send, recv, rfl⟩ := mem_moduleOut cfg hl
  exact beq_iff_eq

/-- The lines that an operation writes about a module are those that the model of the reports has for it. -/
private theorem sumIn_written {value : LogLine → UInt64} {s s' : Session} {op : Operation} (hw : Written cfg s s' op) :
    sumIn value m.group.name s'.log =
      sumIn value m.group.name s.log + ((s.moduleOut cfg m.group.moduleId op).map value).sum := by
  obtain ⟨new, hlog, hnew⟩ := hw.lines
  have hname := reportName_eq_iff hgen hdistinct m
  have hrange := moduleId_in_table hgen hdistinct m
  have hmem : m.group.moduleId ∈ List.range' 1 cfg.maxModuleId := by
    rw [List.mem_range'_1]
    omega
  have hsingle : ((List.range' 1 cfg.maxModuleId).flatMap fun i => s.moduleOut cfg i op).filter
      (LogLine.reports m.group.name) = s.moduleOut cfg m.group.moduleId op := by
    rw [List.filter_flatMap, flatMap_single List.nodup_range' hmem]
    · refine List.filter_eq_self.2 fun l hl => ?_
      exact (reports_moduleOut l hl _).2 ((hname _).2 rfl)
    · intro i hi
      refine List.filter_eq_nil_iff.2 fun l hl hreports => hi ?_
      exact (hname i).1 ((reports_moduleOut l hl _).1 hreports)
  rw [hlog, sumIn_append, ← sumIn_filter value _ new, hnew]
  congr 1
  unfold sumIn
  rw [hsingle]

omit hgen hdistinct in
private theorem sumIn_line (value : LogLine → UInt64) (name : String) (formats : Bool) (d : Dispatched) :
    sumIn value name (if formats then [d.line] else []) = 0 := by
  cases formats with
  | false => rfl
  | true => cases d <;> rfl

/-- The operation that a session makes of what it takes in. -/
def Intake.operation {n : Nat} : Intake n → Operation
  | .inl d => d.2.operation
  | .inr c => .call c

omit hgen hdistinct in
private theorem intake_operate {n : Nat} {formats : Bool} {s s' : Session} {d : Intake n}
    (h : s.intake cfg formats d = some s') : ∃ t, s.operate cfg d.operation = some t ∧ s'.stats = t.stats ∧
      ∀ value name, sumIn value name s'.log = sumIn value name t.log := by
  cases d with
  | inr c => exact ⟨s', h, rfl, fun _ _ => rfl⟩
  | inl d =>
    have hhandle : s.handle formats d.2 = some s' := h
    rw [Session.handle_eq cfg] at hhandle
    obtain ⟨t, ht, rfl⟩ := Option.map_eq_some_iff.1 hhandle
    refine ⟨t, ht, rfl, fun value name => ?_⟩
    rw [sumIn_append, sumIn_line, add_zero]

/-- The account of a module after what a session has taken in. -/
private theorem intake_account {n : Nat} {formats : Bool} {s s' : Session} {d : Intake n} (hsized : Sized cfg s.stats)
    (h : s.intake cfg formats d = some s') :
    Sized cfg s'.stats ∧
      s'.stats.modSend.getD m.group.moduleId 0 + sentIn m.group.name s'.log =
        s.stats.modSend.getD m.group.moduleId 0 + sentIn m.group.name s.log +
          (if d.operation.isSend m.group.moduleId then 1 else 0) ∧
      s'.stats.modRecv.getD m.group.moduleId 0 + receivedIn m.group.name s'.log =
        s.stats.modRecv.getD m.group.moduleId 0 + receivedIn m.group.name s.log +
          (if d.operation.isRecv m.group.moduleId then 1 else 0) := by
  obtain ⟨t, ht, hstats, hlog⟩ := intake_operate h
  have htable := inTable_of_operate cfg hsized ht
  have hw := operate_written cfg hsized htable ht
  have hrange := moduleId_in_table hgen hdistinct m
  have hb := operate_balanced cfg hsized htable ht (m := m.group.moduleId) (by omega)
  have hsize : Sized cfg s'.stats := hstats ▸ sized_of_operate cfg hsized ht
  obtain ⟨hsendValue, hrecvValue⟩ := map_send_of_fits (lines_fit hgen hdistinct m (s := s))
  have hsent : sentIn m.group.name s'.log =
      sentIn m.group.name s.log + ((s.moduleOut cfg m.group.moduleId d.operation).map LogLine.send).sum :=
    (hlog ..).trans (sumIn_written hgen hdistinct m hw)
  have hreceived : receivedIn m.group.name s'.log =
      receivedIn m.group.name s.log + ((s.moduleOut cfg m.group.moduleId d.operation).map LogLine.recv).sum :=
    (hlog ..).trans (sumIn_written hgen hdistinct m hw)
  refine ⟨hsize, ?_, ?_⟩
  · rw [hstats, hsent, hsendValue, add_left_comm, hb.send, ← add_assoc, add_comm (sentIn _ _)]
  · rw [hstats, hreceived, hrecvValue, add_left_comm, hb.recv, ← add_assoc, add_comm (receivedIn _ _)]

private theorem intakes_account {n : Nat} {formats : Bool} {s t : Session} (hsized : Sized cfg s.stats)
    {ds : List (Intake n)} (h : runFrom (lift (Session.intake cfg formats)) (some s) ds = some t) :
    t.stats.modSend.getD m.group.moduleId 0 + sentIn m.group.name t.log =
        s.stats.modSend.getD m.group.moduleId 0 + sentIn m.group.name s.log +
          UInt64.ofNat (ds.countP fun d => d.operation.isSend m.group.moduleId) ∧
      t.stats.modRecv.getD m.group.moduleId 0 + receivedIn m.group.name t.log =
        s.stats.modRecv.getD m.group.moduleId 0 + receivedIn m.group.name s.log +
          UInt64.ofNat (ds.countP fun d => d.operation.isRecv m.group.moduleId) := by
  induction ds generalizing s with
  | nil =>
    obtain rfl : s = t := Option.some.inj h
    exact ⟨(add_zero _).symm, (add_zero _).symm⟩
  | cons d ds ih =>
    have hrun : runFrom (lift (Session.intake cfg formats)) (s.intake cfg formats d) ds = some t := h
    cases hu : s.intake cfg formats d with
    | none =>
      rw [hu, runFrom_lift_none] at hrun
      cases hrun
    | some u =>
      rw [hu] at hrun
      obtain ⟨husized, hsend, hrecv⟩ := intake_account hgen hdistinct m hsized hu
      obtain ⟨hsends, hrecvs⟩ := ih husized hrun
      have hofNat : ∀ (p : Intake n → Bool), UInt64.ofNat ((d :: ds).countP p) =
          (if p d then 1 else 0) + UInt64.ofNat (ds.countP p) := by
        intro p
        rw [List.countP_cons]
        split <;> simp [UInt64.ofNat_add, add_comm]
      rw [hsends, hrecvs, hsend, hrecv, hofNat, hofNat]
      exact ⟨add_assoc .., add_assoc ..⟩

private theorem member_eq {m m' : Member cfg} (h : m.group.moduleId = m'.group.moduleId) : m.kind = m'.kind := by
  obtain ⟨fg, -, hname, hgname, -, -⟩ := member_file hgen hdistinct m
  obtain ⟨fg', -, hname', hgname', -, -⟩ := member_file hgen hdistinct m'
  have hreport := (reportName_eq_iff hgen hdistinct m m'.group.moduleId).2 h.symm
  rw [(reportName_eq_iff hgen hdistinct m' _).2 rfl, hgname, hgname', hname, hname'] at hreport
  exact (EventKind.moduleName_inj hreport).symm

end

/-! ### Firings -/

/-- A firing that counts as sent, or as received, by its module. -/
def Shot.isSend {k : EventKind} (x : Shot k) : Bool := !x.probe.isRet && x.probe.direction = dirSend

def Shot.isRecv {k : EventKind} (x : Shot k) : Bool := !x.probe.isRet && x.probe.direction ≠ dirSend

section

variable {n : Nat}

private theorem isSend_operation (d : Dispatched) (i : Nat) :
    d.operation.isSend i = (d.hdr.moduleId.toNat == i && d.hdr.isSend) ∧
      d.operation.isRecv i = (d.hdr.moduleId.toNat == i && d.hdr.isRecv) := by
  cases d <;> exact ⟨rfl, rfl⟩

/-- The events of one collector among all that a session took in, where the others name other modules. -/
private theorem countP_intakes {p : Operation → Bool} {q : EventHeader → Bool} {j : Fin n} {ds : List (Intake n)}
    (hcall : ∀ c, p (.call c) = false)
    (hother : ∀ d ∈ ds.filterMap Sum.getLeft?, d.1 ≠ j → p d.2.operation = false)
    (hown : ∀ d ∈ ds.filterMap Sum.getLeft?, d.1 = j → p d.2.operation = q d.2.hdr) :
    ds.countP (fun d => p d.operation) = (eventsOf j ds).countP fun d => q d.hdr := by
  induction ds with
  | nil => rfl
  | cons d ds ih =>
    cases d with
    | inr c =>
      rw [List.countP_cons_of_neg (by simp [Intake.operation, hcall])]
      exact ih hother hown
    | inl d =>
      have hother' := hother d List.mem_cons_self
      have hown' := hown d List.mem_cons_self
      have hrest := ih (fun e he => hother e (List.mem_cons_of_mem _ he)) fun e he => hown e (List.mem_cons_of_mem _ he)
      have hevents : eventsOf j (.inl d :: ds) = (if d.1 = j then [d.2] else []) ++ eventsOf j ds := by
        unfold eventsOf valuesOf
        rw [List.filterMap_cons_some (show Sum.getLeft? (.inl d : Intake n) = some d from rfl)]
        by_cases hd : d.1 = j
        · rw [List.filterMap_cons_some (by rw [if_pos hd]), if_pos hd]
          rfl
        · rw [List.filterMap_cons_none (by rw [if_neg hd]), if_neg hd]
          rfl
      rw [List.countP_cons, hevents, List.countP_append, hrest, add_comm]
      congr 1
      by_cases hd : d.1 = j
      · rw [if_pos hd, List.countP_singleton]
        show (if p d.2.operation = true then 1 else 0) = _
        rw [hown' hd]
      · rw [if_neg hd, List.countP_nil]
        show (if p d.2.operation = true then 1 else 0) = _
        rw [hother' hd]
        rfl

/-- The events of a collector count as its firings do. -/
private theorem countP_handled {k : EventKind} {ids : Macros} {g : FileGroup} {p : Feed k} {ds : List Dispatched}
    {ys : List (Fired k)} {m : Nat} (h : Handled ids g p ds ys m) (q : EventHeader → Bool) :
    (ds.countP fun d => q d.hdr) = (ys.take m).countP fun y => q (y.shot.hdr ids) := by
  have hsome : (ds.countP fun d => q d.hdr) = (ds.map some).countP fun o => o.any fun d => q d.hdr := by
    rw [List.countP_map]
    rfl
  rw [hsome, h.events, List.countP_map]
  refine List.countP_congr fun y hy => ?_
  have hmem : y.shot.dispatched ids g y.slot ∈ ds.map some := by
    rw [h.events]
    exact List.mem_map_of_mem hy
  obtain ⟨d, -, hd⟩ := List.mem_map.1 hmem
  show (y.shot.dispatched ids g y.slot).any _ = true ↔ _
  rw [← hd, Option.any_some, y.shot.hdr_dispatched hd.symm]

/-- What a session has taken in of a collector names its module. -/
private theorem module_taken {cfg : HookConfig} {ms : Fin n → Member cfg} {K : RingKernel} {ids : Macros}
    {formats : Bool} {data : Fin n → Nat → UInt8} {s : Session} {as : List (HubAction ms)}
    (hfits : (Hub.run K ids formats data s as).Fits) {d : Fin n × Dispatched}
    (hd : d ∈ (Hub.taken K ids formats data s as).filterMap Sum.getLeft?) :
    d.2.hdr.moduleId = ids.byte ("MODULE_" ++ (ms d.1).kind.upperName) := by
  have hmem : d.2 ∈ eventsOf d.1 (Hub.taken K ids formats data s as) := mem_valuesOf hd
  rw [Hub.eventsOf_taken] at hmem
  obtain ⟨bs, hbs, he⟩ := List.mem_map.1 hmem
  have hfit := hfits d.1
  rw [Hub.feeds_run] at hbs hfit
  obtain ⟨ys, m, hp⟩ := delivered_run K ids _ _ _ hfit
  obtain ⟨y, -, hy⟩ := (hp.record hbs).2 (ms d.1).group
  rw [← he, y.shot.hdr_dispatched hy]
  rfl

end

/-! ### The accounts -/

section

variable {files : List FileJson} {load : String → Option OffsetTable} {cfg : HookConfig}
  (hgen : genConfig files load = some cfg) (K : RingKernel) (py : PyUpper) (hdistinct : DistinctModules py files)
  {n : Nat} {ms : Fin n → Member cfg} (formats : Bool) (data : Fin n → Nat → UInt8)

include hgen hdistinct

/-- In every run of the collectors, with reports and evictions anywhere in it: what the reports in the log say that a
module sent, with what its counter holds, is the number of its sending entry probes that fired, got a slot and were
passed, modulo `2 ^ 64`; and so for what it received. -/
theorem firings_accounted (hkinds : Function.Injective fun j => (ms j).kind) (as : List (HubAction ms))
    (hfits : (Hub.run K (genHookIds py files) formats data ⟨fresh cfg true, []⟩ as).Fits) :
    ∃ t, (Hub.run K (genHookIds py files) formats data ⟨fresh cfg true, []⟩ as).session = some t ∧
      ∀ j, ∃ ys m,
        Passed (genHookIds py files)
          ((Hub.run K (genHookIds py files) formats data ⟨fresh cfg true, []⟩ as).feeds j) ys m ∧
        t.stats.modSend.getD (ms j).group.moduleId 0 + sentIn (ms j).group.name t.log =
          UInt64.ofNat ((ys.take m).countP fun y => y.shot.isSend) ∧
        t.stats.modRecv.getD (ms j).group.moduleId 0 + receivedIn (ms j).group.name t.log =
          UInt64.ofNat ((ys.take m).countP fun y => y.shot.isRecv) := by
  have hsized : Sized cfg (Session.mk (fresh cfg true) []).stats := sized_fresh cfg true
  obtain ⟨t, ht, -, htaken⟩ := Hub.session_taken hgen K py formats data hsized hfits
  refine ⟨t, ht, fun j => ?_⟩
  have hfit := hfits j
  rw [Hub.feeds_run] at hfit ⊢
  obtain ⟨ys, m, hp⟩ := delivered_run _ _ _ _ _ hfit
  have hhandled := hp.handled (ms j).group
  rw [← Hub.feeds_run K (genHookIds py files) formats data ⟨fresh cfg true, []⟩, ← Hub.eventsOf_taken] at hhandled
  -- a collector names its own module, and no other collector does
  have hbyte : ∀ i, ((genHookIds py files).byte ("MODULE_" ++ (ms i).kind.upperName)).toNat = (ms i).group.moduleId := by
    intro i
    obtain ⟨_, _, _, _, _, h⟩ := member_file hgen hdistinct (ms i)
    exact h
  have hmodule : ∀ d ∈ (Hub.taken K (genHookIds py files) formats data ⟨fresh cfg true, []⟩ as).filterMap Sum.getLeft?,
      (d.2.hdr.moduleId.toNat == (ms j).group.moduleId) = decide (d.1 = j) := by
    intro d hd
    rw [module_taken hfits hd, hbyte, Bool.eq_iff_iff, beq_iff_eq, decide_eq_true_iff]
    exact ⟨fun h => hkinds (member_eq hgen hdistinct h), fun h => by rw [h]⟩
  obtain ⟨hsend, hrecv⟩ := intakes_account hgen hdistinct (ms j) hsized htaken
  have hzero : (fresh cfg true).modSend.getD (ms j).group.moduleId 0 = 0 ∧
      (fresh cfg true).modRecv.getD (ms j).group.moduleId 0 = 0 :=
    ⟨getD_replicate_zero .., getD_replicate_zero ..⟩
  refine ⟨ys, m, hp, ?_, ?_⟩
  · rw [hsend, hzero.1, countP_intakes (p := fun op => op.isSend (ms j).group.moduleId) (q := EventHeader.isSend) (j := j),
      countP_handled hhandled EventHeader.isSend]
    · exact zero_add _
    · exact fun _ => rfl
    · intro d hd hne
      rw [(isSend_operation ..).1, hmodule d hd, decide_eq_false hne, Bool.false_and]
    · intro d hd he
      rw [(isSend_operation ..).1, hmodule d hd, decide_eq_true he, Bool.true_and]
  · rw [hrecv, hzero.2, countP_intakes (p := fun op => op.isRecv (ms j).group.moduleId) (q := EventHeader.isRecv) (j := j),
      countP_handled hhandled EventHeader.isRecv]
    · exact zero_add _
    · exact fun _ => rfl
    · intro d hd hne
      rw [(isSend_operation ..).2, hmodule d hd, decide_eq_false hne, Bool.false_and]
    · intro d hd he
      rw [(isSend_operation ..).2, hmodule d hd, decide_eq_true he, Bool.true_and]

end

/-- A message is sent, and a report is written. -/
theorem firings_accounted_one_send :
    let as := oneSendRun 0 8 ++ [.inr (.flushReport 5)]
    ∃ t, (Hub.run .plain (genHookIds .letters [oneHookFile]) true (fun _ _ => 0) ⟨fresh oneHookConfig true, []⟩
        as).session = some t ∧
      ∀ j : Fin 1, ∃ ys m,
        Passed (genHookIds .letters [oneHookFile]) ((Hub.run .plain (genHookIds .letters [oneHookFile]) true
          (fun _ _ => 0) ⟨fresh oneHookConfig true, []⟩ as).feeds j) ys m ∧
        t.stats.modSend.getD 1 0 + sentIn "routing" t.log = UInt64.ofNat ((ys.take m).countP fun y => y.shot.isSend) ∧
        t.stats.modRecv.getD 1 0 + receivedIn "routing" t.log =
          UInt64.ofNat ((ys.take m).countP fun y => y.shot.isRecv) := by
  have hgen : genConfig [oneHookFile] (fun _ => some [("send()", some 64)]) = some oneHookConfig := rfl
  have hdistinct : DistinctModules .letters [oneHookFile] :=
    ⟨List.nodup_singleton _, List.nodup_singleton _, by simp [oneHookFile]⟩
  refine firings_accounted hgen .plain .letters hdistinct true (fun _ _ => 0) (Function.injective_of_subsingleton _) _ ?_
  intro j
  obtain rfl : j = 0 := Subsingleton.elim ..
  decide +kernel

end VsomeipCollector

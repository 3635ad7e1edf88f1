import VsomeipCollector.Resources

/-!
# Attaching hooks: all or nothing

`attach` has two exits after its loop over the hooks, for a missing map and for a ring buffer that cannot be created.
They return without detaching the hooks that the loop has attached, and since `attached_` is still false the next
`attach` does not detach them either.  A run keeps the law, a failed attach leaves no link and no hook is attached
twice, exactly when it never takes one of these exits with a hook attached and never calls `attach` on a collector
that has lost its BPF object but not its links (`attachAtomic_iff`).
-/

namespace VsomeipCollector

open Run Collector

def Resource.toLink : Resource → Option Link
  | .link l => some l
  | _ => none

/-- The live links. -/
def Sys.liveLinks (s : Sys) : Multiset Link := s.lib.live.filterMap Resource.toLink

/-- What the result `ret` of an `attach` says about the state it leaves. -/
structure AttachOutcome (ret : Int) (s : Sys) : Prop where
  failed : ret < 0 → s.liveLinks = 0 ∧ s.c.links = []
  attached : 0 ≤ ret → (Multiset.card s.liveLinks : Int) = ret ∧ (s.liveLinks.map Link.hook).Nodup

variable (g : FileGroup)

/-- A failed attach is atomic, and no hook is ever attached twice. -/
structure AttachAtomic (ops : List CollectorOp) : Prop where
  outcome : ∀ pre env pid post, ops = pre ++ .attach env pid :: post →
    AttachOutcome (attach g env pid (Sys.run g pre)).1 (Sys.run g (pre ++ [.attach env pid]))
  single : ∀ pre post, ops = pre ++ post → ((Sys.run g pre).liveLinks.map Link.hook).Nodup

/-- An `attach` from `s` under `env` neither meets links without a BPF object nor fails late with a hook attached. -/
structure CleanAttach (s : Sys) (env : AttachEnv) : Prop where
  object : s.c.obj = none → s.c.links = []
  late : s.c.obj ≠ none → env.findMap = false ∨ env.ringBufferNew = false →
    ∀ i < g.hookCount, attaches g env i = false

def CleanRun (ops : List CollectorOp) : Prop :=
  ∀ pre env pid post, ops = pre ++ .attach env pid :: post → CleanAttach g (Sys.run g pre) env

/-! ### Live links -/

private theorem toLink_link (ls : List Link) :
    Multiset.filterMap Resource.toLink (ls.map Resource.link : Multiset Resource) = ls := by
  rw [Multiset.filterMap_coe, List.filterMap_map]
  exact congrArg _ List.filterMap_some

private theorem toLink_none {m : Multiset Resource} (h : ∀ r ∈ m, r.toLink = none) :
    Multiset.filterMap Resource.toLink m = 0 := by
  induction m using Multiset.induction_on with
  | empty => rfl
  | cons r m ih =>
    rw [Multiset.filterMap_cons_none _ _ (h r (Multiset.mem_cons_self r m))]
    exact ih fun r' hr' => h r' (Multiset.mem_cons_of_mem hr')

/-- The live links are those in `links_`. -/
theorem liveLinks_of_inv {lost : Multiset Nat} {s : Sys} (h : Inv lost s) : s.liveLinks = s.c.links := by
  have hrest : Multiset.filterMap Resource.toLink
      (((s.c.ringbuf.map Resource.ringbuf).toList + s.c.heldObject) + lost.map Resource.object) = 0 := by
    apply toLink_none
    intro r hr
    simp only [Collector.heldObject, Multiset.mem_add, Multiset.mem_coe, Option.mem_toList, Option.map_eq_some_iff,
      Multiset.mem_map] at hr
    rcases hr with (⟨_, _, rfl⟩ | ⟨_, _, rfl⟩) | ⟨_, _, rfl⟩ <;> rfl
  unfold Sys.liveLinks
  rw [h.live, Collector.held, Multiset.add_assoc, Multiset.filterMap_add, toLink_link, hrest, Multiset.add_zero]

/-! ### One `attach` -/

theorem liveLinks_run (ops : List CollectorOp) : (Sys.run g ops).liveLinks = (Sys.run g ops).c.links := by
  obtain ⟨lost, h⟩ := inv_run g ops
  exact liveLinks_of_inv h

theorem run_attach (pre : List CollectorOp) (env : AttachEnv) (pid : Int) :
    Sys.run g (pre ++ [.attach env pid]) = (attach g env pid (Sys.run g pre)).2 := runFrom_concat ..

theorem liveLinks_attach (ops : List CollectorOp) (env : AttachEnv) (pid : Int) :
    (attach g env pid (Sys.run g ops)).2.liveLinks = (attach g env pid (Sys.run g ops)).2.c.links := by
  rw [← run_attach]
  exact liveLinks_run g _

/-- `attach` fails late: it has a BPF object, but no map or no ring buffer. -/
theorem attach_late {s : Sys} {env : AttachEnv} (pid : Int) {o : Nat} (ho : s.c.obj = some o)
    (hf : env.findMap = false ∨ env.ringBufferNew = false) :
    (attach g env pid s).1 = -1 ∧ (attach g env pid s).2.c.attached = (beforeLoop s).c.attached ∧
      (attach g env pid s).2.c.links =
        (beforeLoop s).c.links ++ newLinks g env pid o (List.range g.hookCount) (beforeLoop s).lib.next := by
  unfold attach
  rw [ho]
  dsimp only
  rw [show (if s.c.attached = true then Collector.detach s else s) = beforeLoop s from rfl, attachHooks_eq]
  rcases hf with hf | hf
  · rw [hf]
    exact ⟨rfl, rfl, rfl⟩
  · rw [hf]
    cases env.findMap <;> exact ⟨rfl, rfl, rfl⟩

/-- `attach` goes through. -/
theorem attach_ok {s : Sys} {env : AttachEnv} (pid : Int) {o : Nat} (ho : s.c.obj = some o)
    (hm : env.findMap = true) (hr : env.ringBufferNew = true) :
    (attach g env pid s).1 = (newLinks g env pid o (List.range g.hookCount) (beforeLoop s).lib.next).length ∧
      (attach g env pid s).2.c.attached = true ∧
      (attach g env pid s).2.c.links =
        (beforeLoop s).c.links ++ newLinks g env pid o (List.range g.hookCount) (beforeLoop s).lib.next := by
  unfold attach
  rw [ho]
  dsimp only
  rw [show (if s.c.attached = true then Collector.detach s else s) = beforeLoop s from rfl, attachHooks_eq, hm, hr]
  exact ⟨rfl, rfl, rfl⟩

/-- The hooks attached by one loop are different. -/
private theorem nodup_newLinks (env : AttachEnv) (pid : Int) (o n : Nat) :
    ((newLinks g env pid o (List.range g.hookCount) n).map Link.hook).Nodup := by
  rw [hooks_newLinks]
  exact List.nodup_range.filter _

/-- No hook is attached exactly when there are no new links. -/
private theorem newLinks_eq_nil (env : AttachEnv) (pid : Int) (o n : Nat) :
    newLinks g env pid o (List.range g.hookCount) n = [] ↔ ∀ i < g.hookCount, attaches g env i = false := by
  rw [← List.map_eq_nil_iff (f := Link.hook), hooks_newLinks, List.filter_eq_nil_iff]
  simp

/-! ### Runs of clean attaches -/

/-- Links are held only while attached, and no two are of one hook. -/
structure Settled (s : Sys) : Prop where
  inv : ∃ lost, Inv lost s
  links : s.c.links = [] ∨ s.c.attached = true
  nodup : (s.c.links.map Link.hook).Nodup

/-- From a settled state the loop starts without links. -/
private theorem Settled.beforeLoop {s : Sys} (h : Settled s) : (beforeLoop s).c.links = [] := by
  obtain ⟨lost, hi⟩ := h.inv
  obtain ⟨-, -, -, -, hl⟩ := inv_beforeLoop hi
  rw [hl]
  rcases h.links with h | h
  · simp [h]
  · simp [h]

/-- A clean attach leaves a settled state, with the outcome its result tells. -/
private theorem Settled.attach {s : Sys} (h : Settled s) {env : AttachEnv} (pid : Int) (hc : CleanAttach g s env) :
    Settled (attach g env pid s).2 ∧ AttachOutcome (attach g env pid s).1 (attach g env pid s).2 := by
  obtain ⟨lost, hi⟩ := h.inv
  have hi' : Inv lost (Collector.attach g env pid s).2 := by
    have := hi.step g (.attach env pid)
    rwa [show overwritten s (.attach env pid) = 0 from rfl, Multiset.add_zero] at this
  have hlive := liveLinks_of_inv hi'
  cases ho : s.c.obj with
  | none =>
    have hat : Collector.attach g env pid s = (-1, s) := by
      unfold Collector.attach
      rw [ho]
    rw [hat] at hlive ⊢
    have hl := hc.object ho
    refine ⟨h, fun _ => ⟨by rw [hlive, hl]; rfl, hl⟩, ?_⟩
    intro hn
    dsimp only at hn
    omega
  | some o =>
    have hb := h.beforeLoop
    have hne : s.c.obj ≠ none := by rw [ho]; exact Option.some_ne_none o
    by_cases hf : env.findMap = false ∨ env.ringBufferNew = false
    · -- a late exit, with no hook attached
      obtain ⟨hret, -, hlinks⟩ := attach_late g pid ho hf
      rw [hb, (newLinks_eq_nil g env pid o _).2 (hc.late hne hf), List.append_nil] at hlinks
      rw [hlinks] at hlive
      refine ⟨⟨⟨lost, hi'⟩, Or.inl hlinks, by rw [hlinks]; exact List.nodup_nil⟩, fun _ => ⟨hlive, hlinks⟩, ?_⟩
      intro hn
      rw [hret] at hn
      omega
    · -- the links are those of this call alone
      rw [not_or, Bool.not_eq_false, Bool.not_eq_false] at hf
      obtain ⟨hret, hatt, hlinks⟩ := attach_ok g pid ho hf.1 hf.2
      rw [hb, List.nil_append] at hlinks
      have hnodup : ((Collector.attach g env pid s).2.c.links.map Link.hook).Nodup := by
        rw [hlinks]
        exact nodup_newLinks g env pid o _
      refine ⟨⟨⟨lost, hi'⟩, Or.inr hatt, hnodup⟩, ?_, fun _ => ⟨?_, ?_⟩⟩
      · intro hn
        rw [hret] at hn
        omega
      · rw [hlive, hret, hlinks, Multiset.coe_card]
      · rw [hlive, Multiset.map_coe, Multiset.coe_nodup]
        exact hnodup

/-- The other calls keep links or drop all of them. -/
private theorem Settled.step {s : Sys} (h : Settled s) (op : CollectorOp)
    (hc : ∀ env pid, op = .attach env pid → CleanAttach g s env) : Settled (s.step g op) := by
  obtain ⟨lost, hi⟩ := h.inv
  have hi' := hi.step g op
  cases op with
  | attach env pid => exact (h.attach g pid (hc env pid rfl)).1
  | init env =>
    obtain ⟨hl, ha⟩ := links_init env s
    refine ⟨⟨_, hi'⟩, ?_, ?_⟩
    · rw [show (s.step g (.init env)).c.links = _ from hl, show (s.step g (.init env)).c.attached = _ from ha]
      exact h.links
    · rw [show (s.step g (.init env)).c.links = _ from hl]
      exact h.nodup
  | detach =>
    have hnil : (s.step g .detach).c.links = [] := by
      show (Collector.detach s).c.links = []
      rw [detach_eq hi]
    exact ⟨⟨_, hi'⟩, Or.inl hnil, by rw [hnil]; exact List.nodup_nil⟩
  | destroy =>
    have hnil : (s.step g .destroy).c.links = [] := by
      show (Collector.destroy s).c.links = []
      rw [destroy_eq hi]
    exact ⟨⟨_, hi'⟩, Or.inl hnil, by rw [hnil]; exact List.nodup_nil⟩

private theorem settled_run {ops : List CollectorOp} (hc : CleanRun g ops) : Settled (Sys.run g ops) := by
  refine runFrom_guarded Settled (fun s op => ∀ env pid, op = .attach env pid → CleanAttach g s env)
    (fun s op h hok => h.step g op hok) ⟨⟨0, inv_start⟩, Or.inl rfl, List.nodup_nil⟩ ops ?_
  rintro pre op post he env pid rfl
  exact hc pre env pid post he

private theorem CleanRun.initial {pre post : List CollectorOp} (hc : CleanRun g (pre ++ post)) : CleanRun g pre :=
  fun p env pid q he => hc p env pid (q ++ post) (by rw [he]; simp)

/-- Attaching is atomic, and single, along a run exactly when every attach of the run is clean. -/
theorem attachAtomic_iff (ops : List CollectorOp) : AttachAtomic g ops ↔ CleanRun g ops := by
  constructor
  · intro h pre env pid post he
    have hout := h.outcome pre env pid post he
    rw [run_attach] at hout
    constructor
    · intro ho
      have hat : attach g env pid (Sys.run g pre) = (-1, Sys.run g pre) := by
        unfold attach
        rw [ho]
      rw [hat] at hout
      exact (hout.failed (show (-1 : Int) < 0 by decide)).2
    · -- the result is -1, so nothing may be left of the links that the loop made
      intro hne hf
      obtain ⟨o, ho⟩ := Option.ne_none_iff_exists'.1 hne
      obtain ⟨hret, -, hlinks⟩ := attach_late g pid ho hf
      have hnil := (hout.failed (by rw [hret]; decide)).2
      rw [hlinks] at hnil
      exact (newLinks_eq_nil g env pid o _).1 (List.append_eq_nil_iff.1 hnil).2
  · intro hc
    constructor
    · rintro pre env pid post rfl
      rw [run_attach]
      exact ((settled_run g (CleanRun.initial g hc)).attach g pid (hc pre env pid post rfl)).2
    · rintro pre post rfl
      rw [liveLinks_run, Multiset.map_coe, Multiset.coe_nodup]
      exact (settled_run g (CleanRun.initial g hc)).nodup

/-! ### Collectors that have lost their BPF object -/

/-- Links are held without a BPF object. -/
def Sys.Lost (s : Sys) : Prop := s.c.obj = none ∧ s.c.links ≠ []

/-- The calls that do not help a collector without a BPF object: `attach`, and an `init` that fails. -/
def CollectorOp.idle : CollectorOp → Bool
  | .init env => !env.openMem || !env.load
  | .attach _ _ => true
  | _ => false

private theorem obj_init (env : InitEnv) (s : Sys) :
    (init env s).2.c.obj = none ↔ CollectorOp.idle (.init env) = true := by
  obtain ⟨openMem, load⟩ := env
  cases openMem <;> cases load <;> simp [init, CollectorOp.idle]

private theorem obj_beforeLoop (s : Sys) : (beforeLoop s).c.obj = s.c.obj := by
  unfold beforeLoop Collector.detach
  dsimp only
  repeat' split
  all_goals rfl

private theorem obj_attach (env : AttachEnv) (pid : Int) (s : Sys) : (attach g env pid s).2.c.obj = s.c.obj := by
  cases ho : s.c.obj with
  | none =>
    unfold attach
    rw [ho]
    exact ho
  | some o =>
    have hbefore : (beforeLoop s).c.obj = some o := (obj_beforeLoop s).trans ho
    unfold attach
    rw [ho]
    dsimp only
    rw [show (if s.c.attached = true then Collector.detach s else s) = beforeLoop s from rfl, attachHooks_eq]
    repeat' split
    all_goals exact hbefore

/-- A collector gets into this state by an `init` that fails while links are held, and stays in it until an `init` goes
through or the links are dropped. -/
private theorem lost_step (s : Sys) (op : CollectorOp) :
    (s.step g op).Lost ↔ op.idle = true ∧ ((∃ env, op = .init env) ∧ s.c.links ≠ [] ∨ s.Lost) := by
  unfold Sys.Lost
  cases op with
  | init env =>
    rw [show (s.step g (.init env)).c.links = s.c.links from (links_init env s).1]
    constructor
    · rintro ⟨hobj, hlinks⟩
      exact ⟨(obj_init env s).1 hobj, .inl ⟨⟨env, rfl⟩, hlinks⟩⟩
    · rintro ⟨hidle, ⟨-, hlinks⟩ | ⟨-, hlinks⟩⟩
      · exact ⟨(obj_init env s).2 hidle, hlinks⟩
      · exact ⟨(obj_init env s).2 hidle, hlinks⟩
  | attach env pid =>
    have hobj : (s.step g (.attach env pid)).c.obj = s.c.obj := obj_attach g env pid s
    have hsame : s.c.obj = none → s.step g (.attach env pid) = s := by
      intro ho
      show (attach g env pid s).2 = s
      unfold attach
      rw [ho]
    rw [hobj]
    constructor
    · rintro ⟨ho, hlinks⟩
      rw [hsame ho] at hlinks
      exact ⟨rfl, .inr ⟨ho, hlinks⟩⟩
    · rintro ⟨-, ⟨⟨_, h⟩, -⟩ | ⟨ho, hlinks⟩⟩
      · cases h
      · rw [hsame ho]
        exact ⟨ho, hlinks⟩
  | detach =>
    have hnil : (s.step g .detach).c.links = [] := by
      show (Collector.detach s).c.links = []
      unfold Collector.detach
      dsimp only
      split <;> rfl
    exact iff_of_false (fun h => h.2 hnil) fun h => Bool.false_ne_true h.1
  | destroy =>
    have hnil : (s.step g .destroy).c.links = [] := by
      show (Collector.destroy s).c.links = []
      unfold Collector.destroy Collector.detach
      dsimp only
      repeat' split
      all_goals rfl
    exact iff_of_false (fun h => h.2 hnil) fun h => Bool.false_ne_true h.1

theorem lost_run_iff (ops : List CollectorOp) :
    (Sys.run g ops).Lost ↔ ∃ pre env post, ops = pre ++ .init env :: post ∧ (Sys.run g pre).c.links ≠ [] ∧
      ∀ op ∈ .init env :: post, op.idle = true := by
  constructor
  · induction ops using List.reverseRecOn with
    | nil => exact fun h => absurd rfl h.2
    | append_singleton ops op ih =>
      intro h
      rw [Sys.run, runFrom_concat] at h
      obtain ⟨hidle, ⟨⟨env, rfl⟩, hlinks⟩ | hlost⟩ := (lost_step g _ op).1 h
      · exact ⟨ops, env, [], rfl, hlinks, by simpa using hidle⟩
      · obtain ⟨pre, env, post, rfl, hlinks, hpost⟩ := ih hlost
        refine ⟨pre, env, post ++ [op], by simp, hlinks, fun x hx => ?_⟩
        rw [← List.cons_append] at hx
        rcases List.mem_append.1 hx with hx | hx
        · exact hpost x hx
        · rw [List.mem_singleton.1 hx]
          exact hidle
  · rintro ⟨pre, env, post, rfl, hlinks, hpost⟩
    have hinit : ((Sys.run g pre).step g (.init env)).Lost :=
      (lost_step g _ _).2 ⟨hpost _ List.mem_cons_self, .inl ⟨⟨env, rfl⟩, hlinks⟩⟩
    rw [Sys.run, runFrom_append, runFrom_cons]
    exact runFrom_guarded Sys.Lost (fun _ op => op.idle = true) (fun s op h hop => (lost_step g s op).2 ⟨hop, .inr h⟩)
      hinit post fun _ op _ he => hpost op (List.mem_cons_of_mem _ (by rw [he]; simp))

/-- A run is clean exactly when no `attach` comes after an `init` that failed while links were held, with nothing between
them that drops the links or brings a BPF object, and none fails late with a hook attached. -/
theorem cleanRun_iff (ops : List CollectorOp) : CleanRun g ops ↔
    (∀ pre env mid env' pid post, ops = pre ++ .init env :: (mid ++ .attach env' pid :: post) →
      (∀ op ∈ .init env :: mid, op.idle = true) → (Sys.run g pre).c.links = []) ∧
    ∀ pre env pid post, ops = pre ++ .attach env pid :: post → (Sys.run g pre).c.obj ≠ none →
      env.findMap = false ∨ env.ringBufferNew = false → ∀ i < g.hookCount, attaches g env i = false := by
  constructor
  · refine fun h => ⟨fun pre env mid env' pid post he hidle => ?_,
      fun pre env pid post he => (h pre env pid post he).late⟩
    by_contra hlinks
    have hlost := (lost_run_iff g (pre ++ .init env :: mid)).2 ⟨pre, env, mid, rfl, hlinks, hidle⟩
    exact hlost.2 ((h _ env' pid post (by rw [he]; simp)).object hlost.1)
  · rintro ⟨hinit, hlate⟩ pre env pid post rfl
    refine ⟨fun hobj => ?_, hlate pre env pid post rfl⟩
    by_contra hlinks
    obtain ⟨pre', ienv, mid, rfl, hheld, hidle⟩ := (lost_run_iff g pre).1 ⟨hobj, hlinks⟩
    exact hheld (hinit pre' ienv mid env pid post (by simp) hidle)

/-- A ring buffer that cannot be created after the hook was attached, and a second attempt: two links on one hook. -/
theorem attached_twice :
    let g : FileGroup := ⟨"routing", "routing_events", 1, 1, [⟨"rm_send_entry", "/usr/lib/libvsomeip3.so", 64, false⟩],
      ["rm_send_entry"], "routing_event_handler"⟩
    let env : Bool → AttachEnv := fun ok => ⟨fun _ _ => some ⟨"hook_rm_send_entry", "uprobe/rm_send_entry"⟩,
      fun _ => true, true, ok, 5, fun _ => ⟨"", "", 0, false⟩⟩
    ¬ AttachAtomic g [.init ⟨true, true⟩, .attach (env false) 7, .attach (env true) 7] ∧
      (Sys.run g [.init ⟨true, true⟩, .attach (env false) 7, .attach (env true) 7]).c.links.map Link.hook = [0, 0] := by
  intro g env
  refine ⟨?_, rfl⟩
  intro h
  have hnil := ((h.outcome [.init ⟨true, true⟩] (env false) 7 _ rfl).failed (by decide)).2
  revert hnil
  decide

end VsomeipCollector

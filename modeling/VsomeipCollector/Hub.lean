import VsomeipCollector.Delivery
import VsomeipCollector.Library.Family

/-!
# Collectors with one `StatsCollector`

Every module has a collector with a ring buffer of its own, and all of them hand their events to the one statistics
collector and the one log writer.  `Hub` is the whole of it: the firings of all programs, the ring buffers, the consumers
and the session, whose steps come in any order; the event loop and the last report of `main` are one such order.

Whatever the order, the session is the one after handling, for every collector, the events of its firings that were
passed: in the order of their reservations, each once and as its program made it (`session_run`), and it never leaves
the counter tables.  Once the programs are through, no event of a firing that got a slot is missing (`session_drained`).
-/

namespace VsomeipCollector

open Family Run StatsCollector

/-- A module of the configuration, with its handler and its ring buffer. -/
structure Member (cfg : HookConfig) where
  group : FileGroup
  mem : group ∈ cfg.fileGroups
  kind : EventKind
  linked : linked group.handler = some kind
  ring : Ring

/-- What a session takes in: an event of one of the collectors, or a call of a public function. -/
abbrev Intake (n : Nat) := (Fin n × Dispatched) ⊕ Call

def Session.intake {n : Nat} (cfg : HookConfig) (formats : Bool) (s : Session) : Intake n → Option Session
  | .inl d => s.handle formats d.2
  | .inr c => some (s.step cfg c)

/-- The events of one collector. -/
def eventsOf {n : Nat} (j : Fin n) (ds : List (Intake n)) : List Dispatched := valuesOf j (ds.filterMap Sum.getLeft?)

section

variable {cfg : HookConfig} {n : Nat} (ms : Fin n → Member cfg)

structure Hub where
  feeds : ∀ j, Feed (ms j).kind
  /-- `none` after an access out of bounds. -/
  session : Option Session

/-- An action at one of the collectors, or a call of the statistics collector. -/
abbrev HubAction := (Σ j, FeedAction (ms j).kind) ⊕ Call

end

namespace Hub

variable {cfg : HookConfig} {n : Nat} {ms : Fin n → Member cfg}

section

variable (K : RingKernel) (ids : Macros) (formats : Bool)

def step (h : Hub ms) : HubAction ms → Hub ms
  | .inl a =>
    let p := h.feeds a.1
    let m := ms a.1
    { feeds := Function.update h.feeds a.1 (p.step K ids m.ring a.2)
      session := runFrom (lift (Session.callback m.group formats)) h.session (p.out m.ring a.2) }
  | .inr c => { h with session := h.session.map fun s => s.step cfg c }

/-- What the session takes in by an action. -/
def intakes (h : Hub ms) : HubAction ms → List (Intake n)
  | .inl a => ((h.feeds a.1).out (ms a.1).ring a.2).map fun bs => .inl (a.1, (ms a.1).kind.event (ms a.1).group bs)
  | .inr c => [.inr c]

/-- Before the first action: what the data pages hold is left open. -/
def init (data : Fin n → Nat → UInt8) (s : Session) : Hub ms where
  feeds j := { ring := .init (data j) }
  session := some s

def run (data : Fin n → Nat → UInt8) (s : Session) (as : List (HubAction ms)) : Hub ms :=
  runFrom (step K ids formats) (init data s) as

/-- All that the session has taken in. -/
def taken (data : Fin n → Nat → UInt8) (s : Session) (as : List (HubAction ms)) : List (Intake n) :=
  collect (step K ids formats) intakes (init data s) as

end

/-- The actions at one of the collectors. -/
def own (j : Fin n) (as : List (HubAction ms)) : List (FeedAction (ms j).kind) := part j (as.filterMap Sum.getLeft?)

/-- The ring buffers have not wrapped around their positions. -/
def Fits (h : Hub ms) : Prop := ∀ j, (h.feeds j).ring.total < 2 ^ 64

/-! ### Each collector by itself -/

section

variable (K : RingKernel) (ids : Macros) (formats : Bool) (data : Fin n → Nat → UInt8) (s : Session)
  (as : List (HubAction ms))

private theorem feeds_eq : (run K ids formats data s as).feeds =
    runFrom (Family.step fun j => Feed.step K ids (ms j).ring) (init data s : Hub ms).feeds
      (as.filterMap Sum.getLeft?) := by
  unfold run
  induction as using List.reverseRecOn with
  | nil => rfl
  | append_singleton as a ih =>
    rw [runFrom_concat, List.filterMap_append, runFrom_append, ← ih]
    cases a <;> rfl

/-- The run of a collector is that of its own actions. -/
theorem feeds_run (j : Fin n) :
    (run K ids formats data s as).feeds j = Feed.run K ids (ms j).ring (data j) (own j as) := by
  rw [feeds_eq, runFrom_family]
  rfl

private theorem filterMap_taken : (taken K ids formats data s as).filterMap Sum.getLeft? =
    collect (Family.step fun j => Feed.step K ids (ms j).ring)
      (fun h a => ((h a.1).out (ms a.1).ring a.2).map fun bs => (a.1, (ms a.1).kind.event (ms a.1).group bs))
      (init data s : Hub ms).feeds (as.filterMap Sum.getLeft?) := by
  unfold taken
  induction as using List.reverseRecOn with
  | nil => rfl
  | append_singleton as a ih =>
    rw [collect_concat, List.filterMap_append, List.filterMap_append, collect_append, ih, ← feeds_eq]
    congr 1
    cases a with
    | inr c => rfl
    | inl a =>
      show (List.map _ _).filterMap _ = _ ++ []
      rw [List.filterMap_map, List.append_nil]
      exact congrFun List.filterMap_eq_map _

/-- The calls that a session has taken in are those of the run. -/
theorem calls_taken : (taken K ids formats data s as).filterMap Sum.getRight? = as.filterMap Sum.getRight? := by
  unfold taken
  induction as using List.reverseRecOn with
  | nil => rfl
  | append_singleton as a ih =>
    rw [collect_concat, List.filterMap_append, List.filterMap_append, ih]
    congr 1
    cases a with
    | inr c => rfl
    | inl a =>
      show (List.map _ _).filterMap _ = []
      rw [List.filterMap_map]
      exact List.filterMap_eq_nil_iff.2 fun _ _ => rfl

/-- The events of a collector that a session has taken in are those of its delivered records. -/
theorem eventsOf_taken (j : Fin n) : eventsOf j (taken K ids formats data s as) =
    ((run K ids formats data s as).feeds j).ring.delivered.map fun bs => (ms j).kind.event (ms j).group bs := by
  have hout : ∀ (h : ∀ j, Feed (ms j).kind) (a : Σ j, FeedAction (ms j).kind),
      (((h a.1).out (ms a.1).ring a.2).map fun bs => (a.1, (ms a.1).kind.event (ms a.1).group bs)) =
        (((h a.1).out (ms a.1).ring a.2).map fun bs => (ms a.1).kind.event (ms a.1).group bs).map (Prod.mk a.1) :=
    fun h a => (List.map_map ..).symm
  have hfamily := collect_family (fun j => Feed.step K ids (ms j).ring)
    (fun j p a => (p.out (ms j).ring a).map fun bs => (ms j).kind.event (ms j).group bs)
    (init data s : Hub ms).feeds (as.filterMap Sum.getLeft?) j
  unfold eventsOf
  rw [filterMap_taken]
  simp only [hout]
  refine hfamily.trans ?_
  rw [← map_collect, feeds_run]
  show (collect _ _ _ (own j as)).map _ = _
  congr 1
  generalize own j as = bs
  unfold Feed.run
  induction bs using List.reverseRecOn with
  | nil => rfl
  | append_singleton bs b ih =>
    rw [collect_concat, runFrom_concat, Feed.delivered_step, ← ih]
    rfl

end

end Hub

/-! ### Records and events -/

section

variable {k : EventKind} {ids : Macros} {p : Feed k} {ys : List (Fired k)} {m : Nat}

/-- A collector and the events of it that a session has taken in: those of its first `m` firings. -/
structure Handled (ids : Macros) (g : FileGroup) (p : Feed k) (ds : List Dispatched) (ys : List (Fired k)) (m : Nat) :
    Prop where
  shots : p.shots = ys.map fun y => (y.shot, y.stage)
  sizes : ∀ y ∈ ys, y.slot.length = k.slotSize
  submitted : ∀ y ∈ ys.take m, y.stage = .submitted
  events : ds.map some = (ys.take m).map fun y => y.shot.dispatched ids g y.slot

private theorem bytes_written {y : Fired k} (hy : y.slot.length = k.slotSize) :
    y.shot.bytes ids y.slot = some (y.written ids) ∧ (y.written ids).length = k.slotSize := by
  obtain ⟨bs, hbs, hlen⟩ := y.shot.bytes_isSome ids hy
  unfold Fired.written
  rw [hbs]
  exact ⟨rfl, hlen⟩

/-- Every record that was delivered holds the event of a firing. -/
theorem Passed.record (h : Passed ids p ys m) {bs : List UInt8} (hbs : bs ∈ p.ring.delivered) :
    bs.length = k.slotSize ∧ ∀ g, ∃ y ∈ ys, y.shot.dispatched ids g y.slot = some (k.event g bs) := by
  rw [h.delivered] at hbs
  obtain ⟨y, hy, rfl⟩ := List.mem_map.1 hbs
  have hy := List.mem_of_mem_take hy
  obtain ⟨hbytes, hlen⟩ : y.shot.bytes ids y.slot = some (y.written ids) ∧ _ := bytes_written (h.sizes y hy)
  exact ⟨hlen, fun g => ⟨y, hy, y.shot.dispatched_of_bytes g (h.sizes y hy) hbytes⟩⟩

theorem Passed.handled (h : Passed ids p ys m) (g : FileGroup) :
    Handled ids g p (p.ring.delivered.map fun bs => k.event g bs) ys m where
  shots := h.shots
  sizes := h.sizes
  submitted := h.submitted
  events := by
    rw [h.delivered, List.map_map, List.map_map]
    refine List.map_congr_left fun y hy => ?_
    have hsize := h.sizes y (List.mem_of_mem_take hy)
    exact (y.shot.dispatched_of_bytes g hsize (bytes_written hsize).1).symm

end

/-! ### A collector with one hook -/

/-- The module of the configuration with one hook, and a ring buffer of 256 bytes. -/
def oneHookMember : Member oneHookConfig where
  group := oneHookGroup
  mem := List.mem_singleton_self _
  kind := .routing
  linked := rfl
  ring := ⟨8, by decide, by decide⟩

/-- A message of 16 bytes is sent, all of them zero. -/
def oneSend : Shot .routing :=
  ⟨.rmSendEntry, { parm3 := 4096, parm4 := 16 }, ⟨0, 7, Vector.replicate 16 0, fun _ => some (Vector.replicate 16 0)⟩⟩

/-- The `i`-th firing of the collector; the consumer makes some steps before the event is submitted, and some after it. -/
def fireRun (x : Shot .routing) (i before after : Nat) : List (HubAction fun _ : Fin 1 => oneHookMember) :=
  [.inl ⟨0, .fire x 0⟩, .inl ⟨0, .write i⟩] ++ List.replicate before (.inl ⟨0, .consume⟩) ++
    [.inl ⟨0, .submit i⟩] ++ List.replicate after (.inl ⟨0, .consume⟩)

def oneSendRun (before after : Nat) : List (HubAction fun _ : Fin 1 => oneHookMember) := fireRun oneSend 0 before after

/-! ### The session -/

namespace Hub

variable {files : List FileJson} {load : String → Option OffsetTable} {cfg : HookConfig}
  (hgen : genConfig files load = some cfg) (K : RingKernel) (py : PyUpper) {n : Nat} {ms : Fin n → Member cfg}
  (formats : Bool) (data : Fin n → Nat → UInt8) {s : Session} (hsized : Sized cfg s.stats)

omit hsized in
private theorem feeds_step (ids : Macros) (h : Hub ms) (j : Fin n) (a : FeedAction (ms j).kind) :
    (h.step K ids formats (.inl ⟨j, a⟩)).feeds j = (h.feeds j).step K ids (ms j).ring a ∧
      ∀ i, i ≠ j → (h.step K ids formats (.inl ⟨j, a⟩)).feeds i = h.feeds i :=
  ⟨Function.update_self .., fun _ hi => Function.update_of_ne hi ..⟩

theorem fits_of_concat {ids : Macros} {as : List (HubAction ms)} {a : HubAction ms}
    (h : (run K ids formats data s (as ++ [a])).Fits) : (run K ids formats data s as).Fits := by
  intro i
  refine Nat.lt_of_le_of_lt ?_ (h i)
  have hstep : run K ids formats data s (as ++ [a]) = (run K ids formats data s as).step K ids formats a :=
    runFrom_concat ..
  rw [hstep]
  cases a with
  | inr c => exact Nat.le_refl _
  | inl a =>
    obtain ⟨j, a⟩ := a
    obtain ⟨hself, hother⟩ := feeds_step K formats ids (run K ids formats data s as) j a
    by_cases hi : i = j
    · subst hi
      rw [hself]
      exact RingSys.total_le_run ..
    · rw [hother i hi]

/-- Of an action at a collector the callback gets records with all that its handler reads, whose events name the module. -/
theorem out_records {ids : Macros} {as : List (HubAction ms)} {j : Fin n} {a : FeedAction (ms j).kind}
    (hfits : (run K ids formats data s (as ++ [.inl ⟨j, a⟩])).Fits) {bs : List UInt8}
    (hbs : bs ∈ ((run K ids formats data s as).feeds j).out (ms j).ring a) :
    (∀ formats, (ms j).kind.Holds formats bs) ∧
      ((ms j).kind.event (ms j).group bs).hdr.moduleId = ids.byte ("MODULE_" ++ (ms j).kind.upperName) := by
  have hstep : run K ids formats data s (as ++ [.inl ⟨j, a⟩]) =
      (run K ids formats data s as).step K ids formats (.inl ⟨j, a⟩) := runFrom_concat ..
  have hfeed := (feeds_step K formats ids (run K ids formats data s as) j a).1
  rw [← hstep] at hfeed
  have hmem : bs ∈ ((run K ids formats data s (as ++ [.inl ⟨j, a⟩])).feeds j).ring.delivered := by
    rw [hfeed, Feed.delivered_step]
    exact List.mem_append_right _ hbs
  have hfit := hfits j
  rw [feeds_run] at hmem hfit
  obtain ⟨ys, m, hp⟩ := delivered_run K ids (ms j).ring (data j) _ hfit
  obtain ⟨hlen, hevent⟩ := hp.record hmem
  obtain ⟨y, -, hd⟩ := hevent (ms j).group
  refine ⟨y.shot.holds hlen hd, ?_⟩
  rw [y.shot.hdr_dispatched hd]
  rfl

include hgen

/-- The callback handles the events of records, one after the other. -/
private theorem callbacks_handled (m : Member cfg) (j : Fin n) {bss : List (List UInt8)}
    (hbss : ∀ bs ∈ bss, m.kind.Holds formats bs ∧
      (m.kind.event m.group bs).hdr.moduleId.toNat ≤ cfg.maxModuleId) {t : Session} (ht : Sized cfg t.stats) :
    ∃ u, runFrom (lift (Session.callback m.group formats)) (some t) bss = some u ∧ Sized cfg u.stats ∧
      runFrom (lift (Session.intake cfg formats)) (some t)
        (bss.map fun bs => (.inl (j, m.kind.event m.group bs) : Intake n)) = some u := by
  induction bss generalizing t with
  | nil => exact ⟨t, rfl, ht, rfl⟩
  | cons bs bss ih =>
    obtain ⟨hholds, hin⟩ := hbss bs List.mem_cons_self
    obtain ⟨u, hu, husized⟩ := Session.handle_isSome ht formats hin
    have hcallback : t.callback m.group formats bs = some u := (callback_eq hgen m.mem m.linked formats t hholds).trans hu
    obtain ⟨v, hv, hvsized, hintakes⟩ := ih (fun b hb => hbss b (List.mem_cons_of_mem _ hb)) husized
    refine ⟨v, ?_, hvsized, ?_⟩
    · show runFrom _ (t.callback m.group formats bs) bss = _
      rw [hcallback]
      exact hv
    · show runFrom _ (t.handle formats (m.kind.event m.group bs)) _ = _
      rw [hu]
      exact hintakes

include hsized

/-- The session is the one after what it has taken in, and all accesses were within bounds. -/
theorem session_taken {as : List (HubAction ms)} (hfits : (run K (genHookIds py files) formats data s as).Fits) :
    ∃ t, (run K (genHookIds py files) formats data s as).session = some t ∧ Sized cfg t.stats ∧
      runFrom (lift (Session.intake cfg formats)) (some s) (taken K (genHookIds py files) formats data s as) =
        some t := by
  induction as using List.reverseRecOn with
  | nil => exact ⟨s, rfl, hsized, rfl⟩
  | append_singleton as a ih =>
    obtain ⟨t, ht, htsized, htaken⟩ := ih (fits_of_concat K formats data hfits)
    have hstep : run K (genHookIds py files) formats data s (as ++ [a]) =
        (run K (genHookIds py files) formats data s as).step K (genHookIds py files) formats a := runFrom_concat ..
    unfold taken at htaken ⊢
    rw [collect_concat, runFrom_append, htaken, hstep]
    cases a with
    | inr c =>
      have hcall : ∃ u, t.operate cfg (.call c) = some u ∧ Sized cfg u.stats := operate_isSome cfg htsized trivial
      obtain ⟨u, hu, husized⟩ := hcall
      refine ⟨u, ?_, husized, hu⟩
      show Option.map _ (run K (genHookIds py files) formats data s as).session = _
      rw [ht]
      exact hu
    | inl a =>
      obtain ⟨j, a⟩ := a
      have hrecords : ∀ bs ∈ ((run K (genHookIds py files) formats data s as).feeds j).out (ms j).ring a,
          (ms j).kind.Holds formats bs ∧
            ((ms j).kind.event (ms j).group bs).hdr.moduleId.toNat ≤ cfg.maxModuleId := by
        intro bs hbs
        obtain ⟨hholds, hmodule⟩ := out_records K formats data hfits hbs
        rw [hmodule]
        exact ⟨hholds formats, module_in_table hgen (ms j).mem (ms j).linked py⟩
      obtain ⟨u, hu, husized, hintakes⟩ := callbacks_handled hgen formats (ms j) j hrecords htsized
      refine ⟨u, ?_, husized, hintakes⟩
      show runFrom _ (run K (genHookIds py files) formats data s as).session _ = _
      rw [ht]
      exact hu

/-- Whatever the order of the steps, the session is the one after handling the events of the firings that were passed: for
each collector in the order of the reservations, each once, and as its program made it of what its slot held.  No access
of the callbacks is out of bounds. -/
theorem session_run (as : List (HubAction ms)) (hfits : (run K (genHookIds py files) formats data s as).Fits) :
    ∃ t ds, (run K (genHookIds py files) formats data s as).session = some t ∧
      runFrom (lift (Session.intake cfg formats)) (some s) ds = some t ∧
      ds.filterMap Sum.getRight? = as.filterMap Sum.getRight? ∧
      ∀ j, ∃ ys m, Handled (genHookIds py files) (ms j).group ((run K (genHookIds py files) formats data s as).feeds j)
        (eventsOf j ds) ys m := by
  obtain ⟨t, ht, -, htaken⟩ := session_taken hgen K py formats data hsized hfits
  refine ⟨t, _, ht, htaken, calls_taken .., fun j => ?_⟩
  have hfit := hfits j
  rw [eventsOf_taken]
  rw [feeds_run] at hfit ⊢
  obtain ⟨ys, m, hp⟩ := delivered_run _ _ _ _ _ hfit
  exact ⟨ys, m, hp.handled (ms j).group⟩

omit hgen hsized in
/-- The consumer is at the record before its program has submitted it, and comes back. -/
theorem session_run_one_send :
    ∃ t ds, (run .plain (genHookIds .letters [oneHookFile]) true (fun _ _ => 0) ⟨fresh oneHookConfig true, []⟩
        (oneSendRun 3 8)).session = some t ∧
      runFrom (lift (Session.intake oneHookConfig true)) (some ⟨fresh oneHookConfig true, []⟩) ds = some t ∧
      ds.filterMap Sum.getRight? = (oneSendRun 3 8).filterMap Sum.getRight? ∧
      ∀ j : Fin 1, ∃ ys m, Handled (genHookIds .letters [oneHookFile]) oneHookGroup
        ((run .plain (genHookIds .letters [oneHookFile]) true (fun _ _ => 0) ⟨fresh oneHookConfig true, []⟩
          (oneSendRun 3 8)).feeds j) (eventsOf j ds) ys m := by
  have hgen : genConfig [oneHookFile] (fun _ => some [("send()", some 64)]) = some oneHookConfig := rfl
  refine session_run hgen .plain .letters true (fun _ _ => 0) (sized_fresh oneHookConfig true) (oneSendRun 3 8) ?_
  intro j
  obtain rfl : j = 0 := Subsingleton.elim ..
  decide +kernel

/-- The programs are through and no consumer is in a call. -/
structure Quiet (h : Hub ms) : Prop where
  idle : ∀ j, (h.feeds j).ring.consumer.pc = .idle
  submitted : ∀ j, ∀ y ∈ (h.feeds j).shots, y.2 = .submitted

omit hgen hsized in
private theorem own_append (j : Fin n) (as bs : List (HubAction ms)) : own j (as ++ bs) = own j as ++ own j bs := by
  unfold own
  rw [List.filterMap_append, part_append]

/-- The collectors make `calls j` steps each, one collector after the other. -/
def drain (calls : Fin n → Nat) : List (HubAction ms) :=
  ((List.finRange n).flatMap fun j => (List.replicate (calls j) FeedAction.consume).map (Sigma.mk j)).map Sum.inl

omit hgen hsized in
private theorem own_drain (calls : Fin n → Nat) (j : Fin n) :
    own j (drain calls : List (HubAction ms)) = List.replicate (calls j) .consume := by
  unfold own drain
  rw [List.filterMap_map]
  have hself : Sum.getLeft? ∘ (Sum.inl : (Σ j, FeedAction (ms j).kind) → HubAction ms) = some := rfl
  rw [hself, List.filterMap_some,
    part_flatMap (fun j => List.replicate (calls j) FeedAction.consume) (List.nodup_finRange n),
    if_pos (List.mem_finRange j)]

/-- Once the programs are through, the consumers need no more than some steps of their own: then the session has handled
the events of all firings that got a slot, and the ring buffers are empty. -/
theorem session_drained (as : List (HubAction ms)) (hfits : (run K (genHookIds py files) formats data s as).Fits)
    (hquiet : (run K (genHookIds py files) formats data s as).Quiet) :
    ∃ calls t ds, (run K (genHookIds py files) formats data s (as ++ drain calls)).session = some t ∧
      runFrom (lift (Session.intake cfg formats)) (some s) ds = some t ∧
      ds.filterMap Sum.getRight? = as.filterMap Sum.getRight? ∧
      ∀ j, ((run K (genHookIds py files) formats data s (as ++ drain calls)).feeds j).ring.pages.consumerPos =
          ((run K (genHookIds py files) formats data s (as ++ drain calls)).feeds j).ring.pages.producerPos ∧
        ∃ ys, Handled (genHookIds py files) (ms j).group
          ((run K (genHookIds py files) formats data s (as ++ drain calls)).feeds j) (eventsOf j ds) ys ys.length := by
  have hdrained : ∀ j, ∃ i ys, Passed (genHookIds py files)
      (Feed.run K (genHookIds py files) (ms j).ring (data j) (own j as ++ List.replicate i .consume)) ys ys.length ∧
      (Feed.run K (genHookIds py files) (ms j).ring (data j)
          (own j as ++ List.replicate i .consume)).ring.pages.consumerPos =
        (Feed.run K (genHookIds py files) (ms j).ring (data j)
          (own j as ++ List.replicate i .consume)).ring.pages.producerPos := by
    intro j
    have hfit := hfits j
    have hidle := hquiet.idle j
    have hall := hquiet.submitted j
    rw [feeds_run] at hfit hidle hall
    obtain ⟨i, ys, hp, -, hpos⟩ := delivered_drained _ _ _ _ _ hfit hidle hall
    exact ⟨i, ys, hp, hpos⟩
  choose calls ys hpassed hpos using hdrained
  have hown : ∀ j, own j (as ++ drain calls : List (HubAction ms)) = own j as ++ List.replicate (calls j) .consume := by
    intro j
    rw [own_append, own_drain]
  have hfits' : (run K (genHookIds py files) formats data s (as ++ drain calls)).Fits := by
    intro j
    have hfit := hfits j
    rw [feeds_run] at hfit ⊢
    rw [hown, Feed.total_replicate_consume]
    exact hfit
  obtain ⟨t, ht, -, htaken⟩ := session_taken hgen K py formats data hsized hfits'
  refine ⟨calls, t, _, ht, htaken, ?_, fun j => ?_⟩
  · rw [calls_taken, List.filterMap_append]
    have hnone : (drain calls : List (HubAction ms)).filterMap Sum.getRight? = [] := by
      unfold drain
      rw [List.filterMap_map]
      exact List.filterMap_eq_nil_iff.2 fun _ _ => rfl
    rw [hnone, List.append_nil]
  · rw [eventsOf_taken, feeds_run, hown]
    exact ⟨hpos j, ys j, (hpassed j).handled (ms j).group⟩

omit hgen hsized in
/-- A message is sent, and nothing has been consumed yet. -/
theorem session_drained_one_send :
    ∃ calls t ds, (run .plain (genHookIds .letters [oneHookFile]) true (fun _ _ => 0) ⟨fresh oneHookConfig true, []⟩
        (oneSendRun 0 0 ++ drain calls)).session = some t ∧
      runFrom (lift (Session.intake oneHookConfig true)) (some ⟨fresh oneHookConfig true, []⟩) ds = some t ∧
      ds.filterMap Sum.getRight? = (oneSendRun 0 0).filterMap Sum.getRight? ∧
      ∀ j : Fin 1,
        ((run .plain (genHookIds .letters [oneHookFile]) true (fun _ _ => 0) ⟨fresh oneHookConfig true, []⟩
            (oneSendRun 0 0 ++ drain calls)).feeds j).ring.pages.consumerPos =
          ((run .plain (genHookIds .letters [oneHookFile]) true (fun _ _ => 0) ⟨fresh oneHookConfig true, []⟩
            (oneSendRun 0 0 ++ drain calls)).feeds j).ring.pages.producerPos ∧
        ∃ ys, Handled (genHookIds .letters [oneHookFile]) oneHookGroup
          ((run .plain (genHookIds .letters [oneHookFile]) true (fun _ _ => 0) ⟨fresh oneHookConfig true, []⟩
            (oneSendRun 0 0 ++ drain calls)).feeds j) (eventsOf j ds) ys ys.length := by
  have hgen : genConfig [oneHookFile] (fun _ => some [("send()", some 64)]) = some oneHookConfig := rfl
  refine session_drained hgen .plain .letters true (fun _ _ => 0) (sized_fresh oneHookConfig true) (oneSendRun 0 0) ?_
    ⟨?_, ?_⟩
  all_goals
    intro j
    obtain rfl : j = 0 := Subsingleton.elim ..
    decide +kernel

end Hub

end VsomeipCollector

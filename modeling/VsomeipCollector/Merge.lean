import VsomeipCollector.Hub
import VsomeipCollector.Library.Interleave

/-!
# The order between collectors

The events of different collectors reach the statistics in an order that depends on the scheduler, on `epoll_wait` and on
the room in the ring buffers.  An event changes the counters by increments, and only those of the routing module open or
answer requests, so events of different modules may be swapped (`handled_comm`).

So the statistics that a monitored program leaves depend on what fired at each collector and not on the order between
them: two runs with the same firings at every collector end with the same statistics and, up to their order, the same
lines (`settled_agree`).
-/

namespace VsomeipCollector

open Family Interleave Run StatsCollector

/-! ### Counting -/

theorem HookStats.count_comm (h : HookStats) (isRet isRet' : Bool) (retval retval' : Int64) :
    (h.count isRet retval).count isRet' retval' = (h.count isRet' retval').count isRet retval := by
  by_cases hr : retval = 0 <;> by_cases hr' : retval' = 0 <;> cases isRet <;> cases isRet' <;> simp [count, hr, hr']

private theorem bumpIf_comm (on on' : Bool) (m m' : Nat) (counts : List UInt64) :
    bumpIf on m (bumpIf on' m' counts) = bumpIf on' m' (bumpIf on m counts) := by
  unfold bumpIf
  cases on with
  | false => rfl
  | true =>
    cases on' with
    | false => rfl
    | true =>
      by_cases h : m = m'
      · rw [h]
      · simp only [↓reduceIte, List.getD_eq_getElem?_getD, List.getElem?_set_ne h, List.getElem?_set_ne (Ne.symm h)]
        exact List.set_comm _ _ (Ne.symm h)

theorem counted_comm (s : StatsCollector) (hdr hdr' : EventHeader) (hook hook' : String) (retval retval' : Int64) :
    (s.counted hdr hook retval).counted hdr' hook' retval' = (s.counted hdr' hook' retval').counted hdr hook retval := by
  have hhooks : ∀ h h' : HookStats → HookStats, (∀ x, h' (h x) = h (h' x)) →
      (s.hookStats.insert hook (h ((s.hookStats.lookup hook).getD {}))).insert hook'
          (h' (((s.hookStats.insert hook (h ((s.hookStats.lookup hook).getD {}))).lookup hook').getD {})) =
        (s.hookStats.insert hook' (h' ((s.hookStats.lookup hook').getD {}))).insert hook
          (h (((s.hookStats.insert hook' (h' ((s.hookStats.lookup hook').getD {}))).lookup hook).getD {})) := by
    intro h h' hcomm
    by_cases he : hook = hook'
    · subst he
      simp only [Finmap.lookup_insert, Option.getD_some, Finmap.insert_insert, hcomm]
    · rw [Finmap.lookup_insert_of_ne _ (Ne.symm he), Finmap.lookup_insert_of_ne _ he, Finmap.insert_insert_of_ne _ he]
  unfold counted
  dsimp only
  rw [hhooks (HookStats.count · hdr.isRetprobe retval) (HookStats.count · hdr'.isRetprobe retval')
    fun x => x.count_comm .., bumpIf_comm hdr'.isSend, bumpIf_comm hdr'.isRecv]

private theorem call_counted (cfg : HookConfig) {c : Call} (hc : ∀ now, c ≠ .flushReport now) (s : StatsCollector)
    (hdr : EventHeader) (hook : String) (retval : Int64) :
    (s.counted hdr hook retval).call cfg c = ((s.call cfg c).1.counted hdr hook retval, (s.call cfg c).2) := by
  cases c with
  | flushReport now => exact absurd rfl (hc now)
  | evictExpired now o => rfl
  | recordPending q ts =>
    unfold call recordPending counted
    dsimp only
    split <;> rfl
  | tryMatch q r ty =>
    unfold call tryMatch counted
    dsimp only
    split
    · rfl
    · split <;> rfl

/-- Matching and counting do not see each other. -/
theorem onLatency_counted (e : RoutingEvent) (name : String) (s : StatsCollector) (hdr : EventHeader) (hook : String)
    (retval : Int64) :
    onLatency e name (s.counted hdr hook retval) =
      ((onLatency e name s).1.counted hdr hook retval, (onLatency e name s).2) := by
  rw [onLatency_eq ⟨[], 0⟩, onLatency_eq ⟨[], 0⟩]
  cases hc : e.latencyCall with
  | none => rfl
  | some c => exact call_counted _ (latencyCall_ne_flush c hc) s hdr hook retval

/-! ### Events -/

/-- The callback of an event. -/
def Dispatched.latency (s : StatsCollector) : Dispatched → StatsCollector × List LogLine
  | .routing e hook => onLatency e hook s
  | .app _ _ => (s, [])
  | .sd _ _ => (s, [])

def Dispatched.count (s : StatsCollector) : Dispatched → StatsCollector
  | .routing e hook => s.counted e.hdr hook e.retval
  | .app e hook => s.counted e.hdr hook e.retval
  | .sd e hook => s.counted e.hdr hook 0

def Dispatched.isRouting : Dispatched → Bool
  | .routing _ _ => true
  | _ => false

/-- What an event whose module has counters does to a session. -/
def Session.handled (formats : Bool) (s : Session) (d : Dispatched) : Session where
  stats := (d.latency (d.count s.stats)).1
  log := s.log ++ (d.latency (d.count s.stats)).2 ++ if formats then [d.line] else []

theorem Session.handled_of_handle {cfg : HookConfig} {formats : Bool} {s s' : Session} {d : Dispatched}
    (hsized : Sized cfg s.stats) (h : s.handle formats d = some s') : s' = s.handled formats d ∧ Sized cfg s'.stats := by
  rw [handle_eq cfg] at h
  obtain ⟨t, ht, rfl⟩ := Option.map_eq_some_iff.1 h
  have hsized' : Sized cfg t.stats := sized_of_operate cfg hsized ht
  refine ⟨?_, hsized'⟩
  have htable := inTable_of_operate cfg hsized ht
  cases d with
  | routing e hook | app e hook | sd e hook =>
    unfold Dispatched.operation Session.operate at ht
    dsimp only at ht
    rw [processEvent_eq (hsized.place cfg htable)] at ht
    obtain rfl := Option.some.inj ht
    rfl

section

variable (s : StatsCollector) (d d' : Dispatched)

private theorem count_comm : d'.count (d.count s) = d.count (d'.count s) := by
  cases d <;> cases d' <;> exact counted_comm ..

private theorem latency_count : d'.latency (d.count s) = (d.count (d'.latency s).1, (d'.latency s).2) := by
  cases d' with
  | routing e hook => cases d <;> exact onLatency_counted e hook s _ _ _
  | app e hook | sd e hook => rfl

private theorem latency_of_not_routing {d : Dispatched} (h : d.isRouting = false) : d.latency s = (s, []) := by
  cases d with
  | routing e hook => cases h
  | app e hook | sd e hook => rfl

end

/-- The same statistics, and the same lines in some order. -/
structure SameSession (s t : Session) : Prop where
  stats : s.stats = t.stats
  log : s.log.Perm t.log

theorem sameSession_equivalence : Equivalence SameSession where
  refl _ := ⟨rfl, .refl _⟩
  symm h := ⟨h.stats.symm, h.log.symm⟩
  trans h h' := ⟨h.stats.trans h'.stats, h.log.trans h'.log⟩

theorem Session.handled_congr (formats : Bool) {s t : Session} (d : Dispatched) (h : SameSession s t) :
    SameSession (s.handled formats d) (t.handled formats d) := by
  unfold handled
  rw [h.stats]
  exact ⟨rfl, (h.log.append_right _).append_right _⟩

/-- Whether requests are matched before or after the event is counted makes no difference. -/
theorem Session.handled_eq (formats : Bool) (s : Session) (d : Dispatched) :
    s.handled formats d =
      ⟨d.count (d.latency s.stats).1, s.log ++ (d.latency s.stats).2 ++ if formats then [d.line] else []⟩ := by
  unfold handled
  rw [latency_count]

private theorem handled_comm_of_not_routing (formats : Bool) (s : Session) {d : Dispatched} (d' : Dispatched)
    (h : d.isRouting = false) :
    SameSession ((s.handled formats d).handled formats d') ((s.handled formats d').handled formats d) := by
  have hcount := count_comm (d'.latency s.stats).1 d d'
  simp only [Session.handled_eq, latency_of_not_routing _ h, latency_count]
  refine ⟨hcount, ?_⟩
  simp only [List.append_assoc, List.nil_append]
  refine List.Perm.append_left _ ?_
  rw [← List.append_assoc (d'.latency s.stats).2]
  exact List.perm_append_comm

/-- Two events of which at most one is of the routing module may be swapped. -/
theorem Session.handled_comm (formats : Bool) (s : Session) {d d' : Dispatched}
    (h : d.isRouting = false ∨ d'.isRouting = false) :
    SameSession ((s.handled formats d).handled formats d') ((s.handled formats d').handled formats d) := by
  rcases h with h | h
  · exact handled_comm_of_not_routing formats s d' h
  · exact sameSession_equivalence.symm (handled_comm_of_not_routing formats s d h)

/-! ### Sequences of events -/

section

variable {n : Nat} {cfg : HookConfig} {formats : Bool}

/-- A session that has taken in events and no calls has handled them. -/
theorem Session.handled_of_intakes {s t : Session} (hsized : Sized cfg s.stats) {ds : List (Intake n)}
    (hcalls : ds.filterMap Sum.getRight? = []) (h : runFrom (lift (Session.intake cfg formats)) (some s) ds = some t) :
    t = runFrom (fun s d => s.handled formats d.2) s (ds.filterMap Sum.getLeft?) := by
  induction ds generalizing s with
  | nil => exact (Option.some.inj h).symm
  | cons d ds ih =>
    cases d with
    | inr c => cases hcalls
    | inl d =>
      have hrun : runFrom (lift (Session.intake cfg formats)) (s.handle formats d.2) ds = some t := h
      cases hu : s.handle formats d.2 with
      | none =>
        rw [hu, runFrom_lift_none] at hrun
        cases hrun
      | some u =>
        rw [hu] at hrun
        obtain ⟨rfl, husized⟩ := Session.handled_of_handle hsized hu
        exact ih husized hcalls hrun

/-- Where routing events come from one collector only, the order between the collectors is of no importance. -/
theorem handled_interleave {isRouting : Fin n → Prop} (hone : ∀ i j, isRouting i → isRouting j → i = j)
    {ds ds' : List (Fin n × Dispatched)} (hds : ∀ d ∈ ds, d.2.isRouting = true → isRouting d.1)
    (hds' : ∀ d ∈ ds', d.2.isRouting = true → isRouting d.1) (h : ∀ j, valuesOf j ds = valuesOf j ds') (s : Session) :
    SameSession (runFrom (fun s d => s.handled formats d.2) s ds) (runFrom (fun s d => s.handled formats d.2) s ds') := by
  have hby : SameByKey Prod.fst ds ds' := by
    intro j
    rw [filter_eq_map_valuesOf, filter_eq_map_valuesOf, h]
  refine runFrom_interleave sameSession_equivalence ?_ ?_ hds hds' hby s
  · exact fun s t d _ hst => Session.handled_congr formats d.2 hst
  · intro s d d' hd hd' hne
    refine Session.handled_comm formats s ?_
    cases hr : d.2.isRouting with
    | false => exact .inl rfl
    | true =>
      cases hr' : d'.2.isRouting with
      | false => exact .inr rfl
      | true => exact absurd (hone _ _ (hd hr) (hd' hr')) hne

end

/-! ### What return events show -/

def LogLine.isEvent : LogLine → Bool
  | event .. => true
  | _ => false

/-- A return event without the fields that its program leaves as they were in the slot. -/
def Dispatched.forget : Dispatched → Dispatched
  | .routing e hook =>
    if e.hdr.isRetprobe then .routing ⟨e.hdr, 0, 0, 0, 0, 0, 0, 0, 0, 0, e.retval⟩ hook else .routing e hook
  | .app e hook => .app e hook
  | .sd e hook => .sd e hook

theorem Dispatched.forget_routing (e : RoutingEvent) (hook : String) :
    (Dispatched.routing e hook).forget =
      if e.hdr.isRetprobe then .routing ⟨e.hdr, 0, 0, 0, 0, 0, 0, 0, 0, 0, e.retval⟩ hook else .routing e hook := rfl

/-- The same statistics, and the same lines about them in some order. -/
structure SameReports (s t : Session) : Prop where
  stats : s.stats = t.stats
  lines : (s.log.filter fun l => !l.isEvent).Perm (t.log.filter fun l => !l.isEvent)

theorem SameSession.reports {s t : Session} (h : SameSession s t) : SameReports s t := ⟨h.stats, h.log.filter _⟩

theorem Dispatched.isEvent_line (d : Dispatched) : d.line.isEvent = true := by
  cases d <;> rfl

theorem Dispatched.isRouting_forget (d : Dispatched) : d.forget.isRouting = d.isRouting := by
  cases d with
  | routing e hook =>
    rw [forget_routing]
    split <;> rfl
  | app e hook | sd e hook => rfl

/-- The statistics do not see these fields. -/
theorem Session.handled_forget (formats : Bool) {s t : Session} (d : Dispatched) (h : SameReports s t) :
    SameReports (s.handled formats d) (t.handled formats d.forget) := by
  have hstats : ∀ u : StatsCollector, d.forget.latency (d.forget.count u) = d.latency (d.count u) := by
    intro u
    cases d with
    | routing e hook =>
      rw [Dispatched.forget_routing]
      split
      · rename_i hret
        show onLatency _ hook _ = onLatency e hook _
        unfold onLatency
        rw [if_pos hret, if_pos hret]
        rfl
      · rfl
    | app e hook | sd e hook => rfl
  have hline : ∀ d : Dispatched, (if formats then [d.line] else []).filter (fun l => !l.isEvent) = [] := by
    intro d
    cases formats with
    | false => rfl
    | true => simp [d.isEvent_line]
  unfold handled
  refine ⟨by rw [h.stats, hstats], ?_⟩
  dsimp only
  rw [List.filter_append, List.filter_append, hline, List.filter_append, List.filter_append, hline, h.stats, hstats]
  exact (h.lines.append_right _).append_right _

theorem runFrom_forget {n : Nat} (formats : Bool) (s : Session) (ds : List (Fin n × Dispatched)) :
    SameReports (runFrom (fun s d => s.handled formats d.2) s ds)
      (runFrom (fun s d => s.handled formats d.2) s (ds.map (Prod.map id Dispatched.forget))) := by
  unfold runFrom
  rw [List.foldl_map]
  refine runFrom_related SameReports ?_ ⟨rfl, .refl _⟩ ds
  exact fun s t d h => Session.handled_forget formats d.2 h

/-! ### Firings that do not see their slots -/

/-- The firing fills its slot as far as it is looked at: in the routing module it is a return, or it reads the header of
the message. -/
def Shot.fills : {k : EventKind} → Shot k → Bool
  | .routing, x => (Shot.probe x).isRet || Firing.headerRead ⟨x.prog, x.ctx, x.kernel, true⟩
  | .app, _ => true
  | .sd, _ => true

theorem Shot.dispatched_congr (ids : Macros) (g : FileGroup) {k : EventKind} {x : Shot k} (h : x.fills = true)
    (slot slot' : List UInt8) :
    (x.dispatched ids g slot).map Dispatched.forget = (x.dispatched ids g slot').map Dispatched.forget := by
  cases k with
  | routing =>
    by_cases hread : Firing.headerRead ⟨x.prog, x.ctx, x.kernel, true⟩ = true
    · have hsubmit := submit_of_headerRead ids hread (.ofBytes slot) (.ofBytes slot')
      show (Option.map _ (Firing.submit ..)).map _ = (Option.map _ (Firing.submit ..)).map _
      rw [hsubmit]
    · have hret : (Shot.probe x).isRet = true := (Bool.or_eq_true_iff.1 h).resolve_right hread
      obtain ⟨prog, ctx, kernel⟩ := x
      clear h hread
      cases prog with
      | rmSendRet | rmSendToRet => rfl
      | rmSendEntry | rmSendToEntry | rmOnMessage => cases hret
  | app =>
    obtain ⟨prog, ctx, kernel⟩ := x
    cases prog <;> rfl
  | sd =>
    obtain ⟨prog, ctx, kernel⟩ := x
    cases prog <;> rfl

/-! ### Two runs -/

namespace Hub

variable {files : List FileJson} {load : String → Option OffsetTable} {cfg : HookConfig}
  (hgen : genConfig files load = some cfg) (K : RingKernel) (py : PyUpper) {n : Nat} {ms : Fin n → Member cfg}
  (formats : Bool)

/-- No consumer is in a call, and the ring buffers are empty. -/
structure Settled (h : Hub ms) : Prop where
  idle : ∀ j, (h.feeds j).ring.consumer.pc = .idle
  empty : ∀ j, (h.feeds j).ring.pages.consumerPos = (h.feeds j).ring.pages.producerPos

/-- Routing events come from collectors of the routing module. -/
theorem routing_taken {ids : Macros} {data : Fin n → Nat → UInt8} {s : Session} {as : List (HubAction ms)}
    {d : Fin n × Dispatched} (hd : d ∈ (taken K ids formats data s as).filterMap Sum.getLeft?)
    (hr : d.2.isRouting = true) : (ms d.1).kind = .routing := by
  have hmem : d.2 ∈ eventsOf d.1 (taken K ids formats data s as) := mem_valuesOf hd
  rw [eventsOf_taken] at hmem
  obtain ⟨bs, -, he⟩ := List.mem_map.1 hmem
  rw [← he] at hr
  cases hk : (ms d.1).kind with
  | routing => rfl
  | app | sd =>
    rw [hk] at hr
    cases hr

/-- In a settled run the session has taken in, but for the fields that nothing looks at, what the firings determine. -/
private theorem forget_taken {ids : Macros} {data : Fin n → Nat → UInt8} {s : Session} {as : List (HubAction ms)}
    (hfits : (run K ids formats data s as).Fits) (hset : (run K ids formats data s as).Settled) (j : Fin n)
    (hfills : ∀ y ∈ ((run K ids formats data s as).feeds j).shots, y.1.fills = true) :
    ((eventsOf j (taken K ids formats data s as)).map Dispatched.forget).map some =
      (((run K ids formats data s as).feeds j).shots.map Prod.fst).map fun x =>
        (x.dispatched ids (ms j).group []).map Dispatched.forget := by
  have hfit := hfits j
  have hidle := hset.idle j
  have hempty := hset.empty j
  rw [eventsOf_taken]
  rw [feeds_run] at hfit hidle hempty hfills ⊢
  obtain ⟨ys, hp⟩ := delivered_settled _ _ _ _ _ hfit hidle hempty
  have hevents := (hp.handled (ms j).group).events
  rw [List.take_length] at hevents
  have hforget : ∀ ds : List Dispatched, (ds.map Dispatched.forget).map some = (ds.map some).map (Option.map .forget) := by
    intro ds
    rw [List.map_map, List.map_map]
    rfl
  rw [hforget, hevents, hp.shots, List.map_map, List.map_map, List.map_map]
  refine List.map_congr_left fun y hy => ?_
  refine y.shot.dispatched_congr ids (ms j).group (hfills (y.shot, y.stage) ?_) y.slot []
  rw [hp.shots]
  exact List.mem_map_of_mem hy

include hgen

/-- Two runs that settle with the same firings at every collector, in the same order at each, end with the same
statistics and the same lines about them, whatever the order between the collectors, what the kernel refused and what
the slots held: as long as one collector has the routing module, and its programs read the headers of the
messages. -/
theorem settled_agree (hone : ∀ i j, (ms i).kind = .routing → (ms j).kind = .routing → i = j)
    (data data' : Fin n → Nat → UInt8) {s : Session} (hsized : Sized cfg s.stats) {as bs : List (HubAction ms)}
    (has : as.filterMap Sum.getRight? = []) (hbs : bs.filterMap Sum.getRight? = [])
    (hfits : (run K (genHookIds py files) formats data s as).Fits)
    (hfits' : (run K (genHookIds py files) formats data' s bs).Fits)
    (hset : (run K (genHookIds py files) formats data s as).Settled)
    (hset' : (run K (genHookIds py files) formats data' s bs).Settled)
    (hfills : ∀ j, ∀ y ∈ ((run K (genHookIds py files) formats data s as).feeds j).shots, y.1.fills = true)
    (hsame : ∀ j, ((run K (genHookIds py files) formats data s as).feeds j).shots.map Prod.fst =
      ((run K (genHookIds py files) formats data' s bs).feeds j).shots.map Prod.fst) :
    ∃ t t', (run K (genHookIds py files) formats data s as).session = some t ∧
      (run K (genHookIds py files) formats data' s bs).session = some t' ∧ SameReports t t' := by
  obtain ⟨t, ht, -, htaken⟩ := session_taken hgen K py formats data hsized hfits
  obtain ⟨t', ht', -, htaken'⟩ := session_taken hgen K py formats data' hsized hfits'
  have hrun := Session.handled_of_intakes hsized ((calls_taken ..).trans has) htaken
  have hrun' := Session.handled_of_intakes hsized ((calls_taken ..).trans hbs) htaken'
  refine ⟨t, t', ht, ht', ?_⟩
  set ds := (taken K (genHookIds py files) formats data s as).filterMap Sum.getLeft? with hds
  set ds' := (taken K (genHookIds py files) formats data' s bs).filterMap Sum.getLeft? with hds'
  have hfills' : ∀ j, ∀ y ∈ ((run K (genHookIds py files) formats data' s bs).feeds j).shots, y.1.fills = true := by
    intro j y hy
    have hmem : y.1 ∈ ((run K (genHookIds py files) formats data' s bs).feeds j).shots.map Prod.fst :=
      List.mem_map_of_mem hy
    rw [← hsame] at hmem
    obtain ⟨z, hz, hzy⟩ := List.mem_map.1 hmem
    rw [← hzy]
    exact hfills j z hz
  have hvalues : ∀ j, valuesOf j (ds.map (Prod.map id Dispatched.forget)) =
      valuesOf j (ds'.map (Prod.map id Dispatched.forget)) := by
    intro j
    rw [valuesOf_map, valuesOf_map]
    apply List.map_injective_iff.2 (Option.some_injective _)
    have h := forget_taken K formats hfits hset j (hfills j)
    rw [hsame] at h
    exact h.trans (forget_taken K formats hfits' hset' j (hfills' j)).symm
  have hrouting : ∀ {es : List (Fin n × Dispatched)},
      (∀ d ∈ es, d.2.isRouting = true → (ms d.1).kind = .routing) →
      ∀ d ∈ es.map (Prod.map id Dispatched.forget), d.2.isRouting = true → (ms d.1).kind = .routing := by
    intro es hes d hd hr
    obtain ⟨e, he, rfl⟩ := List.mem_map.1 hd
    refine hes e he ?_
    rw [← e.2.isRouting_forget]
    exact hr
  have horder : SameSession (runFrom (fun s d => s.handled formats d.2) s (ds.map (Prod.map id Dispatched.forget)))
      (runFrom (fun s d => s.handled formats d.2) s (ds'.map (Prod.map id Dispatched.forget))) :=
    handled_interleave hone (hrouting fun d hd => routing_taken K formats hd)
      (hrouting fun d hd => routing_taken K formats hd) hvalues s
  have h1 := runFrom_forget formats s ds
  have h2 := runFrom_forget formats s ds'
  rw [← hrun] at h1
  rw [← hrun'] at h2
  exact ⟨h1.stats.trans (horder.stats.trans h2.stats.symm),
    h1.lines.trans (horder.reports.lines.trans h2.lines.symm)⟩

set_option maxRecDepth 10000 in
omit hgen in
/-- The slots of the two runs hold different bytes, and their consumers come at different times. -/
theorem settled_agree_one_send :
    ∃ t t', (run .plain (genHookIds .letters [oneHookFile]) true (fun _ _ => 0) ⟨fresh oneHookConfig true, []⟩
        (oneSendRun 0 8)).session = some t ∧
      (run .plain (genHookIds .letters [oneHookFile]) true (fun _ _ => 255) ⟨fresh oneHookConfig true, []⟩
        (oneSendRun 3 8)).session = some t' ∧ SameReports t t' := by
  have hgen : genConfig [oneHookFile] (fun _ => some [("send()", some 64)]) = some oneHookConfig := rfl
  refine settled_agree hgen .plain .letters true ?_ (fun _ _ => 0) (fun _ _ => 255) (sized_fresh oneHookConfig true) rfl
    rfl ?_ ?_ ⟨?_, ?_⟩ ⟨?_, ?_⟩ ?_ ?_
  · exact fun i j _ _ => Subsingleton.elim i j
  · intro j
    obtain rfl : j = 0 := Subsingleton.elim ..
    decide +kernel
  all_goals
    intro j
    obtain rfl : j = 0 := Subsingleton.elim ..
  · decide +kernel
  · decide +kernel
  · decide +kernel
  · decide +kernel
  · decide +kernel
  · decide +kernel
  · exact Eq.trans (b := [oneSend]) rfl rfl

end Hub

end VsomeipCollector

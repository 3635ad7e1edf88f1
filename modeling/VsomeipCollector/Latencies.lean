import VsomeipCollector.Merge

/-!
# What a latency line measures

Every `[LATENCY]` line in the log of the collectors is the time from one firing to another: the first submitted the
event of a request, the second, whose slot was reserved later, that of a reply to it, and no reply to it lies between
them.  Each reply has one line at most (`latencies_measured`).
-/

namespace VsomeipCollector

open Family Run StatsCollector

/-! ### Events and the lines about them -/

/-- What `try_match` calls the type of a reply. -/
def replyText (msgType : UInt8) : String :=
  if msgType = someipMtResponse then "RESPONSE"
  else if msgType = someipMtError then "ERROR"
  else if msgType = someipMtNotification then "NOTIFICATION" else "UNKNOWN"

/-- The line of `tryMatch` for an open request, if it writes one. -/
theorem lines_tryMatch_eq (s : StatsCollector) (q : Tuple) (r : UInt64) (ty : UInt8) :
    (s.tryMatch q.svc q.method q.client q.session r ty).2 =
      match s.sentAt q with
      | none => []
      | some ts =>
        if r - ts > plausibleNs then []
        else if s.logWriter then [.latency q.svc q.method q.client q.session (replyText ty) ts r (r - ts)] else [] := by
  unfold tryMatch sentAt Tuple.key
  dsimp only
  cases h : s.pending.lookup (packKey q.svc q.method q.client q.session) with
  | none => rfl
  | some e =>
    simp only [Option.map_some]
    split <;> rfl

/-- A line of the log, with the places of the two events it is about. -/
structure Measurement where
  request : Nat
  reply : Nat
  line : LogLine

section

variable (es : List Dispatched)

/-- A request for `q` is among the events, and no reply to it behind it. -/
def OpenAt (q : Tuple) (ts : UInt64) : Prop :=
  ∃ (a : Nat) (e : RoutingEvent) (hook : String), es[a]? = some (.routing e hook) ∧ e.IsRequest timedType ∧
    e.tuple = q ∧ e.hdr.timestampNs = ts ∧
    ∀ (i : Nat) (x : RoutingEvent) (hook : String), a < i → es[i]? = some (.routing x hook) →
      x.IsReply answerType → x.tuple ≠ q

/-- The line is the time from a request to the first reply behind it. -/
def Measures (l : Measurement) : Prop :=
  ∃ (e : RoutingEvent) (hook : String) (e' : RoutingEvent) (hook' : String), l.request < l.reply ∧
    es[l.request]? = some (.routing e hook) ∧
    es[l.reply]? = some (.routing e' hook') ∧ e.IsRequest timedType ∧ e'.IsReply answerType ∧ e'.tuple = e.tuple ∧
    l.line = .latency e.serviceId e.methodId e.clientId e.sessionId (replyText e'.messageType) e.hdr.timestampNs
      e'.hdr.timestampNs (e'.hdr.timestampNs - e.hdr.timestampNs) ∧
    e'.hdr.timestampNs - e.hdr.timestampNs ≤ plausibleNs ∧
    ∀ (i : Nat) (x : RoutingEvent) (hook : String), l.request < i → i < l.reply → es[i]? = some (.routing x hook) →
      x.IsReply answerType → x.tuple ≠ e.tuple

/-- What holds of a session that has taken in these events. -/
structure Traced (s : Session) : Prop where
  opened : ∀ q ts, s.stats.sentAt q = some ts → OpenAt es q ts
  lines : ∃ ls : List Measurement, s.log.filter LogLine.isLatency = ls.map Measurement.line ∧
    (ls.map Measurement.reply).Pairwise (· < ·) ∧ ∀ l ∈ ls, l.reply < es.length ∧ Measures es l

end

variable {es : List Dispatched} {s s' : Session} {q : Tuple} {ts : UInt64}

private theorem OpenAt.concat (h : OpenAt es q ts) {d : Dispatched}
    (hd : ∀ x hook, d = .routing x hook → x.IsReply answerType → x.tuple ≠ q) : OpenAt (es ++ [d]) q ts := by
  obtain ⟨a, e, hook, ha, hreq, hq, hts, hno⟩ := h
  obtain ⟨hlt, -⟩ := List.getElem?_eq_some_iff.1 ha
  refine ⟨a, e, hook, ?_, hreq, hq, hts, ?_⟩
  · rwa [List.getElem?_append_left hlt]
  · intro i x hook' hi hx
    rcases Nat.lt_or_ge i es.length with hi' | hi'
    · rw [List.getElem?_append_left hi'] at hx
      exact hno i x hook' hi hx
    · rw [List.getElem?_append_right hi'] at hx
      exact hd x hook' (List.mem_singleton.1 (List.mem_of_getElem? hx)).symm

private theorem Measures.append {l : Measurement} (h : Measures es l) (hlt : l.reply < es.length) (xs : List Dispatched) :
    Measures (es ++ xs) l := by
  obtain ⟨e, hook, e', hook', hab, ha, hb, hreq, hrep, hq, hline, hle, hno⟩ := h
  refine ⟨e, hook, e', hook', hab, ?_, ?_, hreq, hrep, hq, hline, hle, ?_⟩
  · rwa [List.getElem?_append_left (by omega)]
  · rwa [List.getElem?_append_left hlt]
  · intro i x hk hi hi' hx
    rw [List.getElem?_append_left (by omega)] at hx
    exact hno i x hk hi hi' hx

/-- Lines that measure nothing change nothing about the others. -/
private theorem Traced.lines_append (h : Traced es s) {more : List LogLine} (hlog : s'.log = s.log ++ more)
    (hmore : ∀ l ∈ more, l.isLatency = false) (xs : List Dispatched) :
    ∃ ls : List Measurement, s'.log.filter LogLine.isLatency = ls.map Measurement.line ∧
      (ls.map Measurement.reply).Pairwise (· < ·) ∧
      ∀ l ∈ ls, l.reply < (es ++ xs).length ∧ Measures (es ++ xs) l := by
  obtain ⟨ls, hls, hsorted, hall⟩ := h.lines
  refine ⟨ls, ?_, hsorted, fun l hl => ?_⟩
  · have hnone : more.filter LogLine.isLatency = [] := List.filter_eq_nil_iff.2 fun l hl => by simp [hmore l hl]
    rw [hlog, List.filter_append, hnone, List.append_nil]
    exact hls
  · obtain ⟨hlt, hm⟩ := hall l hl
    rw [List.length_append]
    exact ⟨by omega, hm.append hlt xs⟩

/-- A line that measures the last event. -/
private theorem Traced.lines_measured (h : Traced es s) {e : RoutingEvent} {hook : String}
    (hopen : s.stats.sentAt e.tuple = some ts) (hrep : e.IsReply answerType)
    (hlate : ¬ e.hdr.timestampNs - ts > plausibleNs) {lines more : List LogLine}
    (hline : lines = [.latency e.tuple.svc e.tuple.method e.tuple.client e.tuple.session (replyText e.messageType) ts
      e.hdr.timestampNs (e.hdr.timestampNs - ts)])
    (hlog : s'.log = s.log ++ (lines ++ more)) (hmore : ∀ l ∈ more, l.isLatency = false) :
    ∃ ls : List Measurement, s'.log.filter LogLine.isLatency = ls.map Measurement.line ∧
      (ls.map Measurement.reply).Pairwise (· < ·) ∧
      ∀ l ∈ ls, l.reply < (es ++ [Dispatched.routing e hook]).length ∧ Measures (es ++ [.routing e hook]) l := by
  obtain ⟨ls, hls, hsorted, hall⟩ := h.lines
  obtain ⟨a, e0, hook0, ha, hreq, hq, hts, hno⟩ := h.opened _ _ hopen
  obtain ⟨hlt, -⟩ := List.getElem?_eq_some_iff.1 ha
  subst hts hline
  have hnone : more.filter LogLine.isLatency = [] := List.filter_eq_nil_iff.2 fun l hl => by simp [hmore l hl]
  refine ⟨ls ++ [⟨a, es.length, .latency e.tuple.svc e.tuple.method e.tuple.client e.tuple.session
    (replyText e.messageType) e0.hdr.timestampNs e.hdr.timestampNs (e.hdr.timestampNs - e0.hdr.timestampNs)⟩], ?_, ?_, ?_⟩
  · rw [hlog, List.filter_append, List.filter_append, hnone, hls, List.map_append]
    rfl
  · rw [List.map_append, List.pairwise_append]
    refine ⟨hsorted, List.pairwise_singleton _ _, fun b hb c hc => ?_⟩
    obtain ⟨l, hl, rfl⟩ := List.mem_map.1 hb
    rw [List.mem_singleton.1 hc]
    exact (hall l hl).1
  · intro l hl
    rw [List.length_append]
    rcases List.mem_append.1 hl with hl | hl
    · obtain ⟨hlt, hm⟩ := hall l hl
      exact ⟨by omega, hm.append hlt _⟩
    · rw [List.mem_singleton.1 hl]
      refine ⟨Nat.lt_succ_self _, e0, hook0, e, hook, hlt, ?_, by simp, hreq, hrep, hq.symm, ?_, ?_, ?_⟩
      · rwa [List.getElem?_append_left hlt]
      · rw [← hq]
        rfl
      · exact UInt64.not_lt.1 hlate
      · intro i x hk hi hi' hx
        rw [List.getElem?_append_left hi'] at hx
        rw [hq]
        exact hno i x hk hi hx

/-! ### One intake -/

private theorem handled_core {formats : Bool} {e : RoutingEvent} {hook : String}
    (h : s.handle formats (.routing e hook) = some s') :
    s'.stats.core = (s.stats.callOpt ⟨[], 0⟩ e.latencyCall).1.core ∧
      ∃ more, s'.log = s.log ++ ((s.stats.callOpt ⟨[], 0⟩ e.latencyCall).2 ++ more) ∧
        ∀ l ∈ more, l.isLatency = false := by
  obtain ⟨r, hr, rfl⟩ := Option.map_eq_some_iff.1 h
  obtain ⟨r', hr', rfl⟩ := Option.map_eq_some_iff.1 hr
  obtain ⟨hcore, hlines⟩ := routingEventHandler_core ⟨[], 0⟩ hr'
  obtain ⟨t, lines⟩ := r'
  dsimp only at hlines hcore
  subst hlines
  cases formats with
  | false => exact ⟨hcore, [], by simp [withoutLine], by simp⟩
  | true => exact ⟨hcore, [.event e.hdr hook e.payloadText], rfl, by simp [LogLine.isLatency]⟩

private theorem Traced.no_reply (h : Traced es s) {formats : Bool} {e : RoutingEvent} {hook : String}
    (hs : s.handle formats (.routing e hook) = some s') (hno : ¬ e.IsReply answerType) :
    Traced (es ++ [.routing e hook]) s' := by
  obtain ⟨hcore, more, hlog, hmore⟩ := handled_core hs
  have hkeep : ∀ q ts, OpenAt es q ts → OpenAt (es ++ [.routing e hook]) q ts := by
    intro q ts hopen
    refine hopen.concat fun x hk hx hrep => ?_
    cases hx
    exact absurd hrep hno
  rcases latencyCall_cases e with hc | ⟨q, t, hc⟩ | ⟨q, r, ty, hc⟩
  · rw [hc] at hcore hlog
    refine ⟨fun q ts hq => ?_, h.lines_append hlog hmore _⟩
    rw [sentAt_congr hcore] at hq
    exact hkeep q ts (h.opened q ts hq)
  · rw [hc] at hcore hlog
    refine ⟨fun q' ts hq => ?_, h.lines_append hlog hmore _⟩
    rw [sentAt_congr hcore] at hq
    rcases sentAt_step_eq_some ⟨[], 0⟩ hq with hq | hq
    · exact hkeep q' ts (h.opened q' ts hq)
    · obtain ⟨rfl, rfl⟩ : q = q' ∧ t = ts := by
        injection hq with h1 h2
        exact ⟨h1, h2⟩
      obtain ⟨hreq, hq, hts⟩ := latencyCall_recordPending.1 hc
      refine ⟨es.length, e, hook, by simp, hreq, hq, hts, fun i x hk hi hx => ?_⟩
      rw [List.getElem?_append_right (by omega), List.getElem?_eq_none (by simp; omega)] at hx
      cases hx
  · exact absurd (latencyCall_tryMatch.1 hc).1 hno

private theorem Traced.reply (h : Traced es s) {formats : Bool} {e : RoutingEvent} {hook : String}
    (hs : s.handle formats (.routing e hook) = some s') (hrep : e.IsReply answerType) :
    Traced (es ++ [.routing e hook]) s' := by
  obtain ⟨hcore, more, hlog, hmore⟩ := handled_core hs
  rw [latencyCall_of_isReply hrep] at hcore hlog
  have hsent : ∀ q, s'.stats.sentAt q = if q = e.tuple then none else s.stats.sentAt q := by
    intro q
    rw [sentAt_congr hcore]
    show (s.stats.step ⟨[], 0⟩ (.tryMatch e.tuple e.hdr.timestampNs e.messageType)).sentAt q = _
    rw [sentAt_step]
    by_cases hq : q = e.tuple
    · subst hq
      simp [effectOn, Slot.Effect.apply]
    · simp [effectOn, Slot.Effect.apply, hq, Ne.symm hq]
  refine ⟨fun q ts hq => ?_, ?_⟩
  · rw [hsent] at hq
    split at hq
    · cases hq
    · rename_i hne
      refine (h.opened q ts hq).concat fun x hk hx _ => ?_
      cases hx
      exact fun he => hne he.symm
  · -- the reply finds an open request, or there is nothing to measure
    have hlines := lines_tryMatch_eq s.stats e.tuple e.hdr.timestampNs e.messageType
    have hquiet : (s.stats.tryMatch e.tuple.svc e.tuple.method e.tuple.client e.tuple.session e.hdr.timestampNs
        e.messageType).2 = [] → ∃ ls : List Measurement, s'.log.filter LogLine.isLatency = ls.map Measurement.line ∧
          (ls.map Measurement.reply).Pairwise (· < ·) ∧
          ∀ l ∈ ls, l.reply < (es ++ [Dispatched.routing e hook]).length ∧ Measures (es ++ [.routing e hook]) l := by
      intro hnone
      refine h.lines_append (hlog.trans ?_) hmore _
      show s.log ++ ((s.stats.tryMatch ..).2 ++ more) = _
      rw [hnone, List.nil_append]
    cases hopen : s.stats.sentAt e.tuple with
    | none =>
      rw [hopen] at hlines
      exact hquiet hlines
    | some ts =>
      rw [hopen] at hlines
      by_cases hlate : e.hdr.timestampNs - ts > plausibleNs
      · exact hquiet (hlines.trans (if_pos hlate))
      · by_cases hw : s.stats.logWriter = true
        · have hline := hlines.trans ((if_neg hlate).trans (if_pos hw))
          exact h.lines_measured hopen hrep hlate hline hlog hmore
        · exact hquiet (hlines.trans ((if_neg hlate).trans (if_neg hw)))

/-- An event of another module. -/
private theorem Traced.other (h : Traced es s) {formats : Bool} {d : Dispatched} (hd : d.isRouting = false)
    (hs : s.handle formats d = some s') (xs : List Dispatched) (hxs : ∀ x ∈ xs, x.isRouting = false) :
    Traced (es ++ xs) s' := by
  have hcounted : ∀ {hdr : EventHeader} {hook : String} {retval : Int64} {t : Session},
      s.operate ⟨[], 0⟩ (.processEvent hdr hook retval none) = some t → t.stats.core = s.stats.core ∧ t.log = s.log := by
    intro hdr hook retval t ht
    obtain ⟨r, hr, rfl⟩ := Option.map_eq_some_iff.1 ht
    unfold processEvent at hr
    obtain ⟨u, hu, rfl⟩ := Option.map_eq_some_iff.1 hr
    exact ⟨(core_countModule hu).trans rfl, List.append_nil _⟩
  have hcore : s'.stats.core = s.stats.core ∧ ∃ more, s'.log = s.log ++ more ∧ ∀ l ∈ more, l.isLatency = false := by
    rw [Session.handle_eq ⟨[], 0⟩] at hs
    obtain ⟨t, ht, rfl⟩ := Option.map_eq_some_iff.1 hs
    have hnew : ∀ l ∈ (if formats then [d.line] else []), l.isLatency = false := by
      intro l hl
      split at hl
      · rw [List.mem_singleton.1 hl]
        cases d <;> rfl
      · cases hl
    cases d with
    | routing e hook => cases hd
    | app e hook | sd e hook =>
      obtain ⟨hc, hl⟩ := hcounted ht
      exact ⟨hc, _, congrArg (· ++ _) hl, hnew⟩
  obtain ⟨hcore, more, hlog, hmore⟩ := hcore
  refine ⟨fun q ts hq => ?_, h.lines_append hlog hmore xs⟩
  rw [sentAt_congr hcore] at hq
  have hopen := h.opened q ts hq
  clear hq
  induction xs using List.reverseRecOn with
  | nil =>
    rw [List.append_nil]
    exact hopen
  | append_singleton xs x ih =>
    rw [← List.append_assoc]
    refine OpenAt.concat (ih fun y hy => hxs y (List.mem_append_left _ hy)) fun y hk hy => ?_
    have hx := hxs x (List.mem_append_right _ (List.mem_singleton_self x))
    rw [hy] at hx
    cases hx

/-- The calls that `main` makes. -/
def Call.isUpkeep : Call → Bool
  | .evictExpired .. | .flushReport .. => true
  | _ => false

private theorem lines_upkeep {cfg : HookConfig} {c : Call} (hc : c.isUpkeep = true) (t : StatsCollector) :
    ∀ l ∈ (t.call cfg c).2, l.isLatency = false := by
  intro l hl
  cases c with
  | recordPending q ts => cases hc
  | tryMatch q r ty => cases hc
  | evictExpired now o =>
    have hl : l ∈ (t.evictExpired now o).2 := hl
    rw [lines_evictExpired] at hl
    split at hl
    · obtain ⟨_, -, rfl⟩ := List.mem_map.1 hl
      rfl
    · cases hl
  | flushReport now =>
    have hl : l ∈ (t.flushReport cfg now).2 := hl
    by_cases hw : t.logWriter = true
    · exact ((lines_flushReport cfg t now hw).2 l hl).1
    · unfold StatsCollector.flushReport at hl
      dsimp only at hl
      rw [if_neg hw] at hl
      cases hl

private theorem Traced.call (h : Traced es s) {cfg : HookConfig} {c : Call} (hc : c.isUpkeep = true) :
    Traced es (s.step cfg c) where
  opened := by
    intro q ts hq
    rcases sentAt_step_eq_some cfg hq with hq | rfl
    · exact h.opened q ts hq
    · cases hc
  lines := by
    have hlog : (s.step cfg c).log = s.log ++ (s.stats.call cfg c).2 := rfl
    have hlines := h.lines_append hlog (lines_upkeep hc s.stats) []
    rwa [List.append_nil] at hlines

/-! ### Runs -/

/-- The session of a run with one collector of routing events. -/
private theorem traced_intakes {n : Nat} {cfg : HookConfig} {formats : Bool} {j : Fin n} {ds : List (Intake n)}
    (hrouting : ∀ d ∈ ds.filterMap Sum.getLeft?, d.2.isRouting = true → d.1 = j)
    (hcalls : ∀ c ∈ ds.filterMap Sum.getRight?, c.isUpkeep = true)
    (hrun : runFrom (lift (Session.intake cfg formats)) (some ⟨fresh cfg true, []⟩) ds = some s) :
    Traced (eventsOf j ds) s := by
  refine runFrom_lift_induct (fun ds s => (∀ d ∈ ds.filterMap Sum.getLeft?, d.2.isRouting = true → d.1 = j) →
    (∀ c ∈ ds.filterMap Sum.getRight?, c.isUpkeep = true) → Traced (eventsOf j ds) s) ?_ ?_ hrun hrouting hcalls
  · intro _ _
    have hnone : ∀ q, (fresh cfg true).sentAt q = none := fun q => rfl
    refine ⟨fun q ts hq => ?_, [], rfl, List.Pairwise.nil, by simp⟩
    rw [hnone] at hq
    cases hq
  · intro ds t a u ih hu hrouting hcalls
    rw [List.filterMap_append] at hrouting hcalls
    have h := ih (fun d hd => hrouting d (List.mem_append_left _ hd)) fun c hc => hcalls c (List.mem_append_left _ hc)
    have hevents : eventsOf j (ds ++ [a]) = eventsOf j ds ++ eventsOf j [a] := by
      unfold eventsOf
      rw [List.filterMap_append, valuesOf_append]
    rw [hevents]
    cases a with
    | inr c =>
      cases hu
      have hnone : eventsOf j [(.inr c : Intake n)] = [] := rfl
      rw [hnone, List.append_nil]
      exact h.call (hcalls c (List.mem_append_right _ (List.mem_singleton_self c)))
    | inl d =>
      obtain ⟨i, d⟩ := d
      have hi : d.isRouting = true → i = j := hrouting (i, d) (List.mem_append_right _ (List.mem_singleton_self _))
      have hu : t.handle formats d = some u := hu
      by_cases hij : i = j
      · have hone : eventsOf j [(.inl (i, d) : Intake n)] = [d] := by
          unfold eventsOf valuesOf
          simp [hij]
        rw [hone]
        cases d with
        | routing e hook =>
          by_cases hrep : e.IsReply answerType
          · exact h.reply hu hrep
          · exact h.no_reply hu hrep
        | app e hook | sd e hook => exact h.other rfl hu _ (by simp [Dispatched.isRouting])
      · have hnone : eventsOf j [(.inl (i, d) : Intake n)] = [] := by
          unfold eventsOf valuesOf
          simp [hij]
        rw [hnone]
        refine h.other ?_ hu [] (by simp)
        cases hd : d.isRouting with
        | false => rfl
        | true => exact absurd (hi hd) hij

/-! ### Firings -/

/-- The line is the time from a firing of a request to that of the first reply behind it. -/
def Spans {k : EventKind} (ids : Macros) (g : FileGroup) (ys : List (Fired k)) (l : Measurement) : Prop :=
  ∃ (y y' : Fired k) (e e' : RoutingEvent) (hook hook' : String), l.request < l.reply ∧
    ys[l.request]? = some y ∧ y.shot.dispatched ids g y.slot = some (.routing e hook) ∧
    ys[l.reply]? = some y' ∧ y'.shot.dispatched ids g y'.slot = some (.routing e' hook') ∧
    e.IsRequest timedType ∧ e'.IsReply answerType ∧ e'.tuple = e.tuple ∧
    l.line = .latency e.serviceId e.methodId e.clientId e.sessionId (replyText e'.messageType) y.shot.kernel.ktimeNs
      y'.shot.kernel.ktimeNs (y'.shot.kernel.ktimeNs - y.shot.kernel.ktimeNs) ∧
    y'.shot.kernel.ktimeNs - y.shot.kernel.ktimeNs ≤ plausibleNs ∧
    ∀ (i : Nat) (z : Fired k) (x : RoutingEvent) (hook : String), l.request < i → i < l.reply → ys[i]? = some z →
      z.shot.dispatched ids g z.slot = some (.routing x hook) → x.IsReply answerType → x.tuple ≠ e.tuple

section

variable {k : EventKind} {ids : Macros} {g : FileGroup} {p : Feed k} {ds : List Dispatched} {ys : List (Fired k)} {m : Nat}

private theorem Handled.firing (h : Handled ids g p ds ys m) {i : Nat} {d : Dispatched} (hd : ds[i]? = some d) :
    ∃ y, ys[i]? = some y ∧ i < m ∧ y.shot.dispatched ids g y.slot = some d := by
  have hmap : (ds.map some)[i]? = some (some d) := by rw [List.getElem?_map, hd, Option.map_some]
  rw [h.events, List.getElem?_map] at hmap
  obtain ⟨y, hy, he⟩ := Option.map_eq_some_iff.1 hmap
  rw [List.getElem?_take] at hy
  split at hy
  · exact ⟨y, hy, ‹_›, he⟩
  · cases hy

private theorem Handled.event (h : Handled ids g p ds ys m) {i : Nat} (hi : i < ds.length) {y : Fired k}
    (hy : ys[i]? = some y) : y.shot.dispatched ids g y.slot = ds[i]? := by
  have hd : ds[i]? = some ds[i] := List.getElem?_eq_getElem hi
  obtain ⟨z, hz, -, he⟩ := h.firing hd
  obtain rfl : y = z := Option.some.inj (hy.symm.trans hz)
  rw [hd, he]

private theorem time_dispatched {x : Shot k} {slot : List UInt8} {e : RoutingEvent} {hook : String}
    (h : x.dispatched ids g slot = some (.routing e hook)) : e.hdr.timestampNs = x.kernel.ktimeNs := by
  have hhdr : e.hdr = x.hdr ids := x.hdr_dispatched h
  rw [hhdr]
  rfl

private theorem Measures.spans (h : Handled ids g p ds ys m) {l : Measurement} (hl : Measures ds l) :
    l.reply < m ∧ Spans ids g ys l := by
  obtain ⟨e, hook, e', hook', hlt, ha, hb, hreq, hrep, hq, hline, hle, hno⟩ := hl
  obtain ⟨hlen, -⟩ := List.getElem?_eq_some_iff.1 hb
  obtain ⟨y, hy, -, hd⟩ := h.firing ha
  obtain ⟨y', hy', hm, hd'⟩ := h.firing hb
  rw [time_dispatched hd, time_dispatched hd'] at hline hle
  refine ⟨hm, y, y', e, e', hook, hook', hlt, hy, hd, hy', hd', hreq, hrep, hq, hline, hle, ?_⟩
  intro i z x hk hi hi' hz hx
  rw [h.event (hi'.trans hlen) hz] at hx
  exact hno i x hk hi hi' hx

end

namespace Hub

variable {files : List FileJson} {load : String → Option OffsetTable} {cfg : HookConfig}
  (hgen : genConfig files load = some cfg) (K : RingKernel) (py : PyUpper) {n : Nat} {ms : Fin n → Member cfg}
  (formats : Bool) (data : Fin n → Nat → UInt8)

include hgen

/-- In every run of the collectors, with reports and evictions anywhere in it: the latency lines of the log are, in this
order, times from the firing of a request to that of the first reply behind it, both of them passed, and of one reply
there is one line at most. -/
theorem latencies_measured {j : Fin n} (hone : ∀ i, (ms i).kind = .routing → i = j) (as : List (HubAction ms))
    (hcalls : ∀ c ∈ as.filterMap Sum.getRight?, c.isUpkeep = true)
    (hfits : (run K (genHookIds py files) formats data ⟨fresh cfg true, []⟩ as).Fits) :
    ∃ (t : Session) (ys : List (Fired (ms j).kind)) (m : Nat) (ls : List Measurement),
      (run K (genHookIds py files) formats data ⟨fresh cfg true, []⟩ as).session = some t ∧
      Passed (genHookIds py files) ((run K (genHookIds py files) formats data ⟨fresh cfg true, []⟩ as).feeds j) ys m ∧
      t.log.filter LogLine.isLatency = ls.map Measurement.line ∧ (ls.map Measurement.reply).Pairwise (· < ·) ∧
      ∀ l ∈ ls, l.reply < m ∧ Spans (genHookIds py files) (ms j).group ys l := by
  have hsized : Sized cfg (Session.mk (fresh cfg true) []).stats := sized_fresh cfg true
  obtain ⟨t, ht, -, htaken⟩ := session_taken hgen K py formats data hsized hfits
  have htraced := traced_intakes (j := j) (fun d hd hr => hone d.1 (routing_taken K formats hd hr))
    (fun c hc => hcalls c (by rwa [calls_taken] at hc)) htaken
  obtain ⟨ls, hls, hsorted, hall⟩ := htraced.lines
  have hfit := hfits j
  rw [feeds_run] at hfit
  obtain ⟨ys, m, hp⟩ := delivered_run _ _ _ _ _ hfit
  have hhandled := hp.handled (ms j).group
  rw [← feeds_run K (genHookIds py files) formats data ⟨fresh cfg true, []⟩] at hp hhandled
  rw [← eventsOf_taken] at hhandled
  exact ⟨t, ys, m, ls, ht, hp, hls, hsorted, fun l hl => Measures.spans hhandled (hall l hl).2⟩

/-- The response to `oneSend`, a microsecond later. -/
def oneReply : Shot .routing :=
  ⟨.rmOnMessage, { parm2 := 4096, parm3 := 16 },
    ⟨0, 1007, Vector.replicate 16 0, fun _ => some ((Vector.replicate 16 0).set 14 128)⟩⟩

/-- A request is consumed, and then its response. -/
def oneReplyRun : List (HubAction fun _ : Fin 1 => oneHookMember) :=
  oneSendRun 0 8 ++ fireRun oneReply 1 0 8 ++ [.inr (.evictExpired 2000 byKey)]

omit hgen in
theorem latencies_measured_one_reply :
    ∃ (t : Session) (ys : List (Fired .routing)) (m : Nat) (ls : List Measurement),
      (run .plain (genHookIds .letters [oneHookFile]) true (fun _ _ => 0) ⟨fresh oneHookConfig true, []⟩
        oneReplyRun).session = some t ∧
      Passed (genHookIds .letters [oneHookFile]) ((run .plain (genHookIds .letters [oneHookFile]) true (fun _ _ => 0)
        ⟨fresh oneHookConfig true, []⟩ oneReplyRun).feeds 0) ys m ∧
      t.log.filter LogLine.isLatency = ls.map Measurement.line ∧ (ls.map Measurement.reply).Pairwise (· < ·) ∧
      ∀ l ∈ ls, l.reply < m ∧ Spans (genHookIds .letters [oneHookFile]) oneHookGroup ys l := by
  have hgen : genConfig [oneHookFile] (fun _ => some [("send()", some 64)]) = some oneHookConfig := rfl
  refine latencies_measured (j := 0) hgen .plain .letters true (fun _ _ => 0) ?_ oneReplyRun ?_ ?_
  · exact fun i _ => Subsingleton.elim i 0
  · intro c hc
    have hcalls : oneReplyRun.filterMap Sum.getRight? = [.evictExpired 2000 byKey] := rfl
    rw [hcalls] at hc
    rw [List.mem_singleton.1 hc]
    rfl
  · intro j
    obtain rfl : j = 0 := Subsingleton.elim ..
    decide +kernel

end Hub

end VsomeipCollector

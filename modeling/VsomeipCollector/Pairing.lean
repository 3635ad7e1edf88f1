import VsomeipCollector.Handler

/-!
# Requests and the replies that answer them

Routing events are delivered to `routing_event_handler` and evictions run in between.  Which events open a request
and which ones answer it is decided in `on_latency`: a request is a sent `REQUEST` or `REQUEST_NO_RETURN`, a reply a
received `RESPONSE`, `ERROR` or `NOTIFICATION`, in both cases from an entry probe.  An open request was delivered,
and no reply to it has been delivered since (`openSince_of_sentAt`); everything else follows from that
(`deliveries_paired`).
-/

namespace VsomeipCollector

open Table Run StatsCollector

variable (cfg : HookConfig) (w : Bool)

/-- What happens to the statistics of the routing module. -/
inductive Delivery where
  | event (e : RoutingEvent) (hook : String)
  | evict (now : UInt64) (order : Enumeration PendingItem)

/-- `none` is a module index outside the counter tables. -/
def Session.deliver (s : Session) : Delivery → Option Session
  | .event e hook => (routingEventHandler e hook s.stats).map fun r => ⟨r.1, s.log ++ r.2⟩
  | .evict now o => some ⟨(s.stats.evictExpired now o).1, s.log ++ (s.stats.evictExpired now o).2⟩

/-- The state after a sequence of deliveries to a fresh collector. -/
def deliveries (ds : List Delivery) : Option Session := runFrom (lift Session.deliver) (some ⟨fresh cfg w, []⟩) ds

/-- The call of the matching that a delivery makes. -/
def Delivery.call : Delivery → Option Call
  | .event e _ => e.latencyCall
  | .evict now o => some (.evictExpired now o)

/-- The types that `on_latency` records when sent. -/
def timedType (t : UInt8) : Prop := t = someipMtRequest ∨ t = someipMtRequestNoReturn

/-- The types that `on_latency` matches when received. -/
def answerType (t : UInt8) : Prop := t = someipMtResponse ∨ t = someipMtError ∨ t = someipMtNotification

/-- A sent event of an entry probe whose type is in `req`. -/
def RoutingEvent.IsRequest (req : UInt8 → Prop) (e : RoutingEvent) : Prop :=
  e.hdr.isRetprobe = false ∧ e.hdr.direction = dirSend ∧ req e.messageType

/-- A received event of an entry probe whose type is in `rep`. -/
def RoutingEvent.IsReply (rep : UInt8 → Prop) (e : RoutingEvent) : Prop :=
  e.hdr.isRetprobe = false ∧ e.hdr.direction = dirRecv ∧ rep e.messageType

section

variable (req rep : UInt8 → Prop)

/-- A request for `q` sent at `ts` was delivered, and no reply to `q` since. -/
def OpenSince (ds : List Delivery) (q : Tuple) (ts : UInt64) : Prop :=
  ∃ pre e hook post, ds = pre ++ .event e hook :: post ∧ e.IsRequest req ∧ e.tuple = q ∧ e.hdr.timestampNs = ts ∧
    ∀ e' hook', .event e' hook' ∈ post → e'.IsReply rep → e'.tuple ≠ q

/-- What the delivery `d` after `ds` may do to samples, time-outs and open requests. -/
structure PairedStep (ds : List Delivery) (s : Session) (d : Delivery) (s' : Session) : Prop where
  /-- A sample is the time from an open request to the reply just delivered. -/
  sample : s'.stats.latency = s.stats.latency ∨
    ∃ e hook ts, d = .event e hook ∧ e.IsReply rep ∧ OpenSince req rep ds e.tuple ts ∧
      s'.stats.latency = s.stats.latency ++ [e.hdr.timestampNs - ts]
  /-- A time-out is about a request that no reply has answered. -/
  timeout : ∃ lines, s'.log = s.log ++ lines ∧ ∀ key ms, .timeout key ms ∈ lines →
    ∃ now o q ts, d = .evict now o ∧ q.key = key ∧ OpenSince req rep ds q ts ∧ ms = (now - ts) / 1000000
  /-- An open request ends with a reply or because it expired: the age that the code computes is over 30 s, and so is the
  true one where the clock is not behind the request. -/
  removed : ∀ q ts, s.stats.sentAt q = some ts → s'.stats.sentAt q ≠ some ts →
    (∃ e hook, d = .event e hook ∧ e.IsReply rep ∧ e.tuple = q) ∨
      ∃ now o, d = .evict now o ∧ now - ts > timeoutNs ∧ (ts ≤ now → ts.toNat + 30 * 10 ^ 9 < now.toNat)
  /-- Only a request becomes an open request. -/
  entered : ∀ q ts, s.stats.sentAt q ≠ some ts → s'.stats.sentAt q = some ts →
    ∃ e hook, d = .event e hook ∧ e.IsRequest req ∧ e.tuple = q ∧ e.hdr.timestampNs = ts

/-- Every delivery of the sequence does what `PairedStep` allows. -/
def Paired (ds : List Delivery) : Prop :=
  ∀ pre d post s s', ds = pre ++ d :: post → deliveries cfg w pre = some s → s.deliver d = some s' →
    PairedStep req rep pre s d s'

end

/-! ### Events and their calls -/

theorem latencyCall_recordPending {e : RoutingEvent} {q : Tuple} {ts : UInt64} :
    e.latencyCall = some (.recordPending q ts) ↔ e.IsRequest timedType ∧ e.tuple = q ∧ e.hdr.timestampNs = ts := by
  unfold RoutingEvent.latencyCall RoutingEvent.IsRequest timedType
  by_cases hr : e.hdr.isRetprobe = true
  · simp [hr]
  · have hr' : e.hdr.isRetprobe = false := by simpa using hr
    rw [if_neg hr]
    by_cases hs : e.hdr.direction = dirSend ∧
        (e.messageType = someipMtRequest ∨ e.messageType = someipMtRequestNoReturn)
    · rw [if_pos hs]
      simp [hs, hr']
    · rw [if_neg hs]
      constructor
      · intro h
        split at h <;> cases h
      · rintro ⟨⟨-, h1, h2⟩, -⟩
        exact absurd ⟨h1, h2⟩ hs

theorem latencyCall_tryMatch {e : RoutingEvent} {q : Tuple} {r : UInt64} {ty : UInt8} :
    e.latencyCall = some (.tryMatch q r ty) ↔
      e.IsReply answerType ∧ e.tuple = q ∧ e.hdr.timestampNs = r ∧ e.messageType = ty := by
  unfold RoutingEvent.latencyCall RoutingEvent.IsReply answerType
  by_cases hr : e.hdr.isRetprobe = true
  · simp [hr]
  · have hr' : e.hdr.isRetprobe = false := by simpa using hr
    rw [if_neg hr]
    by_cases hs : e.hdr.direction = dirSend ∧
        (e.messageType = someipMtRequest ∨ e.messageType = someipMtRequestNoReturn)
    · rw [if_pos hs]
      constructor
      · intro h; cases h
      · rintro ⟨⟨-, h1, -⟩, -⟩
        rw [hs.1] at h1
        exact absurd h1 (by decide)
    · rw [if_neg hs]
      by_cases hm : e.hdr.direction = dirRecv ∧ (e.messageType = someipMtResponse ∨ e.messageType = someipMtError ∨
          e.messageType = someipMtNotification)
      · rw [if_pos hm]
        simp [hm, hr']
      · rw [if_neg hm]
        constructor
        · intro h; cases h
        · rintro ⟨⟨-, h1, h2⟩, -⟩
          exact absurd ⟨h1, h2⟩ hm

theorem latencyCall_of_isReply {e : RoutingEvent} (h : e.IsReply answerType) :
    e.latencyCall = some (.tryMatch e.tuple e.hdr.timestampNs e.messageType) :=
  latencyCall_tryMatch.2 ⟨h, rfl, rfl, rfl⟩

/-- A routing event leads to no other call. -/
theorem latencyCall_cases (e : RoutingEvent) :
    e.latencyCall = none ∨ (∃ q ts, e.latencyCall = some (.recordPending q ts)) ∨
      ∃ q r ty, e.latencyCall = some (.tryMatch q r ty) := by
  unfold RoutingEvent.latencyCall
  split
  · exact Or.inl rfl
  · split
    · exact Or.inr (Or.inl ⟨_, _, rfl⟩)
    · split
      · exact Or.inr (Or.inr ⟨_, _, _, rfl⟩)
      · exact Or.inl rfl

/-! ### One delivery -/

theorem sentAt_congr {s t : StatsCollector} (h : s.core = t.core) (q : Tuple) : s.sentAt q = t.sentAt q := by
  unfold sentAt
  rw [(core_eq_iff.1 h).1]

theorem latency_congr {s t : StatsCollector} (h : s.core = t.core) : s.latency = t.latency := (core_eq_iff.1 h).2.1

/-- A delivery changes open requests and samples as its call does, and adds the lines of the call and event lines. -/
theorem deliver_core {s s' : Session} {d : Delivery} (h : s.deliver d = some s') :
    s'.stats.core = (s.stats.callOpt cfg d.call).1.core ∧
      ∃ ls, s'.log = s.log ++ ((s.stats.callOpt cfg d.call).2 ++ ls) ∧ ∀ l ∈ ls, l.isTimeout = false := by
  cases d with
  | event e hook =>
    obtain ⟨r, hr, rfl⟩ := Option.map_eq_some_iff.1 h
    obtain ⟨h1, h2⟩ := routingEventHandler_core cfg hr
    refine ⟨h1, _, congrArg (s.log ++ ·) h2, ?_⟩
    intro l hl
    rw [List.mem_singleton.1 hl]
    rfl
  | evict now o =>
    cases h
    exact ⟨rfl, [], by simp [Delivery.call, StatsCollector.callOpt, call], by simp⟩

/-- Only a request becomes an open request. -/
theorem entered_deliver {s s' : Session} {d : Delivery} (h : s.deliver d = some s') {q : Tuple} {ts : UInt64}
    (hs : s.stats.sentAt q ≠ some ts) (hs' : s'.stats.sentAt q = some ts) :
    ∃ e hook, d = .event e hook ∧ e.IsRequest timedType ∧ e.tuple = q ∧ e.hdr.timestampNs = ts := by
  rw [sentAt_congr (deliver_core ⟨[], 0⟩ h).1] at hs'
  cases hc : d.call with
  | none =>
    rw [hc] at hs'
    exact absurd hs' hs
  | some c =>
    rw [hc] at hs'
    obtain rfl := (sentAt_step_eq_some ⟨[], 0⟩ hs').resolve_left hs
    cases d with
    | evict now o => cases hc
    | event e hook =>
      obtain ⟨hreq, hq, hts⟩ := latencyCall_recordPending.1 hc
      exact ⟨e, hook, rfl, hreq, hq, hts⟩

/-- A reply leaves no request to its tuple open. -/
theorem answered_deliver {s s' : Session} {e : RoutingEvent} {hook : String}
    (h : s.deliver (.event e hook) = some s') (hrep : e.IsReply answerType) : s'.stats.sentAt e.tuple = none := by
  have hc : Delivery.call (.event e hook) = _ := latencyCall_of_isReply hrep
  rw [sentAt_congr (deliver_core ⟨[], 0⟩ h).1, hc]
  show (s.stats.step ⟨[], 0⟩ (.tryMatch e.tuple _ _)).sentAt e.tuple = none
  rw [sentAt_step]
  simp [effectOn, Slot.Effect.apply]

/-! ### Open requests -/

/-- A delivery that is no reply to `q` leaves a request open that was. -/
private theorem OpenSince.concat {req rep : UInt8 → Prop} {ds : List Delivery} {q : Tuple} {ts : UInt64} {d : Delivery}
    (h : OpenSince req rep ds q ts) (hd : ∀ e hook, d = .event e hook → e.IsReply rep → e.tuple ≠ q) :
    OpenSince req rep (ds ++ [d]) q ts := by
  obtain ⟨pre, e, hook, post, rfl, hreq, hq, hts, hno⟩ := h
  refine ⟨pre, e, hook, post ++ [d], by simp, hreq, hq, hts, ?_⟩
  intro e' hook' hm
  rcases List.mem_append.1 hm with hm | hm
  · exact hno e' hook' hm
  · exact hd e' hook' (List.mem_singleton.1 hm).symm

/-- An open request was delivered, and no reply to it since. -/
theorem openSince_of_sentAt {ds : List Delivery} {s : Session} (hrun : deliveries cfg w ds = some s) {q : Tuple}
    {ts : UInt64} (hs : s.stats.sentAt q = some ts) : OpenSince timedType answerType ds q ts := by
  refine runFrom_lift_induct
    (fun ds s => s.stats.sentAt q = some ts → OpenSince timedType answerType ds q ts) ?_ ?_ hrun hs
  · intro hs
    cases hs
  · intro ds t d u ih hu hs
    by_cases hopen : t.stats.sentAt q = some ts
    · -- it was open before, and `d` is no reply to it, since a reply would have ended it
      refine (ih hopen).concat ?_
      rintro e hook rfl hrep rfl
      rw [answered_deliver hu hrep] at hs
      cases hs
    · obtain ⟨e, hook, rfl, hreq, hq, hts⟩ := entered_deliver hu hopen hs
      exact ⟨ds, e, hook, [], rfl, hreq, hq, hts, by simp⟩

/-! ### What a delivery may do -/

private theorem sample_deliver {ds : List Delivery} {s s' : Session} {d : Delivery}
    (hrun : deliveries cfg w ds = some s) (h : s.deliver d = some s') :
    s'.stats.latency = s.stats.latency ∨
      ∃ e hook ts, d = .event e hook ∧ e.IsReply answerType ∧ OpenSince timedType answerType ds e.tuple ts ∧
        s'.stats.latency = s.stats.latency ++ [e.hdr.timestampNs - ts] := by
  have hl := latency_congr (deliver_core cfg h).1
  cases d with
  | evict now o => left; exact hl
  | event e hook =>
    rcases latencyCall_cases e with hc | ⟨q, t, hc⟩ | ⟨q, r, ty, hc⟩
    · left
      simp only [Delivery.call, hc] at hl
      exact hl
    · left
      simp only [Delivery.call, hc] at hl
      exact hl.trans (latency_step cfg s.stats (.recordPending q t))
    · simp only [Delivery.call, hc] at hl
      have hl' := hl.trans (latency_step_tryMatch cfg s.stats q r ty)
      obtain ⟨hrep, rfl, rfl, -⟩ := latencyCall_tryMatch.1 hc
      -- the reply finds an open request, or there is nothing to measure
      cases hs : s.stats.sentAt e.tuple with
      | none => left; simpa [hs, sampleOf] using hl'
      | some ts =>
        rw [hs] at hl'
        simp only [sampleOf] at hl'
        split at hl'
        · left; simpa using hl'
        · right
          exact ⟨e, hook, ts, rfl, hrep, openSince_of_sentAt cfg w hrun hs, hl'⟩

private theorem timeout_deliver {ds : List Delivery} {s s' : Session} {d : Delivery}
    (hrun : deliveries cfg w ds = some s) (h : s.deliver d = some s') :
    ∃ lines, s'.log = s.log ++ lines ∧ ∀ key ms, .timeout key ms ∈ lines →
      ∃ now o q ts, d = .evict now o ∧ q.key = key ∧ OpenSince timedType answerType ds q ts ∧
        ms = (now - ts) / 1000000 := by
  obtain ⟨-, ls, hlog, hls⟩ := deliver_core cfg h
  refine ⟨_, hlog, ?_⟩
  intro key ms hm
  have hm' : LogLine.timeout key ms ∈ (s.stats.callOpt cfg d.call).2 := by
    rcases List.mem_append.1 hm with hm | hm
    · exact hm
    · have := hls _ hm; cases this
  cases d with
  | event e hook =>
    rcases latencyCall_cases e with hc | ⟨q, t, hc⟩ | ⟨q, r, ty, hc⟩
    · simp [Delivery.call, hc, StatsCollector.callOpt] at hm'
    · simp [Delivery.call, hc, StatsCollector.callOpt, call] at hm'
    · simp only [Delivery.call, hc, StatsCollector.callOpt, call] at hm'
      have := (lines_tryMatch s.stats q r ty).2 _ hm'
      cases this
  | evict now o =>
    have hm'' : LogLine.timeout key ms ∈ (s.stats.evictExpired now o).2 := hm'
    rw [lines_evictExpired] at hm''
    split at hm''
    · obtain ⟨⟨k, e⟩, hit, he⟩ := List.mem_map.1 hm''
      cases he
      have hlook := mem_entries_iff.1 (o.mem_list.1 (List.mem_of_mem_filter hit))
      have hs : s.stats.sentAt (Tuple.ofKey k) = some e.sendTs := by
        unfold sentAt
        rw [Tuple.key_ofKey, hlook]
        rfl
      exact ⟨now, o, Tuple.ofKey k, e.sendTs, rfl, Tuple.key_ofKey k, openSince_of_sentAt cfg w hrun hs, rfl⟩
    · cases hm''

private theorem removed_deliver {s s' : Session} {d : Delivery} (h : s.deliver d = some s') {q : Tuple} {ts : UInt64}
    (hs : s.stats.sentAt q = some ts) (hs' : s'.stats.sentAt q ≠ some ts) :
    (∃ e hook, d = .event e hook ∧ e.IsReply answerType ∧ e.tuple = q) ∨
      ∃ now o, d = .evict now o ∧ now - ts > timeoutNs ∧ (ts ≤ now → ts.toNat + 30 * 10 ^ 9 < now.toNat) := by
  rw [sentAt_congr (deliver_core ⟨[], 0⟩ h).1] at hs'
  cases hc : d.call with
  | none =>
    rw [hc] at hs'
    exact absurd hs hs'
  | some c =>
    rw [hc] at hs'
    rcases sentAt_step_ne ⟨[], 0⟩ hs hs' with ⟨r, ty, rfl⟩ | ⟨now, o, rfl, he⟩
    · left
      cases d with
      | evict now o => cases hc
      | event e hook =>
        obtain ⟨hrep, hq, -⟩ := latencyCall_tryMatch.1 hc
        exact ⟨e, hook, rfl, hrep, hq⟩
    · right
      cases d with
      | evict now' o' =>
        cases hc
        exact ⟨now, o, rfl, of_decide_eq_true he, fun hle => (expired_iff hle).1 he⟩
      | event e hook =>
        rcases latencyCall_cases e with h0 | ⟨_, _, h1⟩ | ⟨_, _, _, h2⟩
        · exact absurd (h0.symm.trans hc) nofun
        · exact absurd (h1.symm.trans hc) nofun
        · exact absurd (h2.symm.trans hc) nofun

/-- In every sequence of deliveries the samples pair requests with the replies to them, the time-outs are about
requests without a reply, and requests end with a reply or by expiring. -/
theorem deliveries_paired (ds : List Delivery) : Paired cfg w timedType answerType ds := by
  rintro pre d post s s' - hrun hstep
  exact {
    sample := sample_deliver cfg w hrun hstep
    timeout := timeout_deliver cfg w hrun hstep
    removed := fun q ts => removed_deliver hstep
    entered := fun q ts => entered_deliver hstep }

/-- An entry event of the routing module. -/
def entryEvent (dir msgType : UInt8) (ts : UInt64) : Delivery :=
  .event ⟨⟨ts, 1, 1, Vector.replicate 16 0, 1, 0, dir, false⟩, 0x1234, 1, 7, 9, 1, 1, msgType, 0, 8, 0⟩ "rm_send_entry"

/-- With `REQUEST` as the only request and `RESPONSE` and `ERROR` as the only replies the pairing fails: a
`REQUEST_NO_RETURN` becomes an open request, and a `NOTIFICATION` answers a `REQUEST`. -/
theorem not_paired_request_response :
    ¬ Paired ⟨[], 3⟩ true (· = someipMtRequest) (fun t => t = someipMtResponse ∨ t = someipMtError)
        [entryEvent dirSend someipMtRequestNoReturn 5] ∧
      ¬ Paired ⟨[], 3⟩ true (· = someipMtRequest) (fun t => t = someipMtResponse ∨ t = someipMtError)
        [entryEvent dirSend someipMtRequest 5, entryEvent dirRecv someipMtNotification 12] := by
  constructor
  · intro h
    have hd : (deliveries ⟨[], 3⟩ true [entryEvent dirSend someipMtRequestNoReturn 5]).map
        (fun s => s.stats.sentAt ⟨0x1234, 1, 7, 9⟩) = some (some 5) := by decide
    obtain ⟨s', hs', hsent⟩ := Option.map_eq_some_iff.1 hd
    obtain ⟨e, hook, he, hreq, -⟩ := (h [] _ [] ⟨fresh ⟨[], 3⟩ true, []⟩ s' rfl rfl hs').entered _ _
      (by decide) hsent
    cases he
    exact absurd hreq.2.2 (by decide)
  · intro h
    have hd : (deliveries ⟨[], 3⟩ true [entryEvent dirSend someipMtRequest 5]).map
        (fun s => s.stats.latency) = some [] := by decide
    have hd' : (deliveries ⟨[], 3⟩ true [entryEvent dirSend someipMtRequest 5,
        entryEvent dirRecv someipMtNotification 12]).map (fun s => s.stats.latency) = some [7] := by decide
    obtain ⟨s, hs, hl⟩ := Option.map_eq_some_iff.1 hd
    obtain ⟨s', hs', hl'⟩ := Option.map_eq_some_iff.1 hd'
    have hstep : s.deliver (entryEvent dirRecv someipMtNotification 12) = some s' := by
      have hsplit := runFrom_concat (lift Session.deliver) (some ⟨fresh ⟨[], 3⟩ true, []⟩)
        [entryEvent dirSend someipMtRequest 5] (entryEvent dirRecv someipMtNotification 12)
      rw [show runFrom (lift Session.deliver) _ [entryEvent dirSend someipMtRequest 5] = some s from hs] at hsplit
      exact hsplit.symm.trans hs'
    rcases (h [entryEvent dirSend someipMtRequest 5] _ [] s s' rfl hs hstep).sample with he | ⟨e, hook, ts, he, hrep, -⟩
    · rw [hl, hl'] at he; cases he
    · cases he
      exact absurd hrep.2.2 (by decide)

end VsomeipCollector

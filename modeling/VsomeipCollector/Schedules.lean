import VsomeipCollector.Matching
import VsomeipCollector.Library.Tracker

/-!
# Latencies and the schedule of evictions

The collector is a tracker of requests (`Tracker`) whose expirations are the calls of `evict_expired`: a request is
evicted when it is more than 30 s old, but `try_match` measures any reply within 60 s (`run_schedule`).  So whether a
reply between 30 s and 60 s is a sample depends on whether an eviction ran before it, and so does the request from
which a later reply is measured.  `schedules_agree_iff` says for which traffic it does not matter.
-/

namespace VsomeipCollector

open Table Run StatsCollector

variable (cfg : HookConfig) (w : Bool)

def Call.isEvict : Call → Bool
  | .evictExpired _ _ => true
  | _ => false

/-- The call records or matches a request. -/
def Call.isTraffic : Call → Bool
  | .recordPending _ _ => true
  | .tryMatch _ _ _ => true
  | _ => false

/-- Calls that record and match requests at non-decreasing times. -/
structure Traffic (base : List Call) : Prop where
  kinds : ∀ c ∈ base, c.isTraffic = true
  sorted : base.Pairwise fun c c' => c.time ≤ c'.time

/-- `es` is `base` with evictions inserted, each at a time between the calls before and the calls after it. -/
def Schedule (base es : List Call) : Prop := Tracker.Insertion Call.isEvict (fun c => c.time.toNat) base es

/-- The call as an event of the tracker; a report, which no schedule contains, expires nothing. -/
def Call.toEvent : Call → Tracker.Event Tuple
  | .recordPending q ts => .request q ts.toNat
  | .tryMatch q recvTs _ => .reply q recvTs.toNat
  | .evictExpired now _ => .expire now.toNat
  | .flushReport _ => .expire 0

/-- No answer depends on when evictions run: each reply comes within 30 s of the first request recorded since the last
reply, or more than 60 s after the last, or more than 60 s after the first when all came within 30 s of it. -/
def StableTraffic (base : List Call) : Prop := Tracker.Stable (30 * 10 ^ 9) (60 * 10 ^ 9) (base.map Call.toEvent)

/-- Any two schedules of the traffic measure the same latencies. -/
def ScheduleIndependent (base : List Call) : Prop :=
  ∀ es es', Schedule base es → Schedule base es' → (runCalls cfg w es).latency = (runCalls cfg w es').latency

/-- The replies within 30 s of the first request recorded since the last reply. -/
def inTimeLatencies (base : List Call) : List Nat := Tracker.inTimeSamples (30 * 10 ^ 9) (base.map Call.toEvent)

/-- An eviction at the time of a call. -/
def Call.evict (o : Enumeration PendingItem) (c : Call) : Call := .evictExpired c.time o

/-- The schedule that evicts right before every call. -/
def evictFirst (o : Enumeration PendingItem) (base : List Call) : List Call := Tracker.eager (Call.evict o) base

/-! ### The collector as a tracker -/

private theorem sampleOf_of_le {ts r : UInt64} (h : ts ≤ r) :
    (sampleOf (some ts) r).map UInt64.toNat = Tracker.measure (60 * 10 ^ 9) (some ts.toNat) r.toNat := by
  have hle := UInt64.le_iff_toNat_le.1 h
  have hsub := UInt64.toNat_sub_of_le r ts h
  unfold sampleOf Tracker.measure
  by_cases hp : r.toNat ≤ ts.toNat + 60 * 10 ^ 9
  · have hn : ¬ r - ts > plausibleNs := by
      rw [gt_iff_lt, UInt64.lt_iff_toNat_lt, plausibleNs_toNat, hsub]
      omega
    simp only [hn, hp, ↓reduceIte, List.map_cons, List.map_nil, hsub]
  · have hn : r - ts > plausibleNs := by
      rw [gt_iff_lt, UInt64.lt_iff_toNat_lt, plausibleNs_toNat, hsub]
      omega
    simp only [hn, hp, ↓reduceIte, List.map_nil]

/-- A schedule holds evictions and traffic, and no reports. -/
private theorem kind_of_schedule {base es : List Call} (hb : Traffic base) (h : Schedule base es) :
    ∀ c ∈ es, c.isEvict = true ∨ c.isTraffic = true := by
  intro c hc
  by_cases he : c.isEvict = true
  · exact Or.inl he
  · right
    apply hb.kinds c
    rw [← h.rest]
    exact List.mem_filter.2 ⟨hc, by simp [he]⟩

/-- In a schedule no call comes before a request that was recorded earlier. -/
private theorem sent_le_time {base es : List Call} {c : Call} (hb : Traffic base) (h : Schedule base (es ++ [c]))
    {q : Tuple} {ts : UInt64} (hm : .recordPending q ts ∈ es) : ts ≤ c.time := by
  rw [UInt64.le_iff_toNat_le]
  cases hc : c.isEvict with
  | true =>
    exact (h.between es c [] rfl hc).1 (.recordPending q ts) hm rfl
  | false =>
    have hs := hb.sorted
    have hm' : .recordPending q ts ∈ es.filter fun a => !a.isEvict := List.mem_filter.2 ⟨hm, rfl⟩
    have hc' : [c].filter (fun a => !a.isEvict) = [c] := by simp [hc]
    rw [← h.rest, List.filter_append, hc', List.pairwise_append] at hs
    exact UInt64.le_iff_toNat_le.1 (hs.2.2 _ hm' c (by simp))

private theorem Traffic.initial {base es : List Call} {c : Call} (hb : Traffic base) (h : Schedule base (es ++ [c])) :
    Traffic (es.filter fun a => !a.isEvict) := by
  obtain ⟨hk, hs⟩ := hb
  rw [← h.rest, List.filter_append] at hk hs
  exact ⟨fun c' hc' => hk c' (List.mem_append_left _ hc'), (List.pairwise_append.1 hs).1⟩

/-- The tracker has the open requests and the samples of the collector. -/
def Tracks (st : Tracker.State Tuple) (s : StatsCollector) : Prop :=
  (∀ q, st.slot q = (s.sentAt q).map UInt64.toNat) ∧ st.samples = s.latency.map UInt64.toNat

/-- A call that sets, clears or keeps the slot of one tuple, as the tracker does. -/
private theorem slot_update {st : Tracker.State Tuple} {s : StatsCollector} {c : Call} {q' : Tuple} {v : Option Nat}
    (h : ∀ q, st.slot q = (s.sentAt q).map UInt64.toNat)
    (hv : v = ((effectOn q' s c).apply (s.sentAt q')).map UInt64.toNat) (hother : ∀ q, q ≠ q' → effectOn q s c = .keep)
    (q : Tuple) : Function.update st.slot q' v q = ((s.step cfg c).sentAt q).map UInt64.toNat := by
  rw [sentAt_step]
  by_cases hq : q = q'
  · subst hq
    rw [Function.update_self, hv]
  · rw [Function.update_of_ne hq, h, hother q hq]
    rfl

/-- An eviction closes the requests that an expiration of the tracker closes. -/
private theorem filter_sentAt {s : StatsCollector} {now : UInt64} (o : Enumeration PendingItem)
    (hle : ∀ q ts, s.sentAt q = some ts → ts ≤ now) (q : Tuple) :
    ((s.sentAt q).map UInt64.toNat).filter (fun t => now.toNat ≤ t + 30 * 10 ^ 9) =
      ((s.step cfg (.evictExpired now o)).sentAt q).map UInt64.toNat := by
  rw [sentAt_step]
  simp only [effectOn]
  cases hs : s.sentAt q with
  | none => rfl
  | some ts =>
    have hex := expired_iff (hle q ts hs)
    by_cases he : expired now ts = true
    · have hlt := hex.1 he
      simp only [he, ↓reduceIte, Slot.Effect.apply, Option.map_some, Option.map_none,
        Option.filter_some, decide_eq_true_eq, ite_eq_right_iff, reduceCtorEq]
      omega
    · have hlt : now.toNat ≤ ts.toNat + 30 * 10 ^ 9 := by
        have := mt hex.2 he
        omega
      simp only [he, Slot.Effect.apply, Option.map_some, Option.filter_some, decide_eq_true_eq,
        Bool.false_eq_true, ↓reduceIte, if_pos hlt]

/-- A call at a time that no open request is ahead of. -/
theorem tracks_step {st : Tracker.State Tuple} {s : StatsCollector} {c : Call} (h : Tracks st s)
    (hkind : c.isEvict = true ∨ c.isTraffic = true) (hle : ∀ q ts, s.sentAt q = some ts → ts ≤ c.time) :
    Tracks (Tracker.step (30 * 10 ^ 9) (60 * 10 ^ 9) st c.toEvent) (s.step cfg c) := by
  obtain ⟨hslot, hsamples⟩ := h
  cases c with
  | recordPending q' ts =>
    refine ⟨slot_update cfg hslot ?_ fun q hq => if_neg (Ne.symm hq), ?_⟩
    · rw [hslot, show effectOn q' s (.recordPending q' ts) = .set ts from if_pos rfl]
      cases s.sentAt q' <;> rfl
    · rw [latency_step]; exact hsamples
  | tryMatch q' r ty =>
    refine ⟨slot_update cfg hslot ?_ fun q hq => if_neg (Ne.symm hq), ?_⟩
    · rw [show effectOn q' s (.tryMatch q' r ty) = .clear from if_pos rfl]
      rfl
    · rw [latency_step_tryMatch, List.map_append]
      show st.samples ++ Tracker.measure (60 * 10 ^ 9) (st.slot q') r.toNat = _
      rw [hsamples, hslot]
      congr 1
      cases hs : s.sentAt q' with
      | none => rfl
      | some ts => exact (sampleOf_of_le (hle q' ts hs)).symm
  | evictExpired now o =>
    refine ⟨fun q => ?_, ?_⟩
    · have hle' : ∀ q ts, s.sentAt q = some ts → ts ≤ now := hle
      rw [← filter_sentAt cfg o hle' q, ← hslot]
      rfl
    · rw [latency_step]; exact hsamples
  | flushReport now => simp [Call.isEvict, Call.isTraffic] at hkind

/-- Along a schedule the collector has the open requests and the samples of the tracker. -/
theorem run_schedule {base es : List Call} (hb : Traffic base) (h : Schedule base es) :
    Tracks (Tracker.run (30 * 10 ^ 9) (60 * 10 ^ 9) (es.map Call.toEvent)) (runCalls cfg w es) := by
  induction es using List.reverseRecOn generalizing base with
  | nil => exact ⟨fun q => rfl, rfl⟩
  | append_singleton es c ih =>
    have hkind := kind_of_schedule hb h c (by simp)
    have hle : ∀ q ts, (runCalls cfg w es).sentAt q = some ts → ts ≤ c.time :=
      fun q ts hs => sent_le_time hb h (mem_of_sentAt cfg w hs)
    rw [List.map_append, List.map_cons, List.map_nil, Tracker.run_concat, runCalls_concat]
    exact tracks_step cfg (ih (hb.initial h) h.initial) hkind hle

/-! ### Schedules of evictions -/

private theorem toEvent_time {c : Call} (h : c.isEvict = true ∨ c.isTraffic = true) :
    c.toEvent.time = c.time.toNat := by
  cases c with
  | flushReport now => simp [Call.isEvict, Call.isTraffic] at h
  | _ => rfl

private theorem toEvent_isExpire {c : Call} (h : c.isEvict = true ∨ c.isTraffic = true) :
    c.toEvent.isExpire = c.isEvict := by
  cases c with
  | flushReport now => simp [Call.isEvict, Call.isTraffic] at h
  | _ => rfl

/-- A schedule of calls is a schedule of the events of the tracker. -/
private theorem Schedule.toEvents {base es : List Call} (hb : Traffic base) (h : Schedule base es) :
    Tracker.Insertion Tracker.Event.isExpire Tracker.Event.time (base.map Call.toEvent) (es.map Call.toEvent) := by
  have hkind := kind_of_schedule hb h
  exact Tracker.Insertion.map _ (fun c hc => toEvent_isExpire (hkind c hc)) (fun c hc => toEvent_time (hkind c hc)) h

private theorem Traffic.not_evict {base : List Call} (hb : Traffic base) : ∀ c ∈ base, c.isEvict = false := by
  intro c hc
  have hk := hb.kinds c hc
  cases c with
  | evictExpired now o => cases hk
  | _ => rfl

private theorem Traffic.sorted_time {base : List Call} (hb : Traffic base) :
    base.Pairwise fun c c' => c.time.toNat ≤ c'.time.toNat :=
  hb.sorted.imp fun h => UInt64.le_iff_toNat_le.1 h

private theorem Traffic.sorted_events {base : List Call} (hb : Traffic base) :
    (base.map Call.toEvent).Pairwise (·.time ≤ ·.time) := by
  rw [List.pairwise_map]
  refine hb.sorted_time.imp_of_mem ?_
  intro c c' hc hc' h
  rwa [toEvent_time (Or.inr (hb.kinds c hc)), toEvent_time (Or.inr (hb.kinds c' hc'))]

/-- The traffic alone is one of its schedules. -/
theorem schedule_self {base : List Call} (hb : Traffic base) : Schedule base base :=
  Tracker.Insertion.of_sorted (List.filter_eq_self.2 fun c hc => by simp [hb.not_evict c hc]) hb.sorted_time

theorem schedule_evictFirst {base : List Call} (hb : Traffic base) (o : Enumeration PendingItem) :
    Schedule base (evictFirst o base) :=
  Tracker.insertion_eager (Call.evict o) (fun _ => rfl) (fun _ => rfl) hb.not_evict hb.sorted_time

private theorem schedule_one {base pre post : List Call} {c : Call} (hb : Traffic base) (hsp : base = pre ++ c :: post)
    (o : Enumeration PendingItem) : Schedule base (pre ++ c.evict o :: c :: post) :=
  Tracker.insertion_one (Call.evict o) (fun _ => rfl) (fun _ => rfl) hb.not_evict
    hb.sorted_time hsp

private theorem toEvents_evictFirst {base : List Call} (hb : Traffic base) (o : Enumeration PendingItem) :
    (evictFirst o base).map Call.toEvent = Tracker.eager Tracker.tick (base.map Call.toEvent) := by
  have hk := hb.kinds
  clear hb
  induction base with
  | nil => rfl
  | cons c base ih =>
    have ih' := ih fun c' hc' => hk c' (by simp [hc'])
    have ht := toEvent_time (Or.inr (hk c (by simp)))
    show .expire c.time.toNat :: c.toEvent :: (evictFirst o base).map Call.toEvent =
      .expire c.toEvent.time :: c.toEvent :: Tracker.eager Tracker.tick (base.map Call.toEvent)
    rw [ih', ht]

private theorem toNat_injective : Function.Injective UInt64.toNat := fun _ _ h => UInt64.toNat_inj.1 h

/-- Traffic is independent of the schedule of evictions exactly when it is stable.  Then what is measured are the
replies within 30 s of the first open request; and with an eviction before every call nothing above 30 s is measured,
whatever the traffic. -/
theorem schedules_agree_iff (base : List Call) (hb : Traffic base) :
    (ScheduleIndependent cfg w base ↔ StableTraffic base) ∧
      (StableTraffic base → ∀ es, Schedule base es →
        (runCalls cfg w es).latency.map UInt64.toNat = inTimeLatencies base) ∧
      ∀ o, ∀ x ∈ (runCalls cfg w (evictFirst o base)).latency, x.toNat ≤ 30 * 10 ^ 9 := by
  have hin : StableTraffic base → ∀ es, Schedule base es →
      (runCalls cfg w es).latency.map UInt64.toNat = inTimeLatencies base := by
    intro hst es h
    rw [← (run_schedule cfg w hb h).2]
    exact Tracker.samples_of_insertion (by omega) (h.toEvents hb) hb.sorted_events hst
  refine ⟨⟨?_, ?_⟩, hin, ?_⟩
  · intro hind
    by_contra hst
    have hexp : ∀ e ∈ base.map Call.toEvent, e.isExpire = false := by
      intro e he
      obtain ⟨c, hc, rfl⟩ := List.mem_map.1 he
      rw [toEvent_isExpire (Or.inr (hb.kinds c hc)), hb.not_evict c hc]
    have hself := (run_schedule cfg w hb (schedule_self hb)).2
    -- the library has two schedules that disagree; both are schedules of calls
    rcases Tracker.samples_of_not_stable hexp hb.sorted_events hst with hne | ⟨pre, e, post, hsp, hne⟩
    · have hs := schedule_evictFirst hb byKey
      rw [← toEvents_evictFirst hb byKey, (run_schedule cfg w hb hs).2, hself] at hne
      exact hne (by rw [hind _ _ hs (schedule_self hb)])
    · obtain ⟨pre', rest, rfl, rfl, hr⟩ := List.map_eq_append_iff.1 hsp
      obtain ⟨c, post', rfl, rfl, rfl⟩ := List.map_eq_cons_iff.1 hr
      have hs := schedule_one hb rfl byKey
      have hev : (pre' ++ c.evict byKey :: c :: post').map Call.toEvent =
          pre'.map Call.toEvent ++ Tracker.tick c.toEvent :: c.toEvent :: post'.map Call.toEvent := by
        have ht := toEvent_time (Or.inr (hb.kinds c (by simp)))
        rw [List.map_append, List.map_cons, List.map_cons]
        simp only [Tracker.tick, ht]
        rfl
      rw [← hev, (run_schedule cfg w hb hs).2, hself] at hne
      exact hne (by rw [hind _ _ hs (schedule_self hb)])
  · intro hst es es' h h'
    apply toNat_injective.list_map
    rw [hin hst es h, hin hst es' h']
  · intro o x hx
    have hs := (run_schedule cfg w hb (schedule_evictFirst hb o)).2
    have hle := Tracker.samples_eager_le (30 * 10 ^ 9) (60 * 10 ^ 9) (base.map Call.toEvent) x.toNat
    rw [← toEvents_evictFirst hb o, hs] at hle
    exact hle (List.mem_map_of_mem hx)

/-- A request answered in time, and the tuple used again after the first one is out of every window. -/
theorem schedules_agree_iff_reused :
    (ScheduleIndependent ⟨[], 3⟩ true
        [.recordPending ⟨0x1234, 1, 7, 9⟩ 5, .tryMatch ⟨0x1234, 1, 7, 9⟩ 29000000000 0x80,
          .recordPending ⟨0x1234, 1, 7, 9⟩ 95000000000] ↔
      StableTraffic [.recordPending ⟨0x1234, 1, 7, 9⟩ 5, .tryMatch ⟨0x1234, 1, 7, 9⟩ 29000000000 0x80,
        .recordPending ⟨0x1234, 1, 7, 9⟩ 95000000000]) :=
  (schedules_agree_iff ⟨[], 3⟩ true _ ⟨by decide, by decide⟩).1

/-- A reply after 40 s is a sample if no eviction runs before it, and none if one does. -/
theorem schedule_matters :
    ¬ ∀ base, Traffic base → ScheduleIndependent ⟨[], 3⟩ true base := by
  intro h
  have hb : Traffic [.recordPending ⟨0x1234, 1, 7, 9⟩ 0, .tryMatch ⟨0x1234, 1, 7, 9⟩ 40000000000 0x80] :=
    ⟨by decide, by decide⟩
  have he := h _ hb _ _ (schedule_self hb) (schedule_evictFirst hb byKey)
  revert he
  decide

end VsomeipCollector

import VsomeipCollector.StatsSpec

/-!
# Requests, replies and their history

The table of open requests is a function of the history of the calls on each tuple.  A call on a tuple sets, clears
or keeps its slot (`historyEffect`), so the request that is open after a run is the first one recorded since the last
match and the last eviction that found the request too old; a reply measures the integer difference of the two times;
and no call on another tuple plays any part, because the packed keys of two tuples are different.
-/

namespace VsomeipCollector

open Table Run StatsCollector

variable (cfg : HookConfig) (w : Bool)

/-- The collector after a sequence of calls on a fresh one. -/
def runCalls (calls : List Call) : StatsCollector := runFrom (StatsCollector.step cfg) (fresh cfg w) calls

/-- The time a call carries or reads. -/
def Call.time : Call → UInt64
  | .recordPending _ ts => ts
  | .tryMatch _ recvTs _ => recvTs
  | .evictExpired now _ => now
  | .flushReport now => now

/-- A call that can matter for `q`: it names `q`, or it works on the whole table. -/
def Call.concerns (q : Tuple) : Call → Bool
  | .recordPending q' _ => q' = q
  | .tryMatch q' _ _ => q' = q
  | .evictExpired _ _ => true
  | .flushReport _ => true

/-- What a call after the history `h` does to the request `q`, in terms of integer times: an eviction ends it if it
finds it more than 30 s old. -/
def historyEffect (q : Tuple) (h : List Call) : Call → Slot.Effect UInt64
  | .recordPending q' ts => if q' = q then .set ts else .keep
  | .tryMatch q' _ _ => if q' = q then .clear else .keep
  | .evictExpired now _ =>
    match (runCalls cfg w h).sentAt q with
    | some ts => if ts.toNat + 30 * 10 ^ 9 < now.toNat then .clear else .keep
    | none => .keep
  | .flushReport _ => .keep

/-- Every eviction runs on a clock that no stored request is ahead of. -/
def ClockAhead (calls : List Call) : Prop :=
  ∀ pre now o post, calls = pre ++ .evictExpired now o :: post →
    ∀ it ∈ (runCalls cfg w pre).pending.entries, it.2.sendTs ≤ now

/-- A reply at `r` is plausible for a request sent at `ts`. -/
def Plausible (ts r : UInt64) : Prop := ts.toNat ≤ r.toNat ∧ r.toNat ≤ ts.toNat + 60 * 10 ^ 9

/-- The samples that the calls on `q` append along a run from `s`. -/
def samplesOf (q : Tuple) (s : StatsCollector) (calls : List Call) : List UInt64 :=
  collect (StatsCollector.step cfg)
    (fun s c =>
      match c with
      | .tryMatch q' _ _ => if q' = q then (s.step cfg c).latency.drop s.latency.length else []
      | _ => [])
    s calls

/-! ### Times -/

theorem plausibleNs_toNat : plausibleNs.toNat = 60 * 10 ^ 9 := rfl

/-- Below `2 ^ 63` the check of `try_match` is the integer one: a reply before its request wraps to a huge value. -/
theorem sampleOf_some {ts r : UInt64} (hts : ts.toNat < 2 ^ 63) (hr : r.toNat < 2 ^ 63) :
    (Plausible ts r → ∃ x, sampleOf (some ts) r = [x] ∧ x.toNat = r.toNat - ts.toNat) ∧
      (¬ Plausible ts r → sampleOf (some ts) r = []) := by
  have hsub := UInt64.toNat_sub r ts
  have hp : r - ts > plausibleNs ↔ ¬ Plausible ts r := by
    unfold Plausible
    rw [gt_iff_lt, UInt64.lt_iff_toNat_lt, plausibleNs_toNat, hsub]
    omega
  unfold sampleOf
  constructor
  · intro h
    refine ⟨r - ts, by simp [hp, h], ?_⟩
    unfold Plausible at h
    omega
  · intro h
    simp [hp, h]

/-! ### The open request -/

@[simp] theorem runCalls_concat (calls : List Call) (c : Call) :
    runCalls cfg w (calls ++ [c]) = (runCalls cfg w calls).step cfg c := runFrom_concat ..

@[simp] theorem sentAt_fresh (q : Tuple) : (fresh cfg w).sentAt q = none := rfl

/-- On a clock that is ahead, the effect of every call is the one the history tells. -/
private theorem effectOn_eq {calls : List Call} (h : ClockAhead cfg w calls) (q : Tuple) (pre : List Call) (c : Call)
    (post : List Call) (hsp : calls = pre ++ c :: post) :
    effectOn q (runCalls cfg w pre) c = historyEffect cfg w q pre c := by
  cases c with
  | recordPending q' ts => rfl
  | tryMatch q' r ty => rfl
  | flushReport now => rfl
  | evictExpired now o =>
    unfold effectOn historyEffect
    cases hs : (runCalls cfg w pre).sentAt q with
    | none => rfl
    | some ts =>
      -- the eviction computes the age without wrapping around
      have hle : ts ≤ now := by
        obtain ⟨e, he, rfl⟩ := Option.map_eq_some_iff.1 hs
        exact h pre now o post hsp ⟨q.key, e⟩ (mem_entries_iff.2 he)
      simp only [expired_iff hle]

/-- The open request is the first one recorded since the history last ended one. -/
theorem sentAt_iff_opened {calls : List Call} (h : ClockAhead cfg w calls) (q : Tuple) (ts : UInt64) :
    (runCalls cfg w calls).sentAt q = some ts ↔ Slot.Opened (historyEffect cfg w q) calls ts := by
  have hslot := Slot.slot_eq_some_iff (fun h => (runCalls cfg w h).sentAt q)
    (fun h => effectOn q (runCalls cfg w h)) (sentAt_fresh cfg w q)
    (fun h c => by rw [runCalls_concat, sentAt_step]) calls ts
  rw [hslot]
  constructor
  · exact Slot.Opened.congr (effectOn_eq cfg w h q)
  · exact Slot.Opened.congr fun pre c post hsp => (effectOn_eq cfg w h q pre c post hsp).symm

/-- A stored time is the time of a recorded request. -/
theorem mem_of_sentAt {calls : List Call} {q : Tuple} {ts : UInt64} (hs : (runCalls cfg w calls).sentAt q = some ts) :
    .recordPending q ts ∈ calls := by
  induction calls using List.reverseRecOn generalizing ts with
  | nil => cases hs
  | append_singleton calls c ih =>
    rw [runCalls_concat] at hs
    rcases sentAt_step_eq_some cfg hs with hs | rfl
    · exact List.mem_append_left _ (ih hs)
    · exact List.mem_append_right _ (List.mem_singleton_self _)

/-! ### Calls on other tuples -/

private theorem effectOn_of_not_concerns {q : Tuple} {c : Call} (hc : c.concerns q = false) (s : StatsCollector) :
    effectOn q s c = .keep := by
  cases c with
  | recordPending q' ts => simpa [Call.concerns, effectOn] using hc
  | tryMatch q' r ty => simpa [Call.concerns, effectOn] using hc
  | evictExpired now o => cases hc
  | flushReport now => cases hc

/-- A call on another tuple does not touch the request `q`. -/
theorem sentAt_step_of_not_concerns {q : Tuple} {c : Call} (hc : c.concerns q = false) (s : StatsCollector) :
    (s.step cfg c).sentAt q = s.sentAt q := by
  rw [sentAt_step, effectOn_of_not_concerns hc]; rfl

private theorem sentAt_step_congr {q : Tuple} {s t : StatsCollector} (h : s.sentAt q = t.sentAt q) (c : Call) :
    (s.step cfg c).sentAt q = (t.step cfg c).sentAt q := by
  rw [sentAt_step, sentAt_step, h]
  congr 1
  cases c <;> simp only [effectOn, h]

private theorem drop_latency_step (s : StatsCollector) (q : Tuple) (r : UInt64) (ty : UInt8) :
    (s.step cfg (.tryMatch q r ty)).latency.drop s.latency.length = sampleOf (s.sentAt q) r := by
  rw [latency_step_tryMatch]; simp

/-- The request `q` and the samples of `q` are what they are without the calls on other tuples. -/
theorem separate_tuples (q : Tuple) (calls : List Call) :
    (runCalls cfg w calls).sentAt q = (runCalls cfg w (calls.filter (Call.concerns q))).sentAt q ∧
      samplesOf cfg q (fresh cfg w) calls =
        samplesOf cfg q (fresh cfg w) (calls.filter (Call.concerns q)) := by
  have hkeep : ∀ (s t : StatsCollector) (c : Call), c.concerns q = true → s.sentAt q = t.sentAt q →
      (s.step cfg c).sentAt q = (t.step cfg c).sentAt q := fun s t c _ h => sentAt_step_congr cfg h c
  have hskip : ∀ (s t : StatsCollector) (c : Call), c.concerns q = false → s.sentAt q = t.sentAt q →
      (s.step cfg c).sentAt q = t.sentAt q := fun s t c hc h => (sentAt_step_of_not_concerns cfg hc s).trans h
  refine ⟨runFrom_filter (fun s t : StatsCollector => s.sentAt q = t.sentAt q) hkeep hskip rfl calls, ?_⟩
  refine collect_filter (fun s t : StatsCollector => s.sentAt q = t.sentAt q) hkeep hskip ?_ ?_ rfl calls
  · intro s t c hc h
    cases c with
    | tryMatch q' r ty =>
      obtain rfl : q' = q := by simpa [Call.concerns] using hc
      simp only [drop_latency_step, h]
    | _ => rfl
  · intro s c hc
    cases c with
    | tryMatch q' r ty =>
      have hq : q' ≠ q := by simpa [Call.concerns] using hc
      simp only [if_neg hq]
    | _ => rfl

/-! ### The history specification -/

/-- A run of calls follows the history of each tuple. -/
structure MatchesHistory (calls : List Call) : Prop where
  /-- The open request is the first one recorded since a match or an expiring eviction ended the last. -/
  opened : ∀ q ts, (runCalls cfg w calls).sentAt q = some ts ↔ Slot.Opened (historyEffect cfg w q) calls ts
  /-- A plausible reply to an open request appends its integer latency, any other reply appends nothing. -/
  sample : ∀ pre q r ty post, calls = pre ++ .tryMatch q r ty :: post →
    (∀ ts, (runCalls cfg w pre).sentAt q = some ts → Plausible ts r →
      ∃ x, (runCalls cfg w (pre ++ [.tryMatch q r ty])).latency = (runCalls cfg w pre).latency ++ [x] ∧
        x.toNat = r.toNat - ts.toNat) ∧
    ((¬ ∃ ts, (runCalls cfg w pre).sentAt q = some ts ∧ Plausible ts r) →
      (runCalls cfg w (pre ++ [.tryMatch q r ty])).latency = (runCalls cfg w pre).latency)
  /-- After a match no request is open. -/
  closed : ∀ pre q r ty post, calls = pre ++ .tryMatch q r ty :: post →
    (runCalls cfg w (pre ++ [.tryMatch q r ty])).sentAt q = none
  /-- A call on another tuple leaves the request and the samples of `q` alone. -/
  frame : ∀ pre c post q, calls = pre ++ c :: post → c.concerns q = false →
    (runCalls cfg w (pre ++ [c])).sentAt q = (runCalls cfg w pre).sentAt q ∧
      (runCalls cfg w pre).latency <+: (runCalls cfg w (pre ++ [c])).latency
  /-- Without the calls on other tuples the request and the samples of `q` are the same. -/
  separate : ∀ q, (runCalls cfg w calls).sentAt q = (runCalls cfg w (calls.filter (Call.concerns q))).sentAt q ∧
    samplesOf cfg q (fresh cfg w) calls =
      samplesOf cfg q (fresh cfg w) (calls.filter (Call.concerns q))

/-- Every run with times below `2 ^ 63` whose evictions see no request from the future follows its history. -/
theorem runCalls_matches_history (calls : List Call) (htime : ∀ c ∈ calls, c.time.toNat < 2 ^ 63)
    (hclock : ClockAhead cfg w calls) : MatchesHistory cfg w calls where
  opened q ts := sentAt_iff_opened cfg w hclock q ts
  sample pre q r ty post hsp := by
    have hr : r.toNat < 2 ^ 63 := htime (.tryMatch q r ty) (by rw [hsp]; simp)
    have hpre : ∀ c ∈ pre, c.time.toNat < 2 ^ 63 := fun c hc => htime c (by rw [hsp]; simp [hc])
    rw [runCalls_concat, latency_step_tryMatch]
    constructor
    · intro ts hs hp
      have hts : ts.toNat < 2 ^ 63 := hpre _ (mem_of_sentAt cfg w hs)
      obtain ⟨x, hx, hxn⟩ := (sampleOf_some hts hr).1 hp
      exact ⟨x, by rw [hs, hx], hxn⟩
    · intro hno
      cases hs : (runCalls cfg w pre).sentAt q with
      | none => simp [sampleOf]
      | some ts =>
        have hnp : ¬ Plausible ts r := fun hp => hno ⟨ts, hs, hp⟩
        have hts : ts.toNat < 2 ^ 63 := hpre _ (mem_of_sentAt cfg w hs)
        rw [(sampleOf_some hts hr).2 hnp, List.append_nil]
  closed pre q r ty post hsp := by
    rw [runCalls_concat, sentAt_step]
    simp [effectOn, Slot.Effect.apply]
  frame pre c post q hsp hc := by
    rw [runCalls_concat, latency_step]
    refine ⟨sentAt_step_of_not_concerns cfg hc _, ?_⟩
    cases c with
    | recordPending q' ts => exact List.prefix_rfl
    | tryMatch q' r ty => exact List.prefix_append _ _
    | evictExpired now o => cases hc
    | flushReport now => cases hc
  separate q := separate_tuples cfg w q calls

/-- A request that times out, is sent again and then answered. -/
theorem runCalls_matches_history_resent :
    MatchesHistory ⟨[], 3⟩ true
      [.recordPending ⟨0x1234, 1, 7, 9⟩ 5, .evictExpired 30000000006 byKey,
        .recordPending ⟨0x1234, 1, 7, 9⟩ 30000000007, .tryMatch ⟨0x1234, 1, 7, 9⟩ 30000000010 0x80] := by
  apply runCalls_matches_history
  · decide
  · intro pre now o post he
    rcases pre with _ | ⟨a, _ | ⟨b, _ | ⟨c, _ | ⟨d, _ | ⟨e, pre⟩⟩⟩⟩⟩ <;>
      simp only [List.nil_append, List.cons_append, List.cons.injEq, reduceCtorEq, false_and, and_false] at he
    obtain ⟨rfl, he, -⟩ := he
    cases he
    decide

end VsomeipCollector

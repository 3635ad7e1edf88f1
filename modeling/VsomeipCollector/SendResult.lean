import Mathlib.Data.List.Induction
import VsomeipCollector.Bpf
import VsomeipCollector.Operations

/-!
# The results of `send` and `send_to`

`routing_manager_impl::send` and `send_to` return a `bool`, of which the ABI puts true or false into the low eight bits
of the return register.  The return probes pass on the whole register, and `process_event` takes zero for success.  So an
accepted message counts as a failure, and a refused one as a success if the upper bits happen to be zero.  The totals of
a run are right only where mistakes of both kinds cancel out, and they stay right along a run exactly if every message is
refused with other bits in the register (`resultsCounted_iff`).
-/

namespace VsomeipCollector

open Table Run StatsCollector

/-- A return from `send`, or from `send_to`, at a probe whose ring buffer has room. -/
structure SendReturn where
  toTarget : Bool
  k : Kernel
  slot : RoutingEvent
  rc : UInt64
  accepted : Bool
  abi : rc.toUInt8 = if accepted then 1 else 0

namespace SendReturn

def hook (r : SendReturn) : String := if r.toTarget then "rm_send_to_ret" else "rm_send_ret"

/-- The event that the probe submits. -/
def event (ids : Macros) (r : SendReturn) : Option RoutingEvent :=
  if r.toTarget then hookRmSendToRet ids r.k (some r.slot) { rc := r.rc }
  else hookRmSendRet ids r.k (some r.slot) { rc := r.rc }

end SendReturn

/-- The probe submits its event and the handler of the module processes it. -/
def StatsCollector.deliverReturn (ids : Macros) (s : StatsCollector) (r : SendReturn) : Option StatsCollector := do
  let e ← r.event ids
  let res ← routingEventHandler e r.hook s
  return res.1

/-- The collector after a run of returns. -/
def deliverReturns (ids : Macros) (s : StatsCollector) (rs : List SendReturn) : Option StatsCollector :=
  runFrom (lift (StatsCollector.deliverReturn ids)) (some s) rs

/-- The counters of a hook are the numbers of its calls that returned true and false. -/
structure ResultsRight (hook : String) (rs : List SendReturn) (s : StatsCollector) : Prop where
  succ : (s.hookStat hook).succ.toNat = rs.countP fun r => r.hook == hook && r.accepted
  fail : (s.hookStat hook).fail.toNat = rs.countP fun r => r.hook == hook && !r.accepted

/-- After the run, for every hook. -/
def ResultsCounted (ids : Macros) (s : StatsCollector) (rs : List SendReturn) : Prop :=
  ∃ t, deliverReturns ids s rs = some t ∧ ∀ hook, ResultsRight hook rs t

/-- The calls of the hook that are accepted are as many as those that leave zero in the register, and no counter
overflows. -/
structure ZerosMatch (hook : String) (rs : List SendReturn) : Prop where
  count : (rs.countP fun r => r.hook == hook && r.rc == 0) = rs.countP fun r => r.hook == hook && r.accepted
  few : (rs.countP fun r => r.hook == hook && r.accepted) < 2 ^ 64
  few_refused : (rs.countP fun r => r.hook == hook && !r.accepted) < 2 ^ 64

variable {ids : Macros}

private theorem toInt64_eq_zero {x : UInt64} : x.toInt64 = 0 ↔ x = 0 := by
  constructor
  · intro h
    have h' : x.toInt64.toUInt64 = (0 : Int64).toUInt64 := congrArg Int64.toUInt64 h
    rw [UInt64.toUInt64_toInt64] at h'
    exact h'
  · rintro rfl
    rfl

/-! ### One return -/

private theorem event_eq (ids : Macros) (r : SendReturn) :
    ∃ e, r.event ids = some e ∧ e.hdr.isRetprobe = true ∧ e.retval = r.rc.toInt64 := by
  unfold SendReturn.event
  cases r.toTarget with
  | true => exact ⟨_, rfl, rfl, rfl⟩
  | false => exact ⟨_, rfl, rfl, rfl⟩

/-- A return is counted for its hook, as a success exactly if the register is zero. -/
private theorem deliverReturn_spec (ids : Macros) (s : StatsCollector) (r : SendReturn) :
    ∃ t, s.deliverReturn ids r = some t ∧ ∀ hook,
      t.hookStat hook = if hook = r.hook then (s.hookStat r.hook).count true r.rc.toInt64 else s.hookStat hook := by
  obtain ⟨e, he, hret, hval⟩ := event_eq ids r
  have hin : e.hdr.isRetprobe = false → e.hdr.moduleId.toNat < s.modSend.length ∧
      e.hdr.moduleId.toNat < s.modRecv.length := fun h => by rw [hret] at h; cases h
  refine ⟨(onLatency e r.hook (s.counted e.hdr r.hook e.retval)).1, ?_, fun hook => ?_⟩
  · unfold deliverReturn routingEventHandler
    rw [he, Option.bind_eq_bind, Option.bind_some, processEvent_eq hin]
    rfl
  · rw [hookStat_of_counters (counters_onLatency e r.hook _), hookStat_counted, hret, hval]

private theorem count_succ (h : HookStats) (rc : UInt64) :
    (h.count true rc.toInt64).succ = if rc = 0 then h.succ + 1 else h.succ := by
  simp only [HookStats.count, toInt64_eq_zero, ↓reduceIte]
  split <;> rfl

private theorem count_fail (h : HookStats) (rc : UInt64) :
    (h.count true rc.toInt64).fail = if rc = 0 then h.fail else h.fail + 1 := by
  simp only [HookStats.count, toInt64_eq_zero, ↓reduceIte]
  split <;> rfl

/-- The register of an accepted message is not zero. -/
private theorem rc_ne_zero {r : SendReturn} (h : r.accepted = true) : r.rc ≠ 0 := by
  intro hz
  have habi := r.abi
  rw [hz, h] at habi
  exact absurd habi (by decide)

/-! ### Runs -/

private theorem deliverReturns_concat (s : StatsCollector) (rs : List SendReturn) (r : SendReturn) :
    deliverReturns ids s (rs ++ [r]) = (deliverReturns ids s rs).bind (StatsCollector.deliverReturn ids · r) := by
  unfold deliverReturns
  rw [runFrom_concat]
  rfl

/-- Zeros in the register are counted as successes, and all else as failures. -/
private theorem deliverReturns_spec (ids : Macros) {s : StatsCollector} (hs : ∀ hook, s.hookStat hook = {})
    (rs : List SendReturn) :
    ∃ t, deliverReturns ids s rs = some t ∧ ∀ hook,
      (t.hookStat hook).succ = UInt64.ofNat (rs.countP fun r => r.hook == hook && r.rc == 0) ∧
        (t.hookStat hook).fail = UInt64.ofNat (rs.countP fun r => r.hook == hook && !(r.rc == 0)) := by
  induction rs using List.reverseRecOn with
  | nil => exact ⟨s, rfl, fun hook => by rw [hs hook]; exact ⟨rfl, rfl⟩⟩
  | append_singleton rs r ih =>
    obtain ⟨t, ht, hcounts⟩ := ih
    obtain ⟨u, hu, hspec⟩ := deliverReturn_spec ids t r
    refine ⟨u, by rw [deliverReturns_concat, ht]; exact hu, fun hook => ?_⟩
    obtain ⟨hsucc, hfail⟩ := hcounts hook
    rw [hspec, List.countP_append, List.countP_append, List.countP_singleton, List.countP_singleton, UInt64.ofNat_add,
      UInt64.ofNat_add, ← hsucc, ← hfail]
    by_cases hk : hook = r.hook
    · subst hk
      rw [if_pos rfl, count_succ, count_fail]
      by_cases hz : r.rc = 0
      · simp [hz]
      · simp [hz]
    · have hne : ¬ r.hook = hook := fun he => hk he.symm
      rw [if_neg hk]
      simp [hne]

private theorem countP_and_add {α : Type*} (p q : α → Bool) (l : List α) :
    (l.countP fun a => p a && q a) + (l.countP fun a => p a && !q a) = l.countP p := by
  rw [List.countP_eq_countP_filter_add l p q, List.countP_filter, List.countP_filter]

/-- After a run from a reset the results are right exactly where, for every hook, zeros and accepted calls are as many. -/
private theorem resultsCounted_iff_zerosMatch (ids : Macros) {s : StatsCollector} (hs : ∀ hook, s.hookStat hook = {})
    (rs : List SendReturn) : ResultsCounted ids s rs ↔ ∀ hook, ZerosMatch hook rs := by
  obtain ⟨t, ht, hcounts⟩ := deliverReturns_spec ids hs rs
  have hright : ∀ hook, ResultsRight hook rs t ↔ ZerosMatch hook rs := by
    intro hook
    obtain ⟨hsucc, hfail⟩ := hcounts hook
    have hz := countP_and_add (fun r : SendReturn => r.hook == hook) (fun r => r.rc == 0) rs
    have ha := countP_and_add (fun r : SendReturn => r.hook == hook) SendReturn.accepted rs
    constructor
    · rintro ⟨h1, h2⟩
      rw [hsucc, UInt64.toNat_ofNat'] at h1
      rw [hfail, UInt64.toNat_ofNat'] at h2
      -- the two counters add up to all calls, so neither has overflowed
      have hle1 := Nat.mod_le (rs.countP fun r => r.hook == hook && r.rc == 0) (2 ^ 64)
      have hle2 := Nat.mod_le (rs.countP fun r => r.hook == hook && !(r.rc == 0)) (2 ^ 64)
      have hlt1 := Nat.mod_lt (rs.countP fun r => r.hook == hook && r.rc == 0) (show 0 < 2 ^ 64 by decide)
      have hlt2 := Nat.mod_lt (rs.countP fun r => r.hook == hook && !(r.rc == 0)) (show 0 < 2 ^ 64 by decide)
      exact ⟨by omega, by omega, by omega⟩
    · rintro ⟨hcount, hfew, hfew'⟩
      constructor
      · rw [hsucc, UInt64.toNat_ofNat_of_lt' (by show _ < 2 ^ 64; omega), hcount]
      · rw [hfail, UInt64.toNat_ofNat_of_lt' (by show _ < 2 ^ 64; omega)]
        omega
  constructor
  · rintro ⟨t', ht', h⟩ hook
    cases ht.symm.trans ht'
    exact (hright hook).1 (h hook)
  · exact fun h => ⟨t, ht, fun hook => (hright hook).2 (h hook)⟩

/-- Where zeros and accepted calls are as many before and after a call, it was refused with other bits in its register. -/
private theorem refused_of_zerosMatch {pre : List SendReturn} {r : SendReturn} (h : ZerosMatch r.hook pre)
    (h' : ZerosMatch r.hook (pre ++ [r])) : r.accepted = false ∧ r.rc ≠ 0 := by
  have hcount := h'.count
  rw [List.countP_append, List.countP_append, h.count, List.countP_singleton, List.countP_singleton] at hcount
  cases hacc : r.accepted with
  | true =>
    have hrc := rc_ne_zero hacc
    simp [hacc, hrc] at hcount
  | false =>
    refine ⟨rfl, fun hz => ?_⟩
    simp [hacc, hz] at hcount

/-- From a reset on: the results of a run are counted right exactly where zeros and accepted calls are as many, for
every hook, and they are right at every point of the run exactly where every message was refused with other bits in its
register, and no counter overflows. -/
theorem resultsCounted_iff (ids : Macros) {s : StatsCollector} (hs : ∀ hook, s.hookStat hook = {})
    (rs : List SendReturn) :
    (ResultsCounted ids s rs ↔ ∀ hook, ZerosMatch hook rs) ∧
      ((∀ pre, pre <+: rs → ResultsCounted ids s pre) ↔
        (∀ r ∈ rs, r.accepted = false ∧ r.rc ≠ 0) ∧ ∀ hook, (rs.countP fun r => r.hook == hook) < 2 ^ 64) := by
  refine ⟨resultsCounted_iff_zerosMatch ids hs rs, fun h => ?_, ?_⟩
  · have hmatch : ∀ pre, pre <+: rs → ∀ hook, ZerosMatch hook pre := fun pre hpre =>
      (resultsCounted_iff_zerosMatch ids hs pre).1 (h pre hpre)
    have hrefused : ∀ r ∈ rs, r.accepted = false ∧ r.rc ≠ 0 := by
      intro r hr
      obtain ⟨pre, post, rfl⟩ := List.append_of_mem hr
      exact refused_of_zerosMatch (hmatch pre ⟨r :: post, rfl⟩ r.hook) (hmatch (pre ++ [r]) ⟨post, by simp⟩ r.hook)
    refine ⟨hrefused, fun hook => ?_⟩
    have hall : (rs.countP fun r => r.hook == hook && !r.accepted) = rs.countP fun r => r.hook == hook :=
      List.countP_congr fun r hr => by simp [(hrefused r hr).1]
    rw [← hall]
    exact (hmatch rs List.prefix_rfl hook).few_refused
  · rintro ⟨hrefused, hlt⟩ pre hpre
    refine (resultsCounted_iff_zerosMatch ids hs pre).2 fun hook => ?_
    have hle := hpre.sublist.countP_le (p := fun r => r.hook == hook)
    have hbound := hlt hook
    have hzero : (pre.countP fun r => r.hook == hook && r.rc == 0) = 0 :=
      List.countP_eq_zero.2 fun r hr => by simp [(hrefused r (hpre.subset hr)).2]
    have hnone : (pre.countP fun r => r.hook == hook && r.accepted) = 0 :=
      List.countP_eq_zero.2 fun r hr => by simp [(hrefused r (hpre.subset hr)).1]
    have hadd := countP_and_add (fun r : SendReturn => r.hook == hook) SendReturn.accepted pre
    exact ⟨hzero.trans hnone.symm, by omega, by omega⟩

/-- A return from `send` or `send_to` with the given register. -/
def sendReturn (toTarget : Bool) (rc : UInt64) (accepted : Bool) (abi : rc.toUInt8 = if accepted then 1 else 0) :
    SendReturn where
  toTarget := toTarget
  k := ⟨0, 0, Vector.replicate 16 0, fun _ => none⟩
  slot := ⟨⟨0, 0, 0, Vector.replicate 16 0, 0, 0, 0, false⟩, 0, 0, 0, 0, 0, 0, 0, 0, 0, 0⟩
  rc := rc
  accepted := accepted
  abi := abi

/-- Refused messages whose registers hold other bits are counted as failures, whichever hook they are of. -/
theorem resultsCounted_iff_refused :
    ResultsCounted [] (fresh ⟨[], 3⟩ true) [sendReturn false 256 false (by decide), sendReturn true 512 false (by decide),
      sendReturn false 65536 false (by decide)] := by
  refine (resultsCounted_iff [] (fun _ => rfl) _).2.2 ⟨?_, fun hook => ?_⟩ _ List.prefix_rfl
  · intro r hr
    simp only [List.mem_cons, List.not_mem_nil, or_false] at hr
    rcases hr with rfl | rfl | rfl <;> decide
  · exact Nat.lt_of_le_of_lt List.countP_le_length (by decide)

/-- An accepted message is counted as a failure. -/
theorem accepted_counted_as_failure :
    ¬ ResultsCounted [] (fresh ⟨[], 3⟩ true) [sendReturn false 1 true (by decide)] := by
  intro h
  have hmatch := (resultsCounted_iff_zerosMatch [] (fun _ => rfl) _).1 h "rm_send_ret"
  exact absurd hmatch.count (by decide)

end VsomeipCollector

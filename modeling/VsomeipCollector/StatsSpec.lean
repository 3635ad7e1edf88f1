import Mathlib.Algebra.GroupWithZero.Nat
import Mathlib.Tactic.SplitIfs
import VsomeipCollector.Stats
import VsomeipCollector.Library.Endian
import VsomeipCollector.Library.Run
import VsomeipCollector.Library.Slot

/-!
# What the operations of the statistics collector do

One specification for every operation and every part of the state that the matching of requests and replies depends
on: the table of open requests, the samples, the lines written.  The key of a request packs its four numbers without
loss (`Tuple.key_inj`), so every specification can be read per tuple.  Later modules use these lemmas and do not
unfold the operations.
-/

namespace VsomeipCollector

open Table Run

/-! ### The packed key -/

/-- The key is the number whose digits in base `2 ^ 16` are the four fields. -/
theorem packKey_toNat (svc method client session : UInt16) :
    (packKey svc method client session).toNat =
      svc.toNat * 2 ^ 48 + method.toNat * 2 ^ 32 + client.toNat * 2 ^ 16 + session.toNat := by
  have h1 := svc.toNat_lt
  have h2 := method.toNat_lt
  have h3 := client.toNat_lt
  have h4 := session.toNat_lt
  unfold packKey
  simp only [UInt64.toNat_or, UInt64.toNat_shiftLeft, UInt16.toNat_toUInt64, Nat.shiftLeft_eq,
    UInt64.reduceToNat, Nat.reduceMod]
  rw [Nat.mod_eq_of_lt (by omega), Nat.mod_eq_of_lt (by omega), Nat.mod_eq_of_lt (by omega)]
  have e1 := Endian.or_eq_add (x := svc.toNat) (show method.toNat * 2 ^ 32 < 2 ^ 48 by omega)
  have e2 := Endian.or_eq_add (x := svc.toNat * 2 ^ 16 + method.toNat) (show client.toNat * 2 ^ 16 < 2 ^ 32 by omega)
  have e3 := Endian.or_eq_add (x := svc.toNat * 2 ^ 32 + method.toNat * 2 ^ 16 + client.toNat)
    (show session.toNat < 2 ^ 16 by omega)
  rw [e1, show svc.toNat * 2 ^ 48 + method.toNat * 2 ^ 32 = (svc.toNat * 2 ^ 16 + method.toNat) * 2 ^ 32 by omega, e2,
    show (svc.toNat * 2 ^ 16 + method.toNat) * 2 ^ 32 + client.toNat * 2 ^ 16 =
      (svc.toNat * 2 ^ 32 + method.toNat * 2 ^ 16 + client.toNat) * 2 ^ 16 by omega, e3]

/-- Two tuples with one key are the same tuple. -/
theorem Tuple.key_inj {q q' : Tuple} : q.key = q'.key ↔ q = q' := by
  constructor
  · intro h
    have h' := congrArg UInt64.toNat h
    obtain ⟨a, b, c, d⟩ := q
    obtain ⟨a', b', c', d'⟩ := q'
    simp only [Tuple.key, packKey_toNat] at h'
    have := b.toNat_lt; have := b'.toNat_lt
    have := c.toNat_lt; have := c'.toNat_lt
    have := d.toNat_lt; have := d'.toNat_lt
    simp only [Tuple.mk.injEq, ← UInt16.toNat_inj]
    omega
  · rintro rfl; rfl

/-- The tuple that a key packs. -/
def Tuple.ofKey (k : UInt64) : Tuple :=
  ⟨(k >>> 48).toUInt16, (k >>> 32).toUInt16, (k >>> 16).toUInt16, k.toUInt16⟩

/-- Every key is the key of a tuple. -/
theorem Tuple.key_ofKey (k : UInt64) : (Tuple.ofKey k).key = k := by
  have hk := k.toNat_lt
  rw [← UInt64.toNat_inj]
  unfold Tuple.key Tuple.ofKey
  rw [packKey_toNat]
  simp only [UInt64.toNat_toUInt16, UInt64.toNat_shiftRight, UInt64.reduceToNat, Nat.reduceMod,
    Nat.shiftRight_eq_div_pow]
  omega

namespace StatsCollector

variable (cfg : HookConfig)

/-- `evict_expired` at `now` removes a request sent at `ts`: the age, as the code computes it, is over the limit. -/
def expired (now ts : UInt64) : Bool := now - ts > timeoutNs

/-- What a reply at `recvTs` measures, given the time of the request. -/
def sampleOf (sent : Option UInt64) (recvTs : UInt64) : List UInt64 :=
  match sent with
  | none => []
  | some ts => if recvTs - ts > plausibleNs then [] else [recvTs - ts]

/-! ### `record_pending` -/

theorem lookup_recordPending (s : StatsCollector) (q : Tuple) (ts k : UInt64) :
    (s.recordPending q.svc q.method q.client q.session ts).pending.lookup k =
      if k = q.key then some ((s.pending.lookup k).getD ⟨ts⟩) else s.pending.lookup k := by
  unfold recordPending Tuple.key
  dsimp only
  generalize packKey q.svc q.method q.client q.session = kq
  cases h : s.pending.lookup kq with
  | none =>
    by_cases hk : k = kq
    · subst hk; simp [h, Finmap.lookup_insert]
    · simp [hk, Finmap.lookup_insert_of_ne _ hk]
  | some e =>
    by_cases hk : k = kq
    · subst hk; simp [h]
    · simp [hk]

@[simp] theorem latency_recordPending (s : StatsCollector) (a b c d : UInt16) (ts : UInt64) :
    (s.recordPending a b c d ts).latency = s.latency := by
  unfold recordPending; dsimp only; split <;> rfl

theorem logWriter_recordPending (s : StatsCollector) (a b c d : UInt16) (ts : UInt64) :
    (s.recordPending a b c d ts).logWriter = s.logWriter := by
  unfold recordPending; dsimp only; split <;> rfl

theorem card_recordPending (s : StatsCollector) (q : Tuple) (ts : UInt64) :
    Multiset.card (s.recordPending q.svc q.method q.client q.session ts).pending.entries =
      Multiset.card s.pending.entries + if s.sentAt q = none then 1 else 0 := by
  unfold recordPending sentAt Tuple.key
  dsimp only
  cases h : s.pending.lookup (packKey q.svc q.method q.client q.session) with
  | none => simpa using card_entries_insert h _
  | some e => simp

/-! ### `try_match` -/

theorem lookup_tryMatch (s : StatsCollector) (q : Tuple) (r : UInt64) (ty : UInt8) (k : UInt64) :
    (s.tryMatch q.svc q.method q.client q.session r ty).1.pending.lookup k =
      if k = q.key then none else s.pending.lookup k := by
  unfold tryMatch Tuple.key
  dsimp only
  generalize packKey q.svc q.method q.client q.session = kq
  have herase : (s.pending.erase kq).lookup k = if k = kq then none else s.pending.lookup k := by
    split
    · rename_i hk; rw [hk, Finmap.lookup_erase]
    · rename_i hk; rw [Finmap.lookup_erase_ne hk]
  cases h : s.pending.lookup kq with
  | none =>
    by_cases hk : k = kq
    · subst hk; simp [h]
    · simp [hk]
  | some e =>
    dsimp only
    split <;> exact herase

theorem latency_tryMatch (s : StatsCollector) (q : Tuple) (r : UInt64) (ty : UInt8) :
    (s.tryMatch q.svc q.method q.client q.session r ty).1.latency =
      s.latency ++ sampleOf (s.sentAt q) r := by
  unfold tryMatch sampleOf sentAt Tuple.key
  dsimp only
  cases h : s.pending.lookup (packKey q.svc q.method q.client q.session) with
  | none => simp
  | some e =>
    simp only [Option.map_some]
    split <;> simp

theorem logWriter_tryMatch (s : StatsCollector) (a b c d : UInt16) (r : UInt64) (ty : UInt8) :
    (s.tryMatch a b c d r ty).1.logWriter = s.logWriter := by
  unfold tryMatch; dsimp only; split
  · rfl
  · split <;> rfl

theorem card_tryMatch (s : StatsCollector) (q : Tuple) (r : UInt64) (ty : UInt8) :
    Multiset.card (s.tryMatch q.svc q.method q.client q.session r ty).1.pending.entries +
      (if s.sentAt q = none then 0 else 1) = Multiset.card s.pending.entries := by
  unfold tryMatch sentAt Tuple.key
  dsimp only
  cases h : s.pending.lookup (packKey q.svc q.method q.client q.session) with
  | none => simp
  | some e =>
    have he := card_entries_erase h
    simp only [Option.map_some, reduceCtorEq, ↓reduceIte]
    split <;> exact he

/-- The `[LATENCY]` lines of a match: one for each sample, if a writer is set. -/
theorem lines_tryMatch (s : StatsCollector) (q : Tuple) (r : UInt64) (ty : UInt8) :
    (s.tryMatch q.svc q.method q.client q.session r ty).2.length =
        (if s.logWriter then (sampleOf (s.sentAt q) r).length else 0) ∧
      ∀ l ∈ (s.tryMatch q.svc q.method q.client q.session r ty).2, l.isLatency := by
  unfold tryMatch sampleOf sentAt Tuple.key
  dsimp only
  cases h : s.pending.lookup (packKey q.svc q.method q.client q.session) with
  | none => simp
  | some e =>
    simp only [Option.map_some]
    split
    · simp
    · cases s.logWriter <;> simp [LogLine.isLatency]

/-! ### `evict_expired` -/

theorem timeoutNs_toNat : timeoutNs.toNat = 30 * 10 ^ 9 := rfl

/-- With the clock ahead of the request, the age that the code computes is the true one. -/
theorem expired_iff {now ts : UInt64} (h : ts ≤ now) :
    expired now ts = true ↔ ts.toNat + 30 * 10 ^ 9 < now.toNat := by
  have h' := UInt64.le_iff_toNat_le.1 h
  unfold expired
  rw [decide_eq_true_iff, gt_iff_lt, UInt64.lt_iff_toNat_lt, UInt64.toNat_sub_of_le _ _ h, timeoutNs_toNat]
  omega

/-- The line written for an entry that is removed. -/
def timeoutLine (now : UInt64) (it : PendingItem) : LogLine := .timeout it.1 ((now - it.2.sendTs) / 1000000)

/-- The loop of `evict_expired` is the erasing walk of the library, with a line for each entry it erases. -/
theorem evictLoop_eq (now : UInt64) (w : Bool) (visit : List PendingItem) (t : Tbl UInt64 PendingEntry) :
    evictLoop now w visit t =
      ((eraseLoop (fun it => expired now it.2.sendTs) visit t).1,
        if w then (visit.filter fun it => expired now it.2.sendTs).map (timeoutLine now) else []) := by
  induction visit generalizing t with
  | nil => simp [evictLoop, eraseLoop]
  | cons it visit ih =>
    unfold evictLoop eraseLoop
    by_cases h : now - it.2.sendTs > timeoutNs
    · have he : expired now it.2.sendTs = true := decide_eq_true h
      simp only [h, he, ↓reduceIte, ih]
      cases w <;> simp [he, timeoutLine]
    · have he : expired now it.2.sendTs = false := decide_eq_false h
      simp only [h, he, ↓reduceIte, ih, Bool.false_eq_true]
      cases w <;> simp [he]

theorem lookup_evictExpired (s : StatsCollector) (now : UInt64) (o : Enumeration PendingItem) (k : UInt64) :
    (s.evictExpired now o).1.pending.lookup k =
      (s.pending.lookup k).filter fun e => !expired now e.sendTs := by
  unfold evictExpired
  dsimp only
  rw [evictLoop_eq]
  exact lookup_eraseLoop _ o s.pending k

theorem lines_evictExpired (s : StatsCollector) (now : UInt64) (o : Enumeration PendingItem) :
    (s.evictExpired now o).2 = if s.logWriter then
      ((o.list s.pending.entries).filter fun it => expired now it.2.sendTs).map (timeoutLine now) else [] := by
  unfold evictExpired
  dsimp only
  rw [evictLoop_eq]

/-- With a writer set, an eviction writes one line for each entry it removes. -/
theorem card_evictExpired (s : StatsCollector) (now : UInt64) (o : Enumeration PendingItem)
    (hw : s.logWriter = true) :
    Multiset.card (s.evictExpired now o).1.pending.entries + (s.evictExpired now o).2.length =
      Multiset.card s.pending.entries := by
  have h := card_eraseLoop (fun it : PendingItem => expired now it.2.sendTs) o s.pending
  rw [eraseLoop_snd] at h
  rw [lines_evictExpired, if_pos hw, List.length_map, ← h]
  unfold evictExpired
  dsimp only
  rw [evictLoop_eq]

/-! ### `flush_report` -/

/-- The part of a report for the modules leaves the matching alone and writes lines of modules only. -/
theorem flushModules_frame (elapse : UInt64) (ms : List Nat) (s : StatsCollector) :
    (flushModules cfg elapse ms s).1.pending = s.pending ∧
      (flushModules cfg elapse ms s).1.latency = s.latency ∧
      (flushModules cfg elapse ms s).1.logWriter = s.logWriter ∧
      ∀ l ∈ (flushModules cfg elapse ms s).2, ∃ nm e a b, l = .modStats nm e a b := by
  induction ms generalizing s with
  | nil => simp [flushModules]
  | cons m ms ih =>
    have hm : (flushModule cfg elapse s m).1.pending = s.pending ∧
        (flushModule cfg elapse s m).1.latency = s.latency ∧
        (flushModule cfg elapse s m).1.logWriter = s.logWriter ∧
        ∀ l ∈ (flushModule cfg elapse s m).2, ∃ nm e a b, l = .modStats nm e a b := by
      unfold flushModule
      dsimp only
      split
      · simp
      · refine ⟨rfl, rfl, rfl, ?_⟩
        intro l hl
        exact ⟨_, _, _, _, List.mem_singleton.1 hl⟩
    obtain ⟨h1, h2, h3, h4⟩ := ih (flushModule cfg elapse s m).1
    obtain ⟨m1, m2, m3, m4⟩ := hm
    unfold flushModules
    refine ⟨h1.trans m1, h2.trans m2, h3.trans m3, ?_⟩
    intro l hl
    rcases List.mem_append.1 hl with hl | hl
    · exact m4 l hl
    · exact h4 l hl

private theorem flushLatency_frame (s : StatsCollector) :
    s.flushLatency.1.pending = s.pending ∧ s.flushLatency.1.latency = [] ∧
      s.flushLatency.1.logWriter = s.logWriter := by
  unfold flushLatency
  split
  · rename_i he; exact ⟨rfl, he, rfl⟩
  · exact ⟨rfl, rfl, rfl⟩

/-- A report leaves the open requests alone and, if it is written, forgets the samples. -/
theorem flushReport_frame (s : StatsCollector) (now : UInt64) :
    (s.flushReport cfg now).1.pending = s.pending ∧
      (s.flushReport cfg now).1.latency = (if s.logWriter then [] else s.latency) ∧
      (s.flushReport cfg now).1.logWriter = s.logWriter := by
  unfold flushReport
  dsimp only
  by_cases hw : s.logWriter = true
  · rw [if_pos hw, if_pos hw]
    obtain ⟨h1, -, h3, -⟩ := flushModules_frame cfg (if s.lastReportNs ≠ 0 then now - s.lastReportNs else 0)
      (List.range' 1 cfg.maxModuleId) { s with lastReportNs := now }
    generalize flushModules cfg _ _ _ = r at h1 h3 ⊢
    obtain ⟨f1, f2, f3⟩ := flushLatency_frame r.1
    exact ⟨f1.trans h1, f2, f3.trans h3⟩
  · rw [if_neg hw, if_neg hw]
    exact ⟨rfl, rfl, rfl⟩

/-- The summary line of a report counts all samples there are. -/
theorem lines_flushReport (s : StatsCollector) (now : UInt64) (hw : s.logWriter = true) :
    ((s.flushReport cfg now).2.map LogLine.samples).sum = s.latency.length ∧
      (∀ l ∈ (s.flushReport cfg now).2, l.isLatency = false ∧ l.isTimeout = false) := by
  unfold flushReport
  dsimp only
  rw [if_pos hw]
  obtain ⟨-, h2, -, h4⟩ := flushModules_frame cfg (if s.lastReportNs ≠ 0 then now - s.lastReportNs else 0)
    (List.range' 1 cfg.maxModuleId) { s with lastReportNs := now }
  generalize flushModules cfg _ _ _ = r at h2 h4 ⊢
  dsimp only at h2
  have hz : (r.2.map LogLine.samples).sum = 0 := by
    rw [List.sum_eq_zero_iff_forall_eq_nat]
    intro n hn
    obtain ⟨l, hl, rfl⟩ := List.mem_map.1 hn
    obtain ⟨nm, e, a, b, rfl⟩ := h4 l hl
    rfl
  have hmod : ∀ l ∈ r.2, l.isLatency = false ∧ l.isTimeout = false := by
    intro l hl
    obtain ⟨nm, e, a, b, rfl⟩ := h4 l hl
    exact ⟨rfl, rfl⟩
  unfold flushLatency
  split
  · rename_i he
    rw [h2] at he
    simpa [hz, he] using hmod
  · simp only [List.map_append, List.sum_append, hz, List.map_cons, List.map_nil, LogLine.samples, List.sum_cons,
      List.sum_nil, List.length_insertionSort, h2, List.mem_append, List.mem_singleton]
    refine ⟨by omega, ?_⟩
    rintro l (hl | rfl)
    · exact hmod l hl
    · exact ⟨rfl, rfl⟩

/-! ### One call -/

/-- What a call does to the request `q`. -/
def effectOn (q : Tuple) (s : StatsCollector) : Call → Slot.Effect UInt64
  | .recordPending q' ts => if q' = q then .set ts else .keep
  | .tryMatch q' _ _ => if q' = q then .clear else .keep
  | .evictExpired now _ =>
    match s.sentAt q with
    | some ts => if expired now ts then .clear else .keep
    | none => .keep
  | .flushReport _ => .keep

theorem sentAt_step (s : StatsCollector) (c : Call) (q : Tuple) :
    (s.step cfg c).sentAt q = (effectOn q s c).apply (s.sentAt q) := by
  unfold step sentAt
  cases c with
  | recordPending q' ts =>
    simp only [call, lookup_recordPending, effectOn, Tuple.key_inj, eq_comm (a := q)]
    split
    · cases s.pending.lookup q.key <;> rfl
    · rfl
  | tryMatch q' r ty =>
    simp only [call, lookup_tryMatch, effectOn, Tuple.key_inj, eq_comm (a := q)]
    split <;> rfl
  | evictExpired now o =>
    simp only [call, lookup_evictExpired, effectOn, sentAt]
    cases h : s.pending.lookup q.key with
    | none => rfl
    | some e =>
      simp only [Option.map_some, Option.filter_some]
      cases expired now e.sendTs <;> rfl
  | flushReport now =>
    simp only [call, (flushReport_frame cfg s now).1, effectOn]
    rfl

/-- Only recording a request opens it. -/
theorem sentAt_step_eq_some {s : StatsCollector} {c : Call} {q : Tuple} {ts : UInt64}
    (h : (s.step cfg c).sentAt q = some ts) : s.sentAt q = some ts ∨ c = .recordPending q ts := by
  rw [sentAt_step] at h
  cases c with
  | recordPending q' t =>
    by_cases hq : q' = q
    · subst hq
      simp only [effectOn, ↓reduceIte] at h
      cases hs : s.sentAt q' with
      | some t' => rw [hs] at h; exact Or.inl h
      | none =>
        -- the slot was free, so it now holds the time of this call
        rw [hs] at h
        cases h
        exact Or.inr rfl
    · simp only [effectOn, if_neg hq] at h
      exact Or.inl h
  | tryMatch q' r ty =>
    simp only [effectOn] at h
    split at h
    · cases h
    · exact Or.inl h
  | evictExpired now o =>
    simp only [effectOn] at h
    cases hs : s.sentAt q with
    | none => rw [hs] at h; cases h
    | some t =>
      simp only [hs] at h
      split at h
      · cases h
      · exact Or.inl h
  | flushReport now => exact Or.inl h

/-- Only a match, or an eviction that finds it too old, ends an open request. -/
theorem sentAt_step_ne {s : StatsCollector} {c : Call} {q : Tuple} {ts : UInt64} (hs : s.sentAt q = some ts)
    (h : (s.step cfg c).sentAt q ≠ some ts) :
    (∃ r ty, c = .tryMatch q r ty) ∨ ∃ now o, c = .evictExpired now o ∧ expired now ts = true := by
  rw [sentAt_step, hs] at h
  cases c with
  | recordPending q' t =>
    simp only [effectOn] at h
    split at h <;> exact absurd rfl h
  | tryMatch q' r ty =>
    by_cases hq : q' = q
    · exact Or.inl ⟨r, ty, by rw [hq]⟩
    · simp only [effectOn, if_neg hq] at h
      exact absurd rfl h
  | evictExpired now o =>
    cases he : expired now ts with
    | true => exact Or.inr ⟨now, o, rfl, he⟩
    | false =>
      simp only [effectOn, hs, he] at h
      exact absurd rfl h
  | flushReport now => exact absurd rfl h

theorem latency_step (s : StatsCollector) (c : Call) :
    (s.step cfg c).latency =
      match c with
      | .recordPending _ _ => s.latency
      | .tryMatch q r _ => s.latency ++ sampleOf (s.sentAt q) r
      | .evictExpired _ _ => s.latency
      | .flushReport _ => if s.logWriter then [] else s.latency := by
  unfold step
  cases c with
  | recordPending q ts => simp [call]
  | tryMatch q r ty => simp [call, latency_tryMatch]
  | evictExpired now o => rfl
  | flushReport now => simp only [call, (flushReport_frame cfg s now).2.1]

theorem latency_step_tryMatch (s : StatsCollector) (q : Tuple) (r : UInt64) (ty : UInt8) :
    (s.step cfg (.tryMatch q r ty)).latency = s.latency ++ sampleOf (s.sentAt q) r := latency_step cfg s _

@[simp] theorem logWriter_step (s : StatsCollector) (c : Call) : (s.step cfg c).logWriter = s.logWriter := by
  unfold step
  cases c with
  | recordPending q ts => exact logWriter_recordPending ..
  | tryMatch q r ty => exact logWriter_tryMatch ..
  | evictExpired now o => rfl
  | flushReport now => exact (flushReport_frame cfg s now).2.2

end StatsCollector

end VsomeipCollector

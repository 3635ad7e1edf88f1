import VsomeipCollector.Records

/-!
# A call that empties the ring buffer

`ring_buffer__consume` runs `ringbuf_process_ring` with the bound `INT_MAX`.  A call during which no producer acts
returns; it has called back with all submitted records up to the first one that is open, has returned their number and
given back their room (`consume_alone`).
-/

namespace VsomeipCollector

open Reservations Run

def intMax : Nat := 2147483647

theorem eight_le_roundupLen (len : UInt32) : 8 ≤ (roundupLen len).toNat := by
  rw [toNat_roundupLen]
  omega

/-- Every record takes the room of a header at least. -/
theorem start_add_le (lens : List UInt32) {i k : Nat} (h : i + k ≤ lens.length) :
    start lens i + 8 * k ≤ start lens (i + k) := by
  induction k with
  | zero => exact Nat.le_refl _
  | succ k ih =>
    have hrec := ih (by omega)
    have hget : lens[i + k]? = some lens[i + k] := List.getElem?_eq_getElem (by omega)
    have hlen := eight_le_roundupLen lens[i + k]
    rw [← Nat.add_assoc, start_succ hget]
    omega

namespace RingSys

section

variable (r : Ring) (n : Nat)

/-- The next step of the consumer, whose callback does not fail. -/
def tickAlone (s : RingSys) : RingSys := s.consume r n 0

theorem consume_nonneg (s : RingSys) {err : Int} (h : 0 ≤ err) : s.consume r n err = s.tickAlone r n := by
  unfold tickAlone
  rw [s.step_consume (RingConsumer.tick_nonneg n s.pages h)]
  exact (s.step_consume rfl).symm

theorem run_consume_nonneg (K : RingKernel) (s : RingSys) {errs : List Int} (h : ∀ e ∈ errs, 0 ≤ e) :
    runFrom (step K r n) s (errs.map .consume) = (tickAlone r n)^[errs.length] s := by
  induction errs generalizing s with
  | nil => rfl
  | cons e es ih =>
    have hstep : s.step K r n (.consume e) = s.tickAlone r n := s.consume_nonneg r n (h e (by simp))
    rw [List.map_cons, runFrom_cons, hstep, ih _ fun x hx => h x (by simp [hx])]
    rfl

end

/-- The consumer alone gets from one state to the other. -/
def Alone (r : Ring) (n : Nat) (s s' : RingSys) : Prop := ∃ k, (tickAlone r n)^[k] s = s'

variable {r : Ring} {n : Nat}

theorem Alone.refl (s : RingSys) : Alone r n s s := ⟨0, rfl⟩

theorem Alone.step {s t s' : RingSys} (h : s.tickAlone r n = t) (ht : Alone r n t s') : Alone r n s s' := by
  obtain ⟨k, hk⟩ := ht
  refine ⟨k + 1, ?_⟩
  rw [Function.iterate_succ_apply, h, hk]

theorem Alone.trans {s t s' : RingSys} (h : Alone r n s t) (ht : Alone r n t s') : Alone r n s s' := by
  obtain ⟨j, rfl⟩ := h
  obtain ⟨k, rfl⟩ := ht
  exact ⟨k + j, Function.iterate_add_apply _ k j s⟩

end RingSys

/-- The iteration that passes the entry `e`. -/
structure Passes (s : RingSys) (e : Entry (List UInt8)) (t : RingSys) : Prop where
  pc : t.consumer.pc = .inner
  cnt : t.consumer.cnt = s.consumer.cnt + e.handed.toList.length
  delivered : t.delivered = s.delivered ++ e.handed.toList
  reserved : t.reserved = s.reserved
  producerPos : t.pages.producerPos = s.pages.producerPos
  prodPos : t.consumer.prodPos = s.consumer.prodPos

/-- The call has passed what was ready and returned. -/
structure Drained (s : RingSys) (q : Queue (List UInt8)) (s' : RingSys) : Prop where
  pc : s'.consumer.pc = .idle
  result : s'.consumer.result = s.consumer.cnt + (q.ready.filterMap Entry.handed).length
  delivered : s'.delivered = s.delivered ++ q.ready.filterMap Entry.handed
  reserved : s'.reserved = s.reserved
  producerPos : s'.pages.producerPos = s.pages.producerPos
  consumerPos : s'.pages.consumerPos.toNat = start s.lens (q.taken + q.ready.length)

namespace Represents

variable {r : Ring} {s : RingSys} {q : Queue (List UInt8)} {m n : Nat}

/-- The call returns where nothing is ready. -/
private theorem drained_finish (h : Represents r s q m) (hpc : s.consumer.pc = .inner) (hready : q.ready = [])
    (c : RingConsumer) : Drained s q { s with consumer := c.finish s.consumer.cnt } := by
  have hfreed := h.freed
  rw [hpc] at hfreed
  refine ⟨rfl, ?_, ?_, rfl, rfl, ?_⟩
  · rw [hready]
    exact (Int.add_zero _).symm
  · rw [hready]
    exact (List.append_nil _).symm
  · rw [hready, ← hfreed]
    exact h.consumer

/-- What the rest of the call does after a record was passed. -/
private theorem drained_take {t s' : RingSys} {e : Entry (List UInt8)} (hnext : q.next = some e) (ht : Passes s e t)
    (hd : Drained t (q.step .take) s') : Drained s q s' := by
  have hready := Queue.ready_of_next hnext
  have hhanded : q.ready.filterMap Entry.handed = e.handed.toList ++ (q.step .take).ready.filterMap Entry.handed := by
    rw [hready]
    cases e with
    | filling a | committed a | discarded => rfl
  have htaken : (q.step .take).taken = q.taken + 1 := by
    rw [Queue.step_take, hnext]
    rfl
  refine ⟨hd.pc, ?_, ?_, hd.reserved.trans ht.reserved, hd.producerPos.trans ht.producerPos, ?_⟩
  · rw [hd.result, ht.cnt, hhanded, List.length_append]
    push_cast
    omega
  · rw [hd.delivered, ht.delivered, hhanded, List.append_assoc]
  · have hlens : t.lens = s.lens := congrArg (List.map Reserved.len) ht.reserved
    rw [hd.consumerPos, hlens, htaken, hready, List.length_cons, Nat.add_assoc, Nat.add_comm 1]

/-- At the start of an iteration, with nothing left: the outer loop is left at once, or after one more round. -/
private theorem end_drained (h : Represents r s q m) (hpc : s.consumer.pc = .inner)
    (hlt : ¬s.consumer.consPos < s.consumer.prodPos) (hprod : s.consumer.prodPos = s.pages.producerPos)
    (hready : q.ready = []) : ∃ s', RingSys.Alone r n s s' ∧ Drained s q s' := by
  have htick := RingConsumer.tick_inner_end (r := r) n 0 s.pages hpc hlt
  by_cases hgot : s.consumer.gotNewData = true
  · rw [if_pos hgot] at htick
    set s1 : RingSys := { s with consumer := { s.consumer with pc := .outer } } with hs1
    set s2 : RingSys :=
      { s with
        consumer := { s.consumer with pc := .inner, gotNewData := false, prodPos := s.pages.producerPos } } with hs2
    have h1 : s.tickAlone r n = s1 := s.step_quiet htick
    have h2 : s1.tickAlone r n = s2 := s1.step_quiet (RingConsumer.tick_outer n 0 s1.pages rfl)
    have h3 : s2.tickAlone r n = { s2 with consumer := s2.consumer.finish s2.consumer.cnt } :=
      s2.step_quiet (RingConsumer.tick_inner_end n 0 s2.pages rfl (by rwa [hprod] at hlt))
    exact ⟨_, .step h1 (.step h2 (.step h3 (.refl _))), h.drained_finish hpc hready s2.consumer⟩
  · rw [if_neg hgot] at htick
    exact ⟨_, .step (s.step_quiet htick) (.refl _), h.drained_finish hpc hready s.consumer⟩

/-- What is ready lies before the producer position. -/
private theorem before_producer (h : Represents r s q m) (hpc : s.consumer.pc = .inner)
    (hprod : s.consumer.prodPos = s.pages.producerPos) (hready : 0 < q.ready.length) :
    s.consumer.consPos < s.consumer.prodPos := by
  have hreading := h.reading
  unfold ConsumerAt at hreading
  rw [hpc] at hreading
  have hle := q.length_ready_le
  rw [h.length] at hle
  have hstart := start_add_le s.lens (i := q.taken) (k := 1) (by rw [RingSys.length_lens]; omega)
  have hmono : start s.lens (q.taken + 1) ≤ s.total := start_mono s.lens (by omega)
  rw [UInt64.lt_iff_toNat_lt, hprod, h.producer, hreading.1]
  omega

/-- The consumer gives the room back and turns to the next record. -/
private theorem store_inner (h : Represents r s q m) (hfit : s.total < 2 ^ 64) (hpc : s.consumer.pc = .store)
    (hn : s.consumer.cnt < n) :
    ∃ t m', s.tickAlone r n = t ∧ Represents r t q m' ∧ Passes s .discarded t := by
  have hstep := s.step_store r n 0 hpc
  rw [if_neg (by omega)] at hstep
  obtain ⟨m', hm⟩ := h.consume hfit n 0
  rw [s.op_consume_of (by rw [hpc]; trivial), hstep] at hm
  exact ⟨_, m', hstep, hm, rfl, rfl, (List.append_nil _).symm, rfl, rfl, rfl⟩

/-- One iteration. -/
private theorem pass_record (h : Represents r s q m) (hfit : s.total < 2 ^ 64) (hpc : s.consumer.pc = .inner)
    (hlt : s.consumer.consPos < s.consumer.prodPos) (hready : 0 < q.ready.length) (hn : s.consumer.cnt + 1 < n) :
    ∃ e t m', q.next = some e ∧ RingSys.Alone r n s t ∧ Represents r t (q.step .take) m' ∧ Passes s e t := by
  obtain ⟨x, e, hx, he, -, hstep⟩ := h.inner_step hfit hpc hlt n 0
  obtain ⟨m1, h1⟩ := h.consume hfit n 0
  cases e with
  | filling a =>
    rw [Queue.ready_of_open he rfl] at hready
    cases hready
  | committed a =>
    rw [hstep.1, hstep.2] at h1
    obtain ⟨b, hq, hstep2⟩ := h1.sample_step rfl n 0
    obtain ⟨m2, h2⟩ := h1.consume hfit n 0
    rw [hstep2] at h2
    obtain ⟨t, m3, hstep3, h3, ht⟩ := h2.store_inner hfit rfl hn
    exact ⟨_, t, m3, hq, .step hstep.2 (.step hstep2 (.step hstep3 (.refl t))), h3, ht.pc, ht.cnt,
      ht.delivered.trans (List.append_nil _), ht.reserved, ht.producerPos, ht.prodPos⟩
  | discarded =>
    have hq : q.next = some .discarded := Queue.next_eq_some.2 ⟨he, rfl⟩
    rw [hstep.1, hstep.2] at h1
    obtain ⟨t, m2, hstep2, h2, ht⟩ := h1.store_inner hfit rfl (Nat.lt_of_succ_lt hn)
    exact ⟨_, t, m2, hq, .step hstep.2 (.step hstep2 (.refl t)), h2, ht.pc, ht.cnt, ht.delivered, ht.reserved,
      ht.producerPos, ht.prodPos⟩

/-- The loop, by induction on what is ready. -/
private theorem loop_drained {k : Nat} (h : Represents r s q m) (hfit : s.total < 2 ^ 64) (hpc : s.consumer.pc = .inner)
    (hprod : s.consumer.prodPos = s.pages.producerPos) (hk : q.ready.length = k) (hn : s.consumer.cnt + k < n) :
    ∃ s', RingSys.Alone r n s s' ∧ Drained s q s' := by
  induction k generalizing s q m with
  | zero =>
    have hready := List.length_eq_zero_iff.1 hk
    by_cases hlt : s.consumer.consPos < s.consumer.prodPos
    · obtain ⟨x, e, hx, he, -, hstep⟩ := h.inner_step hfit hpc hlt n 0
      cases e with
      | filling a => exact ⟨_, .step hstep.2 (.refl _), h.drained_finish hpc hready s.consumer⟩
      | committed a | discarded =>
        have hcons := Queue.ready_of_next (Queue.next_eq_some.2 ⟨he, rfl⟩)
        rw [hready] at hcons
        cases hcons
    · exact h.end_drained hpc hlt hprod hready
  | succ k ih =>
    have hlt := h.before_producer hpc hprod (by omega)
    obtain ⟨e, t, m', hnext, halone, ht, hpass⟩ := h.pass_record (n := n) hfit hpc hlt (by omega) (by omega)
    have hready := Queue.ready_of_next hnext
    rw [hready, List.length_cons] at hk
    have htotal : t.total = s.total := by
      unfold RingSys.total RingSys.lens
      rw [hpass.reserved]
    have hcnt := hpass.cnt
    have hhanded : e.handed.toList.length ≤ 1 := by cases e.handed <;> simp
    obtain ⟨s', halone', hd⟩ := ih ht (by rwa [htotal]) hpass.pc
      (by rw [hpass.prodPos, hpass.producerPos, hprod]) (by omega) (by omega)
    exact ⟨s', halone.trans halone', drained_take hnext hpass hd⟩

/-- A call from its start: it reads both positions and enters the loop. -/
theorem call_drained (h : Represents r s q m) (hfit : s.total < 2 ^ 64) (hpc : s.consumer.pc = .idle)
    (hn : q.ready.length < n) :
    ∃ s', RingSys.Alone r n s s' ∧ Drained { s with consumer := { s.consumer with cnt := 0 } } q s' := by
  set s1 : RingSys :=
    { s with consumer := { s.consumer with pc := .outer, consPos := s.pages.consumerPos, cnt := 0 } } with hs1
  set s2 : RingSys :=
    { s1 with
      consumer := { s1.consumer with pc := .inner, gotNewData := false, prodPos := s.pages.producerPos } } with hs2
  have hstep1 : s.consume r n 0 = s1 := s.step_quiet (RingConsumer.tick_idle n 0 s.pages hpc)
  have hstep2 : s1.consume r n 0 = s2 := s1.step_quiet (RingConsumer.tick_outer n 0 s1.pages rfl)
  obtain ⟨m1, h1⟩ := h.consume hfit n 0
  rw [s.op_consume_of (by rw [hpc]; trivial), hstep1] at h1
  obtain ⟨m2, h2⟩ := h1.consume hfit n 0
  rw [s1.op_consume_of trivial, hstep2] at h2
  obtain ⟨s', halone, hd⟩ := h2.loop_drained (n := n) hfit rfl rfl rfl (by show 0 + q.ready.length < n; omega)
  exact ⟨s', .step hstep1 (.step hstep2 halone), hd.pc, hd.result, hd.delivered, hd.reserved, hd.producerPos,
    hd.consumerPos⟩

/-- What lies in the ring is at most a record for every eight bytes. -/
theorem length_ready_le (h : Represents r s q m) : 8 * q.ready.length ≤ r.size := by
  have hle := q.length_ready_le
  have hfreed := h.freed
  have hm := h.given_back_le_length
  rw [h.length] at hle
  have hstart := start_add_le s.lens (i := m) (k := s.reserved.length - m) (by rw [RingSys.length_lens]; omega)
  rw [Nat.add_sub_cancel' hm] at hstart
  have hwindow := h.window
  unfold RingSys.total at hwindow
  omega

/-- So the bound of a call is not reached. -/
theorem ready_lt (h : Represents r s q m) : q.ready.length < intMax := by
  have hready := h.length_ready_le
  have hsize : r.size ≤ 2 ^ 31 := Nat.pow_le_pow_right Nat.zero_lt_two r.le
  have hlt : r.size < 8 * intMax := Nat.lt_of_le_of_lt hsize (by decide)
  omega

/-- Where no record is open, a call leaves the ring empty. -/
theorem emptied (h : Represents r s q m) {t s' : RingSys} (hd : Drained t q s')
    (hclosed : ∀ e ∈ q.entries, e.isOpen = false) (ht : t.reserved = s.reserved)
    (hproducer : t.pages.producerPos = s.pages.producerPos) : s'.pages.consumerPos = s'.pages.producerPos := by
  have hlens : t.lens = s.lens := congrArg (List.map Reserved.len) ht
  apply UInt64.toNat_inj.1
  rw [hd.consumerPos, hd.producerPos, hproducer, Queue.ready_of_closed hclosed, List.length_drop,
    Nat.add_sub_cancel' h.sound.1, h.length, hlens]
  exact h.producer.symm

/-- In an empty ring all records were passed. -/
theorem taken_of_empty (h : Represents r s q m) (hidle : s.consumer.pc = .idle)
    (hempty : s.pages.consumerPos = s.pages.producerPos) : q.taken = q.entries.length := by
  have hfreed := h.freed
  rw [hidle] at hfreed
  have hstart : start s.lens m = s.total := by rw [← h.consumer, hempty, h.producer]
  have hle := h.given_back_le_length
  have hm : m = s.reserved.length := by
    by_contra hne
    have hlt : m < s.reserved.length := by omega
    have hx : s.reserved[m]? = some s.reserved[m] := List.getElem?_eq_getElem hlt
    have hend := h.footprint_le hx
    have hpos := h.pos m _ hx
    omega
  rw [h.length, ← hm, ← hfreed]
  rfl

end Represents

/-- Whatever the kernel granted before, a call of `ring_buffer__consume` during which no producer acts, and whose
callbacks do not fail, returns.  It has called back with every submitted record up to the first open one, returned how
many these are, and given back their room; where no record is open, all of the ring is free again. -/
theorem consume_alone (K : RingKernel) (r : Ring) (data : Nat → UInt8) (as : List RingAction)
    (hfit : (RingSys.run K r intMax data as).total < 2 ^ 64)
    (hidle : (RingSys.run K r intMax data as).consumer.pc = .idle) :
    let s := RingSys.run K r intMax data as
    let q := Queue.run (RingSys.ops K r intMax data as)
    ∃ k, ∀ errs : List Int, errs.length = k → (∀ e ∈ errs, 0 ≤ e) →
      let s' := RingSys.run K r intMax data (as ++ errs.map .consume)
      s'.consumer.pc = .idle ∧
        s'.delivered = s.delivered ++ q.ready.filterMap Entry.handed ∧
        s'.consumer.result = (q.ready.filterMap Entry.handed).length ∧
        s'.pages.consumerPos.toNat = start s.lens (q.taken + q.ready.length) ∧
        ((∀ x ∈ s.reserved, x.closed = true) → s'.pages.consumerPos = s'.pages.producerPos) := by
  intro s q
  obtain ⟨m, h⟩ := run_represents K r intMax data as hfit
  obtain ⟨s1, ⟨k, hk⟩, hd⟩ := h.call_drained hfit hidle h.ready_lt
  refine ⟨k, fun errs hlen herrs => ?_⟩
  have hrun : RingSys.run K r intMax data (as ++ errs.map .consume) = s1 := by
    unfold RingSys.run
    rw [runFrom_append, RingSys.run_consume_nonneg r intMax K _ herrs, hlen]
    exact hk
  intro s'
  have hs' : s' = s1 := hrun
  rw [hs']
  refine ⟨hd.pc, hd.delivered, ?_, hd.consumerPos, ?_⟩
  · rw [hd.result]
    exact Int.zero_add _
  · intro hclosed
    have hall : ∀ e ∈ q.entries, e.isOpen = false := by
      intro e he
      obtain ⟨i, hi⟩ := List.getElem?_of_mem he
      obtain ⟨hlt, -⟩ := List.getElem?_eq_some_iff.1 hi
      have hx := List.getElem?_eq_getElem (l := s.reserved) (i := i) (by rw [← h.length]; exact hlt)
      have hxe := h.closed i _ e hx hi
      rw [hclosed _ (List.getElem_mem _)] at hxe
      simpa using hxe.symm
    exact h.emptied hd hall rfl rfl

/-- One record is submitted, and one is open behind it. -/
theorem consume_alone_open :
    let r : Ring := ⟨6, by decide, by decide⟩
    let as : List RingAction := [.reserve 1 0, .reserve 1 0, .fill 0 [1], .submit 0]
    let s := RingSys.run .plain r intMax (fun _ => 0) as
    let q := Queue.run (RingSys.ops .plain r intMax (fun _ => 0) as)
    q.ready = [.committed [1]] ∧
      ∃ k, ∀ errs : List Int, errs.length = k → (∀ e ∈ errs, 0 ≤ e) →
        let s' := RingSys.run .plain r intMax (fun _ => 0) (as ++ errs.map .consume)
        s'.consumer.pc = .idle ∧
          s'.delivered = s.delivered ++ q.ready.filterMap Entry.handed ∧
          s'.consumer.result = (q.ready.filterMap Entry.handed).length ∧
          s'.pages.consumerPos.toNat = start s.lens (q.taken + q.ready.length) ∧
          ((∀ x ∈ s.reserved, x.closed = true) → s'.pages.consumerPos = s'.pages.producerPos) :=
  ⟨by decide +kernel, consume_alone _ _ _ _ (by decide +kernel) (by decide +kernel)⟩

end VsomeipCollector

import VsomeipCollector.Ringbuf

/-!
# Records of the ring buffer

The ring buffer (`Ringbuf`) refines a queue of reservations: `Represents` relates the shared pages and the state of the
consumer to the queue, every step of the machine makes the step of the queue that `RingSys.op` says (`step_represents`),
and so does every run (`run_represents`).

The records lie one after the other, from position `start lens i` on.  From the first one whose room the consumer has
not given back, all of them are within one window of the ring, so that no two of them share a cell.
-/

namespace VsomeipCollector

open Circular Endian Reservations Run

/-! ### Where records are -/

/-- The position of the `i`-th of records of the lengths `lens`. -/
def start (lens : List UInt32) (i : Nat) : Nat := ((lens.take i).map fun len => (roundupLen len).toNat).sum

theorem start_succ {lens : List UInt32} {i : Nat} {len : UInt32} (h : lens[i]? = some len) :
    start lens (i + 1) = start lens i + (roundupLen len).toNat := by
  unfold start
  rw [List.take_add_one, h]
  simp

theorem start_append (lens more : List UInt32) {i : Nat} (hi : i ≤ lens.length) :
    start (lens ++ more) i = start lens i := by
  unfold start
  rw [List.take_append_of_le_length hi]

theorem start_concat (lens : List UInt32) (len : UInt32) :
    start (lens ++ [len]) (lens.length + 1) = start lens lens.length + (roundupLen len).toNat := by
  rw [start_succ (show (lens ++ [len])[lens.length]? = some len by simp), start_append _ _ (Nat.le_refl _)]

theorem start_le_succ (lens : List UInt32) (i : Nat) : start lens i ≤ start lens (i + 1) := by
  cases h : lens[i]? with
  | some len =>
    rw [start_succ h]
    exact Nat.le_add_right _ _
  | none =>
    unfold start
    rw [List.take_add_one, h]
    simp

theorem start_mono (lens : List UInt32) {i j : Nat} (h : i ≤ j) : start lens i ≤ start lens j :=
  monotone_nat_of_le_succ (start_le_succ lens) h

theorem lt_of_start_lt {lens : List UInt32} {i j : Nat} (h : start lens i < start lens j) : i < j := by
  by_contra hij
  have hle := start_mono lens (Nat.le_of_not_lt hij)
  omega

theorem header_add_le_roundupLen {len : UInt32} (h : len.toNat < 2 ^ 30) : 8 + len.toNat ≤ (roundupLen len).toNat := by
  rw [toNat_roundupLen, Nat.mod_eq_of_lt h]
  omega

/-- The lengths of all records. -/
def RingSys.lens (s : RingSys) : List UInt32 := s.reserved.map Reserved.len

theorem RingSys.lens_eq_some {s : RingSys} {i : Nat} {x : Reserved} (h : s.reserved[i]? = some x) :
    s.lens[i]? = some x.len := by
  unfold lens
  rw [List.getElem?_map, h]
  rfl

@[simp] theorem RingSys.length_lens (s : RingSys) : s.lens.length = s.reserved.length := List.length_map ..

/-- The bytes that were ever reserved. -/
def RingSys.total (s : RingSys) : Nat := start s.lens s.reserved.length

section

variable (s : RingSys) (len : UInt32) (p : RingPages)

theorem RingSys.lens_push : (s.push len p).lens = s.lens ++ [len] := List.map_append ..

theorem RingSys.total_push : (s.push len p).total = s.total + (roundupLen len).toNat := by
  unfold total
  rw [← length_lens, ← length_lens, lens_push, List.length_append]
  exact start_concat s.lens len

end

/-! ### Headers -/

/-- The header of a record: its length and the flag of what became of it. -/
def Reserved.header (x : Reserved) : Entry (List UInt8) → UInt32
  | .filling _ => x.len ||| ringbufBusyBit
  | .committed _ => x.len
  | .discarded => x.len ||| ringbufDiscardBit

section

variable {x : Reserved} (hlen : x.len.toNat < 2 ^ 30)

include hlen

theorem header_busy (e : Entry (List UInt8)) : x.header e &&& ringbufBusyBit = 0 ↔ e.isOpen = false := by
  have h31 : x.len.toNat.testBit 31 = false := Nat.testBit_lt_two_pow (Nat.lt_trans hlen (by decide))
  rw [and_busyBit]
  cases e with
  | filling a =>
    have hbusy : (x.len ||| ringbufBusyBit).toNat.testBit 31 = true := by
      rw [UInt32.toNat_or, Nat.testBit_or, h31]
      rfl
    show (x.len ||| ringbufBusyBit).toNat.testBit 31 = false ↔ true = false
    rw [hbusy]
  | committed a => exact iff_of_true h31 rfl
  | discarded =>
    have hdiscard : (x.len ||| ringbufDiscardBit).toNat.testBit 31 = false := by
      rw [UInt32.toNat_or, Nat.testBit_or, h31]
      rfl
    exact iff_of_true hdiscard rfl

theorem header_committed_discard (a : List UInt8) :
    x.header (.committed a) &&& ringbufDiscardBit = 0 :=
  (and_discardBit _).2 (Nat.testBit_lt_two_pow hlen)

omit hlen in
theorem header_discarded_discard : x.header .discarded &&& ringbufDiscardBit ≠ 0 := by
  have h30 : (x.len ||| ringbufDiscardBit).toNat.testBit 30 = true := by
    rw [UInt32.toNat_or, Nat.testBit_or]
    exact Bool.or_eq_true_iff.2 (.inr rfl)
  intro h
  have hfalse := (and_discardBit _).1 h
  exact Bool.false_ne_true (hfalse.symm.trans h30)

/-- The consumer finds the next record whatever became of this one. -/
theorem roundupLen_discarded : roundupLen (x.header .discarded) = roundupLen x.len := by
  apply UInt32.toNat_inj.1
  show (roundupLen (x.len ||| ringbufDiscardBit)).toNat = _
  rw [toNat_roundupLen, toNat_roundupLen, toNat_or_discardBit hlen, Nat.add_mod_left]

end

/-! ### Contents of records -/

section

variable (r : Ring)

/-- The cells of a record hold its header and, unless it was discarded, its contents. -/
structure Holds (data : Nat → UInt8) (x : Reserved) (e : Entry (List UInt8)) : Prop where
  header : read r.size data x.pos.toNat 4 = toLittle 4 (x.header e).toNat
  contents : ∀ a, e = .filling a ∨ e = .committed a → read r.size data (x.pos.toNat + 8) x.len.toNat = a

variable {r}

/-- What changes outside of a record leaves it as it is. -/
theorem Holds.of_changed {data data' : Nat → UInt8} {x : Reserved} {e : Entry (List UInt8)} (h : Holds r data x e)
    {base p n : Nat} (hchanged : ChangedWithin r.size data data' p n) (hp : base ≤ p) (hp' : p + n ≤ base + r.size)
    (hx : base ≤ x.pos.toNat) (hx' : x.pos.toNat + (8 + x.len.toNat) ≤ base + r.size)
    (hdisj : p + n ≤ x.pos.toNat ∨ x.pos.toNat + (8 + x.len.toNat) ≤ p) : Holds r data' x e where
  header := by
    rw [hchanged.read_eq hp hp' hx (by omega) (by omega)]
    exact h.header
  contents a ha := by
    rw [hchanged.read_eq hp hp' (by omega) (by omega) (by omega)]
    exact h.contents a ha

end

/-! ### The relation -/

/-- How many records the consumer has passed but not given back yet. -/
def RingPc.behind : RingPc → Nat
  | .store | .bail _ => 1
  | _ => 0

/-- What the consumer knows of the records when it is about to pass the one at `q.taken`. -/
def ConsumerAt (r : Ring) (c : RingConsumer) (lens : List UInt32) (q : Queue (List UInt8)) : Prop :=
  match c.pc with
  | .idle => True
  | .outer | .bail _ => c.consPos.toNat = start lens q.taken
  | .inner | .store => c.consPos.toNat = start lens q.taken ∧ ∃ j ≤ lens.length, c.prodPos.toNat = start lens j
  | .sample off len =>
    c.consPos.toNat = start lens (q.taken + 1) ∧ (∃ j ≤ lens.length, c.prodPos.toNat = start lens j) ∧
      lens[q.taken]? = some len ∧ off = start lens q.taken % r.size + 8 ∧ ∃ a, q.entries[q.taken]? = some (.committed a)
  | .crashed => False

/-- The machine stands for the queue; `m` records have been given back. -/
structure Represents (r : Ring) (s : RingSys) (q : Queue (List UInt8)) (m : Nat) : Prop where
  sound : q.Sound
  length : q.entries.length = s.reserved.length
  fits : ∀ x ∈ s.reserved, x.len.toNat < 2 ^ 30
  pos : ∀ (i : Nat) (x : Reserved), s.reserved[i]? = some x → x.pos.toNat = start s.lens i
  producer : s.pages.producerPos.toNat = s.total
  freed : m + s.consumer.pc.behind = q.taken
  consumer : s.pages.consumerPos.toNat = start s.lens m
  closed : ∀ (i : Nat) (x : Reserved) (e : Entry (List UInt8)), s.reserved[i]? = some x → q.entries[i]? = some e →
    x.closed = !e.isOpen
  window : s.total ≤ start s.lens m + r.size
  holds : ∀ (i : Nat) (x : Reserved) (e : Entry (List UInt8)), m ≤ i → s.reserved[i]? = some x →
    q.entries[i]? = some e → Holds r s.pages.data x e
  reading : ConsumerAt r s.consumer s.lens q
  delivered : s.delivered = q.passed

namespace Represents

variable {r : Ring} {s : RingSys} {q : Queue (List UInt8)} {m : Nat}

theorem lens_le (h : Represents r s q m) : q.taken ≤ s.lens.length := by
  rw [RingSys.length_lens, ← h.length]
  exact h.sound.1

theorem entry (h : Represents r s q m) {i : Nat} {x : Reserved} (hx : s.reserved[i]? = some x) :
    ∃ e : Entry (List UInt8), q.entries[i]? = some e := by
  obtain ⟨hlt, -⟩ := List.getElem?_eq_some_iff.1 hx
  rw [← h.length] at hlt
  exact ⟨_, List.getElem?_eq_getElem hlt⟩

/-- The footprint of a record ends where the next one starts, and at most at the producer position. -/
theorem footprint_le (h : Represents r s q m) {i : Nat} {x : Reserved} (hx : s.reserved[i]? = some x) :
    x.pos.toNat + (8 + x.len.toNat) ≤ start s.lens (i + 1) ∧ start s.lens (i + 1) ≤ s.total := by
  obtain ⟨hlt, -⟩ := List.getElem?_eq_some_iff.1 hx
  have hroom := header_add_le_roundupLen (h.fits x (List.mem_of_getElem? hx))
  refine ⟨?_, start_mono s.lens hlt⟩
  rw [start_succ (RingSys.lens_eq_some hx), h.pos i x hx]
  omega

/-- Records whose room was not given back lie in one window. -/
theorem in_window (h : Represents r s q m) {i : Nat} {x : Reserved} (hi : m ≤ i) (hx : s.reserved[i]? = some x) :
    start s.lens m ≤ x.pos.toNat ∧ x.pos.toNat + (8 + x.len.toNat) ≤ start s.lens m + r.size := by
  have hend := h.footprint_le hx
  have hwin := h.window
  have hmono := start_mono s.lens hi
  have hpos := h.pos i x hx
  omega

theorem given_back_le_length (h : Represents r s q m) : m ≤ s.reserved.length := by
  have hfreed := h.freed
  have hle := h.lens_le
  rw [RingSys.length_lens] at hle
  omega

theorem given_back_le (h : Represents r s q m) : start s.lens m ≤ s.total := start_mono s.lens h.given_back_le_length

/-- What lies between the positions of the consumer and of the producers. -/
theorem unconsumed (h : Represents r s q m) :
    (s.pages.producerPos - s.pages.consumerPos).toNat = s.total - start s.lens m := by
  have hle : s.pages.consumerPos ≤ s.pages.producerPos := by
    rw [UInt64.le_iff_toNat_le, h.producer, h.consumer]
    exact h.given_back_le
  rw [UInt64.toNat_sub_of_le _ _ hle, h.producer, h.consumer]

theorem unconsumed_le (h : Represents r s q m) : (s.pages.producerPos - s.pages.consumerPos).toNat ≤ r.size := by
  have hwindow := h.window
  rw [h.unconsumed]
  omega

/-- Different records are apart. -/
theorem apart (h : Represents r s q m) {i j : Nat} {x y : Reserved} (hx : s.reserved[i]? = some x)
    (hy : s.reserved[j]? = some y) (hij : i ≠ j) :
    x.pos.toNat + (8 + x.len.toNat) ≤ y.pos.toNat ∨ y.pos.toNat + (8 + y.len.toNat) ≤ x.pos.toNat := by
  have hxe := (h.footprint_le hx).1
  have hye := (h.footprint_le hy).1
  have hxp := h.pos i x hx
  have hyp := h.pos j y hy
  rcases Nat.lt_or_gt_of_ne hij with hlt | hlt
  · have hmono : start s.lens (i + 1) ≤ start s.lens j := start_mono s.lens hlt
    exact .inl (by omega)
  · have hmono : start s.lens (j + 1) ≤ start s.lens i := start_mono s.lens hlt
    exact .inr (by omega)

/-- An open record was not passed, and holds what was written to it so far. -/
theorem opened (h : Represents r s q m) {i : Nat} {x : Reserved} (hx : s.opened i = some x) :
    s.reserved[i]? = some x ∧ m ≤ i ∧ ∃ a, q.entries[i]? = some (.filling a) := by
  obtain ⟨hget, hopen⟩ := Option.filter_eq_some_iff.1 hx
  obtain ⟨e, he⟩ := h.entry hget
  have hclosed := h.closed i x e hget he
  have heo : e.isOpen = true := by simpa [hclosed] using hopen
  refine ⟨hget, ?_, ?_⟩
  · by_contra hlt
    have htaken := h.freed
    have hmem : e ∈ q.entries.take q.taken := by
      obtain ⟨hi, rfl⟩ := List.getElem?_eq_some_iff.1 he
      exact List.mem_take_iff_getElem.2 ⟨i, by omega, rfl⟩
    rw [h.sound.2 e hmem] at heo
    cases heo
  · cases e with
    | filling a => exact ⟨a, he⟩
    | committed a | discarded => cases heo

end Represents

/-- What the consumer knows stays true while the producers work. -/
theorem ConsumerAt.step {r : Ring} {c : RingConsumer} {lens : List UInt32} {q : Queue (List UInt8)}
    (h : ConsumerAt r c lens q) (hq : q.taken ≤ lens.length) {op : Op (List UInt8)}
    (hop : (q.step op).taken = q.taken) (more : List UInt32) : ConsumerAt r c (lens ++ more) (q.step op) := by
  have htaken := start_append lens more hq
  have hprod : ∀ {p : Nat}, (∃ j ≤ lens.length, p = start lens j) →
      ∃ j ≤ (lens ++ more).length, p = start (lens ++ more) j := by
    rintro p ⟨j, hj, rfl⟩
    exact ⟨j, by rw [List.length_append]; omega, (start_append lens more hj).symm⟩
  unfold ConsumerAt at h ⊢
  rw [hop]
  cases hpc : c.pc with
  | idle => trivial
  | outer | bail err =>
    rw [hpc] at h
    exact h.trans htaken.symm
  | inner | store =>
    rw [hpc] at h
    exact ⟨h.1.trans htaken.symm, hprod h.2⟩
  | sample off len =>
    rw [hpc] at h
    obtain ⟨hcons, hp, hget, hoff, a, ha⟩ := h
    obtain ⟨hlt, -⟩ := List.getElem?_eq_some_iff.1 hget
    refine ⟨?_, hprod hp, ?_, ?_, a, Queue.step_closed q op ha rfl⟩
    · exact hcons.trans (start_append lens more hlt).symm
    · rw [List.getElem?_append_left hlt]
      exact hget
    · rw [htaken]
      exact hoff
  | crashed =>
    rw [hpc] at h
    exact h


/-! ### The producers -/

section

variable {α : Type*} {xs : List α} {i j : Nat} {x y : α}

private theorem set_of_getElem? (h : xs[i]? = some x) : xs.set i x = xs := by
  obtain ⟨hlt, rfl⟩ := List.getElem?_eq_some_iff.1 h
  exact List.set_getElem_self hlt

/-- The element that is set, and the other ones. -/
private theorem set_cases (h : (xs.set i x)[j]? = some y) : (j = i ∧ y = x) ∨ (j ≠ i ∧ xs[j]? = some y) := by
  by_cases hij : i = j
  · subst hij
    obtain ⟨hlt, rfl⟩ := List.getElem?_eq_some_iff.1 h
    exact .inl ⟨rfl, List.getElem_set_self _⟩
  · rw [List.getElem?_set_ne hij] at h
    exact .inr ⟨Ne.symm hij, h⟩

private theorem modify_cases {f : α → α} (hx : xs[i]? = some x) (h : (xs.modify i f)[j]? = some y) :
    (j = i ∧ y = f x) ∨ (j ≠ i ∧ xs[j]? = some y) := by
  rw [List.getElem?_modify] at h
  by_cases hij : i = j
  · subst hij
    rw [hx] at h
    simp only [↓reduceIte] at h
    exact .inl ⟨rfl, (Option.some.inj h).symm⟩
  · simp only [hij, ↓reduceIte, id_map'] at h
    exact .inr ⟨Ne.symm hij, h⟩

private theorem update_cases {β : Type*} {ys : List β} {f : β → β} {b b' : β} (hb : ys[i]? = some b)
    (hx : (xs.set i x)[j]? = some y) (hy : (ys.modify i f)[j]? = some b') :
    (j = i ∧ y = x ∧ b' = f b) ∨ (j ≠ i ∧ xs[j]? = some y ∧ ys[j]? = some b') := by
  rcases set_cases hx with ⟨hij, rfl⟩ | ⟨hij, hx⟩
  · rcases modify_cases hb hy with ⟨-, rfl⟩ | ⟨hne, -⟩
    · exact .inl ⟨hij, rfl, rfl⟩
    · exact absurd hij hne
  · rcases modify_cases hb hy with ⟨heq, -⟩ | ⟨-, hy⟩
    · exact absurd heq hij
    · exact .inr ⟨hij, hx, hy⟩

private theorem concat_cases {β : Type*} {ys : List β} {x' : α} {y y' : β} (hlen : xs.length = ys.length)
    (hx : (xs ++ [x])[i]? = some x') (hy : (ys ++ [y])[i]? = some y') :
    (xs[i]? = some x' ∧ ys[i]? = some y') ∨ (i = xs.length ∧ x' = x ∧ y' = y) := by
  obtain ⟨hlt, -⟩ := List.getElem?_eq_some_iff.1 hx
  rw [List.length_append, List.length_singleton] at hlt
  by_cases hi : i < xs.length
  · rw [List.getElem?_append_left hi] at hx
    rw [List.getElem?_append_left (by omega)] at hy
    exact .inl ⟨hx, hy⟩
  · obtain rfl : i = xs.length := by omega
    rw [List.getElem?_concat_length] at hx
    rw [hlen, List.getElem?_concat_length] at hy
    exact .inr ⟨rfl, (Option.some.inj hx).symm, (Option.some.inj hy).symm⟩

end

namespace Represents

variable {r : Ring} {s : RingSys} {q : Queue (List UInt8)} {m : Nat}

/-- An open record changes, and nothing else. -/
theorem update (h : Represents r s q m) {i : Nat} {x x' : Reserved} {f : Entry (List UInt8) → Entry (List UInt8)}
    {op : Op (List UInt8)} {p : RingPages} (hx : s.opened i = some x) (hpos : x'.pos = x.pos) (hlen : x'.len = x.len)
    (hconsumer : p.consumerPos = s.pages.consumerPos) (hproducer : p.producerPos = s.pages.producerPos)
    (hchanged : ChangedWithin r.size s.pages.data p.data x.pos.toNat (8 + x.len.toNat))
    (hop : q.step op = { q with entries := q.entries.modify i f }) (hout : q.out op = [])
    (hclosed : ∀ a, x'.closed = !(f (.filling a)).isOpen)
    (hf : ∀ a, Holds r s.pages.data x (.filling a) → Holds r p.data x' (f (.filling a))) :
    Represents r { s with pages := p, reserved := s.reserved.set i x' } (q.step op) m := by
  obtain ⟨hget, hmi, a, ha⟩ := h.opened hx
  have hlens : ({ s with pages := p, reserved := s.reserved.set i x' } : RingSys).lens = s.lens := by
    show (s.reserved.set i x').map Reserved.len = s.reserved.map Reserved.len
    rw [List.map_set, hlen]
    exact set_of_getElem? (RingSys.lens_eq_some hget)
  have htotal : ({ s with pages := p, reserved := s.reserved.set i x' } : RingSys).total = s.total := by
    unfold RingSys.total
    rw [hlens, List.length_set]
  have hget' := fun j y (hj : (s.reserved.set i x')[j]? = some y) => set_cases hj
  have hentry : ∀ (j : Nat) (y : Reserved) (e : Entry (List UInt8)), (s.reserved.set i x')[j]? = some y →
      (q.step op).entries[j]? = some e →
      (j = i ∧ y = x' ∧ e = f (.filling a)) ∨ (j ≠ i ∧ s.reserved[j]? = some y ∧ q.entries[j]? = some e) := by
    intro j y e hy he
    rw [hop] at he
    exact update_cases ha hy he
  have hwin := h.in_window hmi hget
  exact {
    sound := h.sound.step op
    length := by
      rw [hop]
      simpa using h.length
    fits := by
      intro y hy
      obtain ⟨j, hj⟩ := List.getElem?_of_mem hy
      rcases hget' j y hj with ⟨-, rfl⟩ | ⟨-, hy⟩
      · rw [hlen]
        exact h.fits x (List.mem_of_getElem? hget)
      · exact h.fits y (List.mem_of_getElem? hy)
    pos := by
      intro j y hj
      rw [hlens]
      rcases hget' j y hj with ⟨rfl, rfl⟩ | ⟨-, hy⟩
      · rw [hpos]
        exact h.pos _ _ hget
      · exact h.pos _ _ hy
    producer := by
      rw [htotal]
      exact (congrArg UInt64.toNat hproducer).trans h.producer
    freed := by
      rw [hop]
      exact h.freed
    consumer := by
      rw [hlens]
      exact (congrArg UInt64.toNat hconsumer).trans h.consumer
    closed := by
      intro j y e hj he
      rcases hentry j y e hj he with ⟨rfl, rfl, rfl⟩ | ⟨-, hy, he'⟩
      · exact hclosed a
      · exact h.closed j y e hy he'
    window := by
      rw [htotal, hlens]
      exact h.window
    holds := by
      intro j y e hmj hj he
      rcases hentry j y e hj he with ⟨rfl, rfl, rfl⟩ | ⟨hji, hy, he'⟩
      · exact hf a (h.holds j x _ hmj hget ha)
      · have hother := h.in_window hmj hy
        have hapart := h.apart hget hy (Ne.symm hji)
        exact (h.holds j y e hmj hy he').of_changed hchanged hwin.1 hwin.2 hother.1 hother.2 hapart
    reading := by
      rw [hlens]
      have hreading := h.reading.step h.lens_le (show (q.step op).taken = q.taken by rw [hop]) []
      rwa [List.append_nil] at hreading
    delivered := by
      rw [Queue.passed_step h.sound op, hout, List.append_nil]
      exact h.delivered }

theorem fill (h : Represents r s q m) {i : Nat} {x : Reserved} {bytes : List UInt8} (hx : s.opened i = some x)
    (hlen : bytes.length = x.len.toNat) :
    Represents r (s.poke r (x.pos.toNat + 8) bytes) (q.step (.fill i bytes)) m := by
  obtain ⟨hget, hmi, -⟩ := h.opened hx
  have hwin := h.in_window hmi hget
  have hset : { s with
      pages := (s.poke r (x.pos.toNat + 8) bytes).pages
      reserved := s.reserved.set i x } = s.poke r (x.pos.toNat + 8) bytes := by
    rw [set_of_getElem? hget]
    rfl
  have hchanged : ChangedWithin r.size s.pages.data (s.poke r (x.pos.toNat + 8) bytes).pages.data (x.pos.toNat + 8)
      bytes.length := changedWithin_write _ _ _
  rw [← hset]
  refine h.update (f := Entry.fill bytes) hx rfl rfl rfl rfl ?_ rfl rfl ?_ ?_
  · rw [← hlen]
    exact hchanged.shift
  · intro a
    have hopen := (Option.filter_eq_some_iff.1 hx).2
    simpa [Entry.fill, Entry.isOpen] using hopen
  · intro a ha
    refine ⟨?_, ?_⟩
    · rw [hchanged.read_eq (show start s.lens m ≤ x.pos.toNat + 8 by omega) (by omega) (by omega) (by omega) (by omega)]
      exact ha.header
    · rintro b (hb | hb)
      · obtain rfl : bytes = b := Entry.filling.inj hb
        rw [← hlen]
        exact read_write _ _ (by omega)
      · cases hb

/-- A record is closed by the header it gets. -/
theorem close (h : Represents r s q m) {i : Nat} {x : Reserved} (hx : s.opened i = some x)
    {f : Entry (List UInt8) → Entry (List UInt8)} {op : Op (List UInt8)}
    (hop : q.step op = { q with entries := q.entries.modify i f }) (hout : q.out op = []) {word : UInt32}
    {p : RingPages} (hp : Closes r x.pos word s.pages p) (hword : ∀ a, word = x.header (f (.filling a)))
    (hclosed : ∀ a, (f (.filling a)).isOpen = false) (hf : ∀ a b, f (.filling a) = .committed b → b = a) :
    Represents r (s.close i x p) (q.step op) m := by
  obtain ⟨hget, hmi, -⟩ := h.opened hx
  have hwin := h.in_window hmi hget
  have hchanged : ChangedWithin r.size s.pages.data p.data x.pos.toNat 8 := hp.others
  have hpos : ({ x with closed := true } : Reserved).pos = x.pos := rfl
  refine h.update hx hpos rfl hp.consumerPos hp.producerPos (hchanged.mono (Nat.le_add_right 8 _)) hop hout ?_ ?_
  · intro a
    rw [hclosed a]
    rfl
  · intro a ha
    refine ⟨?_, ?_⟩
    · have hheader := hp.header
      rw [hword a] at hheader
      exact hheader
    · rintro b (hb | hb)
      · have hopen := hclosed a
        rw [hb] at hopen
        cases hopen
      · show read r.size p.data (x.pos.toNat + 8) x.len.toNat = b
        rw [hf a b hb, hchanged.read_eq (show start s.lens m ≤ x.pos.toNat by omega) (by omega) (by omega) (by omega)
          (by omega)]
        exact ha.contents a (.inl rfl)

/-- What the kernel finds in the header of an open record. -/
theorem header_opened (h : Represents r s q m) {i : Nat} {x : Reserved} (hx : s.opened i = some x) :
    x.len.toNat < 2 ^ 30 ∧
      read r.size s.pages.data x.pos.toNat 4 = toLittle 4 (x.len ||| ringbufBusyBit).toNat := by
  obtain ⟨hget, hmi, a, ha⟩ := h.opened hx
  exact ⟨h.fits x (List.mem_of_getElem? hget), (h.holds i x _ hmi hget ha).header⟩

theorem submit (K : RingKernel) (h : Represents r s q m) {i : Nat} {x : Reserved} (hx : s.opened i = some x) :
    Represents r (s.close i x (K.submit r s.pages x.pos)) (q.step (.commit i)) m := by
  obtain ⟨hlen, hheader⟩ := h.header_opened hx
  refine h.close (f := Entry.commit) hx rfl rfl (K.submit_closes hlen hheader) (fun _ => rfl) (fun _ => rfl) ?_
  intro a b hb
  exact (Entry.committed.inj hb).symm

theorem discard (K : RingKernel) (h : Represents r s q m) {i : Nat} {x : Reserved} (hx : s.opened i = some x) :
    Represents r (s.close i x (K.discard r s.pages x.pos)) (q.step (.discard i)) m := by
  obtain ⟨hlen, hheader⟩ := h.header_opened hx
  refine h.close (f := Entry.discard) hx rfl rfl (K.discard_closes hlen hheader) (fun _ => rfl) (fun _ => rfl) ?_
  intro a b hb
  cases hb

/-- A record is reserved behind the last one; its header says that it is open. -/
theorem reserve (h : Represents r s q m) {len : UInt32} {p : RingPages} (hp : Grants r len s.pages p)
    (hfit : s.total + (roundupLen len).toNat < 2 ^ 64) :
    Represents r (s.push len p)
      (q.step (.reserve (read r.size p.data (s.pages.producerPos.toNat + 8) len.toNat))) m := by
  have hlen := hp.short
  have hroom := hp.room
  rw [h.unconsumed] at hroom
  have hroomy := header_add_le_roundupLen hlen
  have hm := h.given_back_le
  have hml := h.given_back_le_length
  have hlens := s.lens_push len p
  have htotal := s.total_push len p
  have hstart : ∀ {i : Nat}, i ≤ s.reserved.length → start (s.push len p).lens i = start s.lens i := by
    intro i hi
    rw [hlens]
    exact start_append _ _ (by rwa [RingSys.length_lens])
  -- a record with its entry is one that was there, or the new one
  have hcases := fun j y e (hj : (s.reserved ++ [⟨s.pages.producerPos, len, false⟩])[j]? = some y)
      (he : (q.entries ++ [.filling (read r.size p.data (s.pages.producerPos.toNat + 8) len.toNat)])[j]? = some e) =>
    concat_cases h.length.symm hj he
  exact {
    sound := h.sound.step _
    length := by
      show (q.entries ++ [_]).length = (s.reserved ++ [_]).length
      rw [List.length_append, List.length_append, h.length]
      rfl
    fits := by
      intro y hy
      rcases List.mem_append.1 hy with hy | hy
      · exact h.fits y hy
      · rw [List.mem_singleton.1 hy]
        exact hlen
    pos := by
      intro j y hj
      rcases concat_cases rfl hj hj with ⟨hy, -⟩ | ⟨rfl, rfl, -⟩
      · obtain ⟨hlt, -⟩ := List.getElem?_eq_some_iff.1 hy
        rw [hstart (Nat.le_of_lt hlt)]
        exact h.pos j y hy
      · rw [hstart (Nat.le_refl _)]
        exact h.producer
    producer := by
      show p.producerPos.toNat = _
      rw [htotal, hp.producerPos, UInt64.toNat_add, h.producer, UInt32.toNat_toUInt64, Nat.mod_eq_of_lt hfit]
    freed := h.freed
    consumer := by
      rw [hstart hml]
      exact (congrArg UInt64.toNat hp.consumerPos).trans h.consumer
    closed := by
      intro j y e hj he
      rcases hcases j y e hj he with ⟨hy, he⟩ | ⟨-, rfl, rfl⟩
      · exact h.closed j y e hy he
      · rfl
    window := by
      rw [hstart hml, htotal]
      omega
    holds := by
      intro j y e hmj hj he
      rcases hcases j y e hj he with ⟨hy, he⟩ | ⟨-, rfl, rfl⟩
      · have hwin := h.in_window hmj hy
        have hend := h.footprint_le hy
        have hproducer := h.producer
        have hbase : start s.lens m ≤ s.pages.producerPos.toNat := by omega
        exact (h.holds j y e hmj hy he).of_changed hp.others hbase (by omega) hwin.1 hwin.2 (.inr (by omega))
      · refine ⟨hp.header, ?_⟩
        rintro a (ha | ha)
        · exact Entry.filling.inj ha
        · cases ha
    reading := by
      rw [hlens]
      exact h.reading.step h.lens_le rfl [len]
    delivered := by
      rw [Queue.passed_step h.sound]
      exact h.delivered.trans (List.append_nil _).symm }

end Represents

/-! ### The consumer -/

section

variable (r : Ring)

theorem Ring.toNat_and_mask (pos : UInt64) : (pos &&& r.mask).toNat = pos.toNat % r.size := by
  have hlt : r.size - 1 < 2 ^ 64 := by
    have hle : 2 ^ r.bits ≤ 2 ^ 31 := Nat.pow_le_pow_right Nat.zero_lt_two r.le
    unfold Ring.size
    omega
  rw [UInt64.toNat_and, Ring.mask, UInt64.toNat_ofNat_of_lt' hlt]
  exact Nat.and_two_pow_sub_one_eq_mod _ _

variable {r}

/-- An access of up to `size` bytes from a cell on stays inside the double mapping, and sees the positions. -/
theorem RingPages.bytes_mod (p : RingPages) {pos k n : Nat} (h : k + n ≤ r.size) :
    p.bytes r (pos % r.size + k) n = some (read r.size p.data (pos + k) n) := by
  have hsize := r.eight_le_size
  have hlt : pos % r.size < r.size := Nat.mod_lt _ (by omega)
  unfold bytes
  rw [if_pos (by omega), read_mod_add]

/-- Where the consumer only touches its own state or the consumer position. -/
def RingPc.Passive : RingPc → Prop
  | .inner | .sample _ _ => False
  | _ => True

namespace RingSys

variable (s : RingSys)

theorem op_consume_of (h : s.consumer.pc.Passive) : s.consumeOp r = [] := by
  unfold RingPc.Passive at h
  unfold consumeOp
  cases hpc : s.consumer.pc with
  | inner | sample off len =>
    rw [hpc] at h
    exact h.elim
  | idle | outer | store | bail e | crashed => rfl

theorem step_consume {n : Nat} {err : Int} {c : RingConsumer} {p : RingPages} {out : Option (List UInt8)}
    (h : s.consumer.tick r n err s.pages = (c, p, out)) :
    s.consume r n err = { s with consumer := c, pages := p, delivered := s.delivered ++ out.toList } := by
  have hstep : s.consume r n err =
      { s with
        consumer := (s.consumer.tick r n err s.pages).1
        pages := (s.consumer.tick r n err s.pages).2.1
        delivered := s.delivered ++ (s.consumer.tick r n err s.pages).2.2.toList } := rfl
  rw [hstep, h]

theorem step_quiet {n : Nat} {err : Int} {c : RingConsumer} (h : s.consumer.tick r n err s.pages = (c, s.pages, none)) :
    s.consume r n err = { s with consumer := c } := by
  rw [s.step_consume h]
  simp only [Option.toList_none, List.append_nil]

variable (r)

theorem step_store (n : Nat) (err : Int) (hpc : s.consumer.pc = .store) :
    s.consume r n err =
      { s with
        consumer := if n ≤ s.consumer.cnt then s.consumer.finish s.consumer.cnt else { s.consumer with pc := .inner }
        pages := { s.pages with consumerPos := s.consumer.consPos } } := by
  have htick := RingConsumer.tick_store (r := r) n err s.pages hpc
  split at htick
  · rename_i hn
    rw [s.step_consume htick, if_pos hn]
    simp only [Option.toList_none, List.append_nil]
  · rename_i hn
    rw [s.step_consume htick, if_neg hn]
    simp only [Option.toList_none, List.append_nil]

end RingSys

end

namespace Represents

variable {r : Ring} {s : RingSys} {q : Queue (List UInt8)} {m : Nat}

/-- The consumer moves on and nothing else. -/
theorem quiet (h : Represents r s q m) {c : RingConsumer} (hbehind : c.pc.behind = s.consumer.pc.behind)
    (hreading : ConsumerAt r c s.lens q) : Represents r { s with consumer := c } q m :=
  { h with
    freed := by
      show m + c.pc.behind = q.taken
      rw [hbehind]
      exact h.freed
    reading := hreading }

/-- The consumer passes a record. -/
theorem take (h : Represents r s q m) {e : Entry (List UInt8)} (hnext : q.next = some e)
    (hat : s.consumer.pc.behind = 0) {c : RingConsumer} (hbehind : c.pc.behind = 1)
    (hreading : ConsumerAt r c s.lens (q.step .take)) :
    Represents r { s with consumer := c, delivered := s.delivered ++ e.handed.toList } (q.step .take) m := by
  have hstep : q.step .take = { q with taken := q.taken + 1 } := by
    rw [Queue.step_take, hnext]
    rfl
  have hfreed := h.freed
  rw [hat] at hfreed
  refine ⟨h.sound.step _, ?_, h.fits, h.pos, h.producer, ?_, h.consumer, ?_, h.window, ?_, hreading, ?_⟩
  · rw [hstep]
    exact h.length
  · rw [hstep]
    show m + c.pc.behind = q.taken + 1
    rw [hbehind, ← hfreed]
  · rw [hstep]
    exact h.closed
  · rw [hstep]
    exact h.holds
  · show s.delivered ++ e.handed.toList = (q.step .take).passed
    rw [Queue.passed_step h.sound, ← h.delivered]
    show _ = s.delivered ++ (q.next.bind Entry.handed).toList
    rw [hnext]
    rfl

/-- The consumer gives the room of a record back. -/
theorem release (h : Represents r s q m) (hat : s.consumer.pc.behind = 1)
    (hpos : s.consumer.consPos.toNat = start s.lens q.taken) {c : RingConsumer} (hbehind : c.pc.behind = 0)
    (hreading : ConsumerAt r c s.lens q) :
    Represents r { s with consumer := c, pages := { s.pages with consumerPos := s.consumer.consPos } } q (m + 1) := by
  have hfreed := h.freed
  rw [hat] at hfreed
  refine ⟨h.sound, h.length, h.fits, h.pos, h.producer, ?_, ?_, h.closed, ?_, ?_, hreading, h.delivered⟩
  · show m + 1 + c.pc.behind = q.taken
    rw [hbehind]
    exact hfreed
  · show s.consumer.consPos.toNat = start s.lens (m + 1)
    rw [hpos, ← hfreed]
  · exact Nat.le_trans h.window (Nat.add_le_add_right (start_le_succ s.lens m) _)
  · exact fun i x e hi hx he => h.holds i x e (by omega) hx he

/-- The record that the consumer looks at, at the start of an iteration. -/
theorem record (h : Represents r s q m) (hfit : s.total < 2 ^ 64) (hpc : s.consumer.pc = .inner)
    (hlt : s.consumer.consPos < s.consumer.prodPos) :
    ∃ x e, s.reserved[q.taken]? = some x ∧ q.entries[q.taken]? = some e ∧
      (s.consumer.consPos &&& r.mask).toNat = start s.lens q.taken % r.size ∧
      s.pages.bytes r (s.consumer.consPos &&& r.mask).toNat 4 = some (toLittle 4 (x.header e).toNat) ∧
      (s.consumer.consPos + (roundupLen x.len).toUInt64).toNat = start s.lens (q.taken + 1) := by
  have hreading := h.reading
  unfold ConsumerAt at hreading
  rw [hpc] at hreading
  obtain ⟨hcons, j, hj, hprod⟩ := hreading
  rw [UInt64.lt_iff_toNat_lt, hcons, hprod] at hlt
  have htaken : q.taken < s.reserved.length := by
    rw [RingSys.length_lens] at hj
    exact Nat.lt_of_lt_of_le (lt_of_start_lt hlt) hj
  have hx : s.reserved[q.taken]? = some s.reserved[q.taken] := List.getElem?_eq_getElem htaken
  obtain ⟨e, he⟩ := h.entry hx
  have hm : m ≤ q.taken := by
    have hfreed := h.freed
    omega
  have hoff : (s.consumer.consPos &&& r.mask).toNat = start s.lens q.taken % r.size := by
    rw [r.toNat_and_mask, hcons]
  refine ⟨_, e, hx, he, hoff, ?_, ?_⟩
  · have hread : s.pages.bytes r (start s.lens q.taken % r.size) 4 =
        some (read r.size s.pages.data (start s.lens q.taken) 4) :=
      s.pages.bytes_mod (k := 0) (Nat.le_trans (by decide) r.eight_le_size)
    rw [hoff, hread, ← h.pos _ _ hx, (h.holds _ _ _ hm hx he).header]
  · have hend := (h.footprint_le hx).2
    rw [start_succ (RingSys.lens_eq_some hx)] at hend ⊢
    rw [UInt64.toNat_add, hcons, UInt32.toNat_toUInt64, Nat.mod_eq_of_lt (by omega)]

/-- The start of an iteration: the consumer stops at an open record, turns to the callback with a submitted one and
passes a discarded one. -/
theorem inner_step (h : Represents r s q m) (hfit : s.total < 2 ^ 64) (hpc : s.consumer.pc = .inner)
    (hlt : s.consumer.consPos < s.consumer.prodPos) (n : Nat) (err : Int) :
    ∃ x e, s.reserved[q.taken]? = some x ∧ q.entries[q.taken]? = some e ∧
      (s.consumer.consPos + (roundupLen x.len).toUInt64).toNat = start s.lens (q.taken + 1) ∧
      match e with
      | .filling _ =>
        s.consumeOp r = [] ∧
          s.consume r n err = { s with consumer := s.consumer.finish s.consumer.cnt }
      | .committed _ =>
        s.consumeOp r = [] ∧
          s.consume r n err =
            { s with
              consumer :=
                { s.consumer with
                  pc := .sample (start s.lens q.taken % r.size + 8) x.len
                  gotNewData := true
                  consPos := s.consumer.consPos + (roundupLen x.len).toUInt64 } }
      | .discarded =>
        s.consumeOp r = [.take] ∧
          s.consume r n err =
            { s with
              consumer :=
                { s.consumer with
                  pc := .store
                  gotNewData := true
                  consPos := s.consumer.consPos + (roundupLen x.len).toUInt64 } } := by
  obtain ⟨x, e, hx, he, hoff, hbytes, hnext⟩ := h.record hfit hpc hlt
  have hlen := h.fits x (List.mem_of_getElem? hx)
  have htick := RingConsumer.tick_inner n err hpc hlt hbytes
  have hop : s.consumeOp r =
      if x.header e &&& ringbufBusyBit = 0 ∧ x.header e &&& ringbufDiscardBit ≠ 0 then [.take] else [] := by
    simp only [RingSys.consumeOp, hpc, hlt, hbytes, ofNat_ofLittle_toLittle, ↓reduceIte]
  have hbusy := header_busy hlen e
  refine ⟨x, e, hx, he, hnext, ?_⟩
  cases e with
  | filling a =>
    -- it waits at the first record that is open
    have hne : x.header (.filling a) &&& ringbufBusyBit ≠ 0 := fun h0 => Bool.noConfusion (hbusy.1 h0)
    rw [if_pos hne] at htick
    rw [if_neg (fun h0 => hne h0.1)] at hop
    exact ⟨hop, s.step_quiet htick⟩
  | committed a =>
    have hzero := hbusy.2 rfl
    have hdiscard := header_committed_discard hlen a
    rw [if_neg (fun h0 => h0 hzero), if_pos hdiscard, hoff] at htick
    rw [if_neg (fun h0 => h0.2 hdiscard)] at hop
    exact ⟨hop, s.step_quiet htick⟩
  | discarded =>
    have hzero := hbusy.2 rfl
    have hdiscard := header_discarded_discard (x := x)
    rw [if_neg (fun h0 => h0 hzero), if_neg hdiscard, roundupLen_discarded hlen] at htick
    rw [if_pos ⟨hzero, hdiscard⟩] at hop
    exact ⟨hop, s.step_quiet htick⟩

/-- The callback is called with what the record was submitted with. -/
theorem sample_step (h : Represents r s q m) {off : Nat} {len : UInt32} (hpc : s.consumer.pc = .sample off len)
    (n : Nat) (err : Int) :
    ∃ a, q.next = some (.committed a) ∧
      s.consume r n err =
        { s with
          consumer :=
            if err < 0 then { s.consumer with pc := .bail err }
            else { s.consumer with pc := .store, cnt := s.consumer.cnt + 1 }
          delivered := s.delivered ++ [a] } := by
  have hreading := h.reading
  unfold ConsumerAt at hreading
  rw [hpc] at hreading
  obtain ⟨hcons, hprod, hlens, rfl, a, ha⟩ := hreading
  obtain ⟨x, hx, rfl⟩ : ∃ x, s.reserved[q.taken]? = some x ∧ x.len = len := by
    unfold RingSys.lens at hlens
    rw [List.getElem?_map] at hlens
    exact Option.map_eq_some_iff.1 hlens
  have hfreed := h.freed
  have hm : m ≤ q.taken := by omega
  have hbytes : s.pages.bytes r (start s.lens q.taken % r.size + 8) x.len.toNat = some a := by
    have hwin := h.in_window hm hx
    have hend := h.footprint_le hx
    have hle : start s.lens m ≤ start s.lens q.taken := start_mono s.lens hm
    have hpos := h.pos _ _ hx
    rw [s.pages.bytes_mod (by omega), ← hpos, (h.holds _ _ _ hm hx ha).contents a (.inr rfl)]
  refine ⟨a, Queue.next_eq_some.2 ⟨ha, rfl⟩, ?_⟩
  have htick := RingConsumer.tick_sample n err hpc hbytes
  by_cases herr : err < 0
  · rw [if_pos herr] at htick
    rw [if_pos herr]
    exact s.step_consume htick
  · rw [if_neg herr] at htick
    rw [if_neg herr]
    exact s.step_consume htick

/-- Where the consumer has come to the end of the data, the call looks for more or returns. -/
theorem inner_end (h : Represents r s q m) (hpc : s.consumer.pc = .inner)
    (hlt : ¬s.consumer.consPos < s.consumer.prodPos) (n : Nat) (err : Int) :
    Represents r (s.consume r n err) (runFrom Queue.step q (s.consumeOp r)) m := by
  have hreading := h.reading
  unfold ConsumerAt at hreading
  rw [hpc] at hreading
  have htick := RingConsumer.tick_inner_end (r := r) n err s.pages hpc hlt
  have hop : s.consumeOp r = [] := by simp only [RingSys.consumeOp, hpc, hlt, ↓reduceIte]
  rw [hop]
  by_cases hgot : s.consumer.gotNewData = true
  · rw [if_pos hgot] at htick
    rw [s.step_quiet htick]
    exact h.quiet (by rw [hpc]; rfl) hreading.1
  · rw [if_neg hgot] at htick
    rw [s.step_quiet htick]
    exact h.quiet (by rw [hpc]; rfl) trivial

/-- A step of the consumer is a step of the queue where it passes a record, and none elsewhere. -/
theorem consume (h : Represents r s q m) (hfit : s.total < 2 ^ 64) (n : Nat) (err : Int) :
    ∃ m', Represents r (s.consume r n err) (runFrom Queue.step q (s.consumeOp r)) m' := by
  have hfreed := h.freed
  have hreading := h.reading
  unfold ConsumerAt at hreading
  cases hpc : s.consumer.pc with
  | idle =>
    rw [hpc] at hfreed
    rw [s.step_quiet (RingConsumer.tick_idle n err s.pages hpc), s.op_consume_of (by rw [hpc]; trivial)]
    refine ⟨m, h.quiet (by rw [hpc]; rfl) ?_⟩
    show s.pages.consumerPos.toNat = start s.lens q.taken
    rw [h.consumer, ← hfreed]
    rfl
  | outer =>
    rw [hpc] at hreading
    rw [s.step_quiet (RingConsumer.tick_outer n err s.pages hpc), s.op_consume_of (by rw [hpc]; trivial)]
    refine ⟨m, h.quiet (by rw [hpc]; rfl) ?_⟩
    exact ⟨hreading, s.reserved.length, by rw [RingSys.length_lens], h.producer⟩
  | inner =>
    rw [hpc] at hreading
    by_cases hlt : s.consumer.consPos < s.consumer.prodPos
    · obtain ⟨x, e, hx, he, hnext, hstep⟩ := h.inner_step hfit hpc hlt n err
      cases e with
      | filling a =>
        rw [hstep.2, hstep.1]
        exact ⟨m, h.quiet (by rw [hpc]; rfl) trivial⟩
      | committed a =>
        rw [hstep.2, hstep.1]
        exact ⟨m, h.quiet (by rw [hpc]; rfl) ⟨hnext, hreading.2, RingSys.lens_eq_some hx, rfl, a, he⟩⟩
      | discarded =>
        have hq : q.next = some .discarded := Queue.next_eq_some.2 ⟨he, rfl⟩
        rw [hstep.2, hstep.1]
        refine ⟨m, (List.append_nil s.delivered) ▸ h.take hq (by rw [hpc]; rfl) rfl ?_⟩
        rw [Queue.step_take, hq]
        exact ⟨hnext, hreading.2⟩
    · exact ⟨m, h.inner_end hpc hlt n err⟩
  | sample off len =>
    rw [hpc] at hreading
    obtain ⟨a, hq, hstep⟩ := h.sample_step hpc n err
    have hop : s.consumeOp r = [.take] := by simp only [RingSys.consumeOp, hpc]
    refine ⟨m, ?_⟩
    rw [hstep, hop]
    split
    · refine h.take hq (by rw [hpc]; rfl) rfl ?_
      rw [Queue.step_take, hq]
      exact hreading.1
    · refine h.take hq (by rw [hpc]; rfl) rfl ?_
      rw [Queue.step_take, hq]
      exact ⟨hreading.1, hreading.2.1⟩
  | store =>
    rw [hpc] at hreading
    refine ⟨m + 1, ?_⟩
    rw [s.step_store r n err hpc, s.op_consume_of (by rw [hpc]; trivial)]
    split
    · exact h.release (by rw [hpc]; rfl) hreading.1 rfl trivial
    · exact h.release (by rw [hpc]; rfl) hreading.1 rfl hreading
  | bail e =>
    rw [hpc] at hreading
    have hstep := s.step_consume (RingConsumer.tick_bail (r := r) n err s.pages hpc)
    refine ⟨m + 1, ?_⟩
    rw [hstep, s.op_consume_of (by rw [hpc]; trivial)]
    simp only [Option.toList_none, List.append_nil]
    exact h.release (by rw [hpc]; rfl) hreading rfl trivial
  | crashed =>
    rw [hpc] at hreading
    exact hreading.elim

end Represents

/-! ### Steps and runs -/

section

variable (K : RingKernel) (r : Ring) (n : Nat)

theorem RingSys.step_granted {s : RingSys} {len : UInt32} {w : Nat} {p : RingPages}
    (h : K.reserve r w s.pages len = some p) :
    s.step K r n (.reserve len w) = s.push len p ∧
      s.op K r (.reserve len w) = [.reserve (read r.size p.data (s.pages.producerPos.toNat + 8) len.toNat)] := by
  simp only [step, op, h, and_self]

/-- A reservation that is refused leaves no trace. -/
theorem RingSys.step_refused {s : RingSys} {len : UInt32} {w : Nat} (h : K.reserve r w s.pages len = none) :
    s.step K r n (.reserve len w) = s ∧ s.op K r (.reserve len w) = [] := by
  simp only [step, op, h, and_self]

theorem RingSys.step_fill {s : RingSys} {i : Nat} {x : Reserved} (h : s.opened i = some x) (bytes : List UInt8) :
    s.step K r n (.fill i bytes) = if bytes.length = x.len.toNat then s.poke r (x.pos.toNat + 8) bytes else s := by
  simp only [step, h]

theorem RingSys.step_submit {s : RingSys} {i : Nat} {x : Reserved} (h : s.opened i = some x) :
    s.step K r n (.submit i) = s.close i x (K.submit r s.pages x.pos) := by
  simp only [step, h]

theorem RingSys.step_discard {s : RingSys} {i : Nat} {x : Reserved} (h : s.opened i = some x) :
    s.step K r n (.discard i) = s.close i x (K.discard r s.pages x.pos) := by
  simp only [step, h]

/-- Only open records are written to. -/
theorem RingSys.step_closed {s : RingSys} {i : Nat} (h : s.opened i = none) :
    (∀ bytes, s.step K r n (.fill i bytes) = s ∧ s.op K r (.fill i bytes) = []) ∧
      (s.step K r n (.submit i) = s ∧ s.op K r (.submit i) = []) ∧
      (s.step K r n (.discard i) = s ∧ s.op K r (.discard i) = []) := by
  refine ⟨fun bytes => ⟨?_, ?_⟩, ⟨?_, ?_⟩, ⟨?_, ?_⟩⟩
  · simp only [step, h]
  · simp only [op, h]
  · simp only [step, h]
  · simp [op, h]
  · simp only [step, h]
  · simp [op, h]

omit K r n in
private theorem lens_close {s : RingSys} {i : Nat} {x : Reserved} (h : s.opened i = some x) (p : RingPages) :
    (s.close i x p).lens = s.lens := by
  have hget := (Option.filter_eq_some_iff.1 h).1
  show (s.reserved.set i { x with closed := true }).map Reserved.len = s.reserved.map Reserved.len
  rw [List.map_set]
  exact set_of_getElem? (x := x.len) (RingSys.lens_eq_some hget)

/-- Records are only added, and only by reserving them. -/
theorem RingSys.lens_step (s : RingSys) (a : RingAction) :
    ∃ more, (s.step K r n a).lens = s.lens ++ more ∧ ∀ len ∈ more, ∃ w, a = .reserve len w := by
  have hself : ∀ {t : RingSys}, t.lens = s.lens →
      ∃ more, t.lens = s.lens ++ more ∧ ∀ len ∈ more, ∃ w, a = .reserve len w :=
    fun ht => ⟨[], ht.trans (List.append_nil _).symm, fun _ h => nomatch h⟩
  cases a with
  | reserve len w =>
    cases hp : K.reserve r w s.pages len with
    | some p =>
      rw [(step_granted K r n hp).1]
      exact ⟨[len], s.lens_push len p, fun l hl => ⟨w, by rw [List.mem_singleton.1 hl]⟩⟩
    | none =>
      rw [(step_refused K r n hp).1]
      exact hself rfl
  | fill i bytes =>
    cases hx : s.opened i with
    | none =>
      rw [((step_closed K r n hx).1 bytes).1]
      exact hself rfl
    | some x =>
      rw [step_fill K r n hx]
      split <;> exact hself rfl
  | submit i =>
    cases hx : s.opened i with
    | none =>
      rw [(step_closed K r n hx).2.1.1]
      exact hself rfl
    | some x =>
      rw [step_submit K r n hx]
      exact hself (lens_close hx _)
  | discard i =>
    cases hx : s.opened i with
    | none =>
      rw [(step_closed K r n hx).2.2.1]
      exact hself rfl
    | some x =>
      rw [step_discard K r n hx]
      exact hself (lens_close hx _)
  | consume err => exact hself rfl

/-- Only the consumer calls back. -/
theorem RingSys.delivered_step (s : RingSys) {a : RingAction} (ha : ∀ err, a ≠ .consume err) :
    (s.step K r n a).delivered = s.delivered := by
  cases a with
  | reserve len w =>
    cases hp : K.reserve r w s.pages len with
    | some p =>
      rw [(step_granted K r n hp).1]
      rfl
    | none => rw [(step_refused K r n hp).1]
  | fill i bytes =>
    cases hx : s.opened i with
    | none => rw [((step_closed K r n hx).1 bytes).1]
    | some x =>
      rw [step_fill K r n hx]
      split <;> rfl
  | submit i =>
    cases hx : s.opened i with
    | none => rw [(step_closed K r n hx).2.1.1]
    | some x =>
      rw [step_submit K r n hx]
      rfl
  | discard i =>
    cases hx : s.opened i with
    | none => rw [(step_closed K r n hx).2.2.1]
    | some x =>
      rw [step_discard K r n hx]
      rfl
  | consume err => exact absurd rfl (ha err)

theorem RingSys.total_le_step (s : RingSys) (a : RingAction) : s.total ≤ (s.step K r n a).total := by
  obtain ⟨more, hmore, -⟩ := s.lens_step K r n a
  unfold total
  rw [← length_lens, ← length_lens, hmore, ← start_append s.lens more (Nat.le_refl _)]
  exact start_mono _ (by simp)

theorem RingSys.total_le_run (s : RingSys) (as : List RingAction) : s.total ≤ (runFrom (step K r n) s as).total :=
  runFrom_invariant (fun t : RingSys => s.total ≤ t.total) (fun t a h => Nat.le_trans h (t.total_le_step K r n a))
    (Nat.le_refl _) as

variable {K r n}

/-- Every step of the machine is a step of the queue, or none. -/
theorem step_represents {s : RingSys} {q : Queue (List UInt8)} {m : Nat} (h : Represents r s q m) (a : RingAction)
    (hfit : (s.step K r n a).total < 2 ^ 64) :
    ∃ m', Represents r (s.step K r n a) (runFrom Queue.step q (s.op K r a)) m' := by
  have hle := s.total_le_step K r n a
  cases a with
  | reserve len w =>
    cases hp : K.reserve r w s.pages len with
    | some p =>
      obtain ⟨hstep, hop⟩ := RingSys.step_granted K r n hp
      rw [hstep, s.total_push] at hfit
      rw [hstep, hop]
      exact ⟨m, h.reserve (K.reserve_grants h.unconsumed_le hp) hfit⟩
    | none =>
      obtain ⟨hstep, hop⟩ := RingSys.step_refused K r n hp
      rw [hstep, hop]
      exact ⟨m, h⟩
  | fill i bytes =>
    cases hx : s.opened i with
    | none =>
      obtain ⟨hstep, hop⟩ := (RingSys.step_closed K r n hx).1 bytes
      rw [hstep, hop]
      exact ⟨m, h⟩
    | some x =>
      rw [RingSys.step_fill K r n hx]
      simp only [RingSys.op, hx]
      split
      · rename_i hlen
        exact ⟨m, h.fill hx hlen⟩
      · exact ⟨m, h⟩
  | submit i =>
    cases hx : s.opened i with
    | none =>
      obtain ⟨hstep, hop⟩ := (RingSys.step_closed K r n hx).2.1
      rw [hstep, hop]
      exact ⟨m, h⟩
    | some x =>
      rw [RingSys.step_submit K r n hx]
      simp only [RingSys.op, hx, Option.isSome_some, ↓reduceIte]
      exact ⟨m, h.submit K hx⟩
  | discard i =>
    cases hx : s.opened i with
    | none =>
      obtain ⟨hstep, hop⟩ := (RingSys.step_closed K r n hx).2.2
      rw [hstep, hop]
      exact ⟨m, h⟩
    | some x =>
      rw [RingSys.step_discard K r n hx]
      simp only [RingSys.op, hx, Option.isSome_some, ↓reduceIte]
      exact ⟨m, h.discard K hx⟩
  | consume err => exact h.consume (Nat.lt_of_le_of_lt hle hfit) n err

end

/-- The consumer passes a record or leaves the queue as it is. -/
theorem RingSys.consumeOp_cases (s : RingSys) (r : Ring) : s.consumeOp r = [] ∨ s.consumeOp r = [.take] := by
  unfold consumeOp
  dsimp only
  split
  · exact .inr rfl
  · split
    · split
      · split
        · exact .inr rfl
        · exact .inl rfl
      · exact .inl rfl
    · exact .inl rfl
  · exact .inl rfl

/-- Several steps. -/
theorem steps_represents {K : RingKernel} {r : Ring} {n : Nat} {s : RingSys} {q : Queue (List UInt8)} {m : Nat}
    (h : Represents r s q m) (as : List RingAction) (hfit : (runFrom (RingSys.step K r n) s as).total < 2 ^ 64) :
    ∃ m', Represents r (runFrom (RingSys.step K r n) s as)
      (runFrom Queue.step q (collect (RingSys.step K r n) (RingSys.op K r) s as)) m' := by
  induction as using List.reverseRecOn with
  | nil => exact ⟨m, h⟩
  | append_singleton as a ih =>
    rw [runFrom_concat] at hfit ⊢
    obtain ⟨m', hm⟩ := ih (Nat.lt_of_le_of_lt (RingSys.total_le_step K r n _ a) hfit)
    rw [collect_concat, runFrom_append]
    exact step_represents hm a hfit

theorem init_represents (r : Ring) (data : Nat → UInt8) : Represents r (RingSys.init data) {} 0 where
  sound := Queue.sound_run []
  length := rfl
  fits x hx := by cases hx
  pos i x hx := by cases hx
  producer := rfl
  freed := rfl
  consumer := rfl
  closed i x e hx := by cases hx
  window := Nat.zero_le _
  holds i x e hi hx := by cases hx
  reading := trivial
  delivered := rfl

/-- The machine refines the queue of reservations along every run, as long as the positions have not wrapped around. -/
theorem run_represents (K : RingKernel) (r : Ring) (n : Nat) (data : Nat → UInt8) (as : List RingAction)
    (hfit : (RingSys.run K r n data as).total < 2 ^ 64) :
    ∃ m, Represents r (RingSys.run K r n data as) (Queue.run (RingSys.ops K r n data as)) m :=
  steps_represents (init_represents r data) as hfit

/-- Whatever the kernel grants and the order of the steps, the callback has been called with the submitted ones of the
records that were passed: in the order of their reservation, each once and as it was submitted.  The pages are never
read outside of their mapping, and all records that were not given back are within the ring. -/
theorem callbacks_in_order (K : RingKernel) (r : Ring) (n : Nat) (data : Nat → UInt8) (as : List RingAction)
    (hfit : (RingSys.run K r n data as).total < 2 ^ 64) :
    (RingSys.run K r n data as).delivered = Queue.received (RingSys.ops K r n data as) ∧
      (RingSys.run K r n data as).consumer.pc ≠ .crashed ∧
      ((RingSys.run K r n data as).pages.producerPos -
        (RingSys.run K r n data as).pages.consumerPos).toNat ≤ r.size := by
  obtain ⟨m, h⟩ := run_represents K r n data as hfit
  refine ⟨?_, ?_, ?_⟩
  · rw [Queue.received_eq]
    exact h.delivered
  · intro hpc
    have hreading := h.reading
    unfold ConsumerAt at hreading
    rw [hpc] at hreading
    exact hreading
  · exact h.unconsumed_le

/-- Of two records the second is submitted first, and the consumer waits for the other one. -/
theorem callbacks_in_order_overtaken :
    let r : Ring := ⟨6, by decide, by decide⟩
    let as : List RingAction := [.reserve 1 0, .reserve 1 0, .fill 1 [2], .submit 1, .consume 0, .consume 0, .consume 0,
      .fill 0 [1], .submit 0] ++ List.replicate 8 (.consume 0)
    ((RingSys.run .plain r 8 (fun _ => 0) as).delivered = Queue.received (RingSys.ops .plain r 8 (fun _ => 0) as) ∧
        (RingSys.run .plain r 8 (fun _ => 0) as).consumer.pc ≠ .crashed ∧
        ((RingSys.run .plain r 8 (fun _ => 0) as).pages.producerPos -
          (RingSys.run .plain r 8 (fun _ => 0) as).pages.consumerPos).toNat ≤ r.size) ∧
      (RingSys.run .plain r 8 (fun _ => 0) as).delivered = [[1], [2]] :=
  ⟨callbacks_in_order _ _ 8 _ _ (by decide +kernel), by decide +kernel⟩

end VsomeipCollector

import Mathlib.Data.Nat.Bitwise
import VsomeipCollector.Library.Circular
import VsomeipCollector.Library.Endian
import VsomeipCollector.Library.Reservations

/-!
# The ring buffer (`lib/libbpf/src/ringbuf.c`)

The kernel and the collector share the pages of a ring buffer.  A BPF program reserves a record, fills it and submits or
discards it; the kernel writes the header of the record and the producer position.  `ringbuf_process_ring` reads from
the consumer position on and calls back with every submitted record.  The two run at the same time: `RingSys` is a
machine whose steps are the accesses of either side to the shared pages, in any order.

The helpers that reserve, submit and discard are the kernel's and not part of the repository.  They are a parameter of
the machine, a `RingKernel` with what is documented of them; `RingKernel.plain` is one.

It refines the queue of `Reservations` (`run_represents`): whatever the order of the steps, the callback receives the
submitted records in the order of their reservation, each once and with the bytes it was submitted with, and the pages
are never read outside of their mapping (`callbacks_in_order`).
-/

namespace VsomeipCollector

open Circular Endian Reservations Run

/-! ### Headers of records -/

def ringbufBusyBit : UInt32 := 0x80000000
def ringbufDiscardBit : UInt32 := 0x40000000
def ringbufHdrSz : UInt32 := 8

def roundupLen (len : UInt32) : UInt32 :=
  -- clear out top 2 bits (discard and busy, if set)
  let len := len <<< 2
  let len := len >>> 2
  let len := len + ringbufHdrSz
  (len + 7) / 8 * 8

private theorem and_flag_eq_zero {w flag : UInt32} {k : Nat} (hflag : flag.toNat = 2 ^ k) :
    w &&& flag = 0 ↔ w.toNat.testBit k = false := by
  rw [← UInt32.toNat_inj, UInt32.toNat_and, hflag, Nat.and_two_pow]
  cases w.toNat.testBit k with
  | false => simp
  | true => simp

theorem and_busyBit (w : UInt32) : w &&& ringbufBusyBit = 0 ↔ w.toNat.testBit 31 = false := and_flag_eq_zero rfl

theorem and_discardBit (w : UInt32) : w &&& ringbufDiscardBit = 0 ↔ w.toNat.testBit 30 = false :=
  and_flag_eq_zero rfl

/-- The flags of a header take no part in the room of its record. -/
theorem toNat_roundupLen (len : UInt32) : (roundupLen len).toNat = (len.toNat % 2 ^ 30 + 15) / 8 * 8 := by
  have hclear : (len <<< 2 >>> 2).toNat = len.toNat % 2 ^ 30 := by
    rw [UInt32.toNat_shiftRight, UInt32.toNat_shiftLeft, Nat.shiftRight_eq_div_pow, Nat.shiftLeft_eq]
    have hlen := len.toNat_lt
    simp only [show (2 : UInt32).toNat % 32 = 2 from rfl]
    omega
  have hlt : len.toNat % 2 ^ 30 < 2 ^ 30 := Nat.mod_lt _ (by decide)
  unfold roundupLen
  simp only [UInt32.toNat_mul, UInt32.toNat_div, UInt32.toNat_add, hclear, show ringbufHdrSz.toNat = 8 from rfl,
    show (7 : UInt32).toNat = 7 from rfl, show (8 : UInt32).toNat = 8 from rfl]
  omega

/-- The header of a discarded record of length `len`. -/
theorem toNat_or_discardBit {len : UInt32} (h : len.toNat < 2 ^ 30) :
    (len ||| ringbufDiscardBit).toNat = 2 ^ 30 + len.toNat := by
  have hor := or_eq_add (x := 1) h
  rw [UInt32.toNat_or, Nat.or_comm]
  rwa [Nat.one_mul] at hor

theorem ofNat_ofLittle_toLittle (w : UInt32) : UInt32.ofNat (ofLittle (toLittle 4 w.toNat)) = w := by
  rw [ofLittle_toLittle w.toNat_lt]
  exact UInt32.ofNat_toNat

/-- A ring of `2 ^ bits` bytes; `max_entries` of a map is a power of two of at least a page. -/
structure Ring where
  bits : Nat
  three_le : 3 ≤ bits
  le : bits ≤ 31

def Ring.size (r : Ring) : Nat := 2 ^ r.bits

def Ring.mask (r : Ring) : UInt64 := UInt64.ofNat (r.size - 1)

/-- The shared pages. -/
structure RingPages where
  consumerPos : UInt64 := 0
  producerPos : UInt64 := 0
  data : Nat → UInt8

/-- The data pages are mapped twice in a row; `none` is an access beyond them. -/
def RingPages.bytes (r : Ring) (p : RingPages) (off n : Nat) : Option (List UInt8) :=
  if off + n ≤ 2 * r.size then some (read r.size p.data off n) else none

/-! ### The consumer (`ringbuf_process_ring`) -/

inductive RingPc where
  /-- Not called. -/
  | idle
  /-- At the start of the outer loop. -/
  | outer
  /-- At the test of the inner loop. -/
  | inner
  /-- Before `sample_cb`. -/
  | sample (off : Nat) (len : UInt32)
  /-- Before the consumer position is written. -/
  | store
  /-- The same after a callback that failed. -/
  | bail (err : Int)
  /-- The pages were read outside of their mapping. -/
  | crashed
deriving DecidableEq, Repr

structure RingConsumer where
  pc : RingPc := .idle
  consPos : UInt64 := 0
  prodPos : UInt64 := 0
  gotNewData : Bool := false
  cnt : Nat := 0
  /-- What the last call returned. -/
  result : Int := 0

def RingConsumer.finish (c : RingConsumer) (result : Int) : RingConsumer := { c with pc := .idle, result := result }

section

variable (r : Ring)

/-- One step of the call, up to and including its next access to the shared pages.  `n` is the bound on the number of
records and `err` what the callback returns, if it is called; the last component is what it is called with. -/
def RingConsumer.tick (n : Nat) (err : Int) (c : RingConsumer) (p : RingPages) :
    RingConsumer × RingPages × Option (List UInt8) :=
  match c.pc with
  | .idle => ({ c with pc := .outer, consPos := p.consumerPos, cnt := 0 }, p, none)
  | .outer => ({ c with pc := .inner, gotNewData := false, prodPos := p.producerPos }, p, none)
  | .inner =>
    if c.consPos < c.prodPos then
      let off := (c.consPos &&& r.mask).toNat
      match p.bytes r off 4 with
      | none => ({ c with pc := .crashed }, p, none)
      | some bs =>
        let len := UInt32.ofNat (ofLittle bs)
        -- sample not committed yet, bail out for now
        if len &&& ringbufBusyBit ≠ 0 then (c.finish c.cnt, p, none)
        else
          let c := { c with gotNewData := true, consPos := c.consPos + (roundupLen len).toUInt64 }
          if len &&& ringbufDiscardBit = 0 then ({ c with pc := .sample (off + ringbufHdrSz.toNat) len }, p, none)
          else ({ c with pc := .store }, p, none)
    else if c.gotNewData then ({ c with pc := .outer }, p, none)
    else (c.finish c.cnt, p, none)
  | .sample off len =>
    match p.bytes r off len.toNat with
    | none => ({ c with pc := .crashed }, p, none)
    | some bs =>
      if err < 0 then ({ c with pc := .bail err }, p, some bs)
      else ({ c with pc := .store, cnt := c.cnt + 1 }, p, some bs)
  | .store =>
    let p := { p with consumerPos := c.consPos }
    if n ≤ c.cnt then (c.finish c.cnt, p, none) else ({ c with pc := .inner }, p, none)
  | .bail err => (c.finish err, { p with consumerPos := c.consPos }, none)
  | .crashed => (c, p, none)

section

variable {r} (n : Nat) (err : Int) {c : RingConsumer} (p : RingPages)

theorem RingConsumer.tick_idle (h : c.pc = .idle) :
    c.tick r n err p = ({ c with pc := .outer, consPos := p.consumerPos, cnt := 0 }, p, none) := by
  simp only [tick, h]

theorem RingConsumer.tick_outer (h : c.pc = .outer) :
    c.tick r n err p = ({ c with pc := .inner, gotNewData := false, prodPos := p.producerPos }, p, none) := by
  simp only [tick, h]

theorem RingConsumer.tick_inner {p : RingPages} (h : c.pc = .inner) (hlt : c.consPos < c.prodPos) {w : UInt32}
    (hw : p.bytes r (c.consPos &&& r.mask).toNat 4 = some (toLittle 4 w.toNat)) :
    c.tick r n err p =
      if w &&& ringbufBusyBit ≠ 0 then (c.finish c.cnt, p, none)
      else if w &&& ringbufDiscardBit = 0 then
        ({ c with
          pc := .sample ((c.consPos &&& r.mask).toNat + ringbufHdrSz.toNat) w
          gotNewData := true
          consPos := c.consPos + (roundupLen w).toUInt64 }, p, none)
      else ({ c with pc := .store, gotNewData := true, consPos := c.consPos + (roundupLen w).toUInt64 }, p, none) := by
  simp only [tick, h, hlt, hw, ofNat_ofLittle_toLittle, ↓reduceIte]

theorem RingConsumer.tick_inner_end (h : c.pc = .inner) (hlt : ¬c.consPos < c.prodPos) :
    c.tick r n err p = if c.gotNewData then ({ c with pc := .outer }, p, none) else (c.finish c.cnt, p, none) := by
  simp only [tick, h, hlt, ↓reduceIte]

theorem RingConsumer.tick_sample {p : RingPages} {off : Nat} {len : UInt32} (h : c.pc = .sample off len)
    {bs : List UInt8} (hbs : p.bytes r off len.toNat = some bs) :
    c.tick r n err p =
      if err < 0 then ({ c with pc := .bail err }, p, some bs)
      else ({ c with pc := .store, cnt := c.cnt + 1 }, p, some bs) := by
  simp only [tick, h, hbs]

theorem RingConsumer.tick_store (h : c.pc = .store) :
    c.tick r n err p =
      if n ≤ c.cnt then (c.finish c.cnt, { p with consumerPos := c.consPos }, none)
      else ({ c with pc := .inner }, { p with consumerPos := c.consPos }, none) := by
  simp only [tick, h]

theorem RingConsumer.tick_bail {e : Int} (h : c.pc = .bail e) :
    c.tick r n err p = (c.finish e, { p with consumerPos := c.consPos }, none) := by
  simp only [tick, h]

/-- A step sees of the callback's result only whether it is negative. -/
theorem RingConsumer.tick_nonneg {err : Int} (herr : 0 ≤ err) : c.tick r n err p = c.tick r n 0 p := by
  cases hpc : c.pc with
  | sample off len =>
    cases hbs : p.bytes r off len.toNat with
    | none => simp only [tick, hpc, hbs]
    | some bs =>
      rw [tick_sample n err hpc hbs, tick_sample n 0 hpc hbs, if_neg (by omega), if_neg (by omega)]
  | idle | outer | inner | store | bail e | crashed => simp only [tick, hpc]

end

/-! ### The kernel -/

end

/-- What `bpf_ringbuf_reserve` has done where it did not refuse: the record lies between the old producer position and
the new one, within the ring, and its header has the length and says that it is open. -/
structure Grants (r : Ring) (len : UInt32) (p p' : RingPages) : Prop where
  /-- The top two bits of a length are flags. -/
  short : len.toNat < 2 ^ 30
  room : (p.producerPos - p.consumerPos).toNat + (roundupLen len).toNat ≤ r.size
  consumerPos : p'.consumerPos = p.consumerPos
  producerPos : p'.producerPos = p.producerPos + (roundupLen len).toUInt64
  header : read r.size p'.data p.producerPos.toNat 4 = toLittle 4 (len ||| ringbufBusyBit).toNat
  others : ChangedWithin r.size p.data p'.data p.producerPos.toNat (roundupLen len).toNat

/-- What `bpf_ringbuf_submit` and `bpf_ringbuf_discard` do to the record at `pos`: its header is exchanged. -/
structure Closes (r : Ring) (pos : UInt64) (header : UInt32) (p p' : RingPages) : Prop where
  consumerPos : p'.consumerPos = p.consumerPos
  producerPos : p'.producerPos = p.producerPos
  header : read r.size p'.data pos.toNat 4 = toLittle 4 header.toNat
  others : ChangedWithin r.size p.data p'.data pos.toNat ringbufHdrSz.toNat

/-- The helpers of the kernel that programs call.  Whether a record is granted is up to the kernel, which may go by more
than the pages: `w` stands for all else. -/
structure RingKernel where
  /-- `bpf_ringbuf_reserve`; `none` is a refusal, which leaves the pages as they are. -/
  reserve (r : Ring) (w : Nat) (p : RingPages) (len : UInt32) : Option RingPages
  /-- `bpf_ringbuf_submit` of the record with its header at `pos`. -/
  submit (r : Ring) (p : RingPages) (pos : UInt64) : RingPages
  /-- `bpf_ringbuf_discard`. -/
  discard (r : Ring) (p : RingPages) (pos : UInt64) : RingPages
  reserve_grants : ∀ {r w p len p'}, (p.producerPos - p.consumerPos).toNat ≤ r.size → reserve r w p len = some p' →
    Grants r len p p'
  submit_closes : ∀ {r p pos} {len : UInt32}, len.toNat < 2 ^ 30 →
    read r.size p.data pos.toNat 4 = toLittle 4 (len ||| ringbufBusyBit).toNat → Closes r pos len p (submit r p pos)
  discard_closes : ∀ {r p pos} {len : UInt32}, len.toNat < 2 ^ 30 →
    read r.size p.data pos.toNat 4 = toLittle 4 (len ||| ringbufBusyBit).toNat →
    Closes r pos (len ||| ringbufDiscardBit) p (discard r p pos)

theorem Ring.eight_le_size (r : Ring) : 8 ≤ r.size := Nat.pow_le_pow_right Nat.zero_lt_two r.three_le

/-- The header that is left of the one of an open record. -/
theorem or_busyBit_xor {len : UInt32} (h : len.toNat < 2 ^ 30) : (len ||| ringbufBusyBit) ^^^ ringbufBusyBit = len := by
  have h31 : len.toNat.testBit 31 = false := Nat.testBit_lt_two_pow (Nat.lt_trans h (by decide))
  have hbusy : ringbufBusyBit.toNat = 2 ^ 31 := rfl
  rw [← UInt32.toNat_inj, UInt32.toNat_xor, UInt32.toNat_or, hbusy]
  apply Nat.eq_of_testBit_eq
  intro i
  rw [Nat.testBit_xor, Nat.testBit_or, Nat.testBit_two_pow]
  by_cases hi : 31 = i
  · subst hi
    rw [h31]
    rfl
  · simp [hi]

namespace RingPages

variable (r : Ring) (p : RingPages)

/-- The header of a record is exchanged. -/
def setHeader (pos : UInt64) (header : UInt32) : RingPages :=
  { p with data := write r.size p.data pos.toNat (toLittle 4 header.toNat) }

theorem setHeader_closes (pos : UInt64) (header : UInt32) : Closes r pos header p (p.setHeader r pos header) where
  consumerPos := rfl
  producerPos := rfl
  header := by
    have hread := read_write p.data pos.toNat (show (toLittle 4 header.toNat).length ≤ r.size by
      rw [length_toLittle]
      exact Nat.le_trans (by decide) r.eight_le_size)
    rwa [length_toLittle] at hread
  others := by
    refine (changedWithin_write p.data pos.toNat (toLittle 4 header.toNat)).mono ?_
    rw [length_toLittle]
    decide

/-- The header of the record at `pos`. -/
def header (pos : UInt64) : UInt32 := UInt32.ofNat (ofLittle (read r.size p.data pos.toNat 4))

/-- A record behind the last one, with the header of an open record; its second half is the kernel's own. -/
def extend (len : UInt32) (w : Nat) : RingPages where
  consumerPos := p.consumerPos
  producerPos := p.producerPos + (roundupLen len).toUInt64
  data := write r.size p.data p.producerPos.toNat
    (toLittle 4 (len ||| ringbufBusyBit).toNat ++ toLittle 4 (UInt32.ofNat w).toNat)

variable {r p}

theorem extend_grants {len : UInt32} (w : Nat) (hlen : len.toNat < 2 ^ 30)
    (hroom : (p.producerPos - p.consumerPos).toNat + (roundupLen len).toNat ≤ r.size) :
    Grants r len p (p.extend r len w) where
  short := hlen
  room := hroom
  consumerPos := rfl
  producerPos := rfl
  header := by
    have hread := read_write p.data p.producerPos.toNat
      (show (toLittle 4 (len ||| ringbufBusyBit).toNat ++ toLittle 4 (UInt32.ofNat w).toNat).length ≤ r.size by
        rw [List.length_append, length_toLittle, length_toLittle]
        exact r.eight_le_size)
    rw [List.length_append, length_toLittle, length_toLittle, read_add] at hread
    exact (List.append_inj hread (by simp)).1
  others := by
    refine (changedWithin_write p.data p.producerPos.toNat _).mono ?_
    rw [List.length_append, length_toLittle, length_toLittle, toNat_roundupLen]
    omega

end RingPages

/-- A kernel that refuses a record only where it is too long or would fill the ring. -/
def RingKernel.plain : RingKernel where
  reserve r w p len :=
    if len.toNat < 2 ^ 30 ∧ (roundupLen len).toNat ≤ r.size ∧
        (p.producerPos + (roundupLen len).toUInt64 - p.consumerPos).toNat < r.size then
      some (p.extend r len w)
    else none
  submit r p pos := p.setHeader r pos (p.header r pos ^^^ ringbufBusyBit)
  discard r p pos := p.setHeader r pos (p.header r pos ^^^ ringbufBusyBit ||| ringbufDiscardBit)
  reserve_grants := by
    intro r w p len p' hle h
    obtain ⟨⟨hlen, hround, hroom⟩, h⟩ := Option.ite_none_right_eq_some.1 h
    obtain rfl := Option.some.inj h
    refine RingPages.extend_grants w hlen ?_
    have hsize : r.size ≤ 2 ^ 31 := Nat.pow_le_pow_right Nat.zero_lt_two r.le
    have hnew : p.producerPos + (roundupLen len).toUInt64 - p.consumerPos =
        p.producerPos - p.consumerPos + (roundupLen len).toUInt64 := by
      rw [UInt64.sub_eq_add_neg, UInt64.sub_eq_add_neg, UInt64.add_assoc, UInt64.add_comm _ (-_), ← UInt64.add_assoc]
    rw [hnew, UInt64.toNat_add, UInt32.toNat_toUInt64, Nat.mod_eq_of_lt (by omega)] at hroom
    exact Nat.le_of_lt hroom
  submit_closes := by
    intro r p pos len hlen hheader
    rw [RingPages.header, hheader, ofNat_ofLittle_toLittle, or_busyBit_xor hlen]
    exact p.setHeader_closes r pos len
  discard_closes := by
    intro r p pos len hlen hheader
    rw [RingPages.header, hheader, ofNat_ofLittle_toLittle, or_busyBit_xor hlen]
    exact p.setHeader_closes r pos _

/-! ### The producers -/

/-- A record that was reserved: where its header is, the length asked for, and whether it was submitted or discarded. -/
structure Reserved where
  pos : UInt64
  len : UInt32
  closed : Bool := false

structure RingSys where
  pages : RingPages
  consumer : RingConsumer := {}
  reserved : List Reserved := []
  /-- What the callback was called with so far. -/
  delivered : List (List UInt8) := []

inductive RingAction where
  /-- `bpf_ringbuf_reserve`; `w` is what the kernel goes by besides the pages. -/
  | reserve (len : UInt32) (w : Nat)
  /-- The program that reserved the `i`-th record writes to it. -/
  | fill (i : Nat) (bytes : List UInt8)
  | submit (i : Nat)
  | discard (i : Nat)
  /-- The next step of `ringbuf_process_ring`, or of the next call. -/
  | consume (err : Int)

namespace RingSys

section

variable (r : Ring)

/-- The `i`-th record, if it is still open. -/
def opened (s : RingSys) (i : Nat) : Option Reserved := (s.reserved[i]?).filter fun x => !x.closed

/-- A program writes to the data pages. -/
def poke (s : RingSys) (pos : Nat) (bs : List UInt8) : RingSys :=
  { s with pages := { s.pages with data := write r.size s.pages.data pos bs } }

/-- A record is open no more, and `p` are the pages with its new header. -/
def close (s : RingSys) (i : Nat) (x : Reserved) (p : RingPages) : RingSys :=
  { s with pages := p, reserved := s.reserved.set i { x with closed := true } }

/-- A record behind the last one, in the pages `p`. -/
def push (s : RingSys) (len : UInt32) (p : RingPages) : RingSys :=
  { s with pages := p, reserved := s.reserved ++ [⟨s.pages.producerPos, len, false⟩] }

/-- A step of the consumer. -/
def consume (n : Nat) (s : RingSys) (err : Int) : RingSys :=
  let t := s.consumer.tick r n err s.pages
  { s with consumer := t.1, pages := t.2.1, delivered := s.delivered ++ t.2.2.toList }

/-- The step of the queue of reservations in a step of the consumer. -/
def consumeOp (s : RingSys) : List (Op (List UInt8)) :=
  match s.consumer.pc with
  | .sample _ _ => [.take]
  | .inner =>
    -- a discarded record is passed without a callback
    if s.consumer.consPos < s.consumer.prodPos then
      match s.pages.bytes r (s.consumer.consPos &&& r.mask).toNat 4 with
      | some bs =>
        let len := UInt32.ofNat (ofLittle bs)
        if len &&& ringbufBusyBit = 0 ∧ len &&& ringbufDiscardBit ≠ 0 then [.take] else []
      | none => []
    else []
  | _ => []

end

/-- A ring buffer that was created, whatever its data pages hold. -/
def init (data : Nat → UInt8) : RingSys := { pages := { data := data } }

variable (K : RingKernel) (r : Ring)

def step (n : Nat) (s : RingSys) : RingAction → RingSys
  | .reserve len w =>
    match K.reserve r w s.pages len with
    | some p => s.push len p
    | none => s
  | .fill i bytes =>
    match s.opened i with
    | some x => if bytes.length = x.len.toNat then s.poke r (x.pos.toNat + 8) bytes else s
    | none => s
  | .submit i =>
    match s.opened i with
    | some x => s.close i x (K.submit r s.pages x.pos)
    | none => s
  | .discard i =>
    match s.opened i with
    | some x => s.close i x (K.discard r s.pages x.pos)
    | none => s
  | .consume err => s.consume r n err

/-- The step that the queue of reservations makes, if it makes one. -/
def op (s : RingSys) : RingAction → List (Op (List UInt8))
  | .reserve len w =>
    match K.reserve r w s.pages len with
    -- the record is not cleared
    | some p => [.reserve (read r.size p.data (s.pages.producerPos.toNat + 8) len.toNat)]
    | none => []
  | .fill i bytes =>
    match s.opened i with
    | some x => if bytes.length = x.len.toNat then [.fill i bytes] else []
    | none => []
  | .submit i => if (s.opened i).isSome then [.commit i] else []
  | .discard i => if (s.opened i).isSome then [.discard i] else []
  | .consume _ => s.consumeOp r

def run (n : Nat) (data : Nat → UInt8) (as : List RingAction) : RingSys := runFrom (step K r n) (init data) as

/-- The queue of reservations along a run. -/
def ops (n : Nat) (data : Nat → UInt8) (as : List RingAction) : List (Op (List UInt8)) :=
  collect (step K r n) (op K r) (init data) as

end RingSys

end VsomeipCollector

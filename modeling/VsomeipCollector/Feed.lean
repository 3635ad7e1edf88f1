import VsomeipCollector.Layout
import VsomeipCollector.StaleSlots
import VsomeipCollector.Drain

/-!
# Firings of programs and their ring buffer

A program of one module that fires reserves a record of the ring buffer, writes its event into the slot and submits it.
Firings on different processors and the consumer take their steps in any order: `Feed` is the ring buffer together with
the firings that got a slot.  Which ones do is up to the kernel.

Whatever the order, what the callback is called with are the events of the firings that were passed: in the order in
which they reserved their slots, each once, and each as its program made it of what the slot held (`delivered_run`).
-/

namespace VsomeipCollector

open Access Circular Patch Reservations Run

/-! ### Firings -/

/-- The programs of `app.bpf.c`. -/
inductive AppProg where
  | appSendEntry
  | appSendRet
  | appOnMessage
deriving DecidableEq, Repr

/-- The programs of `sd.bpf.c`. -/
inductive SdProg where
  | sdSend
  | sdProcessOffer
  | sdSendSubscription
  | sdHandleSubscription
deriving DecidableEq, Repr

/-- The programs that submit to the ring buffer of a module. -/
def EventKind.Prog : EventKind → Type
  | routing => RoutingProg
  | app => AppProg
  | sd => SdProg

/-- The size that the programs of a module reserve. -/
def EventKind.slotSize : EventKind → Nat
  | routing => RoutingEvent.size
  | app => AppEvent.size
  | sd => SdEvent.size

/-- A firing of a program. -/
structure Shot (k : EventKind) where
  prog : k.Prog
  ctx : PtRegs
  kernel : Kernel

section

variable (ids : Macros)

def AppProg.submit (k : Kernel) (slot : Option AppEvent) (ctx : PtRegs) : AppProg → Option AppEvent
  | appSendEntry => hookAppSendEntry ids k slot ctx
  | appSendRet => hookAppSendRet ids k slot ctx
  | appOnMessage => hookAppOnMessage ids k slot ctx

def SdProg.submit (k : Kernel) (slot : Option SdEvent) (ctx : PtRegs) : SdProg → Option SdEvent
  | sdSend => hookSdSend ids k slot ctx
  | sdProcessOffer => hookSdProcessOffer ids k slot ctx
  | sdSendSubscription => hookSdSendSubscription ids k slot ctx
  | sdHandleSubscription => hookSdHandleSubscription ids k slot ctx

/-- What the slot holds when the event is submitted, if it is. -/
def Shot.bytes : {k : EventKind} → Shot k → List UInt8 → Option (List UInt8)
  | .routing, x, slot =>
    (Firing.submit ids ⟨x.prog, x.ctx, x.kernel, true⟩ (.ofBytes slot)).map fun e => e.toBytes slot
  | .app, x, slot => (AppProg.submit ids x.kernel (some (.ofBytes slot)) x.ctx x.prog).map fun e => e.toBytes slot
  | .sd, x, slot => (SdProg.submit ids x.kernel (some (.ofBytes slot)) x.ctx x.prog).map fun e => e.toBytes slot

end

/-! ### The machine -/

/-- How far the program of a firing is. -/
inductive Stage where
  | reserved
  | written
  | submitted
deriving DecidableEq, Repr

structure Feed (k : EventKind) where
  ring : RingSys
  /-- The firings that got a slot, in the order of their reservations. -/
  shots : List (Shot k × Stage) := []

inductive FeedAction (k : EventKind) where
  /-- A program fires; `w` is what the kernel goes by when it grants or refuses the slot. -/
  | fire (x : Shot k) (w : Nat)
  /-- The program of the `i`-th slot writes its event. -/
  | write (i : Nat)
  | submit (i : Nat)
  /-- The next step of `ring_buffer__consume`, or of the next call. -/
  | consume

/-- The bytes that the `i`-th record holds, if it is open. -/
def RingSys.slot (r : Ring) (s : RingSys) (i : Nat) : Option (List UInt8) :=
  (s.opened i).map fun x => read r.size s.pages.data (x.pos.toNat + 8) x.len.toNat

namespace Feed

section

variable {k : EventKind} (K : RingKernel) (ids : Macros) (r : Ring)

/-- What an action does to the ring buffer. -/
def ringActions (p : Feed k) : FeedAction k → List RingAction
  | .fire _ w => [.reserve (UInt32.ofNat k.slotSize) w]
  | .write i =>
    match p.shots[i]? with
    | some (x, .reserved) => (((p.ring.slot r i).bind (x.bytes ids)).map (RingAction.fill i)).toList
    | _ => []
  | .submit i =>
    match p.shots[i]? with
    | some (_, .written) => [.submit i]
    | _ => []
  -- the callback returns 0
  | .consume => [.consume 0]

def step (p : Feed k) (a : FeedAction k) : Feed k where
  ring := runFrom (RingSys.step K r intMax) p.ring (p.ringActions ids r a)
  shots :=
    match a with
    | .fire x w =>
      match K.reserve r w p.ring.pages (UInt32.ofNat k.slotSize) with
      | some _ => p.shots ++ [(x, .reserved)]
      | none => p.shots
    | .write i => p.shots.modify i fun y => if y.2 = .reserved then (y.1, .written) else y
    | .submit i => p.shots.modify i fun y => if y.2 = .written then (y.1, .submitted) else y
    | .consume => p.shots

/-- What the callback is called with in an action. -/
def out (p : Feed k) : FeedAction k → List (List UInt8)
  | .consume => (p.ring.consumer.tick r intMax 0 p.ring.pages).2.2.toList
  | _ => []

def run (data : Nat → UInt8) (as : List (FeedAction k)) : Feed k := runFrom (step K ids r) { ring := .init data } as

end

end Feed

/-! ### Submitting -/

namespace Shot

variable (ids : Macros) (slot : List UInt8)

theorem submit_routing (x : Shot .routing) :
    ∃ e, Firing.submit ids ⟨x.prog, x.ctx, x.kernel, true⟩ (.ofBytes slot) = some e := by
  have hprog : ∀ p : RoutingProg, ∃ e, Firing.submit ids ⟨p, x.ctx, x.kernel, true⟩ (.ofBytes slot) = some e := by
    intro p
    cases p <;> exact ⟨_, rfl⟩
  exact hprog x.prog

theorem submit_app (x : Shot .app) : ∃ e, AppProg.submit ids x.kernel (some (.ofBytes slot)) x.ctx x.prog = some e := by
  have hprog : ∀ p : AppProg, ∃ e, AppProg.submit ids x.kernel (some (.ofBytes slot)) x.ctx p = some e := by
    intro p
    cases p <;> exact ⟨_, rfl⟩
  exact hprog x.prog

theorem submit_sd (x : Shot .sd) : ∃ e, SdProg.submit ids x.kernel (some (.ofBytes slot)) x.ctx x.prog = some e := by
  have hprog : ∀ p : SdProg, ∃ e, SdProg.submit ids x.kernel (some (.ofBytes slot)) x.ctx p = some e := by
    intro p
    cases p <;> exact ⟨_, rfl⟩
  exact hprog x.prog

variable {slot}

/-- With a slot every program submits its event. -/
theorem bytes_isSome {k : EventKind} (x : Shot k) (hslot : slot.length = k.slotSize) :
    ∃ bs, x.bytes ids slot = some bs ∧ bs.length = k.slotSize := by
  cases k with
  | routing =>
    obtain ⟨e, he⟩ := x.submit_routing ids slot
    exact ⟨e.toBytes slot, by simp only [bytes, he, Option.map_some], (e.length_toBytes hslot.ge).trans hslot⟩
  | app =>
    obtain ⟨e, he⟩ := x.submit_app ids slot
    exact ⟨e.toBytes slot, by simp only [bytes, he, Option.map_some], (e.length_toBytes hslot.ge).trans hslot⟩
  | sd =>
    obtain ⟨e, he⟩ := x.submit_sd ids slot
    exact ⟨e.toBytes slot, by simp only [bytes, he, Option.map_some], (e.length_toBytes hslot.ge).trans hslot⟩

end Shot

/-! ### The records of the firings -/

/-- A firing with how far it is and what its slot held when it was reserved. -/
structure Fired (k : EventKind) where
  shot : Shot k
  stage : Stage
  slot : List UInt8

/-- What its program leaves in the slot. -/
def Fired.written {k : EventKind} (ids : Macros) (y : Fired k) : List UInt8 := (y.shot.bytes ids y.slot).getD y.slot

def Fired.entry {k : EventKind} (ids : Macros) (y : Fired k) : Entry (List UInt8) :=
  match y.stage with
  | .reserved => .filling y.slot
  | .written => .filling (y.written ids)
  | .submitted => .committed (y.written ids)

/-- The queue of the ring buffer holds the firings. -/
structure Feed.Follows {k : EventKind} (ids : Macros) (p : Feed k) (q : Queue (List UInt8)) (ys : List (Fired k)) :
    Prop where
  shots : p.shots = ys.map fun y => (y.shot, y.stage)
  entries : q.entries = ys.map (Fired.entry ids)
  sizes : ∀ y ∈ ys, y.slot.length = k.slotSize
  lens : ∀ len ∈ p.ring.lens, len.toNat = k.slotSize

section

variable {α β : Type*} {xs : List α} {i : Nat} {f : α → α} {f' : β → β} {m : α → β}

private theorem map_modify_of (h : ∀ x, xs[i]? = some x → m (f x) = f' (m x)) :
    (xs.modify i f).map m = (xs.map m).modify i f' := by
  apply List.ext_getElem?
  intro j
  rw [List.getElem?_map, List.getElem?_modify, List.getElem?_modify, List.getElem?_map]
  by_cases hij : i = j
  · subst hij
    cases hx : xs[i]? with
    | none => rfl
    | some x => simpa using h x hx
  · simp [hij]

omit f' m in
private theorem forall_modify (P : α → Prop) (h : ∀ x ∈ xs, P x) (hf : ∀ x, P x → P (f x)) :
    ∀ x ∈ xs.modify i f, P x := by
  intro x hx
  obtain ⟨j, hj⟩ := List.getElem?_of_mem hx
  rw [List.getElem?_modify] at hj
  obtain ⟨y, hy, rfl⟩ := Option.map_eq_some_iff.1 hj
  have hPy := h y (List.mem_of_getElem? hy)
  split
  · exact hf y hPy
  · exact hPy

private theorem modify_of_fixed (h : ∀ x, xs[i]? = some x → f x = x) : xs.modify i f = xs := by
  apply List.ext_getElem?
  intro j
  rw [List.getElem?_modify]
  by_cases hij : i = j
  · subst hij
    cases hx : xs[i]? with
    | none => rfl
    | some x => simpa using h x hx
  · simp [hij]

end

namespace Feed

variable {k : EventKind} {K : RingKernel} {ids : Macros} {r : Ring} {p : Feed k}
  {q : Queue (List UInt8)} {m : Nat} {ys : List (Fired k)}

/-- What the queue of the ring buffer does in an action. -/
def queueOps (K : RingKernel) (ids : Macros) (r : Ring) (p : Feed k) (a : FeedAction k) : List (Op (List UInt8)) :=
  collect (RingSys.step K r intMax) (RingSys.op K r) p.ring (p.ringActions ids r a)

private theorem slot_of_filling (h : Represents r p.ring q m) {i : Nat} {a : List UInt8}
    (he : q.entries[i]? = some (.filling a)) :
    ∃ x, p.ring.opened i = some x ∧ p.ring.slot r i = some a := by
  obtain ⟨hlt, -⟩ := List.getElem?_eq_some_iff.1 he
  rw [h.length] at hlt
  have hx : p.ring.reserved[i]? = some p.ring.reserved[i] := List.getElem?_eq_getElem hlt
  have hopen : p.ring.opened i = some p.ring.reserved[i] := by
    refine Option.filter_eq_some_iff.2 ⟨hx, ?_⟩
    rw [h.closed i _ _ hx he]
    rfl
  obtain ⟨-, hmi, -⟩ := h.opened hopen
  refine ⟨_, hopen, ?_⟩
  unfold RingSys.slot
  rw [hopen, Option.map_some, (h.holds i _ _ hmi hx he).contents a (.inl rfl)]

variable (K) in
private theorem lens_of_other (hf : p.Follows ids q ys) (a : RingAction) (ha : ∀ len w, a ≠ .reserve len w) :
    ∀ len ∈ (p.ring.step K r intMax a).lens, len.toNat = k.slotSize := by
  obtain ⟨more, hmore, hnone⟩ := p.ring.lens_step K r intMax a
  intro len hlen
  rw [hmore] at hlen
  rcases List.mem_append.1 hlen with hlen | hlen
  · exact hf.lens len hlen
  · obtain ⟨w, rfl⟩ := hnone len hlen
    exact absurd rfl (ha len w)

private theorem follows_fire (hf : p.Follows ids q ys) (x : Shot k) (w : Nat) :
    ∃ ys', (p.step K ids r (.fire x w)).Follows ids
      (runFrom Queue.step q (p.queueOps K ids r (.fire x w))) ys' := by
  have hsize : (UInt32.ofNat k.slotSize).toNat = k.slotSize := by cases k <;> rfl
  have hring : (p.step K ids r (.fire x w)).ring = p.ring.step K r intMax (.reserve (UInt32.ofNat k.slotSize) w) := rfl
  have hops : p.queueOps K ids r (.fire x w) = p.ring.op K r (.reserve (UInt32.ofNat k.slotSize) w) := List.append_nil _
  have hshots : (p.step K ids r (.fire x w)).shots =
      match K.reserve r w p.ring.pages (UInt32.ofNat k.slotSize) with
      | some _ => p.shots ++ [(x, .reserved)]
      | none => p.shots := rfl
  cases hp : K.reserve r w p.ring.pages (UInt32.ofNat k.slotSize) with
  | some p' =>
    obtain ⟨hstep, hop⟩ := RingSys.step_granted K r intMax hp
    obtain ⟨slot, hslot⟩ : ∃ slot, slot =
        read r.size p'.data (p.ring.pages.producerPos.toNat + 8) (UInt32.ofNat k.slotSize).toNat := ⟨_, rfl⟩
    rw [hp] at hshots
    refine ⟨ys ++ [⟨x, .reserved, slot⟩], ?_, ?_, ?_, ?_⟩
    · rw [hshots, List.map_append, hf.shots]
      rfl
    · rw [hops, hop, ← hslot, List.map_append, ← hf.entries]
      rfl
    · intro y hy
      rcases List.mem_append.1 hy with hy | hy
      · exact hf.sizes y hy
      · rw [List.mem_singleton.1 hy]
        rw [hslot]
        exact (length_read ..).trans hsize
    · intro len hlen
      rw [hring, hstep, RingSys.lens_push] at hlen
      rcases List.mem_append.1 hlen with hlen | hlen
      · exact hf.lens len hlen
      · rw [List.mem_singleton.1 hlen]
        exact hsize
  | none =>
    obtain ⟨hstep, hop⟩ := RingSys.step_refused K r intMax hp
    rw [hp] at hshots
    refine ⟨ys, hshots.trans hf.shots, ?_, hf.sizes, ?_⟩
    · rw [hops, hop]
      exact hf.entries
    · rw [hring, hstep]
      exact hf.lens

/-- The state and the firing of a place in the list. -/
private theorem shot_at (hf : p.Follows ids q ys) {i : Nat} {x : Shot k} {st : Stage} (hx : p.shots[i]? = some (x, st)) :
    ∃ slot, ys[i]? = some ⟨x, st, slot⟩ ∧ q.entries[i]? = some (Fired.entry ids ⟨x, st, slot⟩) ∧
      slot.length = k.slotSize := by
  rw [hf.shots, List.getElem?_map] at hx
  obtain ⟨y, hy, hxy⟩ := Option.map_eq_some_iff.1 hx
  obtain ⟨rfl, rfl⟩ := Prod.mk.inj hxy
  refine ⟨y.slot, hy, ?_, hf.sizes y (List.mem_of_getElem? hy)⟩
  rw [hf.entries, List.getElem?_map, hy]
  rfl

private theorem follows_idle (hf : p.Follows ids q ys) {a : FeedAction k} (hacts : p.ringActions ids r a = [])
    (hshots : (p.step K ids r a).shots = p.shots) :
    ∃ ys', (p.step K ids r a).Follows ids (runFrom Queue.step q (p.queueOps K ids r a)) ys' := by
  have hring : (p.step K ids r a).ring = p.ring := by
    show runFrom _ _ (p.ringActions ids r a) = _
    rw [hacts]
    rfl
  have hops : p.queueOps K ids r a = [] := by
    unfold queueOps
    rw [hacts]
    rfl
  refine ⟨ys, hshots.trans hf.shots, ?_, hf.sizes, ?_⟩
  · rw [hops]
    exact hf.entries
  · rw [hring]
    exact hf.lens

private theorem follows_write (hf : p.Follows ids q ys) (h : Represents r p.ring q m) (i : Nat) :
    ∃ ys', (p.step K ids r (.write i)).Follows ids (runFrom Queue.step q (p.queueOps K ids r (.write i))) ys' := by
  by_cases hst : ∃ x, p.shots[i]? = some (x, .reserved)
  · obtain ⟨x, hx⟩ := hst
    obtain ⟨slot, hy, he, hslot⟩ := shot_at hf hx
    obtain ⟨z, hopen, hread⟩ := slot_of_filling h he
    obtain ⟨bs, hbs, hlen⟩ := x.bytes_isSome ids hslot
    have hacts : p.ringActions ids r (.write i) = [.fill i bs] := by
      simp only [ringActions, hx, hread, Option.bind_some, hbs, Option.map_some, Option.toList_some]
    have hz : z.len.toNat = k.slotSize := by
      have hget := (Option.filter_eq_some_iff.1 hopen).1
      exact hf.lens _ (List.mem_of_getElem? (RingSys.lens_eq_some hget))
    have hops : p.queueOps K ids r (.write i) = [.fill i bs] := by
      unfold queueOps
      rw [hacts]
      simp only [collect, RingSys.op, hopen, hlen, hz, ↓reduceIte, List.append_nil]
    refine ⟨ys.modify i fun y => { y with stage := .written }, ?_, ?_, ?_, ?_⟩
    · show p.shots.modify i _ = _
      rw [hf.shots]
      refine (map_modify_of ?_).symm
      intro y hy'
      obtain rfl := Option.some.inj (hy.symm.trans hy')
      rfl
    · rw [hops]
      show q.entries.modify i (Entry.fill bs) = _
      rw [hf.entries]
      refine (map_modify_of ?_).symm
      intro y hy'
      obtain rfl := Option.some.inj (hy.symm.trans hy')
      simp only [Fired.entry, Fired.written, hbs, Option.getD_some, Entry.fill]
    · exact forall_modify (fun y : Fired k => y.slot.length = k.slotSize) hf.sizes fun _ h => h
    · show ∀ len ∈ (runFrom _ p.ring (p.ringActions ids r (.write i))).lens, _
      rw [hacts]
      exact lens_of_other K hf (.fill i bs) fun _ _ h => RingAction.noConfusion h
  · have hacts : p.ringActions ids r (.write i) = [] := by
      unfold ringActions
      dsimp only
      split
      · rename_i x hx
        exact absurd ⟨x, hx⟩ hst
      · rfl
    refine follows_idle hf hacts (modify_of_fixed ?_)
    rintro ⟨x, st⟩ hx
    exact if_neg fun hres : st = .reserved => hst ⟨x, hres ▸ hx⟩

private theorem follows_submit (hf : p.Follows ids q ys) (h : Represents r p.ring q m) (i : Nat) :
    ∃ ys', (p.step K ids r (.submit i)).Follows ids (runFrom Queue.step q (p.queueOps K ids r (.submit i))) ys' := by
  by_cases hst : ∃ x, p.shots[i]? = some (x, .written)
  · obtain ⟨x, hx⟩ := hst
    obtain ⟨slot, hy, he, -⟩ := shot_at hf hx
    obtain ⟨z, hopen, -⟩ := slot_of_filling h he
    have hacts : p.ringActions ids r (.submit i) = [.submit i] := by simp only [ringActions, hx]
    have hops : p.queueOps K ids r (.submit i) = [.commit i] := by
      unfold queueOps
      rw [hacts]
      simp only [collect, RingSys.op, hopen, Option.isSome_some, ↓reduceIte, List.append_nil]
    refine ⟨ys.modify i fun y => { y with stage := .submitted }, ?_, ?_, ?_, ?_⟩
    · show p.shots.modify i _ = _
      rw [hf.shots]
      refine (map_modify_of ?_).symm
      intro y hy'
      obtain rfl := Option.some.inj (hy.symm.trans hy')
      rfl
    · rw [hops]
      show q.entries.modify i Entry.commit = _
      rw [hf.entries]
      refine (map_modify_of ?_).symm
      intro y hy'
      obtain rfl := Option.some.inj (hy.symm.trans hy')
      rfl
    · exact forall_modify (fun y : Fired k => y.slot.length = k.slotSize) hf.sizes fun _ h => h
    · show ∀ len ∈ (runFrom _ p.ring (p.ringActions ids r (.submit i))).lens, _
      rw [hacts]
      exact lens_of_other K hf (.submit i) fun _ _ h => RingAction.noConfusion h
  · have hacts : p.ringActions ids r (.submit i) = [] := by
      unfold ringActions
      dsimp only
      split
      · rename_i x hx
        exact absurd ⟨x, hx⟩ hst
      · rfl
    refine follows_idle hf hacts (modify_of_fixed ?_)
    rintro ⟨x, st⟩ hx
    exact if_neg fun hres : st = .written => hst ⟨x, hres ▸ hx⟩

private theorem follows_consume (hf : p.Follows ids q ys) :
    ∃ ys', (p.step K ids r .consume).Follows ids (runFrom Queue.step q (p.queueOps K ids r .consume)) ys' := by
  have hops : p.queueOps K ids r .consume = p.ring.consumeOp r := List.append_nil _
  refine ⟨ys, hf.shots, ?_, hf.sizes, ?_⟩
  · rw [hops]
    rcases p.ring.consumeOp_cases r with hop | hop
    · rw [hop]
      exact hf.entries
    · rw [hop]
      show (q.step .take).entries = _
      rw [Queue.step_take]
      split <;> exact hf.entries
  · exact lens_of_other K hf (.consume 0) fun _ _ h => RingAction.noConfusion h

theorem Follows.step (hf : p.Follows ids q ys) (h : Represents r p.ring q m) (a : FeedAction k) :
    ∃ ys', (p.step K ids r a).Follows ids (runFrom Queue.step q (p.queueOps K ids r a)) ys' := by
  cases a with
  | fire x w => exact follows_fire hf x w
  | write i => exact follows_write hf h i
  | submit i => exact follows_submit hf h i
  | consume => exact follows_consume hf

/-- A firing whose entry is closed has submitted what its program wrote. -/
private theorem handed_of_closed {ys : List (Fired k)} (h : ∀ e ∈ ys.map (Fired.entry ids), e.isOpen = false) :
    (∀ y ∈ ys, y.stage = .submitted) ∧
      (ys.map (Fired.entry ids)).filterMap Entry.handed = ys.map (Fired.written ids) := by
  have hsubmitted : ∀ y ∈ ys, y.stage = .submitted := by
    intro y hy
    have hclosed := h (y.entry ids) (List.mem_map_of_mem hy)
    unfold Fired.entry at hclosed
    cases hst : y.stage with
    | submitted => rfl
    | reserved | written =>
      rw [hst] at hclosed
      cases hclosed
  refine ⟨hsubmitted, ?_⟩
  have hhanded : ∀ y ∈ ys, (Entry.handed ∘ Fired.entry ids) y = some (y.written ids) := by
    intro y hy
    simp only [Function.comp_apply, Fired.entry, hsubmitted y hy, Entry.handed]
  rw [List.filterMap_map, List.filterMap_congr hhanded]
  exact congrFun List.filterMap_eq_map _

private theorem passed_eq (hq : q.Sound) (hf : p.Follows ids q ys) :
    (∀ y ∈ ys.take q.taken, y.stage = .submitted) ∧ q.passed = (ys.take q.taken).map (Fired.written ids) := by
  have hclosed := hq.2
  rw [hf.entries, ← List.map_take] at hclosed
  unfold Queue.passed
  rw [hf.entries, ← List.map_take]
  exact handed_of_closed hclosed

/-! ### Runs -/

section

variable (K ids r) (data : Nat → UInt8)

/-- The actions of the ring buffer along a run. -/
def ringRun (as : List (FeedAction k)) : List RingAction :=
  collect (step K ids r) (ringActions ids r) { ring := .init data } as

theorem ring_run (as : List (FeedAction k)) :
    (run K ids r data as).ring = RingSys.run K r intMax data (ringRun K ids r data as) := by
  refine runFrom_simulates (ringActions ids r) (fun p s => p.ring = s) ?_ rfl as
  rintro p _ a rfl
  rfl

/-- What the ring buffer delivers is what the callback is called with. -/
theorem delivered_step (p : Feed k) (a : FeedAction k) :
    (p.step K ids r a).ring.delivered = p.ring.delivered ++ p.out r a := by
  have hother : ∀ acts : List RingAction, (∀ b ∈ acts, ∀ err, b ≠ .consume err) →
      (runFrom (RingSys.step K r intMax) p.ring acts).delivered = p.ring.delivered ++ [] := by
    intro acts hacts
    rw [List.append_nil]
    induction acts using List.reverseRecOn with
    | nil => rfl
    | append_singleton acts b ih =>
      rw [runFrom_concat, RingSys.delivered_step K r intMax _ (hacts b (by simp))]
      exact ih fun c hc => hacts c (by simp [hc])
  cases a with
  | fire x w =>
    refine hother _ fun b hb err => ?_
    rw [List.mem_singleton.1 hb]
    exact nofun
  | write i =>
    refine hother _ fun b hb err => ?_
    unfold ringActions at hb
    dsimp only at hb
    split at hb
    · obtain ⟨bs, -, rfl⟩ := Option.map_eq_some_iff.1 (Option.mem_toList.1 hb)
      exact nofun
    · cases hb
  | submit i =>
    refine hother _ fun b hb err => ?_
    unfold ringActions at hb
    dsimp only at hb
    split at hb
    · rw [List.mem_singleton.1 hb]
      exact nofun
    · cases hb
  | consume => exact congrArg RingSys.delivered (show p.ring.consume r intMax 0 = _ from p.ring.step_consume rfl)

/-- The queue of the ring buffer along a run. -/
def queue (as : List (FeedAction k)) : Queue (List UInt8) :=
  Queue.run (RingSys.ops K r intMax data (ringRun K ids r data as))

theorem queue_concat (as : List (FeedAction k)) (a : FeedAction k) :
    queue K ids r data (as ++ [a]) =
      runFrom Queue.step (queue K ids r data as) ((run K ids r data as).queueOps K ids r a) := by
  have hring := ring_run K ids r data as
  unfold queue Queue.run RingSys.ops queueOps
  rw [hring]
  unfold ringRun RingSys.run
  rw [collect_concat, collect_append, runFrom_append]
  rfl

/-- While only the consumer acts, it takes its steps alone. -/
theorem ring_replicate_consume (as : List (FeedAction k)) (j : Nat) :
    (run K ids r data (as ++ List.replicate j .consume)).ring =
      (RingSys.tickAlone r intMax)^[j] (run K ids r data as).ring := by
  induction j with
  | zero => rw [List.replicate_zero, List.append_nil, Function.iterate_zero_apply]
  | succ j ih =>
    rw [List.replicate_succ', ← List.append_assoc, Function.iterate_succ_apply', ← ih]
    unfold run
    rw [runFrom_concat]
    rfl

theorem total_replicate_consume (as : List (FeedAction k)) (j : Nat) :
    (run K ids r data (as ++ List.replicate j .consume)).ring.total = (run K ids r data as).ring.total := by
  rw [ring_replicate_consume]
  induction j with
  | zero => rfl
  | succ j ih =>
    rw [Function.iterate_succ_apply', ← ih]
    rfl

theorem shots_replicate_consume (as : List (FeedAction k)) (j : Nat) :
    (run K ids r data (as ++ List.replicate j .consume)).shots = (run K ids r data as).shots := by
  induction j with
  | zero => rw [List.replicate_zero, List.append_nil]
  | succ j ih =>
    rw [List.replicate_succ', ← List.append_assoc, ← ih]
    unfold run
    rw [runFrom_concat]
    rfl

/-- Along every run the queue of the ring buffer holds the firings. -/
theorem follows_run (as : List (FeedAction k)) (hfit : (run K ids r data as).ring.total < 2 ^ 64) :
    (∃ m, Represents r (run K ids r data as).ring (queue K ids r data as) m) ∧
      ∃ ys, (run K ids r data as).Follows ids (queue K ids r data as) ys := by
  induction as using List.reverseRecOn with
  | nil => exact ⟨⟨0, init_represents r data⟩, [], rfl, rfl, nofun, nofun⟩
  | append_singleton as a ih =>
    have hrun : run K ids r data (as ++ [a]) = (run K ids r data as).step K ids r a := runFrom_concat ..
    rw [hrun] at hfit ⊢
    rw [queue_concat]
    have hle : (run K ids r data as).ring.total ≤ ((run K ids r data as).step K ids r a).ring.total :=
      RingSys.total_le_run ..
    obtain ⟨⟨m, hm⟩, ys, hys⟩ := ih (Nat.lt_of_le_of_lt hle hfit)
    exact ⟨steps_represents hm _ hfit, hys.step hm a⟩

end

end Feed

/-- What the callback has been called with: the firings that were passed, as their programs left them. -/
structure Passed {k : EventKind} (ids : Macros) (p : Feed k) (ys : List (Fired k)) (m : Nat) : Prop where
  shots : p.shots = ys.map fun y => (y.shot, y.stage)
  sizes : ∀ y ∈ ys, y.slot.length = k.slotSize
  submitted : ∀ y ∈ ys.take m, y.stage = .submitted
  delivered : p.ring.delivered = (ys.take m).map (Fired.written ids)

/-- Whatever the order of the steps, the callback has been called with the events of the firings that were passed, in the
order of their reservations, each once and as its program made it of what its slot held. -/
theorem delivered_run {k : EventKind} (K : RingKernel) (ids : Macros) (r : Ring) (data : Nat → UInt8)
    (as : List (FeedAction k)) (hfit : (Feed.run K ids r data as).ring.total < 2 ^ 64) :
    ∃ ys m, Passed ids (Feed.run K ids r data as) ys m := by
  obtain ⟨⟨m, hm⟩, ys, hys⟩ := Feed.follows_run K ids r data as hfit
  obtain ⟨hsubmitted, hpassed⟩ := Feed.passed_eq hm.sound hys
  exact ⟨ys, _, hys.shots, hys.sizes, hsubmitted, hm.delivered.trans hpassed⟩

/-- Where the ring is empty between two calls, every firing that got a slot was passed. -/
theorem delivered_settled {k : EventKind} (K : RingKernel) (ids : Macros) (r : Ring) (data : Nat → UInt8)
    (as : List (FeedAction k)) (hfit : (Feed.run K ids r data as).ring.total < 2 ^ 64)
    (hidle : (Feed.run K ids r data as).ring.consumer.pc = .idle)
    (hempty : (Feed.run K ids r data as).ring.pages.consumerPos = (Feed.run K ids r data as).ring.pages.producerPos) :
    ∃ ys, Passed ids (Feed.run K ids r data as) ys ys.length := by
  obtain ⟨⟨m, hm⟩, ys, hys⟩ := Feed.follows_run K ids r data as hfit
  obtain ⟨hsubmitted, hpassed⟩ := Feed.passed_eq hm.sound hys
  have htaken : (Feed.queue K ids r data as).taken = ys.length := by
    rw [hm.taken_of_empty hidle hempty, hys.entries, List.length_map]
  rw [htaken] at hsubmitted hpassed
  exact ⟨ys, hys.shots, hys.sizes, hsubmitted, hm.delivered.trans hpassed⟩

/-- Where every firing that got a slot has submitted its event, a call of `ring_buffer__consume` that runs alone passes
all that was not passed yet: no event is lost, and the ring is empty. -/
theorem delivered_drained {k : EventKind} (K : RingKernel) (ids : Macros) (r : Ring) (data : Nat → UInt8)
    (as : List (FeedAction k)) (hfit : (Feed.run K ids r data as).ring.total < 2 ^ 64)
    (hidle : (Feed.run K ids r data as).ring.consumer.pc = .idle)
    (hall : ∀ y ∈ (Feed.run K ids r data as).shots, y.2 = .submitted) :
    ∃ j ys, Passed ids (Feed.run K ids r data (as ++ List.replicate j .consume)) ys ys.length ∧
      (Feed.run K ids r data (as ++ List.replicate j .consume)).ring.consumer.pc = .idle ∧
      (Feed.run K ids r data (as ++ List.replicate j .consume)).ring.pages.consumerPos =
        (Feed.run K ids r data (as ++ List.replicate j .consume)).ring.pages.producerPos := by
  obtain ⟨⟨m, hm⟩, ys, hys⟩ := Feed.follows_run K ids r data as hfit
  set q := Feed.queue K ids r data as with hq
  have hstages : ∀ y ∈ ys, y.stage = .submitted := by
    intro y hy
    refine hall (y.shot, y.stage) ?_
    rw [hys.shots]
    exact List.mem_map_of_mem hy
  have hclosed : ∀ e ∈ q.entries, e.isOpen = false := by
    intro e he
    rw [hys.entries] at he
    obtain ⟨y, hy, rfl⟩ := List.mem_map.1 he
    unfold Fired.entry
    rw [hstages y hy]
    rfl
  obtain ⟨t, ⟨j, hj⟩, hd⟩ := hm.call_drained hfit hidle hm.ready_lt
  have hring : (Feed.run K ids r data (as ++ List.replicate j .consume)).ring = t := by
    rw [Feed.ring_replicate_consume]
    exact hj
  refine ⟨j, ys, ⟨?_, hys.sizes, ?_, ?_⟩, ?_, ?_⟩
  · rw [Feed.shots_replicate_consume]
    exact hys.shots
  · rw [List.take_length]
    exact hstages
  · have hpassed : q.passed ++ (q.entries.drop q.taken).filterMap Entry.handed = q.entries.filterMap Entry.handed := by
      unfold Queue.passed
      rw [← List.filterMap_append, List.take_append_drop]
    have hbefore : (Feed.run K ids r data as).ring.delivered = q.passed := hm.delivered
    rw [hring, List.take_length, hd.delivered, Queue.ready_of_closed hclosed]
    show (Feed.run K ids r data as).ring.delivered ++ _ = _
    rw [hbefore, hpassed, hys.entries]
    rw [hys.entries] at hclosed
    exact (Feed.handed_of_closed hclosed).2
  · rw [hring]
    exact hd.pc
  · rw [hring]
    exact hm.emptied hd hclosed rfl rfl

end VsomeipCollector

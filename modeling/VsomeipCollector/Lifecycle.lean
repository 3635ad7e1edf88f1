import VsomeipCollector.Delivery
import VsomeipCollector.Resources
import VsomeipCollector.Stop

/-!
# What the program owns

`Main` is the program with what its manager owns: the collectors, their resources of libbpf and the epoll instance with
the descriptors that are registered there.  Its steps are those of `Proc`, each with what it does to these.

The manager has several collectors, and libbpf is one.  A collector whose resources are live among others does with each
call what it would do alone (`frame_init`, `frame_attach`, `frame_destroy`), so what is known of one collector holds for
every collector of the manager.  In every state of every run each live resource is held by one collector and nothing was
released twice, a collector that is polled has a live ring buffer, and a program that has exited holds nothing
(`main_safe`).
-/

namespace VsomeipCollector

open Collector Run StatsCollector Table

/-! ### Collectors that share libbpf -/

/-- The same state, with resources of others live as well. -/
def Sys.frame (rest : Multiset Resource) (s : Sys) : Sys := { s with lib := s.lib.frame rest }

section

variable (rest : Multiset Resource) {s : Sys}

theorem frame_init (env : InitEnv) :
    init env (s.frame rest) = ((init env s).1, (init env s).2.frame rest) := by
  have hrel : ∀ make : Nat → Resource, ((s.lib.acquire make).frame rest).release (make s.lib.next) =
      ((s.lib.acquire make).release (make s.lib.next)).frame rest := fun make => Pool.release_frame rest rfl
  unfold init Sys.frame
  dsimp only
  rw [Pool.acquire_frame]
  by_cases ho : env.openMem = true
  · rw [if_pos ho, if_pos ho]
    by_cases hl : env.load = true
    · rw [if_pos hl, if_pos hl]
      rfl
    · rw [if_neg hl, if_neg hl]
      exact congrArg (fun lib => ((-1 : Int), (⟨{ s.c with obj := none }, lib⟩ : Sys))) (hrel .object)
  · rw [if_neg ho, if_neg ho]

theorem frame_detach (h : Inv 0 s) : detach (s.frame rest) = (detach s).frame rest := by
  obtain ⟨⟨obj, ringbuf, fd, attached, links⟩, lib⟩ := s
  have hlive := h.live
  simp only [Collector.held, Multiset.add_assoc] at hlive
  have hrel := Pool.releaseAll_frame rest hlive
  have hleft := Pool.releaseAll_of_live hlive
  unfold detach Sys.frame
  dsimp only
  rw [hrel]
  cases ringbuf with
  | none => rfl
  | some r =>
    dsimp only
    have hring : (lib.releaseAll (links.map Resource.link)).live =
        .ringbuf r ::ₘ heldObject ⟨obj, some r, fd, attached, links⟩ := by
      rw [hleft]
      simp
    rw [Pool.release_frame rest hring]

theorem frame_destroy (h : Inv 0 s) : destroy (s.frame rest) = (destroy s).frame rest := by
  unfold destroy
  rw [frame_detach rest h, detach_eq h]
  cases ho : s.c.obj with
  | none => rfl
  | some o =>
    simp only [Sys.frame]
    rw [Pool.release_frame rest (r := .object o) (m := 0) (by simp [heldObject, ho])]

private theorem frame_attachHooks (g : FileGroup) (env : AttachEnv) (pid : Int) (o : Nat) (is : List Nat) :
    attachHooks g env pid o is (s.frame rest) =
      ((attachHooks g env pid o is s).1, (attachHooks g env pid o is s).2.frame rest) := by
  rw [attachHooks_eq, attachHooks_eq]
  simp only [Sys.frame, Pool.frame, Multiset.add_assoc]

theorem frame_attach (h : Inv 0 s) (g : FileGroup) (env : AttachEnv) (pid : Int) :
    attach g env pid (s.frame rest) = ((attach g env pid s).1, (attach g env pid s).2.frame rest) := by
  have hbefore : (if (s.frame rest).c.attached then detach (s.frame rest) else s.frame rest) =
      (beforeLoop s).frame rest := by
    unfold beforeLoop
    rw [frame_detach rest h]
    show (if s.c.attached = true then _ else _) = _
    split <;> rfl
  unfold attach
  dsimp only
  rw [show (s.frame rest).c.obj = s.c.obj from rfl]
  cases s.c.obj with
  | none => rfl
  | some o =>
    dsimp only
    rw [hbefore, frame_attachHooks, show (if s.c.attached = true then detach s else s) = beforeLoop s from rfl]
    generalize attachHooks g env pid o (List.range g.hookCount) (beforeLoop s) = r
    split
    · rfl
    · split
      · rfl
      · simp only [Sys.frame, Pool.acquire_frame]
        rfl

end

/-! ### The machine -/

/-- A result of `epoll_wait`; a descriptor stands for the collector it was registered with. -/
inductive EpollResult where
  | ready (is : List Nat)
  | eintr
  | error

/-- What libbpf and the kernel answer in one step. -/
structure MainEnv where
  init : InitEnv
  attach : AttachEnv
  epollCreate : Bool
  epollCtl : Bool
  wait : EpollResult
  /-- What `ring_buffer__consume` delivers. -/
  events : List Dispatched
  order : Enumeration PendingItem

inductive MainAction where
  | stop
  | elapse (ns : Nat)
  | tick (env : MainEnv)

/-- What the manager owns. -/
structure Holdings where
  collectors : List Collector := []
  lib : Pool Resource := {}
  epolls : Pool Nat := {}
  epollFd : Int := -1
  /-- The collectors whose descriptors are registered. -/
  interest : List Nat := []
  /-- What `epoll_wait` has returned and the loop has not handled yet. -/
  ready : List Nat := []

structure Main where
  proc : Proc
  own : Holdings := {}

namespace Holdings

/-- A call of the `i`-th collector. -/
def onCollector (h : Holdings) (i : Nat) (call : Sys → Sys) : Holdings :=
  match h.collectors[i]? with
  | some c => { h with collectors := h.collectors.set i (call ⟨c, h.lib⟩).c, lib := (call ⟨c, h.lib⟩).lib }
  | none => h

/-- One round of the loop that registers descriptors. -/
def register (h : Holdings) (i : Nat) (ok : Bool) : Holdings :=
  match h.collectors[i]? with
  | some c =>
    if !c.attached then h
    else if c.ringbufFd < 0 then h
    else if !ok then h
    else { h with interest := h.interest ++ [i] }
  | none => h

/-- What `epoll_wait` may report: descriptors that are registered, each once and no more than `MAX_EVENTS`. -/
structure Allows (h : Holdings) (is : List Nat) : Prop where
  registered : ∀ i ∈ is, i ∈ h.interest
  distinct : is.Nodup
  few : is.length ≤ maxEvents

/-- What is reported, if it is allowed (`answered_of_allows`), and cut to what is allowed else (`allows_answered`). -/
def answered (h : Holdings) : EpollResult → List Nat
  | .ready is => (is.dedup.filter (· ∈ h.interest)).take maxEvents
  | _ => []

/-- What `poll` of the next ready collector delivers of the events in its ring buffer. -/
def polled (h : Holdings) (events : List Dispatched) : List Dispatched :=
  match h.ready.head?.bind (h.collectors[·]?) with
  | some c => if c.ringbuf.isSome then events else []
  | none => []

/-- `shutdown`; an epoll instance that is closed takes the list of its descriptors with it. -/
def shutdown (h : Holdings) : Holdings :=
  let m := Manager.shutdown { collectors := h.collectors, lib := h.lib, epollFd := h.epollFd }
  { collectors := m.collectors
    lib := m.lib
    epolls := if h.epollFd ≥ 0 then h.epolls.release h.epollFd.toNat else h.epolls
    epollFd := m.epollFd }

end Holdings

section

variable (cfg : HookConfig) (groups : List FileGroup) (pid : Int) (interval : Nat)

/-- What the next step of `main` does to what the manager owns. -/
def Holdings.tick (h : Holdings) (p : Proc) (env : MainEnv) : Holdings :=
  match p.pc with
  | .start => { h with collectors := groups.map fun _ => {} }
  | .initAll i =>
    if i < groups.length then h.onCollector i fun s => (Collector.init env.init s).2
    -- `main` returns, and the destructor of the manager shuts down
    else if p.initOk = 0 then h.shutdown
    else h
  | .attachAll i =>
    match groups[i]? with
    | some g => h.onCollector i fun s => (Collector.attach g env.attach pid s).2
    | none => h
  | .epollCreate => if env.epollCreate then { h with epolls := h.epolls.acquire id, epollFd := h.epolls.next } else h
  | .register i => h.register i env.epollCtl
  | .wait => { h with ready := h.answered env.wait }
  | .handle (_ + 1) => { h with ready := h.ready.tail }
  -- the destructor of the manager shuts down again
  | .shutdown => h.shutdown.shutdown
  | _ => h

/-- What `Proc` sees of the answers. -/
def Main.tickEnv (s : Main) (env : MainEnv) : TickEnv where
  ok :=
    match s.proc.pc with
    | .initAll i => (s.own.collectors[i]?).any fun c => (Collector.init env.init ⟨c, s.own.lib⟩).1 = 0
    | _ => env.epollCreate
  wait :=
    match env.wait with
    | .ready _ => .ready (s.own.answered env.wait).length
    | .eintr => .eintr
    | .error => .error
  events := s.own.polled env.events
  order := env.order

def Main.action (s : Main) : MainAction → Action
  | .stop => .stop
  | .elapse ns => .elapse ns
  | .tick env => .tick (s.tickEnv env)

def Main.step (s : Main) (a : MainAction) : Main where
  proc := s.proc.step cfg groups.length interval (s.action a)
  own :=
    match a with
    | .tick env => s.own.tick groups pid s.proc env
    | _ => s.own

def Main.run (as : List MainAction) : Main :=
  runFrom (Main.step cfg groups pid interval) { proc := Proc.boot cfg } as

/-- The machine refines `Proc`, whatever it owns. -/
theorem Main.proc_run (as : List MainAction) :
    (Main.run cfg groups pid interval as).proc = Proc.run cfg groups.length interval
      (collect (Main.step cfg groups pid interval) (fun s a => [s.action a]) { proc := Proc.boot cfg } as) := by
  refine runFrom_simulates (fun (s : Main) a => [s.action a]) (fun s p => s.proc = p) ?_ rfl as
  rintro s _ a rfl
  rfl

end

/-! ### One collector among several -/

/-- A collector that owns what it holds, with numbers below `next`. -/
def Owns (next : Nat) (c : Collector) : Prop := Inv 0 ⟨c, { next := next, live := c.held }⟩

theorem Inv.live_held {s : Sys} (h : Inv 0 s) : s.lib.live = s.c.held := by
  have := h.live
  rwa [Multiset.map_zero, Multiset.add_zero] at this

theorem Owns.of_inv {s : Sys} (h : Inv 0 s) : Owns s.lib.next s.c := by
  unfold Owns
  rw [← h.live_held, ← h.sound.faults]
  exact h

theorem Owns.mono {n m : Nat} {c : Collector} (h : Owns n c) (hle : n ≤ m) : Owns m c where
  live := h.live
  sound := ⟨h.sound.nodup, fun r hr => Nat.lt_of_lt_of_le (h.sound.fresh r hr) hle, rfl⟩
  owner := h.owner
  attached := h.attached
  fd_none := h.fd_none
  fd_some := h.fd_some

theorem owns_new (n : Nat) : Owns n {} where
  live := rfl
  sound := ⟨by simp [held, heldObject], by simp [held, heldObject], rfl⟩
  owner := by simp [held, heldObject]
  attached := rfl
  fd_none := fun _ => rfl
  fd_some := fun h => absurd rfl h

theorem Owns.object_mem {n : Nat} {c : Collector} (h : Owns n c) {r : Resource} (hr : r ∈ c.held) {o : Nat}
    (ho : o ∈ r.owner) : .object o ∈ c.held := h.owner r hr o ho

private theorem later_init (env : InitEnv) (s : Sys) : Pool.Later Resource.number s.lib (init env s).2.lib := by
  unfold init
  dsimp only
  split
  · split
    · exact s.lib.later_acquire rfl
    · exact (s.lib.later_acquire rfl).trans (Pool.later_release ..)
  · exact .refl _

private theorem later_detach (s : Sys) : Pool.Later Resource.number s.lib (detach s).lib := by
  unfold detach
  dsimp only
  split
  · exact (s.lib.later_releaseAll _).trans (Pool.later_release ..)
  · exact s.lib.later_releaseAll _

private theorem later_attachHooks (g : FileGroup) (env : AttachEnv) (pid : Int) (o : Nat) (is : List Nat) (s : Sys) :
    Pool.Later Resource.number s.lib (attachHooks g env pid o is s).2.lib := by
  have hids := ids_newLinks g env pid o is s.lib.next
  rw [attachHooks_eq]
  refine ⟨Nat.le_add_right _ _, fun r hr => ?_⟩
  rcases Multiset.mem_add.1 hr with hr | hr
  · obtain ⟨l, hl, rfl⟩ := List.mem_map.1 (Multiset.mem_coe.1 hr)
    have hmem : l.id ∈ (newLinks g env pid o is s.lib.next).map Link.id := List.mem_map_of_mem hl
    rw [hids] at hmem
    exact .inr (List.mem_range'_1.1 hmem).1
  · exact .inl hr

private theorem later_attach (g : FileGroup) (env : AttachEnv) (pid : Int) (s : Sys) :
    Pool.Later Resource.number s.lib (attach g env pid s).2.lib := by
  have hbefore : Pool.Later Resource.number s.lib (beforeLoop s).lib := by
    unfold beforeLoop
    split
    · exact later_detach s
    · exact .refl _
  unfold attach
  cases s.c.obj with
  | none => exact .refl _
  | some o =>
    dsimp only
    rw [show (if s.c.attached = true then detach s else s) = beforeLoop s from rfl]
    have hloop := hbefore.trans (later_attachHooks g env pid o (List.range g.hookCount) (beforeLoop s))
    generalize attachHooks g env pid o (List.range g.hookCount) (beforeLoop s) = r at hloop
    split
    · exact hloop
    · split
      · exact hloop
      · have hring : Pool.Later Resource.number r.2.lib
            (r.2.lib.acquire fun n => .ringbuf ⟨n, o, g.ringbufMap⟩) := Pool.later_acquire _ rfl
        exact hloop.trans hring

/-! ### What is owned along a run -/

namespace Holdings

/-- What holds wherever the program is. -/
structure Owned (h : Holdings) : Prop where
  live : h.lib.live = (h.collectors.map Collector.held).sum
  sound : h.lib.Sound Resource.number
  owns : ∀ c ∈ h.collectors, Owns h.lib.next c
  faults : h.epolls.faults = []
  epoll : (h.epollFd = -1 ∧ h.epolls.live = 0) ∨ ∃ n : Nat, h.epollFd = n ∧ h.epolls.live = {n}
  interest : ∀ i ∈ h.interest, ∃ c, h.collectors[i]? = some c ∧ c.attached = true
  ready : ∀ i ∈ h.ready, i ∈ h.interest

/-- What holds at a place of the program besides. -/
def At (h : Holdings) : Pc → Prop
  | .start => h.collectors = [] ∧ h.interest = [] ∧ h.epollFd = -1
  | .initAll i => h.interest = [] ∧ h.epollFd = -1 ∧ ∀ j c, i ≤ j → h.collectors[j]? = some c → c.obj = none
  | .attachAll _ | .epollCreate => h.interest = [] ∧ h.epollFd = -1
  | .handle k => h.ready.length = k
  | .exited _ => h.collectors = [] ∧ h.epollFd = -1
  | _ => True

/-- The resources of one collector among those of the others. -/
private theorem sum_held {cs : List Collector} {i : Nat} {c : Collector} (h : cs[i]? = some c) :
    ∃ rest, (cs.map Collector.held).sum = c.held + rest ∧
      ∀ d : Collector, ((cs.set i d).map Collector.held).sum = d.held + rest := by
  obtain ⟨hlt, rfl⟩ := List.getElem?_eq_some_iff.1 h
  have hsum : ∀ d : Collector, ((cs.set i d).map Collector.held).sum =
      d.held + (((cs.take i).map Collector.held).sum + ((cs.drop (i + 1)).map Collector.held).sum) := by
    intro d
    rw [List.set_eq_take_append_cons_drop, if_pos hlt, List.map_append, List.sum_append, List.map_cons, List.sum_cons,
      add_left_comm]
  refine ⟨_, ?_, hsum⟩
  have hsame := hsum cs[i]
  rwa [List.set_getElem_self] at hsame

/-- A call that a collector makes the same way among others keeps what is owned. -/
theorem Owned.call {h : Holdings} (ho : h.Owned) (hnone : h.interest = []) {i : Nat} {c : Collector}
    (hc : h.collectors[i]? = some c) {call : Sys → Sys}
    (hframe : ∀ (s : Sys) (rest : Multiset Resource), Inv 0 s → s.c = c → call (s.frame rest) = (call s).frame rest)
    (hinv : ∀ s : Sys, Inv 0 s → s.c = c → Inv 0 (call s))
    (hlater : ∀ s : Sys, Pool.Later Resource.number s.lib (call s).lib) : (h.onCollector i call).Owned := by
  obtain ⟨rest, hrest, hset⟩ := sum_held hc
  obtain ⟨s, hs⟩ : ∃ s : Sys, s = ⟨c, { next := h.lib.next, live := c.held }⟩ := ⟨_, rfl⟩
  have hown : Inv 0 s := by
    rw [hs]
    exact ho.owns c (List.mem_of_getElem? hc)
  have hsc : s.c = c := by rw [hs]
  have hlib : s.lib.frame rest = h.lib := by
    rw [hs]
    unfold Pool.frame
    rw [← hrest, ← ho.live, ← ho.sound.faults]
  have hnew := hinv s hown hsc
  have hheld := hnew.live_held
  have hsys : call ⟨c, h.lib⟩ = (call s).frame rest := by
    rw [← hframe s rest hown hsc, ← hlib, ← hsc]
    rfl
  unfold onCollector
  rw [hc]
  dsimp only
  rw [hsys]
  have hnext : h.lib.next ≤ (call s).lib.next := by
    have := (hlater s).next
    rwa [hs] at this ⊢
  refine ⟨?_, ?_, ?_, ho.faults, ho.epoll, ?_, ?_⟩
  · show (call s).lib.live + rest = _
    rw [hset, hheld]
    rfl
  · have hsound := ho.sound
    rw [← hlib] at hsound
    exact hsound.frame hnew.sound (hlater s)
  · intro d hd
    rcases List.mem_or_eq_of_mem_set hd with hd | rfl
    · exact (ho.owns d hd).mono hnext
    · exact (Owns.of_inv hnew : Owns (call s).lib.next (call s).c)
  · intro j hj
    rw [hnone] at hj
    cases hj
  · exact ho.ready

/-- Collectors that are destroyed one after the other hold nothing, and give back all that was theirs. -/
private theorem destroyAll_eq {cs : List Collector} {lib : Pool Resource} {rest : Multiset Resource}
    (howns : ∀ c ∈ cs, Owns lib.next c) (hlive : lib.live = (cs.map Collector.held).sum + rest) (hfaults : lib.faults = []) :
    destroyAll cs lib = (cs.map fun _ => {}, { lib with live := rest }) := by
  induction cs generalizing lib with
  | nil =>
    have hrest : lib.live = rest := hlive.trans (zero_add _)
    rw [← hrest]
    rfl
  | cons c cs ih =>
    obtain ⟨more, hmore⟩ : ∃ more, more = (cs.map Collector.held).sum + rest := ⟨_, rfl⟩
    have hown := howns c List.mem_cons_self
    have hsum : c.held + more = lib.live := by
      rw [hlive, hmore, List.map_cons, List.sum_cons, add_assoc]
    have hlib : (⟨c, lib⟩ : Sys) = Sys.frame more ⟨c, { next := lib.next, live := c.held }⟩ := by
      unfold Sys.frame Pool.frame
      dsimp only
      rw [hsum, ← hfaults]
    have hdestroy : destroy ⟨c, lib⟩ = ⟨{}, { lib with live := more }⟩ := by
      rw [hlib, frame_destroy more hown, destroy_eq hown]
      simp [Sys.frame, Pool.frame, hfaults]
    have hrest : destroyAll cs { lib with live := more } = (cs.map fun _ => {}, { lib with live := rest }) :=
      ih (fun d hd => howns d (List.mem_cons_of_mem _ hd)) hmore hfaults
    unfold destroyAll
    rw [hdestroy]
    dsimp only
    rw [hrest]
    rfl

private theorem sum_new {α : Type*} (xs : List α) : ((xs.map fun _ => ({} : Collector)).map Collector.held).sum = 0 := by
  refine List.sum_eq_zero fun x hx => ?_
  rw [List.map_map] at hx
  obtain ⟨_, -, rfl⟩ := List.mem_map.1 hx
  rfl

private theorem owns_of_new {α : Type*} {n : Nat} {xs : List α} :
    ∀ c ∈ xs.map fun _ => ({} : Collector), Owns n c := by
  intro c hc
  obtain ⟨_, -, rfl⟩ := List.mem_map.1 hc
  exact owns_new n

/-- After `shutdown` nothing is held, and so nothing is live. -/
theorem Owned.shutdown {h : Holdings} (ho : h.Owned) :
    h.shutdown.Owned ∧ h.shutdown.collectors = [] ∧ h.shutdown.epollFd = -1 := by
  have hfirst : destroyAll h.collectors h.lib = (h.collectors.map fun _ => {}, { h.lib with live := 0 }) :=
    destroyAll_eq ho.owns (ho.live.trans (add_zero _).symm) ho.sound.faults
  have hsecond : destroyAll (h.collectors.map fun _ => {}) { h.lib with live := 0 } =
      ((h.collectors.map fun _ => ({} : Collector)).map fun _ => {}, { h.lib with live := 0 }) :=
    destroyAll_eq owns_of_new (by rw [sum_new]; rfl) ho.sound.faults
  unfold Holdings.shutdown Manager.shutdown
  dsimp only
  rw [hfirst]
  dsimp only
  rw [hsecond]
  have hsound : ({ h.lib with live := 0 } : Pool Resource).Sound Resource.number :=
    ho.sound.of_le (Multiset.zero_le _) rfl rfl
  rcases ho.epoll with ⟨hfd, hlive⟩ | ⟨n, hfd, hlive⟩
  · rw [hfd]
    exact ⟨⟨rfl, hsound, nofun, ho.faults, .inl ⟨rfl, hlive⟩, nofun, nofun⟩, rfl, rfl⟩
  · have hrel : h.epolls.release n = { h.epolls with live := 0 } := Pool.release_of_live hlive
    rw [hfd, if_pos (Int.natCast_nonneg n), if_pos (Int.natCast_nonneg n), Int.toNat_natCast, hrel]
    exact ⟨⟨rfl, hsound, nofun, ho.faults, .inl ⟨rfl, rfl⟩, nofun, nofun⟩, rfl, rfl⟩

theorem Owned.register {h : Holdings} (ho : h.Owned) (i : Nat) (ok : Bool) : (h.register i ok).Owned := by
  unfold Holdings.register
  cases hc : h.collectors[i]? with
  | none => exact ho
  | some c =>
    dsimp only
    by_cases ha : c.attached = true
    · rw [ha]
      split
      · exact ho
      · split
        · exact ho
        · split
          · exact ho
          · refine ⟨ho.live, ho.sound, ho.owns, ho.faults, ho.epoll, ?_, fun j hj => List.mem_append_left _ (ho.ready j hj)⟩
            intro j hj
            rcases List.mem_append.1 hj with hj | hj
            · exact ho.interest j hj
            · rw [List.mem_singleton.1 hj]
              exact ⟨c, hc, ha⟩
    · rw [if_pos (by simpa using ha)]
      exact ho

/-- What is handled next was registered before. -/
theorem Owned.setReady {h : Holdings} (ho : h.Owned) {is : List Nat} (his : ∀ i ∈ is, i ∈ h.interest) :
    ({ h with ready := is } : Holdings).Owned :=
  ⟨ho.live, ho.sound, ho.owns, ho.faults, ho.epoll, ho.interest, his⟩

theorem allows_answered (h : Holdings) (r : EpollResult) : h.Allows (h.answered r) := by
  cases r with
  | ready is =>
    refine ⟨fun i hi => ?_, ?_, List.length_take_le _ _⟩
    · have hi := List.mem_of_mem_take hi
      simpa using (List.mem_filter.1 hi).2
    · exact ((List.nodup_dedup is).filter _).sublist (List.take_sublist _ _)
  | eintr | error => exact ⟨nofun, List.nodup_nil, Nat.zero_le _⟩

/-- So the runs have every answer that the kernel may give. -/
theorem answered_of_allows {h : Holdings} {is : List Nat} (his : h.Allows is) : h.answered (.ready is) = is := by
  show (is.dedup.filter (· ∈ h.interest)).take maxEvents = is
  rw [his.distinct.dedup, List.filter_eq_self.2 (by simpa using his.registered)]
  exact List.take_of_length_le his.few

end Holdings

namespace Main

variable (cfg : HookConfig) (groups : List FileGroup) (pid : Int) (interval : Nat)

/-- What holds in every state of the program. -/
def Kept (s : Main) : Prop := s.own.Owned ∧ s.own.At s.proc.pc

variable {s : Main}

private theorem kept_start (h : s.Kept) (hp : s.proc.pc = .start) (env : MainEnv) :
    (s.step cfg groups pid interval (.tick env)).Kept := by
  obtain ⟨ho, hat⟩ := h
  rw [hp] at hat
  obtain ⟨hnone, hinterest, hfd⟩ := hat
  have hlive : s.own.lib.live = 0 := by
    rw [ho.live, hnone]
    rfl
  have hown : s.own.tick groups pid s.proc env = { s.own with collectors := groups.map fun _ => {} } := by
    unfold Holdings.tick
    rw [hp]
  have hpc : (s.proc.tick cfg groups.length interval (s.tickEnv env)).pc = .initAll 0 := by
    unfold Proc.tick
    rw [hp]
  show (s.own.tick groups pid s.proc env).Owned ∧ (s.own.tick groups pid s.proc env).At (s.proc.tick ..).pc
  rw [hown, hpc]
  refine ⟨⟨?_, ho.sound, Holdings.owns_of_new, ho.faults, ho.epoll, ?_, ho.ready⟩, hinterest, hfd, ?_⟩
  · rw [hlive]
    exact (Holdings.sum_new groups).symm
  · intro i hi
    rw [hinterest] at hi
    cases hi
  · intro j c _ hc
    obtain ⟨_, -, rfl⟩ := List.mem_map.1 (List.mem_of_getElem? hc)
    rfl

private theorem kept_initAll (h : s.Kept) {i : Nat} (hp : s.proc.pc = .initAll i) (env : MainEnv) :
    (s.step cfg groups pid interval (.tick env)).Kept := by
  obtain ⟨ho, hat⟩ := h
  rw [hp] at hat
  obtain ⟨hinterest, hfd, hnew⟩ := hat
  show (s.own.tick groups pid s.proc env).Owned ∧ (s.own.tick groups pid s.proc env).At (s.proc.tick ..).pc
  unfold Holdings.tick Proc.tick
  rw [hp]
  dsimp only
  by_cases hi : i < groups.length
  · rw [if_pos hi, if_pos hi]
    show _ ∧ Holdings.At _ (.initAll (i + 1))
    cases hc : s.own.collectors[i]? with
    | none =>
      unfold Holdings.onCollector
      rw [hc]
      exact ⟨ho, hinterest, hfd, fun j c hj hcj => hnew j c (by omega) hcj⟩
    | some c =>
      have hobj := hnew i c (Nat.le_refl _) hc
      refine ⟨ho.call hinterest hc ?_ ?_ (later_init env.init), ?_⟩
      · intro t rest _ _
        rw [frame_init]
      · intro t ht htc
        have hstep := ht.step groups[i] (.init env.init)
        have hlost : overwritten t (.init env.init) = 0 := by
          show (t.c.obj.toList : Multiset Nat) = 0
          rw [htc, hobj]
          rfl
        rwa [hlost] at hstep
      · unfold Holdings.onCollector
        rw [hc]
        refine ⟨hinterest, hfd, fun j d hj hd => hnew j d (by omega) ?_⟩
        rwa [List.getElem?_set_ne (by omega)] at hd
  · rw [if_neg hi, if_neg hi]
    by_cases hok : s.proc.initOk = 0
    · rw [if_pos hok, if_pos hok]
      obtain ⟨hdown, hnone, hclosed⟩ := ho.shutdown
      exact ⟨hdown, hnone, hclosed⟩
    · rw [if_neg hok, if_neg hok]
      exact ⟨ho, hinterest, hfd⟩

private theorem kept_attachAll (h : s.Kept) {i : Nat} (hp : s.proc.pc = .attachAll i) (env : MainEnv) :
    (s.step cfg groups pid interval (.tick env)).Kept := by
  obtain ⟨ho, hat⟩ := h
  rw [hp] at hat
  obtain ⟨hinterest, hfd⟩ := hat
  have hpc : ∀ own : Holdings, own.interest = [] → own.epollFd = -1 →
      own.At (s.proc.tick cfg groups.length interval (s.tickEnv env)).pc := by
    intro own hi hf
    unfold Proc.tick
    rw [hp]
    dsimp only
    split <;> exact ⟨hi, hf⟩
  show (s.own.tick groups pid s.proc env).Owned ∧ (s.own.tick groups pid s.proc env).At (s.proc.tick ..).pc
  unfold Holdings.tick
  rw [hp]
  dsimp only
  cases hg : groups[i]? with
  | none => exact ⟨ho, hpc s.own hinterest hfd⟩
  | some g =>
    dsimp only
    cases hc : s.own.collectors[i]? with
    | none =>
      unfold Holdings.onCollector
      rw [hc]
      exact ⟨ho, hpc s.own hinterest hfd⟩
    | some c =>
      refine ⟨ho.call hinterest hc ?_ ?_ (later_attach g env.attach pid), hpc _ ?_ ?_⟩
      · intro t rest ht _
        rw [frame_attach rest ht]
      · intro t ht _
        have hstep := ht.step g (.attach env.attach pid)
        rwa [show overwritten t (.attach env.attach pid) = 0 from rfl, add_zero] at hstep
      · unfold Holdings.onCollector
        rw [hc]
        exact hinterest
      · unfold Holdings.onCollector
        rw [hc]
        exact hfd

private theorem kept_epollCreate (h : s.Kept) (hp : s.proc.pc = .epollCreate) (env : MainEnv) :
    (s.step cfg groups pid interval (.tick env)).Kept := by
  obtain ⟨ho, hat⟩ := h
  rw [hp] at hat
  obtain ⟨hinterest, hfd⟩ := hat
  have hlive : s.own.epolls.live = 0 := by
    rcases ho.epoll with ⟨-, hlive⟩ | ⟨n, hn, -⟩
    · exact hlive
    · omega
  have hok : (s.tickEnv env).ok = env.epollCreate := by
    unfold Main.tickEnv
    simp only [hp]
  show (s.own.tick groups pid s.proc env).Owned ∧ (s.own.tick groups pid s.proc env).At (s.proc.tick ..).pc
  unfold Holdings.tick Proc.tick
  rw [hp]
  dsimp only
  rw [hok]
  by_cases he : env.epollCreate = true
  · rw [if_pos he, if_pos he]
    refine ⟨⟨ho.live, ho.sound, ho.owns, ho.faults, .inr ⟨s.own.epolls.next, rfl, ?_⟩, ho.interest, ho.ready⟩, trivial⟩
    show id s.own.epolls.next ::ₘ s.own.epolls.live = _
    rw [hlive]
    rfl
  · rw [if_neg he, if_neg he]
    exact ⟨ho, trivial⟩

private theorem kept_wait (h : s.Kept) (hp : s.proc.pc = .wait) (env : MainEnv) :
    (s.step cfg groups pid interval (.tick env)).Kept := by
  obtain ⟨ho, -⟩ := h
  show (s.own.tick groups pid s.proc env).Owned ∧ (s.own.tick groups pid s.proc env).At (s.proc.tick ..).pc
  unfold Holdings.tick Proc.tick Main.tickEnv
  rw [hp]
  dsimp only
  refine ⟨ho.setReady (Holdings.allows_answered _ _).registered, ?_⟩
  cases env.wait with
  | eintr => trivial
  | error => trivial
  | ready is =>
    show (s.own.answered (.ready is)).length = min (s.own.answered (.ready is)).length maxEvents
    exact (Nat.min_eq_left (s.own.allows_answered _).few).symm

private theorem kept_handle (h : s.Kept) {k : Nat} (hp : s.proc.pc = .handle (k + 1)) (env : MainEnv) :
    (s.step cfg groups pid interval (.tick env)).Kept := by
  obtain ⟨ho, hat⟩ := h
  rw [hp] at hat
  show (s.own.tick groups pid s.proc env).Owned ∧ (s.own.tick groups pid s.proc env).At (s.proc.tick ..).pc
  unfold Holdings.tick Proc.tick
  rw [hp]
  dsimp only
  refine ⟨ho.setReady fun i hi => ho.ready i (List.mem_of_mem_tail hi), ?_⟩
  cases s.proc.session.poll (s.tickEnv env).events with
  | none => trivial
  | some t =>
    have hlen : s.own.ready.length = k + 1 := hat
    show s.own.ready.tail.length = k
    rw [List.length_tail, hlen]
    rfl

private theorem kept_tick (h : s.Kept) (env : MainEnv) : (s.step cfg groups pid interval (.tick env)).Kept := by
  have hstep : (s.own.tick groups pid s.proc env).Owned ∧
      (s.own.tick groups pid s.proc env).At (s.proc.tick cfg groups.length interval (s.tickEnv env)).pc ↔
      (s.step cfg groups pid interval (.tick env)).Kept := Iff.rfl
  obtain ⟨ho, hat⟩ := id h
  cases hp : s.proc.pc with
  | start => exact kept_start cfg groups pid interval h hp env
  | initAll i => exact kept_initAll cfg groups pid interval h hp env
  | attachAll i => exact kept_attachAll cfg groups pid interval h hp env
  | epollCreate => exact kept_epollCreate cfg groups pid interval h hp env
  | wait => exact kept_wait cfg groups pid interval h hp env
  | register i =>
    rw [← hstep]
    unfold Holdings.tick Proc.tick
    rw [hp]
    dsimp only
    refine ⟨ho.register i env.epollCtl, ?_⟩
    split <;> trivial
  | handle k =>
    cases k with
    | succ k => exact kept_handle cfg groups pid interval h hp env
    | zero =>
      rw [← hstep]
      unfold Holdings.tick Proc.tick
      rw [hp]
      exact ⟨ho, trivial⟩
  | shutdown =>
    rw [← hstep]
    unfold Holdings.tick Proc.tick
    rw [hp]
    obtain ⟨hdown, hnone, hclosed⟩ := ho.shutdown.1.shutdown
    exact ⟨hdown, hnone, hclosed⟩
  | exited code =>
    rw [← hstep]
    unfold Holdings.tick Proc.tick
    rw [hp] at hat ⊢
    exact ⟨ho, by rw [hp]; exact hat⟩
  | test =>
    rw [← hstep]
    unfold Holdings.tick Proc.tick
    rw [hp]
    dsimp only
    refine ⟨ho, ?_⟩
    split <;> trivial
  | killed | crashed =>
    rw [← hstep]
    unfold Holdings.tick Proc.tick
    rw [hp]
    exact ⟨ho, by rw [hp]; trivial⟩
  | _ =>
    rw [← hstep]
    unfold Holdings.tick Proc.tick
    rw [hp]
    exact ⟨ho, trivial⟩

theorem kept_step (h : s.Kept) (a : MainAction) : (s.step cfg groups pid interval a).Kept := by
  cases a with
  | tick env => exact kept_tick cfg groups pid interval h env
  | elapse ns => exact h
  | stop =>
    refine ⟨h.1, ?_⟩
    show s.own.At (s.proc.step cfg groups.length interval .stop).pc
    unfold Proc.step
    dsimp only
    split
    · trivial
    · exact h.2

theorem kept_run (as : List MainAction) : (Main.run cfg groups pid interval as).Kept := by
  have hboot : Kept { proc := Proc.boot cfg } :=
    ⟨⟨rfl, ⟨Multiset.nodup_zero, by simp, rfl⟩, nofun, rfl, .inl ⟨rfl, rfl⟩, nofun, nofun⟩, rfl, rfl, rfl⟩
  exact runFrom_invariant Kept (fun s a h => kept_step cfg groups pid interval h a) hboot as

/-- Every live resource is held by one of the collectors and was acquired once; none was released twice, and none
outlives its BPF object.  A collector that is polled is one of the manager's, with a live ring buffer.  A program that
has exited has given back all. -/
structure Safe (s : Main) : Prop where
  live : s.own.lib.live = (s.own.collectors.map Collector.held).sum
  distinct : (s.own.lib.live.map Resource.number).Nodup
  faults : s.own.lib.faults = [] ∧ s.own.epolls.faults = []
  owner : ∀ r ∈ s.own.lib.live, ∀ o ∈ r.owner, .object o ∈ s.own.lib.live
  polled : ∀ k, s.proc.pc = .handle (k + 1) → ∃ i c r, s.own.ready.head? = some i ∧ s.own.collectors[i]? = some c ∧
    c.ringbuf = some r ∧ .ringbuf r ∈ s.own.lib.live
  exited : ∀ code, s.proc.pc = .exited code → s.own.lib.live = 0 ∧ s.own.epolls.live = 0

private theorem mem_sum_held {cs : List Collector} {r : Resource} :
    r ∈ (cs.map Collector.held).sum ↔ ∃ c ∈ cs, r ∈ c.held := by
  induction cs with
  | nil => simp
  | cons c cs ih =>
    rw [List.map_cons, List.sum_cons, Multiset.mem_add, ih]
    simp

private theorem Kept.safe (h : s.Kept) : s.Safe where
  live := h.1.live
  distinct := h.1.sound.nodup
  faults := ⟨h.1.sound.faults, h.1.faults⟩
  owner := by
    intro r hr o ho
    rw [h.1.live, mem_sum_held] at hr ⊢
    obtain ⟨c, hc, hr⟩ := hr
    exact ⟨c, hc, (h.1.owns c hc).object_mem hr ho⟩
  polled := by
    intro k hp
    have hlen := h.2
    rw [hp] at hlen
    obtain ⟨i, hi⟩ : ∃ i, s.own.ready.head? = some i := by
      cases hready : s.own.ready with
      | nil =>
        have hzero : s.own.ready.length = k + 1 := hlen
        rw [hready] at hzero
        cases hzero
      | cons i is => exact ⟨i, rfl⟩
    obtain ⟨c, hc, hattached⟩ := h.1.interest i (h.1.ready i (List.mem_of_head? hi))
    have hmem := List.mem_of_getElem? hc
    have hring : c.attached = c.ringbuf.isSome := (h.1.owns c hmem).attached
    rw [hring] at hattached
    obtain ⟨r, hr⟩ := Option.isSome_iff_exists.1 hattached
    refine ⟨i, c, r, hi, hc, hr, ?_⟩
    rw [h.1.live, mem_sum_held]
    exact ⟨c, hmem, by simp [Collector.held, hr]⟩
  exited := by
    intro code hp
    have hat := h.2
    rw [hp] at hat
    refine ⟨?_, ?_⟩
    · rw [h.1.live, hat.1]
      rfl
    · rcases h.1.epoll with ⟨-, hlive⟩ | ⟨n, hn, -⟩
      · exact hlive
      · have hfd := hat.2
        omega

end Main

/-- In every run of the program, whatever libbpf, the kernel and signals do: the resources are in order at every state,
no ring buffer is consumed that was freed, and nothing is left when `main` has returned. -/
theorem main_safe (cfg : HookConfig) (groups : List FileGroup) (pid : Int) (interval : Nat) (as : List MainAction) :
    (Main.run cfg groups pid interval as).Safe :=
  (Main.kept_run cfg groups pid interval as).safe

/-! ### After a request to stop -/

/-- In the loop or behind it, on the way to a regular end. -/
def Pc.stopping : Pc → Bool
  | .test | .wait | .handle _ | .leave | .flush | .evict | .shutdown => true
  | .exited code => code = 0
  | _ => false

/-- How many steps `main` makes at most, if no iteration starts. -/
def Pc.remaining : Pc → Nat
  | .wait => maxEvents + 7
  | .handle k => k + 6
  | .test => 5
  | .leave => 4
  | .flush => 3
  | .evict => 2
  | .shutdown => 1
  | _ => 0

theorem Pc.stopping_of_phase {pc : Pc} (h : pc.phase = 1) : pc.stopping = true := by
  cases pc <;> first | rfl | cases h

theorem Pc.exited_of_remaining {pc : Pc} (h : pc.stopping = true) (h0 : pc.remaining = 0) : pc = .exited 0 := by
  cases pc with
  | exited code =>
    have hcode : code = 0 := of_decide_eq_true h
    rw [hcode]
  | wait | handle | test | leave | flush | evict | shutdown => simp [remaining] at h0
  | _ => cases h

/-- What the consumers deliver names modules of the configuration. -/
def MainAction.InTable (cfg : HookConfig) : MainAction → Prop
  | .tick env => ∀ d ∈ env.events, d.hdr.moduleId.toNat ≤ cfg.maxModuleId
  | _ => True

def MainAction.isTick : MainAction → Bool
  | .tick _ => true
  | _ => false

section

variable {cfg : HookConfig} {p : Proc} (n interval : Nat)

private theorem poll_isSome {s : Session} (hsized : Sized cfg s.stats) {events : List Dispatched}
    (hin : ∀ d ∈ events, d.hdr.moduleId.toNat ≤ cfg.maxModuleId) :
    ∃ t, s.poll events = some t ∧ Sized cfg t.stats := by
  induction events generalizing s with
  | nil => exact ⟨s, rfl, hsized⟩
  | cons d events ih =>
    obtain ⟨t, ht, htsized⟩ := Session.handle_isSome hsized true (hin d List.mem_cons_self)
    rw [Session.handle_true] at ht
    obtain ⟨u, hu, husized⟩ := ih htsized fun e he => hin e (List.mem_cons_of_mem _ he)
    refine ⟨u, ?_, husized⟩
    show runFrom _ (s.dispatch d) events = _
    rw [ht]
    exact hu

theorem sized_call {s : Session} (hsized : Sized cfg s.stats) (c : Call) :
    Sized cfg (s.stats.call cfg c).1 := by
  have hin : (Operation.call c).InTable cfg := trivial
  obtain ⟨t, ht, htsized⟩ := operate_isSome cfg hsized hin
  obtain rfl : s.step cfg c = t := Option.some.inj ht
  exact htsized

private theorem sized_tick (hsized : Sized cfg p.session.stats) (env : TickEnv)
    (hin : ∀ d ∈ env.events, d.hdr.moduleId.toNat ≤ cfg.maxModuleId) :
    Sized cfg (p.tick cfg n interval env).session.stats := by
  obtain ⟨t, ht, htsized⟩ := poll_isSome hsized hin
  unfold Proc.tick
  cases hp : p.pc with
  | handle k =>
    cases k with
    | zero => exact hsized
    | succ k =>
      dsimp only
      rw [ht]
      exact htsized
  | wait =>
    dsimp only
    cases env.wait <;> exact hsized
  | flush => exact sized_call hsized (.flushReport (UInt64.ofNat p.now))
  | evict => exact sized_call hsized (.evictExpired (UInt64.ofNat p.now) env.order)
  | _ =>
    dsimp only
    repeat' split
    all_goals exact hsized

/-- With `g_running` cleared every step leads closer to the end. -/
private theorem remaining_tick (hsized : Sized cfg p.session.stats) (env : TickEnv)
    (hin : ∀ d ∈ env.events, d.hdr.moduleId.toNat ≤ cfg.maxModuleId) (hstop : p.pc.stopping = true)
    (hflag : p.gRunning = false) :
    (p.tick cfg n interval env).pc.stopping = true ∧ (p.tick cfg n interval env).gRunning = false ∧
      (p.tick cfg n interval env).pc.remaining ≤ p.pc.remaining - 1 := by
  obtain ⟨t, ht, -⟩ := poll_isSome hsized hin
  unfold Proc.tick
  cases hp : p.pc with
  | test =>
    dsimp only
    rw [hflag]
    exact ⟨rfl, rfl, Nat.le_refl _⟩
  | wait =>
    dsimp only
    cases env.wait with
    | eintr =>
      refine ⟨rfl, hflag, ?_⟩
      show 5 ≤ maxEvents + 7 - 1
      decide
    | error =>
      refine ⟨rfl, hflag, ?_⟩
      show 4 ≤ maxEvents + 7 - 1
      decide
    | ready k =>
      refine ⟨rfl, hflag, ?_⟩
      have hle := Nat.min_le_right k maxEvents
      show min k maxEvents + 6 ≤ maxEvents + 7 - 1
      omega
  | handle k =>
    cases k with
    | zero => exact ⟨rfl, hflag, Nat.le_refl _⟩
    | succ k =>
      dsimp only
      rw [ht]
      exact ⟨rfl, hflag, Nat.le_refl _⟩
  | leave | flush | evict | shutdown => exact ⟨rfl, hflag, Nat.le_refl _⟩
  | exited code =>
    rw [hp] at hstop
    exact ⟨by rw [hp]; exact hstop, hflag, by rw [hp]; exact Nat.zero_le _⟩
  | _ =>
    rw [hp] at hstop
    cases hstop

end

section

variable (cfg : HookConfig) (groups : List FileGroup) (pid : Int) (interval : Nat)

private theorem polled_inTable {h : Holdings} {events : List Dispatched}
    (hin : ∀ d ∈ events, d.hdr.moduleId.toNat ≤ cfg.maxModuleId) :
    ∀ d ∈ h.polled events, d.hdr.moduleId.toNat ≤ cfg.maxModuleId := by
  intro d hd
  unfold Holdings.polled at hd
  split at hd
  · split at hd
    · exact hin d hd
    · cases hd
  · cases hd

private theorem sized_step {s : Main} (hsized : Sized cfg s.proc.session.stats) {a : MainAction} (ha : a.InTable cfg) :
    Sized cfg (s.step cfg groups pid interval a).proc.session.stats := by
  cases a with
  | tick env => exact sized_tick groups.length interval hsized (s.tickEnv env) (polled_inTable cfg ha)
  | elapse ns => exact hsized
  | stop =>
    show Sized cfg (s.proc.step cfg groups.length interval .stop).session.stats
    unfold Proc.step
    dsimp only
    split <;> exact hsized

private theorem sized_main {as : List MainAction} (has : ∀ a ∈ as, a.InTable cfg) :
    Sized cfg (Main.run cfg groups pid interval as).proc.session.stats := by
  induction as using List.reverseRecOn with
  | nil => exact sized_fresh cfg true
  | append_singleton as a ih =>
    unfold Main.run at ih ⊢
    rw [runFrom_concat]
    exact sized_step cfg groups pid interval (ih fun b hb => has b (List.mem_append_left _ hb))
      (has a (List.mem_append_right _ (List.mem_singleton_self a)))

/-- How far the program has come, since it was asked to stop. -/
private theorem remaining_run {as bs : List MainAction} (has : ∀ a ∈ as ++ bs, a.InTable cfg)
    (hloop : (Main.run cfg groups pid interval as).proc.pc.phase = 1)
    (hstop : (Main.run cfg groups pid interval as).proc.gRunning = false) :
    (Main.run cfg groups pid interval (as ++ bs)).proc.pc.stopping = true ∧
      (Main.run cfg groups pid interval (as ++ bs)).proc.gRunning = false ∧
      (Main.run cfg groups pid interval (as ++ bs)).proc.pc.remaining ≤ maxEvents + 7 - bs.countP MainAction.isTick := by
  induction bs using List.reverseRecOn with
  | nil =>
    rw [List.append_nil]
    refine ⟨Pc.stopping_of_phase hloop, hstop, ?_⟩
    have hrank := rank_run_le cfg groups.length interval
      (collect (Main.step cfg groups pid interval) (fun s a => [s.action a]) { proc := Proc.boot cfg } as)
    rw [← Main.proc_run] at hrank
    generalize (Main.run cfg groups pid interval as).proc.pc = pc at hloop hrank ⊢
    show pc.remaining ≤ maxEvents + 7
    cases pc with
    | handle k =>
      simp only [Pc.rank] at hrank
      simp only [Pc.remaining]
      omega
    | test | wait => simp [Pc.remaining]
    | _ => cases hloop
  | append_singleton bs b ih =>
    rw [← List.append_assoc] at has ⊢
    obtain ⟨hs, hflag, hle⟩ := ih fun a ha => has a (List.mem_append_left _ ha)
    have hsized := sized_main cfg groups pid interval fun a ha => has a (List.mem_append_left [b] ha)
    have hb := has b (List.mem_append_right _ (List.mem_singleton_self b))
    rw [List.countP_append, show Main.run cfg groups pid interval (as ++ bs ++ [b]) =
      (Main.run cfg groups pid interval (as ++ bs)).step cfg groups pid interval b from runFrom_concat ..]
    generalize Main.run cfg groups pid interval (as ++ bs) = s at hs hflag hle hsized ⊢
    cases b with
    | elapse ns => exact ⟨hs, hflag, hle⟩
    | stop =>
      have hstart : s.proc.pc ≠ .start := by
        intro hp
        rw [hp] at hs
        cases hs
      have hstep : (s.step cfg groups pid interval .stop).proc = { s.proc with gRunning := false } :=
        step_stop cfg groups.length interval hstart
      rw [hstep]
      exact ⟨hs, rfl, hle⟩
    | tick env =>
      obtain ⟨hs', hflag', hlt⟩ := remaining_tick groups.length interval hsized (s.tickEnv env)
        (polled_inTable cfg hb) hs hflag
      refine ⟨hs', hflag', ?_⟩
      have hone : [MainAction.tick env].countP MainAction.isTick = 1 := rfl
      have hproc : (s.step cfg groups pid interval (.tick env)).proc =
          s.proc.tick cfg groups.length interval (s.tickEnv env) := rfl
      rw [hproc]
      omega

/-- A program that was asked to stop while it was in the loop comes to its end: within `maxEvents + 7` steps of `main` it
has exited with the code 0 and given back all of its resources, and it stays so. -/
theorem main_stops {as bs : List MainAction} (has : ∀ a ∈ as ++ bs, a.InTable cfg)
    (hloop : (Main.run cfg groups pid interval as).proc.pc.phase = 1)
    (hstop : (Main.run cfg groups pid interval as).proc.gRunning = false)
    (hticks : maxEvents + 7 ≤ bs.countP MainAction.isTick) :
    (Main.run cfg groups pid interval (as ++ bs)).proc.pc = .exited 0 ∧
      (Main.run cfg groups pid interval (as ++ bs)).own.lib.live = 0 ∧
      (Main.run cfg groups pid interval (as ++ bs)).own.epolls.live = 0 := by
  obtain ⟨hs, -, hle⟩ := remaining_run cfg groups pid interval has hloop hstop
  have hpc := Pc.exited_of_remaining hs (by omega)
  have hsafe := (Main.kept_run cfg groups pid interval (as ++ bs)).safe
  exact ⟨hpc, hsafe.exited 0 hpc⟩

end

/-- A collector is attached and registered, and the request comes before the first iteration. -/
theorem main_stops_at_once :
    let env : MainEnv := ⟨⟨true, true⟩, ⟨fun _ _ => some ⟨"hook_rm_send_entry", "uprobe/rm_send_entry"⟩, fun _ => true, true,
      true, 5, fun _ => ⟨"", "", 0, false⟩⟩, true, true, .ready [0], [], byKey⟩
    let as := List.replicate 10 (.tick env) ++ [.stop]
    let bs := List.replicate 23 (.tick env)
    (Main.run oneHookConfig [oneHookGroup] 7 10 as).own.interest = [0] ∧
      (Main.run oneHookConfig [oneHookGroup] 7 10 (as ++ bs)).proc.pc = .exited 0 ∧
      (Main.run oneHookConfig [oneHookGroup] 7 10 (as ++ bs)).own.lib.live = 0 ∧
      (Main.run oneHookConfig [oneHookGroup] 7 10 (as ++ bs)).own.epolls.live = 0 := by
  refine ⟨rfl, main_stops oneHookConfig [oneHookGroup] 7 10 ?_ rfl rfl (by decide)⟩
  intro a ha
  rcases List.mem_append.1 ha with ha | ha
  · rcases List.mem_append.1 ha with ha | ha
    · rw [List.eq_of_mem_replicate ha]
      exact nofun
    · rw [List.mem_singleton.1 ha]
      trivial
  · rw [List.eq_of_mem_replicate ha]
    exact nofun

end VsomeipCollector

import VsomeipCollector.Config
import VsomeipCollector.Library.Pool
import VsomeipCollector.Library.Run

/-!
# The collector of a module (`src/user/collector`)

A `Collector` owns the BPF object of its module, one link for each hook it has attached and the consumer of the ring
buffer.  These are resources of libbpf: opening, attaching and creating acquires one, closing, destroying and freeing
releases it, and the library side is a `Pool` that knows which are live.

What libbpf answers is the environment of the calls.  Lookups by name follow libbpf: the name of a program is the
name of its C function, and the lookup compares strings (`findProgramByName`).
-/

namespace VsomeipCollector

/-! ### libbpf -/

/-- A program of a BPF object: the C function and the section it is in. -/
structure Program where
  name : String
  sec : String
deriving DecidableEq, Repr

/-- A subprogram is not found by name. -/
def Program.isSubprog (p : Program) : Bool := p.sec == ".text"

/-- `bpf_object__find_program_by_name` -/
def findProgramByName (programs : List Program) (name : String) : Option Program :=
  programs.find? fun p => !p.isSubprog && p.name == name

/-- A link: a hook of the module, attached. -/
structure Link where
  id : Nat
  /-- The BPF object it belongs to. -/
  owner : Nat
  /-- The index of the hook. -/
  hook : Nat
  prog : Program
  cfg : HookCfg
  pid : Int
deriving DecidableEq, Repr

/-- The consumer of a ring buffer. -/
structure RingBuffer where
  id : Nat
  owner : Nat
  map : String
deriving DecidableEq, Repr

inductive Resource where
  | object (id : Nat)
  | link (l : Link)
  | ringbuf (r : RingBuffer)
deriving DecidableEq, Repr

namespace Resource

def number : Resource → Nat
  | object n => n
  | link l => l.id
  | ringbuf r => r.id

/-- The BPF object that must outlive the resource. -/
def owner : Resource → Option Nat
  | object _ => none
  | link l => some l.owner
  | ringbuf r => some r.owner

end Resource

/-- What libbpf answers to `init`. -/
structure InitEnv where
  openMem : Bool
  load : Bool

/-- What libbpf answers to `attach`, for each index of the loop over the hooks. -/
structure AttachEnv where
  findProgram : Nat → String → Option Program
  attachUprobe : Nat → Bool
  findMap : Bool
  ringBufferNew : Bool
  /-- `ring_buffer__epoll_fd` -/
  epollFd : Nat
  /-- What lies in memory after the last element of `hooks`. -/
  overrun : Nat → HookCfg

/-! ### The collector -/

structure Collector where
  obj : Option Nat := none
  ringbuf : Option RingBuffer := none
  ringbufFd : Int := -1
  attached : Bool := false
  links : List Link := []

/-- A collector and the resources of libbpf. -/
structure Sys where
  c : Collector := {}
  lib : Pool Resource := {}

namespace Collector

/-- The result of the call, and the state after it. -/
def init (env : InitEnv) (s : Sys) : Int × Sys :=
  if env.openMem then
    let n := s.lib.next
    let lib := s.lib.acquire .object
    if env.load then (0, ⟨{ s.c with obj := some n }, lib⟩)
    else (-1, ⟨{ s.c with obj := none }, lib.release (.object n)⟩)
  else (-1, ⟨{ s.c with obj := none }, s.lib⟩)

def detach (s : Sys) : Sys :=
  let lib := s.lib.releaseAll (s.c.links.map .link)
  let c := { s.c with links := [] }
  match c.ringbuf with
  | some r => ⟨{ c with ringbuf := none, ringbufFd := -1, attached := false }, lib.release (.ringbuf r)⟩
  | none => ⟨{ c with attached := false }, lib⟩

section

variable (g : FileGroup) (env : AttachEnv) (pid : Int)

/-- `group_->hooks[i]` -/
def hookAt (i : Nat) : HookCfg := (g.hooks[i]?).getD (env.overrun i)

/-- The loop of `attach` over the hooks still to be attached; `o` is the BPF object. -/
def attachHooks (o : Nat) : List Nat → Sys → Nat × Sys
  | [], s => (0, s)
  | i :: is, s =>
    let cfg := hookAt g env i
    match env.findProgram i cfg.name with
    | none => attachHooks o is s
    | some prog =>
      if env.attachUprobe i then
        let link : Nat → Link := fun n => ⟨n, o, i, prog, cfg, pid⟩
        let s := ⟨{ s.c with links := s.c.links ++ [link s.lib.next] }, s.lib.acquire fun n => .link (link n)⟩
        let r := attachHooks o is s
        (r.1 + 1, r.2)
      else attachHooks o is s

def attach (s : Sys) : Int × Sys :=
  match s.c.obj with
  | none => (-1, s)
  | some o =>
    let s := if s.c.attached then detach s else s
    let r := attachHooks g env pid o (List.range g.hookCount) s
    if !env.findMap then (-1, r.2)
    else if !env.ringBufferNew then (-1, ⟨{ r.2.c with ringbuf := none }, r.2.lib⟩)
    else
      let rb : Nat → RingBuffer := fun n => ⟨n, o, g.ringbufMap⟩
      (r.1, ⟨{ r.2.c with ringbuf := some (rb r.2.lib.next), ringbufFd := env.epollFd, attached := true },
        r.2.lib.acquire fun n => .ringbuf (rb n)⟩)

end

def destroy (s : Sys) : Sys :=
  let s := detach s
  match s.c.obj with
  | some o => ⟨{ s.c with obj := none }, s.lib.release (.object o)⟩
  | none => s

end Collector

/-! ### The manager -/

/-- The collectors a manager owns, with the resources of libbpf. -/
structure Manager where
  collectors : List Collector
  lib : Pool Resource := {}
  epollFd : Int := -1
  running : Bool := false

/-- Call `destroy` of each collector. -/
def destroyAll : List Collector → Pool Resource → List Collector × Pool Resource
  | [], lib => ([], lib)
  | c :: cs, lib =>
    let s := Collector.destroy ⟨c, lib⟩
    let r := destroyAll cs s.lib
    (s.c :: r.1, r.2)

/-- Clearing `collectors_` runs the destructors, which call `destroy` again. -/
def Manager.shutdown (m : Manager) : Manager :=
  let r := destroyAll m.collectors m.lib
  { collectors := []
    lib := (destroyAll r.1 r.2).2
    epollFd := if m.epollFd ≥ 0 then -1 else m.epollFd
    running := false }

/-! ### Runs of one collector -/

inductive CollectorOp where
  | init (env : InitEnv)
  | attach (env : AttachEnv) (pid : Int)
  | detach
  | destroy

/-- One call, as the caller of a collector for the group `g` makes it. -/
def Sys.step (g : FileGroup) (s : Sys) : CollectorOp → Sys
  | .init env => (Collector.init env s).2
  | .attach env pid => (Collector.attach g env pid s).2
  | .detach => Collector.detach s
  | .destroy => Collector.destroy s

/-- The state after a sequence of calls on a new collector. -/
def Sys.run (g : FileGroup) (ops : List CollectorOp) : Sys := Run.runFrom (Sys.step g) {} ops

/-! ### What the loop of `attach` does -/

namespace Collector

section

variable (g : FileGroup) (env : AttachEnv) (pid : Int) (o : Nat)

/-- The hook `i` is attached: its program is found, and the kernel takes it. -/
def attaches (i : Nat) : Bool := (env.findProgram i (hookAt g env i).name).isSome && env.attachUprobe i

/-- The links of the hooks among `is` that are attached, numbered from `n`. -/
def newLinks : List Nat → Nat → List Link
  | [], _ => []
  | i :: is, n =>
    match env.findProgram i (hookAt g env i).name with
    | none => newLinks is n
    | some prog =>
      if env.attachUprobe i then ⟨n, o, i, prog, hookAt g env i, pid⟩ :: newLinks is (n + 1) else newLinks is n

/-- The loop appends the new links, makes them live and counts them. -/
theorem attachHooks_eq (is : List Nat) (s : Sys) :
    attachHooks g env pid o is s =
      ((newLinks g env pid o is s.lib.next).length,
        { c := { s.c with links := s.c.links ++ newLinks g env pid o is s.lib.next }
          lib := { s.lib with
            next := s.lib.next + (newLinks g env pid o is s.lib.next).length
            live := ((newLinks g env pid o is s.lib.next).map Resource.link : Multiset Resource) + s.lib.live } }) := by
  induction is generalizing s with
  | nil => simp [attachHooks, newLinks]
  | cons i is ih =>
    unfold attachHooks newLinks
    dsimp only
    cases env.findProgram i (hookAt g env i).name with
    | none => exact ih s
    | some prog =>
      dsimp only
      by_cases ha : env.attachUprobe i = true
      · rw [if_pos ha, if_pos ha, ih]
        simp only [Pool.acquire, List.length_cons, List.map_cons, List.append_assoc, List.singleton_append,
          ← Multiset.cons_coe, Multiset.cons_add, Multiset.add_cons]
        simp only [Nat.add_assoc, Nat.add_comm 1]
      · rw [if_neg ha, if_neg ha]
        exact ih s

theorem hooks_newLinks (is : List Nat) (n : Nat) :
    (newLinks g env pid o is n).map Link.hook = is.filter (attaches g env) := by
  induction is generalizing n with
  | nil => rfl
  | cons i is ih =>
    unfold newLinks
    rw [List.filter_cons]
    unfold attaches
    cases env.findProgram i (hookAt g env i).name with
    | none => exact ih n
    | some prog =>
      by_cases ha : env.attachUprobe i = true
      · simp only [ha, Option.isSome_some, Bool.and_self, ↓reduceIte, List.map_cons]
        congr 1
        exact ih (n + 1)
      · simp only [ha, Option.isSome_some, Bool.and_false, Bool.false_eq_true, ↓reduceIte]
        exact ih n

theorem ids_newLinks (is : List Nat) (n : Nat) :
    (newLinks g env pid o is n).map Link.id = List.range' n (newLinks g env pid o is n).length := by
  induction is generalizing n with
  | nil => rfl
  | cons i is ih =>
    unfold newLinks
    cases env.findProgram i (hookAt g env i).name with
    | none => exact ih n
    | some prog =>
      dsimp only
      by_cases ha : env.attachUprobe i = true
      · rw [if_pos ha, List.map_cons, ih, List.length_cons, List.range'_succ]
      · rw [if_neg ha]
        exact ih n

/-- Each new link is a hook of the table, on the program found under the name the table gives. -/
theorem mem_newLinks {is : List Nat} {n : Nat} {l : Link} (h : l ∈ newLinks g env pid o is n) :
    l.owner = o ∧ l.pid = pid ∧ l.cfg = hookAt g env l.hook ∧ env.findProgram l.hook l.cfg.name = some l.prog := by
  induction is generalizing n with
  | nil => cases h
  | cons i is ih =>
    unfold newLinks at h
    cases hp : env.findProgram i (hookAt g env i).name with
    | none => rw [hp] at h; exact ih h
    | some prog =>
      rw [hp] at h
      dsimp only at h
      by_cases ha : env.attachUprobe i = true
      · rw [if_pos ha] at h
        rcases List.mem_cons.1 h with rfl | h
        · exact ⟨rfl, rfl, rfl, hp⟩
        · exact ih h
      · rw [if_neg ha] at h
        exact ih h

end

end Collector

end VsomeipCollector

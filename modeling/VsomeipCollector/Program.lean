import VsomeipCollector.Pairing

/-!
# The program (`main.cpp`, `collector_manager.cpp`)

`main` creates the manager, which installs the signal handlers, initialises and attaches the collectors, runs the
event loop, writes a last report and shuts down.  It is a machine of small steps: `tick` is the next step of `main`
or of the function it is in, with what the system answers in that step; `stop` is a delivered `SIGINT` or `SIGTERM`,
or a call of `stop()`; and `elapse` is time going by on the monotonic clock, in nanoseconds.

`g_running` is the only thing the handler writes, and the loop reads nothing else of the manager:
`stats_interval_sec_` is stored and never looked at (`run_interval`).  Every tick of the loop is a `LoopStep`, and the
program never goes back from a later phase to an earlier one (`phase_run`).
-/

namespace VsomeipCollector

open Table Run

/-! ### Events of all modules -/

/-- An event that `ringbuf_callback` passes to the handler of its module, with the name of the hook. -/
inductive Dispatched where
  | routing (e : RoutingEvent) (hook : String)
  | app (e : AppEvent) (hook : String)
  | sd (e : SdEvent) (hook : String)

/-- `none` is a module index outside the counter tables. -/
def Session.dispatch (s : Session) (d : Dispatched) : Option Session :=
  let r :=
    match d with
    | .routing e hook => routingEventHandler e hook s.stats
    | .app e hook => appEventHandler e hook s.stats
    | .sd e hook => sdEventHandler e hook s.stats
  r.map fun r => ⟨r.1, s.log ++ r.2⟩

/-! ### The state -/

/-- Where the program is. -/
inductive Pc where
  /-- Before `CollectorManager manager`. -/
  | start
  /-- In `init_all` and `attach_all`, before the `i`-th collector. -/
  | initAll (i : Nat)
  | attachAll (i : Nat)
  /-- In `run_loop`, before the loop. -/
  | epollCreate
  | register (i : Nat)
  | setRunning
  | setFlag
  /-- In the loop: at `while (g_running)`, in `epoll_wait`, with `k` ready descriptors still to be handled. -/
  | test
  | wait
  | handle (k : Nat)
  /-- After the loop. -/
  | leave
  | flush
  | evict
  | shutdown
  | exited (code : Nat)
  /-- A signal came before the handlers were installed. -/
  | killed
  /-- An index outside a table was written. -/
  | crashed
deriving DecidableEq, Repr

structure Proc where
  pc : Pc := .start
  gRunning : Bool := true
  running : Bool := false
  statsIntervalSec : Nat := 10
  initOk : Nat := 0
  /-- The monotonic clock, in nanoseconds. -/
  now : Nat := 0
  session : Session

/-- A result of `epoll_wait`. -/
inductive WaitResult where
  | ready (k : Nat)
  | eintr
  | error
deriving DecidableEq, Repr

def maxEvents : Nat := 16

/-- What the system answers in one step. -/
structure TickEnv where
  /-- Whether `init` of the collector, or `epoll_create1`, succeeds. -/
  ok : Bool := true
  wait : WaitResult := .ready 0
  /-- What `ring_buffer__consume` delivers. -/
  events : List Dispatched := []
  order : Enumeration PendingItem := byKey

inductive Action where
  | stop
  | elapse (ns : Nat)
  | tick (env : TickEnv)

/-! ### Steps -/

section

variable (cfg : HookConfig) (n interval : Nat)

/-- `handle_collector_event`: the collector consumes its ring buffer. -/
def Session.poll (s : Session) (events : List Dispatched) : Option Session :=
  runFrom (lift Session.dispatch) (some s) events

/-- The next step of `main`, with `n` collectors and the interval of the command line. -/
def Proc.tick (p : Proc) (env : TickEnv) : Proc :=
  match p.pc with
  | .start => { p with pc := .initAll 0, statsIntervalSec := interval }
  | .initAll i =>
    if i < n then { p with pc := .initAll (i + 1), initOk := if env.ok then p.initOk + 1 else p.initOk }
    else if p.initOk = 0 then { p with pc := .exited 1 }
    else { p with pc := .attachAll 0 }
  | .attachAll i => if i < n then { p with pc := .attachAll (i + 1) } else { p with pc := .epollCreate }
  -- if it fails, `run_loop` returns and `main` goes on with the last report
  | .epollCreate => if env.ok then { p with pc := .register 0 } else { p with pc := .flush }
  | .register i => if i < n then { p with pc := .register (i + 1) } else { p with pc := .setRunning }
  | .setRunning => { p with pc := .setFlag, running := true }
  -- whatever the handler has written so far
  | .setFlag => { p with pc := .test, gRunning := true }
  | .test => if p.gRunning then { p with pc := .wait } else { p with pc := .leave }
  | .wait =>
    match env.wait with
    | .eintr => { p with pc := .test }
    | .error => { p with pc := .leave }
    | .ready k => { p with pc := .handle (min k maxEvents) }
  | .handle 0 => { p with pc := .test }
  | .handle (k + 1) =>
    match p.session.poll env.events with
    | some s => { p with pc := .handle k, session := s }
    | none => { p with pc := .crashed }
  | .leave => { p with pc := .flush, running := false }
  | .flush =>
    let r := p.session.stats.flushReport cfg (UInt64.ofNat p.now)
    { p with pc := .evict, session := ⟨r.1, p.session.log ++ r.2⟩ }
  | .evict =>
    let r := p.session.stats.evictExpired (UInt64.ofNat p.now) env.order
    { p with pc := .shutdown, session := ⟨r.1, p.session.log ++ r.2⟩ }
  | .shutdown => { p with pc := .exited 0, running := false }
  | .exited _ => p
  | .killed => p
  | .crashed => p

def Proc.step (p : Proc) : Action → Proc
  | .stop => if p.pc = .start then { p with pc := .killed } else { p with gRunning := false }
  | .elapse ns => { p with now := p.now + ns }
  | .tick env => p.tick cfg n interval env

/-- The program before its first step; `main` sets a log writer. -/
def Proc.boot : Proc := { session := ⟨StatsCollector.fresh cfg true, []⟩ }

/-- The state after some actions. -/
def Proc.run (as : List Action) : Proc := runFrom (Proc.step cfg n interval) (Proc.boot cfg) as

end

/-! ### The interval -/

private theorem tick_interval (cfg : HookConfig) (n i j : Nat) (p : Proc) (x : Nat) (env : TickEnv) :
    ∃ y, { p with statsIntervalSec := x }.tick cfg n j env = { p.tick cfg n i env with statsIntervalSec := y } := by
  obtain ⟨pc, gRunning, running, _, initOk, now, session⟩ := p
  unfold Proc.tick
  cases pc with
  | start => exact ⟨j, rfl⟩
  | wait => cases env.wait <;> exact ⟨x, rfl⟩
  | handle k =>
    cases k with
    | zero => exact ⟨x, rfl⟩
    | succ k =>
      dsimp only
      cases session.poll env.events <;> exact ⟨x, rfl⟩
  | _ =>
    dsimp only
    repeat' split
    all_goals exact ⟨x, rfl⟩

/-- Nothing reads the interval: with another one the program does the same. -/
theorem run_interval (cfg : HookConfig) (n i j : Nat) (as : List Action) :
    ∃ y, Proc.run cfg n j as = { Proc.run cfg n i as with statsIntervalSec := y } := by
  apply runFrom_related fun p q : Proc => ∃ y, q = { p with statsIntervalSec := y }
  · rintro p - a ⟨x, rfl⟩
    cases a with
    | elapse ns => exact ⟨x, rfl⟩
    | tick env => exact tick_interval cfg n i j p x env
    | stop =>
      unfold Proc.step
      dsimp only
      split <;> exact ⟨x, rfl⟩
  · exact ⟨_, rfl⟩

/-! ### Phases -/

/-- Before the loop, in it, and after it. -/
def Pc.phase : Pc → Nat
  | .start | .initAll _ | .attachAll _ | .epollCreate | .register _ | .setRunning | .setFlag => 0
  | .test | .wait | .handle _ => 1
  | .leave | .flush | .evict | .shutdown | .exited _ | .killed | .crashed => 2

/-- The next tick starts an iteration of the loop. -/
def Proc.StartsIteration (p : Proc) : Prop := p.pc = .test ∧ p.gRunning = true

/-- What a tick in the loop does. -/
inductive LoopStep (env : TickEnv) (p : Proc) : Proc → Prop where
  | begins : p.StartsIteration → LoopStep env p { p with pc := .wait }
  | leaves : p.pc = .test → p.gRunning = false → LoopStep env p { p with pc := .leave }
  | interrupted : p.pc = .wait → LoopStep env p { p with pc := .test }
  | failed : p.pc = .wait → LoopStep env p { p with pc := .leave }
  | ready (k : Nat) : p.pc = .wait → k ≤ maxEvents → LoopStep env p { p with pc := .handle k }
  | handled : p.pc = .handle 0 → LoopStep env p { p with pc := .test }
  | consumed (k : Nat) (s : Session) : p.pc = .handle (k + 1) → p.session.poll env.events = some s →
      LoopStep env p { p with pc := .handle k, session := s }
  | crashed (k : Nat) : p.pc = .handle (k + 1) → p.session.poll env.events = none →
      LoopStep env p { p with pc := .crashed }

/-- How an action enters the loop or stays in it. -/
inductive IntoLoop (p : Proc) : Action → Proc → Prop where
  | entered (env : TickEnv) : p.pc = .setFlag → IntoLoop p (.tick env) { p with pc := .test, gRunning := true }
  | ticked (env : TickEnv) {p' : Proc} : p.pc.phase = 1 → LoopStep env p p' → IntoLoop p (.tick env) p'
  | stopped : p.pc.phase = 1 → IntoLoop p .stop { p with gRunning := false }
  | elapsed (ns : Nat) : p.pc.phase = 1 → IntoLoop p (.elapse ns) { p with now := p.now + ns }

variable (cfg : HookConfig) (n interval : Nat)

@[simp] theorem run_concat (as : List Action) (a : Action) :
    Proc.run cfg n interval (as ++ [a]) = (Proc.run cfg n interval as).step cfg n interval a := runFrom_concat ..

@[simp] theorem step_tick (p : Proc) (env : TickEnv) :
    p.step cfg n interval (.tick env) = p.tick cfg n interval env := rfl

/-- A request writes nothing but the flag, once the handlers are installed. -/
theorem step_stop {p : Proc} (h : p.pc ≠ .start) : p.step cfg n interval .stop = { p with gRunning := false } :=
  if_neg h

theorem loopStep_tick {p : Proc} (env : TickEnv) (h : p.pc.phase = 1) : LoopStep env p (p.tick cfg n interval env) := by
  unfold Proc.tick
  cases hp : p.pc with
  | test =>
    dsimp only
    by_cases hg : p.gRunning = true
    · rw [if_pos hg]
      exact .begins ⟨hp, hg⟩
    · rw [if_neg hg]
      exact .leaves hp (by simpa using hg)
  | wait =>
    dsimp only
    cases env.wait with
    | ready k => exact .ready _ hp (Nat.min_le_right _ _)
    | eintr => exact .interrupted hp
    | error => exact .failed hp
  | handle k =>
    cases k with
    | zero => exact .handled hp
    | succ k =>
      dsimp only
      cases hs : p.session.poll env.events with
      | some s => exact .consumed k s hp hs
      | none => exact .crashed k hp hs
  | _ => simp [hp, Pc.phase] at h

/-- A tick before the loop leaves the session alone; it enters the loop only by setting `g_running`. -/
theorem tick_before {p : Proc} (env : TickEnv) (h : p.pc.phase = 0) :
    (p.tick cfg n interval env).session = p.session ∧
      ((p.tick cfg n interval env).pc.phase = 1 →
        p.pc = .setFlag ∧ p.tick cfg n interval env = { p with pc := .test, gRunning := true }) := by
  unfold Proc.tick
  cases hp : p.pc with
  | setFlag => exact ⟨rfl, fun _ => ⟨rfl, rfl⟩⟩
  | test => simp [hp, Pc.phase] at h
  | wait => simp [hp, Pc.phase] at h
  | handle k => simp [hp, Pc.phase] at h
  | _ =>
    dsimp only
    repeat' split
    all_goals simp [Pc.phase, hp] at h ⊢

theorem tick_after {p : Proc} (env : TickEnv) (h : p.pc.phase = 2) : (p.tick cfg n interval env).pc.phase = 2 := by
  unfold Proc.tick
  cases hp : p.pc with
  | handle k => simp [hp, Pc.phase] at h
  | _ => simp [hp, Pc.phase] at h ⊢

theorem LoopStep.phase_pos {env : TickEnv} {p p' : Proc} (h : LoopStep env p p') : 1 ≤ p'.pc.phase := by
  cases h <;> simp [Pc.phase]

theorem phase_le (pc : Pc) : pc.phase ≤ 2 := by
  cases pc <;> simp [Pc.phase]

/-- The program never goes back. -/
theorem phase_step (p : Proc) (a : Action) : p.pc.phase ≤ (p.step cfg n interval a).pc.phase := by
  cases a with
  | tick env =>
    show p.pc.phase ≤ (p.tick cfg n interval env).pc.phase
    have hle := phase_le p.pc
    rcases (by omega : p.pc.phase = 0 ∨ p.pc.phase = 1 ∨ p.pc.phase = 2) with h | h | h
    · omega
    · rw [h]
      exact (loopStep_tick cfg n interval env h).phase_pos
    · rw [h, tick_after cfg n interval env h]
  | elapse ns => exact Nat.le_refl _
  | stop =>
    by_cases hp : p.pc = .start
    · rw [hp]
      exact Nat.zero_le _
    · rw [step_stop cfg n interval hp]

/-- An action that ends in the loop is one of these. -/
theorem intoLoop_step {p : Proc} {a : Action} (h : (p.step cfg n interval a).pc.phase = 1) :
    IntoLoop p a (p.step cfg n interval a) := by
  cases a with
  | elapse ns => exact .elapsed ns h
  | stop =>
    by_cases hp : p.pc = .start
    · unfold Proc.step at h
      simp [hp, Pc.phase] at h
    · rw [step_stop cfg n interval hp] at h ⊢
      exact .stopped h
  | tick env =>
    have hle := phase_step cfg n interval p (.tick env)
    rw [h] at hle
    rcases (by omega : p.pc.phase = 0 ∨ p.pc.phase = 1) with h0 | h1
    · obtain ⟨hpc, ht⟩ := (tick_before cfg n interval env h0).2 h
      rw [step_tick, ht]
      exact .entered env hpc
    · exact .ticked env h1 (loopStep_tick cfg n interval env h1)

theorem phase_run (as bs : List Action) :
    (Proc.run cfg n interval as).pc.phase ≤ (Proc.run cfg n interval (as ++ bs)).pc.phase := by
  induction bs using List.reverseRecOn with
  | nil => rw [List.append_nil]
  | append_singleton bs b ih =>
    rw [← List.append_assoc, run_concat]
    exact Nat.le_trans ih (phase_step cfg n interval _ b)

/-- A program that is in the loop, and was there before, has been there all the time. -/
theorem phase_between {as bs cs : List Action} (h0 : (Proc.run cfg n interval as).pc.phase = 1)
    (h1 : (Proc.run cfg n interval (as ++ bs ++ cs)).pc.phase = 1) :
    (Proc.run cfg n interval (as ++ bs)).pc.phase = 1 := by
  have hl := phase_run cfg n interval as bs
  have hr := phase_run cfg n interval (as ++ bs) cs
  omega

end VsomeipCollector

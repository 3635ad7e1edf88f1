import VsomeipCollector.Accounts
import VsomeipCollector.Latencies
import VsomeipCollector.Lifecycle

/-!
# The program and its ring buffers

`Monitor` is the whole of it: `main` with what it owns, the programs in the kernel, and the ring buffers between them.
While `main` is in `ring_buffer__consume` of a collector the probes of all modules go on firing, and the call takes its
steps between theirs; no other consumer moves.

For the ring buffers and the statistics every run of it is one of `Hub`, in which a report is made where `main` makes it
(`monitor_run`); so what holds of these runs holds of the program.  In particular the log that it leaves accounts for
every firing that was passed, and for nothing else (`exit_accounted`).
-/

namespace VsomeipCollector

open Family Run StatsCollector Table

/-! ### The machine -/

/-- An action of the programs in the kernel. -/
def FeedAction.isProbe {k : EventKind} : FeedAction k → Bool
  | .consume => false
  | _ => true

section

variable {cfg : HookConfig} {n : Nat} (ms : Fin n → Member cfg)

structure Monitor where
  main : Main
  feeds : ∀ j, Feed (ms j).kind
  /-- What the call of `ring_buffer__consume` that `main` is in has delivered, once it has begun. -/
  batch : Option (List Dispatched) := none

inductive MonitorAction where
  | probe (j : Fin n) (a : FeedAction (ms j).kind) (h : a.isProbe = true)
  /-- The next step of the call of `ring_buffer__consume` that `main` is in. -/
  | consume
  | main (a : MainAction)

/-- The modules that the manager has collectors for. -/
def groupsOf : List FileGroup := List.ofFn fun j => (ms j).group

end

namespace Monitor

variable {cfg : HookConfig} {n : Nat} {ms : Fin n → Member cfg}

/-- The collector that `main` is to poll next; it consumes nothing if it has no ring buffer. -/
def polling (m : Monitor ms) : Option (Fin n) :=
  match m.main.proc.pc with
  | .handle (_ + 1) =>
    m.main.own.ready.head?.bind fun i =>
      if h : i < n then
        if (m.main.own.collectors[i]?).any fun c => c.ringbuf.isSome then some ⟨i, h⟩ else none
      else none
  | _ => none

/-- The collector whose call of `ring_buffer__consume` has not returned yet. -/
def consuming (m : Monitor ms) : Option (Fin n) :=
  m.polling.filter fun j => !(m.batch.isSome && (m.feeds j).ring.consumer.pc = .idle)

section

variable (K : RingKernel) (ids : Macros) (pid : Int) (interval : Nat)

def step (m : Monitor ms) : MonitorAction ms → Monitor ms
  | .probe j a _ => { m with feeds := Function.update m.feeds j ((m.feeds j).step K ids (ms j).ring a) }
  | .consume =>
    match m.consuming with
    | some j =>
      { m with
        feeds := Function.update m.feeds j ((m.feeds j).step K ids (ms j).ring .consume)
        batch := some (m.batch.getD [] ++
          ((m.feeds j).out (ms j).ring .consume).map fun bs => (ms j).kind.event (ms j).group bs) }
    | none => m
  | .main (.tick env) =>
    -- `main` waits for the call to return
    if m.consuming.isSome then m
    else
      { m with
        main := m.main.step cfg (groupsOf ms) pid interval (.tick { env with events := m.batch.getD [] })
        batch := none }
  | .main a => { m with main := m.main.step cfg (groupsOf ms) pid interval a }

/-- Before the first step of `main`. -/
def init (data : Fin n → Nat → UInt8) : Monitor ms where
  main := { proc := Proc.boot cfg }
  feeds j := { ring := .init (data j) }

def run (data : Fin n → Nat → UInt8) (as : List (MonitorAction ms)) : Monitor ms :=
  runFrom (step K ids pid interval) (init data) as

end

/-- The ring buffers have not wrapped around their positions. -/
def Fits (m : Monitor ms) : Prop := ∀ j, (m.feeds j).ring.total < 2 ^ 64

end Monitor

/-! ### The calls of `main` -/

/-- The calls of the statistics collector in the next step of `main`, other than those for events. -/
def Proc.calls (p : Proc) (order : Enumeration PendingItem) : List Call :=
  match p.pc with
  | .flush => [.flushReport (UInt64.ofNat p.now)]
  | .evict => [.evictExpired (UInt64.ofNat p.now) order]
  | _ => []

section

variable (cfg : HookConfig) (n interval : Nat) {p : Proc}

private theorem tick_handle {env : TickEnv} {k : Nat} (hp : p.pc = .handle (k + 1)) {t : Session}
    (ht : p.session.poll env.events = some t) : p.tick cfg n interval env = { p with pc := .handle k, session := t } := by
  unfold Proc.tick
  rw [hp]
  dsimp only
  rw [ht]

private theorem tick_quiet (env : TickEnv) (hp : ∀ k, p.pc ≠ .handle (k + 1)) :
    (p.tick cfg n interval env).session = runFrom (Session.step cfg) p.session (p.calls env.order) ∧
      ((p.tick cfg n interval env).pc = .crashed → p.pc = .crashed) := by
  unfold Proc.tick Proc.calls
  cases hpc : p.pc with
  | handle k =>
    cases k with
    | succ k => exact absurd hpc (hp k)
    | zero => exact ⟨rfl, nofun⟩
  | wait =>
    dsimp only
    cases env.wait <;> exact ⟨rfl, nofun⟩
  | flush | evict => exact ⟨rfl, nofun⟩
  | crashed => exact ⟨rfl, fun _ => rfl⟩
  | exited code | killed =>
    dsimp only
    rw [hpc]
    exact ⟨rfl, nofun⟩
  | _ =>
    dsimp only
    repeat' split
    all_goals exact ⟨rfl, nofun⟩

end

/-! ### After the last report -/

/-- At the end, or on the way there from the last report. -/
def Pc.reported : Pc → Bool
  | .evict | .shutdown => true
  | .exited code => code = 0
  | _ => false

/-- The counters of the modules are zero after the last report. -/
structure Reporting (cfg : HookConfig) (p : Proc) : Prop where
  sized : Sized cfg p.session.stats
  writer : p.session.stats.logWriter = true
  reset : p.pc.reported = true → ∀ i, 1 ≤ i → i ≤ cfg.maxModuleId →
    p.session.stats.modSend.getD i 0 = 0 ∧ p.session.stats.modRecv.getD i 0 = 0

section

variable (cfg : HookConfig) (n interval : Nat) {p : Proc}

private theorem writer_dispatch {s t : Session} {d : Dispatched} (hsized : Sized cfg s.stats)
    (h : s.dispatch d = some t) : Sized cfg t.stats ∧ t.stats.logWriter = s.stats.logWriter := by
  rw [← Session.handle_true, Session.handle_eq cfg] at h
  obtain ⟨u, hu, rfl⟩ := Option.map_eq_some_iff.1 h
  have husized := sized_of_operate cfg hsized hu
  have htable := inTable_of_operate cfg hsized hu
  refine ⟨husized, ?_⟩
  cases d with
  | routing e hook | app e hook | sd e hook =>
    obtain ⟨v, hv, hcounters⟩ := operate_processEvent cfg hsized htable hook _ _
    obtain rfl : v = u := Option.some.inj (hv.symm.trans hu)
    exact congrArg Counters.logWriter hcounters

private theorem writer_poll {s t : Session} {events : List Dispatched} (hsized : Sized cfg s.stats)
    (h : s.poll events = some t) : Sized cfg t.stats ∧ t.stats.logWriter = s.stats.logWriter := by
  refine runFrom_lift_induct (fun _ u => Sized cfg u.stats ∧ u.stats.logWriter = s.stats.logWriter) ⟨hsized, rfl⟩ ?_ h
  rintro _ u d v ⟨husized, hw⟩ hv
  obtain ⟨hvsized, hv⟩ := writer_dispatch cfg husized hv
  exact ⟨hvsized, hv.trans hw⟩

private theorem reporting_tick (h : Reporting cfg p) (env : TickEnv) : Reporting cfg (p.tick cfg n interval env) := by
  have hkeep : ∀ (pc : Pc) (gRunning running : Bool) (interval initOk : Nat), (pc.reported = true → p.pc.reported = true) →
      Reporting cfg ⟨pc, gRunning, running, interval, initOk, p.now, p.session⟩ :=
    fun _ _ _ _ _ hpc => ⟨h.sized, h.writer, fun hr => h.reset (hpc hr)⟩
  unfold Proc.tick
  cases hp : p.pc with
  | handle k =>
    cases k with
    | zero => exact hkeep _ _ _ _ _ fun hr => by cases hr
    | succ k =>
      dsimp only
      cases ht : p.session.poll env.events with
      | none => exact hkeep _ _ _ _ _ fun hr => by cases hr
      | some t =>
        obtain ⟨hsized, hw⟩ := writer_poll cfg h.sized ht
        exact ⟨hsized, hw.trans h.writer, nofun⟩
  | flush =>
    have hreported := (flushReport_counters cfg h.writer (UInt64.ofNat p.now)).1
    refine ⟨sized_call h.sized (.flushReport (UInt64.ofNat p.now)), ?_, fun _ i h1 hle => ?_⟩
    · exact (flushReport_frame cfg p.session.stats _).2.2.trans h.writer
    · exact ⟨(hreported.send i).trans (if_pos ⟨h1, hle⟩), (hreported.recv i).trans (if_pos ⟨h1, hle⟩)⟩
  | evict =>
    have hcounters := counters_call cfg (c := .evictExpired (UInt64.ofNat p.now) env.order) nofun p.session.stats
    have hsized := sized_call h.sized (.evictExpired (UInt64.ofNat p.now) env.order)
    refine ⟨hsized, (congrArg Counters.logWriter hcounters).trans h.writer, fun _ i h1 hle => ?_⟩
    obtain ⟨hsend, hrecv⟩ := h.reset (by rw [hp]; rfl) i h1 hle
    have hsends := congrArg Counters.modSend hcounters
    have hrecvs := congrArg Counters.modRecv hcounters
    exact ⟨(congrArg (List.getD · i 0) hsends).trans hsend, (congrArg (List.getD · i 0) hrecvs).trans hrecv⟩
  | shutdown => exact hkeep _ _ _ _ _ fun _ => by rw [hp]; rfl
  | exited code | killed | crashed =>
    dsimp only
    exact h
  | wait =>
    dsimp only
    cases env.wait <;> exact hkeep _ _ _ _ _ fun hr => by cases hr
  | _ =>
    dsimp only
    repeat' split
    all_goals exact hkeep _ _ _ _ _ fun hr => by cases hr

theorem reporting_run (as : List Action) : Reporting cfg (Proc.run cfg n interval as) := by
  have hboot : Reporting cfg (Proc.boot cfg) := ⟨sized_fresh cfg true, rfl, nofun⟩
  refine runFrom_invariant (Reporting cfg) (fun p a h => ?_) hboot as
  cases a with
  | tick env => exact reporting_tick cfg n interval h env
  | elapse ns => exact ⟨h.sized, h.writer, h.reset⟩
  | stop =>
    unfold Proc.step
    dsimp only
    split
    · exact ⟨h.sized, h.writer, nofun⟩
    · exact ⟨h.sized, h.writer, h.reset⟩

end

/-! ### It is a run of `Hub` -/

namespace Monitor

variable {cfg : HookConfig} {n : Nat} {ms : Fin n → Member cfg}

/-- What a step is for the ring buffers and the statistics. -/
def actions (m : Monitor ms) : MonitorAction ms → List (HubAction ms)
  | .probe j a _ => [.inl ⟨j, a⟩]
  | .consume => (m.consuming.map fun j => (.inl ⟨j, .consume⟩ : HubAction ms)).toList
  | .main (.tick env) => if m.consuming.isSome then [] else (m.main.proc.calls env.order).map Sum.inr
  | .main _ => []

section

variable (K : RingKernel) (ids : Macros) (pid : Int) (interval : Nat) (data : Fin n → Nat → UInt8)

/-- The run of `Hub` behind a run of the program. -/
def hubActions (as : List (MonitorAction ms)) : List (HubAction ms) :=
  collect (step K ids pid interval) actions (init data) as

private theorem feeds_calls (calls : List Call) (h : Hub ms) :
    (runFrom (Hub.step K ids true) h (calls.map Sum.inr)).feeds = h.feeds ∧
      (runFrom (Hub.step K ids true) h (calls.map Sum.inr)).session =
        h.session.map fun s => runFrom (Session.step cfg) s calls := by
  induction calls generalizing h with
  | nil => exact ⟨rfl, by simp⟩
  | cons c calls ih =>
    obtain ⟨hfeeds, hsession⟩ := ih (h.step K ids true (.inr c))
    refine ⟨hfeeds, hsession.trans ?_⟩
    show Option.map _ (Option.map _ h.session) = _
    rw [Option.map_map]
    rfl

theorem feeds_run (s : Session) (as : List (MonitorAction ms)) :
    (run K ids pid interval data as).feeds =
      (Hub.run K ids true data s (hubActions K ids pid interval data as)).feeds := by
  refine runFrom_simulates actions (fun m (h : Hub ms) => m.feeds = h.feeds) ?_ rfl as
  intro m h a hm
  cases a with
  | probe j a hprobe =>
    show Function.update m.feeds j _ = Function.update h.feeds j _
    rw [hm]
  | consume =>
    unfold step actions
    dsimp only
    cases m.consuming with
    | none => exact hm
    | some j =>
      show Function.update m.feeds j _ = Function.update h.feeds j _
      rw [hm]
  | main a =>
    cases a with
    | stop | elapse ns => exact hm
    | tick env =>
      unfold step actions
      dsimp only
      split
      · exact hm
      · rw [(feeds_calls K ids _ h).1]
        exact hm

end

/-- The events that the call in progress has delivered are not handled yet, from the point of view of `Proc`. -/
structure Follows (m : Monitor ms) (session : Option Session) : Prop where
  session : session = m.main.proc.session.poll (m.batch.getD [])
  batch : m.batch.isSome → m.polling.isSome
  inTable : ∀ d ∈ m.batch.getD [], d.hdr.moduleId.toNat ≤ cfg.maxModuleId
  alive : m.main.proc.pc ≠ .crashed

theorem polling_handle {m : Monitor ms} (h : m.polling.isSome) : ∃ k, m.main.proc.pc = .handle (k + 1) := by
  unfold polling at h
  split at h
  · exact ⟨_, ‹_›⟩
  · cases h

/-- Outside a call nothing waits to be handled. -/
theorem Follows.batch_eq_none {m : Monitor ms} {session : Option Session} (h : m.Follows session)
    (hp : ∀ k, m.main.proc.pc ≠ .handle (k + 1)) : m.batch = none := by
  cases hb : m.batch with
  | none => rfl
  | some es =>
    obtain ⟨k, hk⟩ := polling_handle (h.batch (by rw [hb]; rfl))
    exact absurd hk (hp k)

/-- `main` hands over all that was delivered. -/
private theorem Follows.polled {m : Monitor ms} {session : Option Session} (h : m.Follows session) :
    m.main.own.polled (m.batch.getD []) = m.batch.getD [] := by
  unfold Holdings.polled
  cases hb : m.batch with
  | none => split <;> simp
  | some es =>
    have hpolling := h.batch (by rw [hb]; rfl)
    unfold polling at hpolling
    split at hpolling
    · cases hr : m.main.own.ready.head? with
      | none =>
        rw [hr] at hpolling
        cases hpolling
      | some i =>
        rw [hr, Option.bind_some] at hpolling
        rw [Option.bind_some]
        cases hc : m.main.own.collectors[i]? with
        | none =>
          rw [hc] at hpolling
          split at hpolling <;> cases hpolling
        | some c =>
          rw [hc, Option.any_some] at hpolling
          cases hring : c.ringbuf with
          | none =>
            rw [hring] at hpolling
            split at hpolling <;> cases hpolling
          | some _ =>
            dsimp only
            rw [hring]
            rfl
    · cases hpolling

section

variable {files : List FileJson} {load : String → Option OffsetTable} (hgen : genConfig files load = some cfg)
  {K : RingKernel} {ids : Macros} (pid : Int) (interval : Nat) {data : Fin n → Nat → UInt8} {s : Session}

include hgen

/-- The callback does with records what the loop of `main` does with their events. -/
private theorem callbacks_dispatched (m : Member cfg) {bss : List (List UInt8)}
    (hbss : ∀ bs ∈ bss, m.kind.Holds true bs) (o : Option Session) :
    runFrom (lift (Session.callback m.group true)) o bss =
      runFrom (lift Session.dispatch) o (bss.map fun bs => m.kind.event m.group bs) := by
  induction bss generalizing o with
  | nil => rfl
  | cons bs bss ih =>
    have hstep : lift (Session.callback m.group true) o bs = lift Session.dispatch o (m.kind.event m.group bs) := by
      cases o with
      | none => rfl
      | some t =>
        show t.callback m.group true bs = t.dispatch _
        rw [callback_eq hgen m.mem m.linked true t (hbss bs List.mem_cons_self), Session.handle_true]
    rw [List.map_cons, runFrom_cons, runFrom_cons, hstep]
    exact ih (fun b hb => hbss b (List.mem_cons_of_mem _ hb)) _

private theorem Follows.consume (py : PyUpper) {m : Monitor ms} {bs : List (HubAction ms)}
    (hids : ids = genHookIds py files) (hfeeds : m.feeds = (Hub.run K ids true data s bs).feeds)
    (h : m.Follows (Hub.run K ids true data s bs).session) {j : Fin n} (hj : m.consuming = some j)
    (hfits : (Hub.run K ids true data s (bs ++ [.inl ⟨j, .consume⟩])).Fits) :
    (m.step K ids pid interval .consume).Follows (Hub.run K ids true data s (bs ++ [.inl ⟨j, .consume⟩])).session := by
  have hstep : Hub.run K ids true data s (bs ++ [.inl ⟨j, .consume⟩]) =
      (Hub.run K ids true data s bs).step K ids true (.inl ⟨j, .consume⟩) := runFrom_concat ..
  have hrecords : ∀ b ∈ ((Hub.run K ids true data s bs).feeds j).out (ms j).ring .consume,
      (∀ formats, (ms j).kind.Holds formats b) ∧
        ((ms j).kind.event (ms j).group b).hdr.moduleId = ids.byte ("MODULE_" ++ (ms j).kind.upperName) :=
    fun b hb => Hub.out_records K true data hfits hb
  have hpolling : m.polling = some j := (Option.filter_eq_some_iff.1 hj).1
  unfold step
  rw [hj, hstep]
  refine ⟨?_, fun _ => ?_, fun d hd => ?_, h.alive⟩
  · show runFrom _ (Hub.run K ids true data s bs).session _ = _
    rw [callbacks_dispatched hgen (ms j) fun b hb => (hrecords b hb).1 true, h.session, hfeeds]
    exact (runFrom_append ..).symm
  · show m.polling.isSome = true
    rw [hpolling]
    rfl
  · rcases List.mem_append.1 hd with hd | hd
    · exact h.inTable d hd
    · rw [hfeeds] at hd
      obtain ⟨b, hb, rfl⟩ := List.mem_map.1 hd
      rw [(hrecords b hb).2, hids]
      exact module_in_table hgen (ms j).mem (ms j).linked py

omit hgen in
private theorem Follows.tick {m : Monitor ms} {session : Option Session} (h : m.Follows session) {t : Session}
    (ht : session = some t) (hreturned : m.consuming = none) (env : MainEnv) :
    (m.step K ids pid interval (.main (.tick env))).Follows
      (some (runFrom (Session.step cfg) t (m.main.proc.calls env.order))) := by
  have hevents : (m.main.tickEnv { env with events := m.batch.getD [] }).events = m.batch.getD [] := h.polled
  have hpoll : m.main.proc.session.poll (m.main.tickEnv { env with events := m.batch.getD [] }).events = some t := by
    rw [hevents, ← h.session, ht]
  unfold step
  rw [hreturned]
  show Follows ⟨m.main.step cfg (groupsOf ms) pid interval _, m.feeds, none⟩ _
  by_cases hp : ∃ k, m.main.proc.pc = .handle (k + 1)
  · obtain ⟨k, hp⟩ := hp
    have htick := tick_handle cfg (groupsOf ms).length interval hp hpoll
    have hcalls : m.main.proc.calls env.order = [] := by
      unfold Proc.calls
      rw [hp]
    rw [hcalls]
    refine ⟨?_, nofun, nofun, ?_⟩
    · show some t = some (m.main.proc.tick cfg _ interval _).session
      rw [htick]
    · show (m.main.proc.tick cfg _ interval _).pc ≠ .crashed
      rw [htick]
      nofun
  · obtain ⟨hsession, hpc⟩ := tick_quiet cfg (groupsOf ms).length interval
      (m.main.tickEnv { env with events := m.batch.getD [] }) fun k hk => hp ⟨k, hk⟩
    have hbatch : m.batch = none := h.batch_eq_none fun k hk => hp ⟨k, hk⟩
    have hsame : m.main.proc.session = t := by
      rw [hevents, hbatch] at hpoll
      exact Option.some.inj hpoll
    refine ⟨?_, nofun, nofun, fun hcrashed => h.alive (hpc hcrashed)⟩
    show _ = some (m.main.proc.tick cfg _ interval _).session
    rw [hsession, hsame]
    rfl

omit hgen in
private theorem Follows.stop {m : Monitor ms} {session : Option Session} (h : m.Follows session) :
    (m.step K ids pid interval (.main .stop)).Follows session := by
  by_cases hstart : m.main.proc.pc = .start
  · have hbatch : m.batch = none := h.batch_eq_none fun k hk => by
      rw [hstart] at hk
      cases hk
    have hproc : m.main.proc.step cfg (groupsOf ms).length interval .stop = { m.main.proc with pc := .killed } :=
      if_pos hstart
    refine ⟨?_, ?_, h.inTable, ?_⟩
    · show session = (m.main.proc.step cfg (groupsOf ms).length interval .stop).session.poll (m.batch.getD [])
      rw [hproc]
      exact h.session
    · show m.batch.isSome → _
      rw [hbatch]
      nofun
    · show (m.main.proc.step cfg (groupsOf ms).length interval .stop).pc ≠ .crashed
      rw [hproc]
      nofun
  · have hproc : m.main.proc.step cfg (groupsOf ms).length interval .stop = { m.main.proc with gRunning := false } :=
      step_stop cfg _ interval hstart
    have hmain : m.step K ids pid interval (.main .stop) =
        { m with main := { m.main with proc := { m.main.proc with gRunning := false } } } := by
      rw [← hproc]
      rfl
    rw [hmain]
    exact ⟨h.session, h.batch, h.inTable, h.alive⟩

omit hgen in
/-- An action that is none for `Hub`. -/
private theorem follows_unseen {m m' : Monitor ms} {bs : List (HubAction ms)} {a : MonitorAction ms}
    (ha : m.actions a = []) (h : m'.Follows (Hub.run K ids true data s bs).session) :
    m'.Follows (Hub.run K ids true data s (bs ++ m.actions a)).session := by
  rw [ha, List.append_nil]
  exact h

/-- One action of the program and what it is for `Hub`. -/
private theorem Follows.step (py : PyUpper) (hsized : Sized cfg s.stats) {m : Monitor ms} {bs : List (HubAction ms)}
    (hfeeds : m.feeds = (Hub.run K (genHookIds py files) true data s bs).feeds)
    (h : m.Follows (Hub.run K (genHookIds py files) true data s bs).session)
    (hfit : (Hub.run K (genHookIds py files) true data s bs).Fits) (a : MonitorAction ms)
    (hfits : (Hub.run K (genHookIds py files) true data s (bs ++ m.actions a)).Fits) :
    (m.step K (genHookIds py files) pid interval a).Follows
      (Hub.run K (genHookIds py files) true data s (bs ++ m.actions a)).session := by
  cases a with
  | probe j a hprobe =>
    have hsession : (Hub.run K (genHookIds py files) true data s (bs ++ [.inl ⟨j, a⟩])).session =
        (Hub.run K (genHookIds py files) true data s bs).session := by
      unfold Hub.run
      rw [runFrom_concat]
      cases a with
      | fire x w | write i | submit i => rfl
      | consume => cases hprobe
    show Follows _ (Hub.run K (genHookIds py files) true data s (bs ++ [.inl ⟨j, a⟩])).session
    rw [hsession]
    exact ⟨h.session, h.batch, h.inTable, h.alive⟩
  | consume =>
    cases hj : m.consuming with
    | some j =>
      have hactions : m.actions .consume = [.inl ⟨j, .consume⟩] := by
        unfold actions
        rw [hj]
        rfl
      rw [hactions] at hfits ⊢
      exact h.consume hgen pid interval py rfl hfeeds hj hfits
    | none =>
      have hactions : m.actions .consume = [] := by
        unfold actions
        rw [hj]
        rfl
      have hsame : m.step K (genHookIds py files) pid interval .consume = m := by
        unfold Monitor.step
        rw [hj]
      exact follows_unseen hactions (hsame.symm ▸ h)
  | main a =>
    cases a with
    | stop => exact follows_unseen rfl (h.stop pid interval)
    | elapse ns => exact follows_unseen rfl ⟨h.session, h.batch, h.inTable, h.alive⟩
    | tick env =>
      cases hj : m.consuming with
      | some j =>
        have hactions : m.actions (.main (.tick env)) = [] := if_pos (by rw [hj]; rfl)
        have hsame : m.step K (genHookIds py files) pid interval (.main (.tick env)) = m := if_pos (by rw [hj]; rfl)
        exact follows_unseen hactions (hsame.symm ▸ h)
      | none =>
        have hactions : m.actions (.main (.tick env)) = (m.main.proc.calls env.order).map Sum.inr :=
          if_neg (by rw [hj]; nofun)
        obtain ⟨t, ht, -⟩ := Hub.session_taken hgen K py true data hsized hfit
        have hsession : (Hub.run K (genHookIds py files) true data s
            (bs ++ (m.main.proc.calls env.order).map Sum.inr)).session =
              some (runFrom (Session.step cfg) t (m.main.proc.calls env.order)) := by
          unfold Hub.run at ht ⊢
          rw [runFrom_append, (feeds_calls ..).2, ht]
          rfl
        rw [hactions, hsession]
        exact h.tick pid interval ht hj env

end

section

variable {files : List FileJson} {load : String → Option OffsetTable} (hgen : genConfig files load = some cfg)
  (K : RingKernel) (py : PyUpper) (pid : Int) (interval : Nat) (data : Fin n → Nat → UInt8)

private theorem fits_of_append {ids : Macros} {s : Session} {bs cs : List (HubAction ms)}
    (h : (Hub.run K ids true data s (bs ++ cs)).Fits) : (Hub.run K ids true data s bs).Fits := by
  induction cs using List.reverseRecOn with
  | nil => rwa [List.append_nil] at h
  | append_singleton cs c ih =>
    rw [← List.append_assoc] at h
    exact ih (Hub.fits_of_concat K true data h)

include hgen

omit hgen in
private theorem hub_fits {ids : Macros} (as1 as2 : List (MonitorAction ms))
    (hfits : (run K ids pid interval data (as1 ++ as2)).Fits) (s : Session) :
    (Hub.run K ids true data s (hubActions K ids pid interval data as1)).Fits := by
  have hfits' : (Hub.run K ids true data s (hubActions K ids pid interval data (as1 ++ as2))).Fits := by
    intro j
    rw [← feeds_run]
    exact hfits j
  unfold hubActions at hfits'
  rw [collect_append] at hfits'
  exact fits_of_append K data hfits'

omit hgen in
theorem fits_earlier {ids : Macros} {as1 as2 : List (MonitorAction ms)}
    (hfits : (run K ids pid interval data (as1 ++ as2)).Fits) : (run K ids pid interval data as1).Fits := by
  intro j
  rw [feeds_run K ids pid interval data ⟨fresh cfg true, []⟩]
  exact hub_fits K pid interval data _ _ hfits _ j

/-- For the statistics a run of the program is the run of `Hub` behind it. -/
theorem follows_run (as : List (MonitorAction ms)) (hfits : (run K (genHookIds py files) pid interval data as).Fits) :
    (run K (genHookIds py files) pid interval data as).Follows (Hub.run K (genHookIds py files) true data
      ⟨fresh cfg true, []⟩ (hubActions K (genHookIds py files) pid interval data as)).session := by
  induction as using List.reverseRecOn with
  | nil => exact ⟨rfl, nofun, nofun, nofun⟩
  | append_singleton as a ih =>
    have hactions : hubActions K (genHookIds py files) pid interval data (as ++ [a]) =
        hubActions K (genHookIds py files) pid interval data as ++
          (run K (genHookIds py files) pid interval data as).actions a := collect_concat ..
    have hrun : run K (genHookIds py files) pid interval data (as ++ [a]) =
        (run K (genHookIds py files) pid interval data as).step K (genHookIds py files) pid interval a := runFrom_concat ..
    have hlast := hub_fits K pid interval data (as ++ [a]) [] (by rwa [List.append_nil]) ⟨fresh cfg true, []⟩
    rw [hactions] at hlast ⊢
    rw [hrun]
    exact (ih (fits_earlier K pid interval data hfits)).step hgen pid interval py (sized_fresh cfg true) (feeds_run ..)
      (hub_fits K pid interval data _ _ hfits _) a hlast

end

/-- What `main` does in a step, with the events that the ring buffers have delivered. -/
def mainActions (m : Monitor ms) : MonitorAction ms → List MainAction
  | .main (.tick env) => if m.consuming.isSome then [] else [.tick { env with events := m.batch.getD [] }]
  | .main a => [a]
  | _ => []

theorem main_run (K : RingKernel) (ids : Macros) (pid : Int) (interval : Nat) (data : Fin n → Nat → UInt8)
    (as : List (MonitorAction ms)) : (run K ids pid interval data as).main =
      Main.run cfg (groupsOf ms) pid interval (collect (step K ids pid interval) mainActions (init data) as) := by
  refine runFrom_simulates mainActions (fun m (x : Main) => m.main = x) ?_ rfl as
  rintro m _ a rfl
  cases a with
  | probe j a h => rfl
  | consume =>
    unfold step
    dsimp only
    cases m.consuming <;> rfl
  | main a =>
    cases a with
    | stop | elapse ns => rfl
    | tick env =>
      unfold step mainActions
      dsimp only
      split <;> rfl

private theorem actions_upkeep {m : Monitor ms} {a : MonitorAction ms} :
    ∀ c ∈ (m.actions a).filterMap Sum.getRight?, c.isUpkeep = true := by
  intro c hc
  cases a with
  | probe j a h => cases hc
  | consume =>
    unfold actions at hc
    cases hj : m.consuming with
    | none =>
      rw [hj] at hc
      cases hc
    | some j =>
      rw [hj] at hc
      cases hc
  | main a =>
    cases a with
    | stop | elapse ns => cases hc
    | tick env =>
      unfold actions Proc.calls at hc
      dsimp only at hc
      split at hc
      · cases hc
      · split at hc
        · rw [List.mem_singleton.1 hc]
          rfl
        · rw [List.mem_singleton.1 hc]
          rfl
        · cases hc

end Monitor

/-! ### Runs of the program -/

/-- The collector is attached, a message is sent and consumed, and the program is asked to stop. -/
def oneSendMonitor : List (MonitorAction fun _ : Fin 1 => oneHookMember) :=
  let env : MainEnv := ⟨⟨true, true⟩, ⟨fun _ _ => some ⟨"hook_rm_send_entry", "uprobe/rm_send_entry"⟩, fun _ => true, true,
    true, 5, fun _ => ⟨"", "", 0, false⟩⟩, true, true, .ready [0], [], byKey⟩
  [.main (.elapse 7)] ++ List.replicate 11 (.main (.tick env)) ++
    [.probe (.last 0) (.fire oneSend 0) rfl, .probe (.last 0) (.write 0) rfl, .probe (.last 0) (.submit 0) rfl,
      .main (.tick env)] ++
    List.replicate 8 .consume ++ [.main (.tick env), .main .stop] ++ List.replicate 6 (.main (.tick env))

section

variable {files : List FileJson} {load : String → Option OffsetTable} {cfg : HookConfig}
  (hgen : genConfig files load = some cfg) (K : RingKernel) (py : PyUpper) {n : Nat} {ms : Fin n → Member cfg}
  (pid : Int) (interval : Nat) (data : Fin n → Nat → UInt8)

include hgen

/-- Every run of the program is one of `Main`, whose events name modules of the configuration, and one of `Hub`, whose
calls are those of `main`: with its ring buffers, and with its statistics once the events that the call in progress has
delivered are handled.  No index leaves a table. -/
theorem monitor_run (as : List (MonitorAction ms))
    (hfits : (Monitor.run K (genHookIds py files) pid interval data as).Fits) :
    ∃ (cs : List MainAction) (bs : List (HubAction ms)),
      (Monitor.run K (genHookIds py files) pid interval data as).main = Main.run cfg (groupsOf ms) pid interval cs ∧
      (∀ c ∈ cs, c.InTable cfg) ∧
      (Monitor.run K (genHookIds py files) pid interval data as).feeds =
        (Hub.run K (genHookIds py files) true data ⟨fresh cfg true, []⟩ bs).feeds ∧
      (∀ c ∈ bs.filterMap Sum.getRight?, c.isUpkeep = true) ∧
      (Hub.run K (genHookIds py files) true data ⟨fresh cfg true, []⟩ bs).session =
        (Monitor.run K (genHookIds py files) pid interval data as).main.proc.session.poll
          ((Monitor.run K (genHookIds py files) pid interval data as).batch.getD []) ∧
      (Monitor.run K (genHookIds py files) pid interval data as).main.proc.pc ≠ .crashed := by
  have hfollows := Monitor.follows_run hgen K py pid interval data as hfits
  refine ⟨_, _, Monitor.main_run .., ?_, Monitor.feeds_run .., ?_, hfollows.session, hfollows.alive⟩
  · intro c hc
    obtain ⟨as1, a, as2, has, hmem⟩ := mem_collect hc
    subst has
    clear hc
    have hbefore := Monitor.follows_run hgen K py pid interval data as1 (Monitor.fits_earlier K pid interval data hfits)
    cases a with
    | probe j a h => cases hmem
    | consume => cases hmem
    | main a =>
      cases a with
      | stop | elapse ns =>
        rw [List.mem_singleton.1 hmem]
        trivial
      | tick env =>
        unfold Monitor.mainActions at hmem
        dsimp only at hmem
        split at hmem
        · cases hmem
        · rw [List.mem_singleton.1 hmem]
          exact hbefore.inTable
  · intro c hc
    obtain ⟨x, hx, hc⟩ := List.mem_filterMap.1 hc
    obtain ⟨as1, a, as2, -, hx⟩ := mem_collect hx
    exact Monitor.actions_upkeep c (List.mem_filterMap.2 ⟨x, hx, hc⟩)

omit hgen in
theorem monitor_run_one_send :
    ∃ (cs : List MainAction) (bs : List (HubAction fun _ : Fin 1 => oneHookMember)),
      (Monitor.run .plain (genHookIds .letters [oneHookFile]) 7 10 (fun _ _ => 0) oneSendMonitor).main =
        Main.run oneHookConfig (groupsOf fun _ : Fin 1 => oneHookMember) 7 10 cs ∧
      (∀ c ∈ cs, c.InTable oneHookConfig) ∧
      (Monitor.run .plain (genHookIds .letters [oneHookFile]) 7 10 (fun _ _ => 0) oneSendMonitor).feeds =
        (Hub.run .plain (genHookIds .letters [oneHookFile]) true (fun _ _ => 0) ⟨fresh oneHookConfig true, []⟩ bs).feeds ∧
      (∀ c ∈ bs.filterMap Sum.getRight?, c.isUpkeep = true) ∧
      (Hub.run .plain (genHookIds .letters [oneHookFile]) true (fun _ _ => 0) ⟨fresh oneHookConfig true, []⟩ bs).session =
        (Monitor.run .plain (genHookIds .letters [oneHookFile]) 7 10 (fun _ _ => 0) oneSendMonitor).main.proc.session.poll
          ((Monitor.run .plain (genHookIds .letters [oneHookFile]) 7 10 (fun _ _ => 0) oneSendMonitor).batch.getD []) ∧
      (Monitor.run .plain (genHookIds .letters [oneHookFile]) 7 10 (fun _ _ => 0)
        oneSendMonitor).main.proc.pc ≠ .crashed := by
  have hgen : genConfig [oneHookFile] (fun _ => some [("send()", some 64)]) = some oneHookConfig := rfl
  refine monitor_run hgen .plain .letters 7 10 (fun _ _ => 0) oneSendMonitor ?_
  intro j
  obtain rfl : j = 0 := Subsingleton.elim ..
  decide +kernel

/-- The log of a program that has come to its regular end accounts for its probes: what the reports in it say that a
module sent is the number of its sending entry probes that fired, got a slot and were passed, modulo `2 ^ 64`; and so for
what it received. -/
theorem exit_accounted (hdistinct : DistinctModules py files) (hkinds : Function.Injective fun j => (ms j).kind)
    (as : List (MonitorAction ms)) (hfits : (Monitor.run K (genHookIds py files) pid interval data as).Fits)
    (hexit : (Monitor.run K (genHookIds py files) pid interval data as).main.proc.pc = .exited 0) (j : Fin n) :
    ∃ ys m, Passed (genHookIds py files) ((Monitor.run K (genHookIds py files) pid interval data as).feeds j) ys m ∧
      sentIn (ms j).group.name (Monitor.run K (genHookIds py files) pid interval data as).main.proc.session.log =
        UInt64.ofNat ((ys.take m).countP fun y => y.shot.isSend) ∧
      receivedIn (ms j).group.name (Monitor.run K (genHookIds py files) pid interval data as).main.proc.session.log =
        UInt64.ofNat ((ys.take m).countP fun y => y.shot.isRecv) := by
  have hfollows := Monitor.follows_run hgen K py pid interval data as hfits
  have hreporting : Reporting cfg (Monitor.run K (genHookIds py files) pid interval data as).main.proc := by
    rw [Monitor.main_run, Main.proc_run]
    exact reporting_run ..
  have hfeeds := Monitor.feeds_run K (genHookIds py files) pid interval data ⟨fresh cfg true, []⟩ as
  -- at the end no call is in progress
  have hbatch : (Monitor.run K (genHookIds py files) pid interval data as).batch = none :=
    hfollows.batch_eq_none fun k hk => by
      rw [hexit] at hk
      cases hk
  have hsession := hfollows.session
  rw [hbatch] at hsession
  obtain ⟨t, ht, haccounts⟩ := firings_accounted hgen K py hdistinct true data hkinds
    (Monitor.hubActions K (genHookIds py files) pid interval data as) (fun i => by rw [← hfeeds]; exact hfits i)
  obtain rfl : t = (Monitor.run K (genHookIds py files) pid interval data as).main.proc.session :=
    Option.some.inj (ht.symm.trans hsession)
  obtain ⟨ys, m, hp, hsent, hreceived⟩ := haccounts j
  obtain ⟨h1, hle⟩ := moduleId_in_table hgen hdistinct (ms j)
  obtain ⟨hsend, hrecv⟩ := hreporting.reset (by rw [hexit]; rfl) _ h1 hle
  rw [hsend, zero_add] at hsent
  rw [hrecv, zero_add] at hreceived
  rw [← hfeeds] at hp
  exact ⟨ys, m, hp, hsent, hreceived⟩

omit hgen in
theorem exit_accounted_one_send :
    ∃ ys m, Passed (genHookIds .letters [oneHookFile])
        ((Monitor.run .plain (genHookIds .letters [oneHookFile]) 7 10 (fun _ _ => 0) oneSendMonitor).feeds 0) ys m ∧
      sentIn "routing" (Monitor.run .plain (genHookIds .letters [oneHookFile]) 7 10 (fun _ _ => 0)
          oneSendMonitor).main.proc.session.log =
        UInt64.ofNat ((ys.take m).countP fun y => y.shot.isSend) ∧
      receivedIn "routing" (Monitor.run .plain (genHookIds .letters [oneHookFile]) 7 10 (fun _ _ => 0)
          oneSendMonitor).main.proc.session.log =
        UInt64.ofNat ((ys.take m).countP fun y => y.shot.isRecv) := by
  have hgen : genConfig [oneHookFile] (fun _ => some [("send()", some 64)]) = some oneHookConfig := rfl
  have hdistinct : DistinctModules .letters [oneHookFile] :=
    ⟨List.nodup_singleton _, List.nodup_singleton _, by simp [oneHookFile]⟩
  refine exit_accounted hgen .plain .letters 7 10 (fun _ _ => 0) hdistinct (Function.injective_of_subsingleton _)
    oneSendMonitor ?_ ?_ 0
  · intro j
    obtain rfl : j = 0 := Subsingleton.elim ..
    decide +kernel
  · decide +kernel

end

end VsomeipCollector

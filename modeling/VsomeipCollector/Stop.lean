import VsomeipCollector.Program

/-!
# Stop requests

The handler of `SIGINT` and `SIGTERM`, like `stop()`, sets `g_running` to zero, and `run_loop` tests the flag before
every iteration.  A request that comes while the loop runs ends it: no further iteration starts, so at most the batch
of the `epoll_wait` in progress is handled and the loop is left within a fixed number of steps (`rank`).

`run_loop` itself assigns `g_running = 1` before its first test.  A request that came before is overwritten and the
loop runs on, unless another one comes between the assignment and the first test.  That is the only way to lose a
request (`stopHonoured_iff`).
-/

namespace VsomeipCollector

open Run

variable (cfg : HookConfig) (n interval : Nat)

def Action.isTick : Action → Bool
  | .tick _ => true
  | .stop => false
  | .elapse _ => false

/-- A stop was requested after the handlers were installed. -/
def Asked (as : List Action) : Prop :=
  ∃ pre post, as = pre ++ .stop :: post ∧ (Proc.run cfg n interval pre).pc ≠ .start

/-- Stop requests are honoured in the run `as`. -/
structure StopHonoured (as : List Action) : Prop where
  /-- No iteration starts with a request outstanding. -/
  no_start : ∀ pre env post, as = pre ++ .tick env :: post → Asked cfg n interval pre →
    ¬ (Proc.run cfg n interval pre).StartsIteration
  /-- At most one `epoll_wait` returns after the request. -/
  one_batch : ∀ pre env mid env' post, as = pre ++ .tick env :: (mid ++ .tick env' :: post) →
    Asked cfg n interval pre → (Proc.run cfg n interval pre).pc = .wait →
    (Proc.run cfg n interval (pre ++ .tick env :: mid)).pc ≠ .wait
  /-- The loop is left, at the latest when the largest batch is handled. -/
  leaves : ∀ pre post, as = pre ++ post → Asked cfg n interval pre →
    (Proc.run cfg n interval pre).pc.phase = 1 → maxEvents + 3 ≤ post.countP Action.isTick →
    (Proc.run cfg n interval as).pc.phase = 2

/-- A request that comes before `g_running = 1` is followed by another before the first test of the flag. -/
def StopKept (as : List Action) : Prop :=
  ∀ pre env mid env' post, as = pre ++ .tick env :: (mid ++ .tick env' :: post) →
    (Proc.run cfg n interval pre).pc = .setFlag → Asked cfg n interval pre →
    (∀ a ∈ mid, a.isTick = false) → .stop ∈ mid

/-! ### The flag -/

theorem asked_concat {as : List Action} {a : Action} (h : Asked cfg n interval (as ++ [a])) :
    Asked cfg n interval as ∨ a = .stop ∧ (Proc.run cfg n interval as).pc ≠ .start := by
  obtain ⟨pre, post, he, hp⟩ := h
  rcases List.eq_nil_or_concat post with rfl | ⟨post, b, rfl⟩
  · obtain ⟨rfl, hb⟩ := List.append_inj' he rfl
    cases hb
    exact Or.inr ⟨rfl, hp⟩
  · left
    have he' : as ++ [a] = (pre ++ .stop :: post) ++ [b] := by rw [he]; simp
    obtain ⟨rfl, -⟩ := List.append_inj' he' rfl
    exact ⟨pre, post, rfl, hp⟩

theorem asked_append {as : List Action} (h : Asked cfg n interval as) (bs : List Action) :
    Asked cfg n interval (as ++ bs) := by
  obtain ⟨pre, post, rfl, hp⟩ := h
  exact ⟨pre, post ++ bs, by simp, hp⟩

/-- In the loop only requests write the flag. -/
theorem LoopStep.gRunning_eq {env : TickEnv} {p p' : Proc} (h : LoopStep env p p') : p'.gRunning = p.gRunning := by
  cases h <;> rfl

/-- A step of the loop enters `epoll_wait` exactly if it starts an iteration. -/
theorem LoopStep.wait_iff {env : TickEnv} {p p' : Proc} (h : LoopStep env p p') :
    p'.pc = .wait ↔ p.StartsIteration := by
  have hno : ∀ pc, p.pc = pc → pc ≠ .test → ¬ p.StartsIteration := fun _ h hne hs => hne (h.symm.trans hs.1)
  cases h with
  | begins h => exact ⟨fun _ => h, fun _ => rfl⟩
  | leaves _ hg => exact ⟨nofun, fun hs => by rw [hs.2] at hg; cases hg⟩
  | interrupted h => exact ⟨nofun, fun hs => absurd hs (hno _ h nofun)⟩
  | failed h => exact ⟨nofun, fun hs => absurd hs (hno _ h nofun)⟩
  | ready k h _ => exact ⟨nofun, fun hs => absurd hs (hno _ h nofun)⟩
  | handled h => exact ⟨nofun, fun hs => absurd hs (hno _ h nofun)⟩
  | consumed k s h _ => exact ⟨nofun, fun hs => absurd hs (hno _ h nofun)⟩
  | crashed k h _ => exact ⟨nofun, fun hs => absurd hs (hno _ h nofun)⟩

/-- One `epoll_wait` returns before the next is entered. -/
theorem LoopStep.ne_wait_of_wait {env : TickEnv} {p p' : Proc} (h : LoopStep env p p') (hp : p.pc = .wait) :
    p'.pc ≠ .wait := by
  intro hw
  have hs := (h.wait_iff.1 hw).1
  rw [hp] at hs
  cases hs

/-- `pre` ends between the assignment of the flag and the first test, and a request came before the assignment only. -/
def Overwritten (pre : List Action) : Prop :=
  ∃ a0 env mid, pre = a0 ++ .tick env :: mid ∧ (Proc.run cfg n interval a0).pc = .setFlag ∧ Asked cfg n interval a0 ∧
    ∀ a ∈ mid, a.isTick = false ∧ a ≠ .stop

/-- Time passing keeps it so. -/
private theorem Overwritten.elapse {pre : List Action} (h : Overwritten cfg n interval pre) (ns : Nat) :
    Overwritten cfg n interval (pre ++ [.elapse ns]) := by
  obtain ⟨a0, env, mid, rfl, hpc, hask, hmid⟩ := h
  refine ⟨a0, env, mid ++ [.elapse ns], by simp, hpc, hask, ?_⟩
  intro a ha
  rcases List.mem_append.1 ha with ha | ha
  · exact hmid a ha
  · rw [List.mem_singleton.1 ha]
    exact ⟨rfl, by simp⟩

/-- The next step is not the first test, if every lost request is repeated. -/
private theorem Overwritten.no_tick {as pre : List Action} {env : TickEnv} {post : List Action}
    (h : Overwritten cfg n interval pre) (hk : StopKept cfg n interval as) (he : as = pre ++ .tick env :: post) :
    False := by
  obtain ⟨a0, env0, mid, rfl, hpc, hask, hmid⟩ := h
  have hs := hk a0 env0 mid env post (by rw [he]; simp) hpc hask fun a ha => (hmid a ha).1
  exact (hmid _ hs).2 rfl

/-- A request that is outstanding in the loop shows in the flag, unless it has just been overwritten. -/
theorem flag_of_asked {as : List Action} (hk : StopKept cfg n interval as) (pre post : List Action)
    (he : as = pre ++ post) (hloop : (Proc.run cfg n interval pre).pc.phase = 1) (hask : Asked cfg n interval pre) :
    (Proc.run cfg n interval pre).gRunning = false ∨ Overwritten cfg n interval pre := by
  induction pre using List.reverseRecOn generalizing post with
  | nil => cases hloop
  | append_singleton pre a ih =>
    have ih' := ih (a :: post) (by rw [he]; simp)
    have hbefore : a ≠ .stop → Asked cfg n interval pre :=
      fun ha => (asked_concat cfg n interval hask).resolve_right fun h => ha h.1
    rw [run_concat] at hloop ⊢
    have hinto := intoLoop_step cfg n interval hloop
    generalize (Proc.run cfg n interval pre).step cfg n interval a = p' at hinto ⊢
    cases hinto with
    | entered env hpc =>
      -- the assignment, after the request
      exact Or.inr ⟨pre, env, [], rfl, hpc, hbefore (by simp), by simp⟩
    | stopped _ => exact Or.inl rfl
    | elapsed ns h1 =>
      rcases ih' h1 (hbefore (by simp)) with hg | hg
      · exact Or.inl hg
      · exact Or.inr (hg.elapse cfg n interval ns)
    | ticked env h1 hstep =>
      rcases ih' h1 (hbefore (by simp)) with hg | hg
      · exact Or.inl (hstep.gRunning_eq.trans hg)
      · exact (hg.no_tick cfg n interval hk (he.trans (List.append_assoc ..))).elim

/-- Where no request is lost, none is outstanding when an iteration starts. -/
theorem no_start_of_stopKept {as : List Action} (hk : StopKept cfg n interval as) {pre : List Action} {env : TickEnv}
    {post : List Action} (he : as = pre ++ .tick env :: post) (hask : Asked cfg n interval pre) :
    ¬ (Proc.run cfg n interval pre).StartsIteration := by
  rintro ⟨hpc, hrun⟩
  have hloop : (Proc.run cfg n interval pre).pc.phase = 1 := by rw [hpc]; rfl
  rcases flag_of_asked cfg n interval hk pre _ he hloop hask with hg | hg
  · rw [hrun] at hg
    cases hg
  · exact hg.no_tick cfg n interval hk he

/-! ### The batch in progress -/

/-- An `epoll_wait` is entered only by starting an iteration. -/
theorem starts_before_wait {pre mid : List Action} (h0 : (Proc.run cfg n interval pre).pc ≠ .wait)
    (h1 : (Proc.run cfg n interval (pre ++ mid)).pc = .wait) :
    ∃ m env m', mid = m ++ .tick env :: m' ∧ (Proc.run cfg n interval (pre ++ m)).StartsIteration := by
  induction mid using List.reverseRecOn with
  | nil => exact absurd (by simpa using h1) h0
  | append_singleton mid a ih =>
    by_cases hw : (Proc.run cfg n interval (pre ++ mid)).pc = .wait
    · obtain ⟨m, env, m', rfl, hs⟩ := ih hw
      exact ⟨m, env, m' ++ [a], by simp, hs⟩
    · rw [← List.append_assoc, run_concat] at h1
      have hinto := intoLoop_step cfg n interval (p := Proc.run cfg n interval (pre ++ mid)) (by rw [h1]; rfl)
      generalize (Proc.run cfg n interval (pre ++ mid)).step cfg n interval a = p' at h1 hinto
      cases hinto with
      | entered env _ => cases h1
      | stopped _ => exact absurd h1 hw
      | elapsed ns _ => exact absurd h1 hw
      | ticked env _ hstep => exact ⟨mid, env, [], rfl, hstep.wait_iff.1 h1⟩

/-- Where no iteration starts with a request outstanding, no second `epoll_wait` returns after it. -/
private theorem one_batch_of_no_start {as : List Action}
    (h : ∀ pre env post, as = pre ++ .tick env :: post → Asked cfg n interval pre →
      ¬ (Proc.run cfg n interval pre).StartsIteration)
    {pre mid post : List Action} {env env' : TickEnv} (he : as = pre ++ .tick env :: (mid ++ .tick env' :: post))
    (hask : Asked cfg n interval pre) (hpc : (Proc.run cfg n interval pre).pc = .wait) :
    (Proc.run cfg n interval (pre ++ .tick env :: mid)).pc ≠ .wait := by
  intro hw
  have hloop : (Proc.run cfg n interval pre).pc.phase = 1 := by rw [hpc]; rfl
  have hleft : (Proc.run cfg n interval (pre ++ [.tick env])).pc ≠ .wait := by
    rw [run_concat]
    exact (loopStep_tick cfg n interval env hloop).ne_wait_of_wait hpc
  obtain ⟨m, env1, m', rfl, hs⟩ := starts_before_wait cfg n interval hleft
    (by rw [List.append_assoc]; exact hw)
  have he' : as = pre ++ [.tick env] ++ m ++ .tick env1 :: (m' ++ .tick env' :: post) := by rw [he]; simp
  exact h _ env1 _ he' (asked_append cfg n interval (asked_append cfg n interval hask _) _) hs

/-! ### Leaving the loop -/

/-- How many more steps the loop takes at most, if no iteration starts. -/
def Pc.rank : Pc → Nat
  | .wait => maxEvents + 3
  | .handle k => k + 2
  | .test => 1
  | _ => 0

theorem LoopStep.rank_lt {env : TickEnv} {p p' : Proc} (h : LoopStep env p p') (hs : ¬ p.StartsIteration) :
    p'.pc.rank < p.pc.rank := by
  cases h with
  | begins h => exact absurd h hs
  | leaves h _ => rw [h]; exact Nat.zero_lt_one
  | interrupted h => rw [h]; simp [Pc.rank]
  | failed h => rw [h]; exact Nat.zero_lt_succ _
  | ready k h hk => rw [h]; simp only [Pc.rank]; omega
  | handled h => rw [h]; simp [Pc.rank]
  | consumed k s h _ => rw [h]; simp [Pc.rank]
  | crashed k h _ => rw [h]; simp [Pc.rank]

theorem LoopStep.rank_le {env : TickEnv} {p p' : Proc} (h : LoopStep env p p') (hp : p.pc.rank ≤ maxEvents + 3) :
    p'.pc.rank ≤ maxEvents + 3 := by
  by_cases hs : p.StartsIteration
  · rw [h.wait_iff.2 hs]
    exact Nat.le_refl _
  · have hlt := h.rank_lt hs
    omega

theorem Pc.rank_pos {pc : Pc} (h : pc.phase = 1) : 0 < pc.rank := by
  cases pc <;> simp_all [Pc.phase, Pc.rank]

theorem Pc.rank_eq_zero {pc : Pc} (h : pc.phase ≠ 1) : pc.rank = 0 := by
  cases pc <;> simp_all [Pc.phase, Pc.rank]

/-- No batch is larger than `MAX_EVENTS`. -/
theorem rank_run_le (as : List Action) : (Proc.run cfg n interval as).pc.rank ≤ maxEvents + 3 := by
  apply runFrom_invariant (fun p : Proc => p.pc.rank ≤ maxEvents + 3)
  · intro p a h
    by_cases hph : (p.step cfg n interval a).pc.phase = 1
    · have hinto := intoLoop_step cfg n interval hph
      generalize p.step cfg n interval a = p' at hinto
      cases hinto with
      | entered env _ => simp [Pc.rank]
      | stopped _ => exact h
      | elapsed ns _ => exact h
      | ticked env _ hstep => exact hstep.rank_le h
    · rw [Pc.rank_eq_zero hph]
      exact Nat.zero_le _
  · exact Nat.zero_le _

/-- Where no iteration starts, every step of the loop takes it closer to its end. -/
theorem rank_run {pre post : List Action}
    (hno : ∀ m env m', post = m ++ .tick env :: m' → ¬ (Proc.run cfg n interval (pre ++ m)).StartsIteration)
    (h0 : (Proc.run cfg n interval pre).pc.phase = 1) (h1 : (Proc.run cfg n interval (pre ++ post)).pc.phase = 1) :
    (Proc.run cfg n interval (pre ++ post)).pc.rank + post.countP Action.isTick ≤
      (Proc.run cfg n interval pre).pc.rank := by
  induction post using List.reverseRecOn with
  | nil => simp
  | append_singleton post a ih =>
    have hmid := phase_between cfg n interval h0 (by rw [List.append_assoc]; exact h1)
    have hpost := ih (fun m env m' he => hno m env (m' ++ [a]) (by rw [he]; simp)) hmid
    rw [← List.append_assoc, run_concat, List.countP_append]
    cases a with
    | elapse ns => exact hpost
    | stop =>
      have hp : (Proc.run cfg n interval (pre ++ post)).pc ≠ .start := by
        intro hp
        rw [hp] at hmid
        cases hmid
      rw [step_stop cfg n interval hp]
      exact hpost
    | tick env =>
      have hlt := (loopStep_tick cfg n interval env hmid).rank_lt (hno post env [] rfl)
      rw [step_tick]
      have hone : [Action.tick env].countP Action.isTick = 1 := rfl
      omega

private theorem leaves_of_no_start {as : List Action}
    (h : ∀ pre env post, as = pre ++ .tick env :: post → Asked cfg n interval pre →
      ¬ (Proc.run cfg n interval pre).StartsIteration)
    {pre post : List Action} (he : as = pre ++ post) (hask : Asked cfg n interval pre)
    (hloop : (Proc.run cfg n interval pre).pc.phase = 1) (hlen : maxEvents + 3 ≤ post.countP Action.isTick) :
    (Proc.run cfg n interval as).pc.phase = 2 := by
  have hle := phase_run cfg n interval pre post
  have htop := phase_le (Proc.run cfg n interval as).pc
  rw [← he, hloop] at hle
  by_contra hne
  have hin : (Proc.run cfg n interval as).pc.phase = 1 := by omega
  have hno : ∀ m env m', post = m ++ .tick env :: m' → ¬ (Proc.run cfg n interval (pre ++ m)).StartsIteration := by
    intro m env m' hm
    exact h _ env m' (by rw [he, hm]; simp) (asked_append cfg n interval hask m)
  have hrank := rank_run cfg n interval hno hloop (by rw [← he]; exact hin)
  rw [← he] at hrank
  have hpos := Pc.rank_pos hin
  have hmax := rank_run_le cfg n interval pre
  omega

/-! ### The exact condition -/

/-- Time passing moves nothing but the clock. -/
private theorem startsIteration_idle {as mid : List Action} (h : (Proc.run cfg n interval as).StartsIteration)
    (hmid : ∀ a ∈ mid, a.isTick = false ∧ a ≠ .stop) : (Proc.run cfg n interval (as ++ mid)).StartsIteration := by
  induction mid using List.reverseRecOn with
  | nil => rwa [List.append_nil]
  | append_singleton mid a ih =>
    have hmid' := ih fun b hb => hmid b (List.mem_append_left _ hb)
    obtain ⟨htick, hstop⟩ := hmid a (List.mem_append_right _ (List.mem_singleton_self a))
    rw [← List.append_assoc, run_concat]
    cases a with
    | stop => exact absurd rfl hstop
    | tick env => cases htick
    | elapse ns => exact hmid'

/-- The assignment loses the requests that came before it: the first test of the flag then starts an iteration. -/
theorem starts_of_overwritten {pre : List Action} (h : Overwritten cfg n interval pre) :
    Asked cfg n interval pre ∧ (Proc.run cfg n interval pre).StartsIteration := by
  obtain ⟨a0, env, mid, rfl, hpc, hask, hmid⟩ := h
  refine ⟨asked_append cfg n interval hask _, ?_⟩
  have hset : (Proc.run cfg n interval (a0 ++ [.tick env])).StartsIteration := by
    rw [run_concat, step_tick]
    unfold Proc.tick
    rw [hpc]
    exact ⟨rfl, rfl⟩
  have := startsIteration_idle cfg n interval hset hmid
  rwa [List.append_assoc] at this

/-- Stop requests are honoured in a run exactly if each one that comes before `run_loop` sets the flag is repeated
before the flag is tested. -/
theorem stopHonoured_iff (as : List Action) : StopHonoured cfg n interval as ↔ StopKept cfg n interval as := by
  constructor
  · intro h pre env mid env' post he hpc hask hmid
    by_contra hstop
    have hover : Overwritten cfg n interval (pre ++ .tick env :: mid) :=
      ⟨pre, env, mid, rfl, hpc, hask, fun a ha => ⟨hmid a ha, fun hs => hstop (hs ▸ ha)⟩⟩
    obtain ⟨hask', hs⟩ := starts_of_overwritten cfg n interval hover
    exact h.no_start _ env' post (by rw [he]; simp) hask' hs
  · intro hk
    have hno : ∀ pre env post, as = pre ++ .tick env :: post → Asked cfg n interval pre →
        ¬ (Proc.run cfg n interval pre).StartsIteration := fun _ _ _ => no_start_of_stopKept cfg n interval hk
    exact {
      no_start := hno
      one_batch := fun _ _ _ _ _ => one_batch_of_no_start cfg n interval hno
      leaves := fun _ _ => leaves_of_no_start cfg n interval hno }

/-- One collector; the request comes while it is initialised, and the loop starts nevertheless. -/
theorem stop_lost :
    ¬ StopHonoured ⟨[], 3⟩ 1 10 ([.tick {}, .stop] ++ List.replicate 10 (.tick {})) := by
  intro h
  refine h.no_start ([.tick {}, .stop] ++ List.replicate 9 (.tick {})) {} [] rfl ?_ ?_
  · exact ⟨[.tick {}], List.replicate 9 (.tick {}), rfl, by decide⟩
  · exact ⟨by decide, by decide⟩

end VsomeipCollector

import VsomeipCollector.Program

/-!
# The periodic duties of the loop

`set_stats_interval` sets the period of the report, and `flush_report` says of itself that the event loop calls it
once per period.  A run leaves a `history`: when the loop was entered, when its iterations began, and when reports
and evictions were made.  The body of the loop only waits and consumes events, so the history up to the end of the
loop holds no report and no eviction (`history_inLoop`).

What the loop promises therefore holds as long as no report is due: exactly if every iteration that is followed by
another one begins within the first period (`loopDuties_iff`).
-/

namespace VsomeipCollector

open Run

variable (cfg : HookConfig) (n interval : Nat)

/-! ### The history of a run -/

/-- What a run does that matters for the reports. -/
inductive Mark where
  /-- The loop was entered. -/
  | entered
  /-- An iteration of the loop began. -/
  | began
  | reported
  | evicted
deriving DecidableEq, Repr

/-- The mark a step leaves, with the time. -/
def Proc.mark (p : Proc) : Action → List (Mark × Nat)
  | .tick _ =>
    match p.pc with
    | .setFlag => [(.entered, p.now)]
    | .test => if p.gRunning then [(.began, p.now)] else []
    | .flush => [(.reported, p.now)]
    | .evict => [(.evicted, p.now)]
    | _ => []
  | _ => []

def history (as : List Action) : List (Mark × Nat) :=
  collect (Proc.step cfg n interval) Proc.mark (Proc.boot cfg) as

/-- The interval in nanoseconds. -/
def period : Nat := interval * 10 ^ 9

/-- After `pre` a report is due at `t`: a period has passed since the last one, or since the loop was entered. -/
def Due (pre : List (Mark × Nat)) (t : Nat) : Prop :=
  ∀ m u, (m, u) ∈ pre → m = .entered ∨ m = .reported → u + period interval ≤ t

/-- An iteration that begins when a report is due reports and evicts before the next one. -/
def PeriodicDuties (as : List Action) : Prop :=
  ∀ pre t mid t' post, history cfg n interval as = pre ++ (.began, t) :: (mid ++ (.began, t') :: post) →
    Due interval pre t → (∃ u, (.reported, u) ∈ mid) ∧ ∃ u, (.evicted, u) ∈ mid

/-- `as1` is the run `as` up to the start of an iteration; the last thing before it was at `t`. -/
def IterationAt (as as1 : List Action) (t : Nat) : Prop :=
  (∃ env as2, as = as1 ++ .tick env :: as2) ∧ (Proc.run cfg n interval as1).StartsIteration ∧
    ∃ m, (history cfg n interval as1).getLast? = some (m, t)

/-- What the loop promises for the run `as`. -/
structure LoopDuties (as : List Action) : Prop where
  periodic : PeriodicDuties cfg n interval as
  /-- When an iteration begins, an open request is at most 30 s, a period and one iteration old. -/
  pending_young : ∀ as1 t q ts, IterationAt cfg n interval as as1 t →
    (Proc.run cfg n interval as1).session.stats.sentAt q = some ts →
    (Proc.run cfg n interval as1).now ≤
      ts.toNat + 30 * 10 ^ 9 + period interval + ((Proc.run cfg n interval as1).now - t)
  /-- When an iteration begins, the samples were taken within the last period and one iteration. -/
  latency_current : ∀ as1 t, IterationAt cfg n interval as as1 t →
    ∃ as0 rest, as1 = as0 ++ rest ∧ (Proc.run cfg n interval as0).session.stats.latency = [] ∧
      (Proc.run cfg n interval as1).now ≤
        (Proc.run cfg n interval as0).now + period interval + ((Proc.run cfg n interval as1).now - t)

/-- Every iteration that is followed by another one begins within the first period of the loop. -/
def EarlyIterations (as : List Action) : Prop :=
  ∀ pre t mid t' post, history cfg n interval as = pre ++ (.began, t) :: (mid ++ (.began, t') :: post) →
    ∀ u, (.entered, u) ∈ pre → t < u + period interval

/-- The requests that the loop consumes were sent at most 30 s before it was entered. -/
def RecentRequests (as : List Action) : Prop :=
  ∀ as1 env as2 k e hook u, as = as1 ++ .tick env :: as2 → (Proc.run cfg n interval as1).pc = .handle (k + 1) →
    .routing e hook ∈ env.events → e.IsRequest timedType → (.entered, u) ∈ history cfg n interval as1 →
    u ≤ e.hdr.timestampNs.toNat + 30 * 10 ^ 9

/-! ### Marks -/

@[simp] theorem history_concat (as : List Action) (a : Action) :
    history cfg n interval (as ++ [a]) = history cfg n interval as ++ (Proc.run cfg n interval as).mark a :=
  collect_concat ..

theorem history_append (as bs : List Action) :
    ∃ h, history cfg n interval (as ++ bs) = history cfg n interval as ++ h :=
  ⟨_, collect_append ..⟩

/-- A step of the loop leaves a mark only when it starts an iteration. -/
theorem mark_inLoop {p : Proc} (a : Action) (h : p.pc.phase = 1) :
    p.mark a = [] ∨ p.StartsIteration ∧ p.mark a = [(.began, p.now)] := by
  cases a with
  | stop => exact Or.inl rfl
  | elapse ns => exact Or.inl rfl
  | tick env =>
    unfold Proc.mark
    cases hp : p.pc with
    | test =>
      by_cases hg : p.gRunning = true
      · exact Or.inr ⟨⟨hp, hg⟩, if_pos hg⟩
      · exact Or.inl (if_neg hg)
    | wait => exact Or.inl rfl
    | handle k => exact Or.inl rfl
    | _ => simp [hp, Pc.phase] at h

theorem mark_before {p : Proc} (env : TickEnv) (h : p.pc.phase = 0) (hp : p.pc ≠ .setFlag) :
    p.mark (.tick env) = [] := by
  unfold Proc.mark
  cases hpc : p.pc with
  | setFlag => exact absurd hpc hp
  | test => simp [hpc, Pc.phase] at h
  | flush => simp [hpc, Pc.phase] at h
  | evict => simp [hpc, Pc.phase] at h
  | _ => rfl

/-- A mark `began` is left by the start of an iteration, and by nothing else. -/
theorem starts_of_mark {p : Proc} {a : Action} {o1 o2 : List (Mark × Nat)} {t : Nat}
    (h : p.mark a = o1 ++ (.began, t) :: o2) : (∃ env, a = .tick env) ∧ p.StartsIteration ∧ p.now = t ∧ o1 = [] := by
  have hsingle : ∀ m, p.mark a = [m] → m = (.began, t) ∧ o1 = [] := by
    intro m hm
    rw [hm] at h
    cases o1 with
    | nil => cases h; exact ⟨rfl, rfl⟩
    | cons o o1 => simp at h
  have hnone : p.mark a ≠ [] := by rw [h]; simp
  cases a with
  | stop => exact absurd rfl hnone
  | elapse ns => exact absurd rfl hnone
  | tick env =>
    unfold Proc.mark at hsingle hnone
    cases hp : p.pc with
    | test =>
      simp only [hp] at hsingle hnone
      by_cases hg : p.gRunning = true
      · obtain ⟨he, ho⟩ := hsingle _ (if_pos hg)
        cases he
        exact ⟨⟨env, rfl⟩, ⟨hp, hg⟩, rfl, ho⟩
      · exact absurd (if_neg hg) hnone
    | setFlag => simp only [hp] at hsingle; cases (hsingle _ rfl).1
    | flush => simp only [hp] at hsingle; cases (hsingle _ rfl).1
    | evict => simp only [hp] at hsingle; cases (hsingle _ rfl).1
    | _ => simp [hp] at hnone

/-- The start of an iteration splits the run where its mark splits the history. -/
theorem run_split_began {as : List Action} {pre post : List (Mark × Nat)} {t : Nat}
    (h : history cfg n interval as = pre ++ (.began, t) :: post) :
    ∃ as1 env as2, as = as1 ++ .tick env :: as2 ∧ (Proc.run cfg n interval as1).StartsIteration ∧
      history cfg n interval as1 = pre := by
  obtain ⟨as1, a, as2, o1, o2, rfl, hout, rfl⟩ := collect_split h
  obtain ⟨⟨env, rfl⟩, hs, -, rfl⟩ := starts_of_mark hout
  exact ⟨as1, env, as2, rfl, hs, (List.append_nil _).symm⟩

/-! ### The history in the loop -/

/-- Before the loop the session is untouched and no mark is left. -/
theorem before_loop {as : List Action} (h : (Proc.run cfg n interval as).pc.phase = 0) :
    (Proc.run cfg n interval as).session = (Proc.boot cfg).session ∧ history cfg n interval as = [] := by
  induction as using List.reverseRecOn with
  | nil => exact ⟨rfl, rfl⟩
  | append_singleton as a ih =>
    have hle := phase_step cfg n interval (Proc.run cfg n interval as) a
    rw [run_concat] at h ⊢
    rw [history_concat]
    have h0 : (Proc.run cfg n interval as).pc.phase = 0 := by omega
    obtain ⟨hsession, hhistory⟩ := ih h0
    rw [hhistory, List.nil_append]
    cases a with
    | elapse ns => exact ⟨hsession, rfl⟩
    | stop =>
      have hp : (Proc.run cfg n interval as).pc ≠ .start := by
        intro hp
        unfold Proc.step at h
        simp [hp, Pc.phase] at h
      rw [step_stop cfg n interval hp]
      exact ⟨hsession, rfl⟩
    | tick env =>
      rw [step_tick] at h ⊢
      refine ⟨(tick_before cfg n interval env h0).1.trans hsession, mark_before env h0 ?_⟩
      intro hp
      unfold Proc.tick at h
      simp [hp, Pc.phase] at h

/-- A loop entered at `u`, with iterations begun at `ts`. -/
def loopHistory (u : Nat) (ts : List Nat) : List (Mark × Nat) := (.entered, u) :: ts.map fun t => (.began, t)

theorem loopHistory_concat (u : Nat) (ts : List Nat) (t : Nat) :
    loopHistory u (ts ++ [t]) = loopHistory u ts ++ [(.began, t)] := by
  simp [loopHistory]

theorem loopHistory_start {u v : Nat} {ts vs : List Nat} {h : List (Mark × Nat)}
    (heq : loopHistory u ts = loopHistory v vs ++ h) : u = v := by
  have hhead := (List.cons.inj heq).1
  exact (Prod.mk.inj hhead).2

/-- In the loop the history is its start and the iterations that began. -/
theorem history_inLoop {as : List Action} (h : (Proc.run cfg n interval as).pc.phase = 1) :
    ∃ as0 env rest ts, as = as0 ++ .tick env :: rest ∧ (Proc.run cfg n interval as0).pc = .setFlag ∧
      history cfg n interval as = loopHistory (Proc.run cfg n interval as0).now ts := by
  induction as using List.reverseRecOn with
  | nil => cases h
  | append_singleton as a ih =>
    rw [run_concat] at h
    have hinto := intoLoop_step cfg n interval h
    have hmark := mark_inLoop (p := Proc.run cfg n interval as) a
    rw [history_concat]
    generalize (Proc.run cfg n interval as).step cfg n interval a = p' at h hinto
    by_cases h1 : (Proc.run cfg n interval as).pc.phase = 1
    · obtain ⟨as0, env, rest, ts, rfl, hpc, hts⟩ := ih h1
      rcases hmark h1 with hm | ⟨-, hm⟩
      · exact ⟨as0, env, rest ++ [a], ts, by simp, hpc, by rw [hm, hts, List.append_nil]⟩
      · exact ⟨as0, env, rest ++ [a], ts ++ [_], by simp, hpc, by rw [hm, hts, loopHistory_concat]⟩
    · -- the loop is just entered
      cases hinto with
      | entered env hpc =>
        have h0 : (Proc.run cfg n interval as).pc.phase = 0 := by rw [hpc]; rfl
        refine ⟨as, env, [], [], rfl, hpc, ?_⟩
        rw [(before_loop cfg n interval h0).2]
        unfold Proc.mark
        rw [hpc]
        rfl
      | ticked _ h2 _ => exact absurd h2 h1
      | stopped h2 => exact absurd h2 h1
      | elapsed _ h2 => exact absurd h2 h1

/-- What precedes the start of an iteration: the start of the loop, and iterations. -/
theorem before_began {as : List Action} {pre post : List (Mark × Nat)} {t : Nat}
    (h : history cfg n interval as = pre ++ (.began, t) :: post) :
    ∃ u, (.entered, u) ∈ pre ∧ ∀ m ∈ pre, m = (.entered, u) ∨ m.1 = .began := by
  obtain ⟨as1, env, as2, -, ⟨hpc, -⟩, rfl⟩ := run_split_began cfg n interval h
  have hloop : (Proc.run cfg n interval as1).pc.phase = 1 := by rw [hpc]; rfl
  obtain ⟨as0, _, _, ts, -, -, hts⟩ := history_inLoop cfg n interval hloop
  rw [hts]
  refine ⟨_, List.mem_cons_self .., ?_⟩
  intro m hm
  rcases List.mem_cons.1 hm with rfl | hm
  · exact Or.inl rfl
  · obtain ⟨t', -, rfl⟩ := List.mem_map.1 hm
    exact Or.inr rfl

/-- No report is due exactly as long as the iterations are early; none is ever made in the loop. -/
theorem periodicDuties_iff (as : List Action) :
    PeriodicDuties cfg n interval as ↔ EarlyIterations cfg n interval as := by
  constructor
  · intro h pre t mid t' post he u hu
    by_contra hlate
    have he' : history cfg n interval as = (pre ++ (.began, t) :: mid) ++ (.began, t') :: post := by rw [he]; simp
    obtain ⟨u', -, hall⟩ := before_began cfg n interval he'
    have hentered : ∀ m v, (m, v) ∈ pre ++ (.began, t) :: mid → m = .began ∨ m = .entered ∧ v = u' := by
      intro m v hm
      rcases hall _ hm with heq | heq
      · cases heq; exact Or.inr ⟨rfl, rfl⟩
      · exact Or.inl heq
    obtain ⟨-, hu'⟩ := (hentered _ _ (List.mem_append_left _ hu)).resolve_left (by simp)
    have hdue : Due interval pre t := by
      intro m v hm hkind
      rcases hentered _ _ (List.mem_append_left _ hm) with rfl | ⟨-, rfl⟩
      · simp at hkind
      · omega
    -- a report in `mid` would be a mark of the loop that is neither its start nor an iteration
    obtain ⟨⟨v, hv⟩, -⟩ := h pre t mid t' post he hdue
    rcases hentered _ _ (List.mem_append_right _ (List.mem_cons_of_mem _ hv)) with hm | ⟨hm, -⟩
    · cases hm
    · cases hm
  · intro h pre t mid t' post he hdue
    obtain ⟨u, hu, -⟩ := before_began cfg n interval he
    have hearly := h pre t mid t' post he u hu
    have hlate := hdue _ _ hu (Or.inl rfl)
    omega

/-! ### Open requests -/

/-- Of the events of all modules only a request becomes an open request. -/
theorem entered_dispatch {s s' : Session} {d : Dispatched} (h : s.dispatch d = some s') {q : Tuple} {ts : UInt64}
    (hs' : s'.stats.sentAt q = some ts) :
    s.stats.sentAt q = some ts ∨
      ∃ e hook, d = .routing e hook ∧ e.IsRequest timedType ∧ e.hdr.timestampNs = ts := by
  unfold Session.dispatch at h
  cases d with
  | routing e hook =>
    by_cases hs : s.stats.sentAt q = some ts
    · exact Or.inl hs
    · obtain ⟨e', hook', he, hreq, -, hts⟩ := entered_deliver (d := .event e hook) h hs hs'
      cases he
      exact Or.inr ⟨e, hook, rfl, hreq, hts⟩
  | app e hook =>
    obtain ⟨r, hr, rfl⟩ := Option.map_eq_some_iff.1 h
    rw [sentAt_congr (appEventHandler_core hr)] at hs'
    exact Or.inl hs'
  | sd e hook =>
    obtain ⟨r, hr, rfl⟩ := Option.map_eq_some_iff.1 h
    rw [sentAt_congr (sdEventHandler_core hr)] at hs'
    exact Or.inl hs'

theorem entered_poll {s s' : Session} {events : List Dispatched} (h : s.poll events = some s') {q : Tuple} {ts : UInt64}
    (hs' : s'.stats.sentAt q = some ts) :
    s.stats.sentAt q = some ts ∨
      ∃ e hook, .routing e hook ∈ events ∧ e.IsRequest timedType ∧ e.hdr.timestampNs = ts := by
  refine runFrom_lift_induct (fun events t => t.stats.sentAt q = some ts → s.stats.sentAt q = some ts ∨
    ∃ e hook, .routing e hook ∈ events ∧ e.IsRequest timedType ∧ e.hdr.timestampNs = ts) Or.inl ?_ h hs'
  intro events t d u ih hu hs'
  rcases entered_dispatch hu hs' with hs | ⟨e, hook, rfl, hreq, hts⟩
  · rcases ih hs with hs | ⟨e, hook, hmem, hreq, hts⟩
    · exact Or.inl hs
    · exact Or.inr ⟨e, hook, List.mem_append_left _ hmem, hreq, hts⟩
  · exact Or.inr ⟨e, hook, List.mem_append_right _ (List.mem_singleton_self _), hreq, hts⟩

/-- A request that is open in the loop was consumed there. -/
theorem consumed_of_sentAt {as : List Action} (hloop : (Proc.run cfg n interval as).pc.phase = 1) {q : Tuple}
    {ts : UInt64} (hs : (Proc.run cfg n interval as).session.stats.sentAt q = some ts) :
    ∃ as1 env as2 k e hook, as = as1 ++ .tick env :: as2 ∧ (Proc.run cfg n interval as1).pc = .handle (k + 1) ∧
      .routing e hook ∈ env.events ∧ e.IsRequest timedType ∧ e.hdr.timestampNs = ts := by
  induction as using List.reverseRecOn with
  | nil => cases hloop
  | append_singleton as a ih =>
    have hbefore : (Proc.run cfg n interval as).pc.phase = 1 →
        (Proc.run cfg n interval as).session.stats.sentAt q = some ts →
        ∃ as1 env as2 k e hook, as ++ [a] = as1 ++ .tick env :: as2 ∧
          (Proc.run cfg n interval as1).pc = .handle (k + 1) ∧ .routing e hook ∈ env.events ∧
          e.IsRequest timedType ∧ e.hdr.timestampNs = ts := by
      intro h1 h2
      obtain ⟨as1, env, as2, k, e, hook, rfl, hrest⟩ := ih h1 h2
      exact ⟨as1, env, as2 ++ [a], k, e, hook, by simp, hrest⟩
    rw [run_concat] at hloop hs
    have hinto := intoLoop_step cfg n interval hloop
    generalize (Proc.run cfg n interval as).step cfg n interval a = p' at hloop hs hinto
    cases hinto with
    | entered env hpc =>
      have h0 : (Proc.run cfg n interval as).pc.phase = 0 := by rw [hpc]; rfl
      rw [(before_loop cfg n interval h0).1] at hs
      cases hs
    | stopped h1 => exact hbefore h1 hs
    | elapsed ns h1 => exact hbefore h1 hs
    | ticked env h1 hstep =>
      cases hstep with
      | consumed k s hpc hpoll =>
        rcases entered_poll hpoll hs with hs | ⟨e, hook, hmem, hreq, hts⟩
        · exact hbefore h1 hs
        · exact ⟨as, env, [], k, e, hook, rfl, hpc, hmem, hreq, hts⟩
      -- no other step of the loop touches the session
      | _ => exact hbefore h1 hs

/-! ### The exact condition -/

/-- Early iterations: what came last before an iteration came within the first period. -/
theorem last_le {as as1 : List Action} {t u : Nat} {ts : List Nat} (he : EarlyIterations cfg n interval as)
    (hit : IterationAt cfg n interval as as1 t) (hts : history cfg n interval as1 = loopHistory u ts) :
    t ≤ u + period interval := by
  obtain ⟨⟨env, as2, rfl⟩, hs, m, hm⟩ := hit
  rw [hts] at hm
  rcases List.eq_nil_or_concat ts with rfl | ⟨ts, t', rfl⟩
  · -- this is the first iteration
    cases hm
    exact Nat.le_add_right _ _
  · rw [List.concat_eq_append] at hts hm
    rw [loopHistory_concat, List.getLast?_concat] at hm
    cases hm
    obtain ⟨h, hh⟩ := history_append cfg n interval (as1 ++ [.tick env]) as2
    have hmark : (Proc.run cfg n interval as1).mark (.tick env) = [(.began, (Proc.run cfg n interval as1).now)] := by
      unfold Proc.mark
      rw [hs.1]
      exact if_pos hs.2
    rw [history_concat, hmark, hts, loopHistory_concat] at hh
    have hlt := he (loopHistory u ts) t [] (Proc.run cfg n interval as1).now h (by simpa using hh) u
      (List.mem_cons_self ..)
    exact Nat.le_of_lt hlt

private theorem pending_young_of_early {as : List Action} (he : EarlyIterations cfg n interval as)
    (hr : RecentRequests cfg n interval as) {as1 : List Action} {t : Nat} {q : Tuple} {ts : UInt64}
    (hit : IterationAt cfg n interval as as1 t)
    (hsent : (Proc.run cfg n interval as1).session.stats.sentAt q = some ts) :
    (Proc.run cfg n interval as1).now ≤
      ts.toNat + 30 * 10 ^ 9 + period interval + ((Proc.run cfg n interval as1).now - t) := by
  have hloop : (Proc.run cfg n interval as1).pc.phase = 1 := by rw [hit.2.1.1]; rfl
  obtain ⟨as0, env0, rest, ss, -, -, hss⟩ := history_inLoop cfg n interval hloop
  have hlast := last_le cfg n interval he hit hss
  obtain ⟨⟨env, as2, rfl⟩, -⟩ := hit
  obtain ⟨b, env1, c, k, e, hook, rfl, hpc, hmem, hreq, rfl⟩ := consumed_of_sentAt cfg n interval hloop hsent
  have hb : (Proc.run cfg n interval b).pc.phase = 1 := by rw [hpc]; rfl
  obtain ⟨u, hu, hentered⟩ : ∃ u, u = (Proc.run cfg n interval as0).now ∧ (.entered, u) ∈ history cfg n interval b := by
    obtain ⟨b0, _, _, bs, -, -, hbs⟩ := history_inLoop cfg n interval hb
    obtain ⟨h, hh⟩ := history_append cfg n interval b (.tick env1 :: c)
    rw [hss, hbs] at hh
    rw [loopHistory_start hh, hbs]
    exact ⟨_, rfl, List.mem_cons_self ..⟩
  have hrecent := hr b env1 (c ++ .tick env :: as2) k e hook u (by simp) hpc hmem hreq hentered
  omega

private theorem latency_current_of_early {as : List Action} (he : EarlyIterations cfg n interval as)
    {as1 : List Action} {t : Nat} (hit : IterationAt cfg n interval as as1 t) :
    ∃ as0 rest, as1 = as0 ++ rest ∧ (Proc.run cfg n interval as0).session.stats.latency = [] ∧
      (Proc.run cfg n interval as1).now ≤
        (Proc.run cfg n interval as0).now + period interval + ((Proc.run cfg n interval as1).now - t) := by
  have hloop : (Proc.run cfg n interval as1).pc.phase = 1 := by rw [hit.2.1.1]; rfl
  obtain ⟨as0, env0, rest, ss, hsplit, hpc, hss⟩ := history_inLoop cfg n interval hloop
  have hlast := last_le cfg n interval he hit hss
  have h0 : (Proc.run cfg n interval as0).pc.phase = 0 := by rw [hpc]; rfl
  refine ⟨as0, _, hsplit, ?_, by omega⟩
  rw [(before_loop cfg n interval h0).1]
  rfl

/-- The periodic duties are kept exactly in the runs with early iterations; if the requests are recent, these are also
exactly the runs in which the loop keeps everything it promises. -/
theorem loopDuties_iff (as : List Action) :
    (PeriodicDuties cfg n interval as ↔ EarlyIterations cfg n interval as) ∧
      (RecentRequests cfg n interval as →
        (LoopDuties cfg n interval as ↔ EarlyIterations cfg n interval as)) := by
  have hperiodic := periodicDuties_iff cfg n interval as
  refine ⟨hperiodic, fun hr => ⟨fun h => hperiodic.1 h.periodic, fun he => ?_⟩⟩
  exact {
    periodic := hperiodic.2 he
    pending_young := fun _ _ _ _ => pending_young_of_early cfg n interval he hr
    latency_current := fun _ _ => latency_current_of_early cfg n interval he }

/-- One collector and an interval of 10 s: an iteration begins 11 s after the loop was entered, and after a time-out of
`epoll_wait` the next one begins, with no report in between. -/
theorem report_missed :
    ¬ LoopDuties ⟨[], 3⟩ 1 10
        (List.replicate 10 (.tick {}) ++ [.elapse (11 * 10 ^ 9)] ++ List.replicate 4 (.tick {})) := by
  intro h
  have hhist : history ⟨[], 3⟩ 1 10
      (List.replicate 10 (.tick {}) ++ [.elapse (11 * 10 ^ 9)] ++ List.replicate 4 (.tick {})) =
        [(.entered, 0), (.began, 11 * 10 ^ 9), (.began, 11 * 10 ^ 9)] := by decide
  have hdue : Due 10 [(.entered, 0)] (11 * 10 ^ 9) := by
    intro m u hm _
    cases List.mem_singleton.1 hm
    decide
  obtain ⟨⟨u, hu⟩, -⟩ := h.periodic [(.entered, 0)] _ [] _ [] hhist hdue
  cases hu

/-- The loop is entered at 41 s and consumes a request that was sent at 0. -/
def oldRequestRun : List Action :=
  [.elapse (41 * 10 ^ 9)] ++ List.replicate 11 (.tick {}) ++
    [.tick { wait := .ready 1 },
      .tick { events := [.routing ⟨⟨0, 1, 1, Vector.replicate 16 0, 1, 0, dirSend, false⟩, 0x1234, 1, 7, 9, 1, 1,
        someipMtRequest, 0, 8, 0⟩ "rm_send_entry"] },
      .tick {}]

/-- The age of open requests needs that the requests are recent: one that is old when it is consumed is older than
promised at the next iteration, which no report could help. -/
theorem old_request_open : EarlyIterations ⟨[], 3⟩ 1 10 (oldRequestRun ++ [.tick {}]) ∧
    ¬ LoopDuties ⟨[], 3⟩ 1 10 (oldRequestRun ++ [.tick {}]) := by
  have hhist : history ⟨[], 3⟩ 1 10 (oldRequestRun ++ [.tick {}]) =
      [(.entered, 41 * 10 ^ 9), (.began, 41 * 10 ^ 9), (.began, 41 * 10 ^ 9)] := by decide
  constructor
  · intro pre t mid t' post he u hu
    have hbegan : (.began, t) ∈ history ⟨[], 3⟩ 1 10 (oldRequestRun ++ [.tick {}]) := by
      rw [he]
      exact List.mem_append_right _ List.mem_cons_self
    have hentered : (.entered, u) ∈ history ⟨[], 3⟩ 1 10 (oldRequestRun ++ [.tick {}]) := by
      rw [he]
      exact List.mem_append_left _ hu
    rw [hhist] at hbegan hentered
    obtain rfl : t = 41 * 10 ^ 9 := by simpa using hbegan
    obtain rfl : u = 41 * 10 ^ 9 := by simpa using hentered
    decide
  · intro h
    have hit : IterationAt ⟨[], 3⟩ 1 10 (oldRequestRun ++ [.tick {}]) oldRequestRun (41 * 10 ^ 9) :=
      ⟨⟨{}, [], rfl⟩, ⟨by decide, by decide⟩, .began, by decide⟩
    have hopen : (Proc.run ⟨[], 3⟩ 1 10 oldRequestRun).session.stats.sentAt ⟨0x1234, 1, 7, 9⟩ = some 0 := by decide
    have hyoung := h.pending_young oldRequestRun _ _ _ hit hopen
    revert hyoung
    decide

end VsomeipCollector

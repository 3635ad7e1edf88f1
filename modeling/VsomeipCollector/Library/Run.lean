import Mathlib.Algebra.BigOperators.Group.List.Basic
import Mathlib.Data.List.Induction

/-!
# Runs of a step function

A system is a total step function `step : σ → α → σ`; `runFrom step s as` is the state it reaches from `s` when the
actions `as` happen in order.  A property of every run is proved from a property of one step: an invariant
(`runFrom_invariant`), a relation between two systems that take the same actions (`runFrom_related`), or a balance
between a quantity of the state and what the steps move in and out of it (`runFrom_balance`).

Actions that stop the system are modelled by a step function on `Option σ` (`lift`): `none` is kept by every step.
What holds along the runs that go through is proved by `runFrom_lift_induct`.
-/

namespace Run

variable {σ τ α : Type*}

/-- The state reached from `s` by the actions `as`. -/
def runFrom (step : σ → α → σ) (s : σ) (as : List α) : σ := as.foldl step s

section

variable (step : σ → α → σ)

@[simp] theorem runFrom_nil (s : σ) : runFrom step s [] = s := rfl

@[simp] theorem runFrom_cons (s : σ) (a : α) (as : List α) :
    runFrom step s (a :: as) = runFrom step (step s a) as := rfl

theorem runFrom_append (s : σ) (as bs : List α) :
    runFrom step s (as ++ bs) = runFrom step (runFrom step s as) bs := List.foldl_append

@[simp] theorem runFrom_concat (s : σ) (as : List α) (a : α) :
    runFrom step s (as ++ [a]) = step (runFrom step s as) a := by
  rw [runFrom_append]; rfl

/-- What every step keeps, every run keeps. -/
theorem runFrom_invariant {step : σ → α → σ} (inv : σ → Prop) (hstep : ∀ s a, inv s → inv (step s a)) {s : σ}
    (h : inv s) (as : List α) : inv (runFrom step s as) := by
  induction as generalizing s with
  | nil => exact h
  | cons a as ih => exact ih (hstep s a h)

/-- An invariant that a step keeps only where the action suits the state: it holds along every run whose actions do. -/
theorem runFrom_guarded {step : σ → α → σ} (inv : σ → Prop) (ok : σ → α → Prop)
    (hstep : ∀ s a, inv s → ok s a → inv (step s a)) {s : σ} (h : inv s) (as : List α)
    (hok : ∀ pre a post, as = pre ++ a :: post → ok (runFrom step s pre) a) : inv (runFrom step s as) := by
  induction as using List.reverseRecOn with
  | nil => exact h
  | append_singleton as a ih =>
    rw [runFrom_concat]
    have hpre : inv (runFrom step s as) := by
      apply ih
      intro pre b post he
      exact hok pre b (post ++ [a]) (by rw [he]; simp)
    exact hstep _ _ hpre (hok as a [] rfl)

/-- Two systems that keep a relation step by step keep it along every run. -/
theorem runFrom_related {step : σ → α → σ} {step' : τ → α → τ} (rel : σ → τ → Prop)
    (hstep : ∀ s t a, rel s t → rel (step s a) (step' t a)) {s : σ} {t : τ} (h : rel s t) (as : List α) :
    rel (runFrom step s as) (runFrom step' t as) := by
  induction as generalizing s t with
  | nil => exact h
  | cons a as ih => exact ih (hstep s t a h)

end

/-! ### Outputs along a run -/

/-- What the steps of a run put out, each taken at the state it starts from. -/
def collect {β : Type*} (step : σ → α → σ) (out : σ → α → List β) : σ → List α → List β
  | _, [] => []
  | s, a :: as => out s a ++ collect step out (step s a) as

theorem collect_concat {β : Type*} (step : σ → α → σ) (out : σ → α → List β) (s : σ) (as : List α) (a : α) :
    collect step out s (as ++ [a]) = collect step out s as ++ out (runFrom step s as) a := by
  induction as generalizing s with
  | nil => simp [collect]
  | cons b as ih => simp only [List.cons_append, collect, ih, runFrom_cons, List.append_assoc]

theorem collect_append {β : Type*} (step : σ → α → σ) (out : σ → α → List β) (s : σ) (as bs : List α) :
    collect step out s (as ++ bs) = collect step out s as ++ collect step out (runFrom step s as) bs := by
  induction as generalizing s with
  | nil => rfl
  | cons a as ih => simp only [List.cons_append, collect, ih, runFrom_cons, List.append_assoc]

/-- Every output comes from one step of the run. -/
theorem collect_split {β : Type*} {step : σ → α → σ} {out : σ → α → List β} {s : σ} {as : List α} {pre post : List β}
    {x : β} (h : collect step out s as = pre ++ x :: post) :
    ∃ as1 a as2 o1 o2, as = as1 ++ a :: as2 ∧ out (runFrom step s as1) a = o1 ++ x :: o2 ∧
      pre = collect step out s as1 ++ o1 := by
  induction as generalizing s pre with
  | nil => exact absurd h (by simp [collect])
  | cons a as ih =>
    rw [collect] at h
    rcases List.append_eq_append_iff.1 h with ⟨pre', rfl, hr⟩ | ⟨o, ho, hr⟩
    · obtain ⟨as1, b, as2, o1, o2, rfl, hout, rfl⟩ := ih hr
      exact ⟨a :: as1, b, as2, o1, o2, rfl, hout, by simp only [collect, List.append_assoc]⟩
    · cases o with
      | nil =>
        have hr' : collect step out (step s a) as = [] ++ x :: post := hr.symm
        obtain ⟨as1, b, as2, o1, o2, rfl, hout, hpre⟩ := ih hr'
        refine ⟨a :: as1, b, as2, o1, o2, rfl, hout, ?_⟩
        rw [collect, List.append_assoc, ← hpre, ho, List.append_nil, List.append_nil]
      | cons y o =>
        cases hr
        exact ⟨[], a, as, pre, o, rfl, ho, rfl⟩

theorem mem_collect {β : Type*} {step : σ → α → σ} {out : σ → α → List β} {s : σ} {as : List α} {x : β}
    (h : x ∈ collect step out s as) :
    ∃ as1 a as2, as = as1 ++ a :: as2 ∧ x ∈ out (runFrom step s as1) a := by
  obtain ⟨pre, post, h⟩ := List.append_of_mem h
  obtain ⟨as1, a, as2, o1, o2, rfl, hout, -⟩ := collect_split h
  exact ⟨as1, a, as2, rfl, by simp [hout]⟩

/-- A system of which every step is matched by steps of another one: so is every run. -/
theorem runFrom_simulates {β : Type*} {step : σ → α → σ} {step' : τ → β → τ} (acts : σ → α → List β) (rel : σ → τ → Prop)
    (hstep : ∀ s t a, rel s t → rel (step s a) (runFrom step' t (acts s a))) {s : σ} {t : τ} (h : rel s t) (as : List α) :
    rel (runFrom step s as) (runFrom step' t (collect step acts s as)) := by
  induction as generalizing s t with
  | nil => exact h
  | cons a as ih =>
    rw [collect, runFrom_append]
    exact ih (hstep s t a h)

section

variable {step : σ → α → σ} {keep : α → Bool} (rel : σ → σ → Prop)
  (hkeep : ∀ s t a, keep a = true → rel s t → rel (step s a) (step t a))
  (hskip : ∀ s t a, keep a = false → rel s t → rel (step s a) t)

include hkeep hskip

/-- Leaving out the actions that a view of the state does not see: the view is the same after the other ones. -/
theorem runFrom_filter {s t : σ} (h : rel s t) (as : List α) :
    rel (runFrom step s as) (runFrom step t (as.filter keep)) := by
  induction as generalizing s t with
  | nil => exact h
  | cons a as ih =>
    rw [List.filter_cons]
    cases hk : keep a with
    | true => exact ih (hkeep s t a hk h)
    | false => exact ih (hskip s t a hk h)

theorem collect_filter {β : Type*} {out : σ → α → List β} (hout : ∀ s t a, keep a = true → rel s t → out s a = out t a)
    (hnone : ∀ s a, keep a = false → out s a = []) {s t : σ} (h : rel s t) (as : List α) :
    collect step out s as = collect step out t (as.filter keep) := by
  induction as generalizing s t with
  | nil => rfl
  | cons a as ih =>
    rw [List.filter_cons]
    cases hk : keep a with
    | true =>
      have hs := ih (hkeep s t a hk h)
      simp only [collect, ↓reduceIte, hout s t a hk h, hs]
    | false =>
      have hs := ih (hskip s t a hk h)
      simp only [collect, hnone s a hk, List.nil_append, Bool.false_eq_true, ↓reduceIte, hs]

end

/-- Outputs that do not depend on the state are those of the actions. -/
theorem collect_const {β : Type*} (step : σ → α → σ) (out : α → List β) (s : σ) (as : List α) :
    collect step (fun _ a => out a) s as = as.flatMap out := by
  induction as generalizing s with
  | nil => rfl
  | cons a as ih => rw [collect, ih, List.flatMap_cons]

theorem map_collect {β γ : Type*} (f : β → γ) (step : σ → α → σ) (out : σ → α → List β) (s : σ) (as : List α) :
    (collect step out s as).map f = collect step (fun s a => (out s a).map f) s as := by
  induction as generalizing s with
  | nil => rfl
  | cons a as ih => rw [collect, collect, List.map_append, ih]

/-- If at every step a quantity with what is put out is the quantity before with what is put in, then so it is for the
whole run.  The steps may rely on an invariant, and on a property of the actions. -/
theorem runFrom_ledger {M : Type*} [AddCommMonoid M] {step : σ → α → σ} (inv : σ → Prop) (ok : α → Prop)
    (hinv : ∀ s a, inv s → ok a → inv (step s a)) (quantity : σ → M) (win wout : σ → α → List M)
    (hstep : ∀ s a, inv s → ok a → quantity (step s a) + (wout s a).sum = quantity s + (win s a).sum) {s : σ} (h : inv s)
    (as : List α) (hok : ∀ a ∈ as, ok a) :
    quantity (runFrom step s as) + (collect step wout s as).sum = quantity s + (collect step win s as).sum := by
  induction as generalizing s with
  | nil => rfl
  | cons a as ih =>
    have ha : ok a := hok a (by simp)
    have h1 := hstep s a h ha
    have h2 := ih (hinv s a h ha) fun b hb => hok b (by simp [hb])
    simp only [runFrom_cons, collect, List.sum_append]
    calc quantity (runFrom step (step s a) as) + ((wout s a).sum + (collect step wout (step s a) as).sum)
        = (wout s a).sum + (quantity (runFrom step (step s a) as) + (collect step wout (step s a) as).sum) :=
          add_left_comm ..
      _ = (quantity (step s a) + (wout s a).sum) + (collect step win (step s a) as).sum := by
          rw [h2, ← add_assoc, add_comm (wout s a).sum]
      _ = quantity s + ((win s a).sum + (collect step win (step s a) as).sum) := by rw [h1, add_assoc]

/-! ### Totals along a run -/

/-- The sum of `w` over the steps of a run, each taken at the state it starts from. -/
def total (step : σ → α → σ) (w : σ → α → Nat) : σ → List α → Nat
  | _, [] => 0
  | s, a :: as => w s a + total step w (step s a) as

@[simp] theorem total_zero (step : σ → α → σ) (s : σ) (as : List α) : total step (fun _ _ => 0) s as = 0 := by
  induction as generalizing s with
  | nil => rfl
  | cons a as ih => rw [total, ih]

/-- If at every step a quantity grows by what goes in and shrinks by what goes out, then along every run the
final quantity plus all that went out is the initial quantity plus all that went in.  The steps may rely on an
invariant. -/
theorem runFrom_balance {step : σ → α → σ} (inv : σ → Prop) (hinv : ∀ s a, inv s → inv (step s a))
    (quantity : σ → Nat) (win wout : σ → α → Nat)
    (hstep : ∀ s a, inv s → quantity (step s a) + wout s a = quantity s + win s a) {s : σ} (h : inv s)
    (as : List α) :
    quantity (runFrom step s as) + total step wout s as = quantity s + total step win s as := by
  induction as generalizing s with
  | nil => rfl
  | cons a as ih =>
    have h1 := hstep s a h
    have h2 := ih (hinv s a h)
    simp only [runFrom_cons, total]
    omega

/-! ### Steps that may stop the system -/

/-- A partial step function as a step function on `Option`. -/
def lift (step : σ → α → Option σ) (o : Option σ) (a : α) : Option σ := o.bind (step · a)

/-- A system that has stopped stays so. -/
theorem runFrom_lift_none (step : σ → α → Option σ) (as : List α) : runFrom (lift step) none as = none := by
  induction as with
  | nil => rfl
  | cons a as ih => exact ih

/-- What holds at the start, and after a step of what it held before, holds where a run that goes through ends. -/
theorem runFrom_lift_induct {step : σ → α → Option σ} {start : σ} (motive : List α → σ → Prop) (h0 : motive [] start)
    (hstep : ∀ as s a s', motive as s → step s a = some s' → motive (as ++ [a]) s') {as : List α} {s : σ}
    (hr : runFrom (lift step) (some start) as = some s) : motive as s := by
  induction as using List.reverseRecOn generalizing s with
  | nil =>
    obtain rfl : start = s := Option.some.inj hr
    exact h0
  | append_singleton as a ih =>
    rw [runFrom_concat] at hr
    obtain ⟨t, ht, ha⟩ := Option.bind_eq_some_iff.1 hr
    exact hstep as t a s (ih ht) ha

end Run

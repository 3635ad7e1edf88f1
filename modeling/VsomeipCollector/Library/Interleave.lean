import VsomeipCollector.Library.Run

/-!
# Interleavings of independent actions

Actions belong to keys, and actions of different keys may be swapped: the two states are related by an equivalence that
every action respects.  Then a run depends on the actions of every key and their order only, and not on how the actions
of different keys are interleaved (`runFrom_interleave`).
-/

namespace Interleave

open Run

variable {σ α κ : Type*} {step : σ → α → σ} {key : α → κ} {ok : α → Prop} {rel : σ → σ → Prop}

/-- Actions that respect the relation lead from related states to related states. -/
theorem runFrom_congr (hstep : ∀ s t a, ok a → rel s t → rel (step s a) (step t a)) {as : List α} (has : ∀ a ∈ as, ok a)
    {s t : σ} (h : rel s t) : rel (runFrom step s as) (runFrom step t as) := by
  induction as generalizing s t with
  | nil => exact h
  | cons a as ih => exact ih (fun b hb => has b (by simp [hb])) (hstep s t a (has a (by simp)) h)

/-- An action may be moved before actions of other keys. -/
theorem runFrom_move (hrel : Equivalence rel) (hstep : ∀ s t a, ok a → rel s t → rel (step s a) (step t a))
    (hcomm : ∀ s a b, ok a → ok b → key a ≠ key b → rel (step (step s a) b) (step (step s b) a)) {a : α} (ha : ok a)
    {pre : List α} (hpre : ∀ b ∈ pre, ok b ∧ key b ≠ key a) {post : List α} (hpost : ∀ b ∈ post, ok b) (s : σ) :
    rel (runFrom step s (a :: (pre ++ post))) (runFrom step s (pre ++ a :: post)) := by
  induction pre generalizing s with
  | nil => exact hrel.refl _
  | cons b pre ih =>
    obtain ⟨hb, hne⟩ := hpre b (by simp)
    have hswap := hcomm s a b ha hb hne.symm
    have hok : ∀ c ∈ pre ++ post, ok c := by
      intro c hc
      rcases List.mem_append.1 hc with hc | hc
      · exact (hpre c (by simp [hc])).1
      · exact hpost c hc
    have hrest := runFrom_congr hstep hok hswap
    exact hrel.trans hrest (ih (fun c hc => hpre c (by simp [hc])) (step s b))

variable [DecidableEq κ]

/-- Under every key the same actions in the same order. -/
def SameByKey (key : α → κ) (as bs : List α) : Prop :=
  ∀ k, as.filter (fun a => key a = k) = bs.filter (fun b => key b = k)

/-- The first action of the one list stands in the other behind actions of other keys. -/
theorem SameByKey.split {a : α} {as bs : List α} (h : SameByKey key (a :: as) bs) :
    ∃ pre post, bs = pre ++ a :: post ∧ (∀ b ∈ pre, key b ≠ key a) ∧ SameByKey key as (pre ++ post) := by
  have ha := (h (key a)).symm
  rw [List.filter_cons_of_pos (by simp)] at ha
  obtain ⟨pre, post, rfl, hpre, -, -⟩ := List.filter_eq_cons_iff.1 ha
  have hother : ∀ b ∈ pre, key b ≠ key a := fun b hb => by simpa using hpre b hb
  refine ⟨pre, post, rfl, hother, fun k => ?_⟩
  have hk := h k
  by_cases hka : key a = k
  · -- the actions before `a` belong to other keys
    have hnone : pre.filter (fun b => key b = k) = [] := by
      rw [List.filter_eq_nil_iff]
      intro b hb he
      exact hother b hb ((of_decide_eq_true he).trans hka.symm)
    rw [List.filter_cons_of_pos (by simpa using hka), List.filter_append, hnone, List.nil_append,
      List.filter_cons_of_pos (by simpa using hka)] at hk
    rw [List.filter_append, hnone, List.nil_append]
    exact (List.cons.inj hk).2
  · rw [List.filter_cons_of_neg (by simpa using hka), List.filter_append,
      List.filter_cons_of_neg (by simpa using hka)] at hk
    rw [List.filter_append]
    exact hk

/-- Runs with the same actions under every key lead to related states. -/
theorem runFrom_interleave (hrel : Equivalence rel) (hstep : ∀ s t a, ok a → rel s t → rel (step s a) (step t a))
    (hcomm : ∀ s a b, ok a → ok b → key a ≠ key b → rel (step (step s a) b) (step (step s b) a)) {as bs : List α}
    (has : ∀ a ∈ as, ok a) (hbs : ∀ b ∈ bs, ok b) (h : SameByKey key as bs) (s : σ) :
    rel (runFrom step s as) (runFrom step s bs) := by
  induction as generalizing bs s with
  | nil =>
    have hnil : bs = [] := by
      refine List.eq_nil_iff_forall_not_mem.2 fun b hb => ?_
      have hmem : b ∈ bs.filter fun c => key c = key b := List.mem_filter.2 ⟨hb, by simp⟩
      rw [← h (key b)] at hmem
      cases hmem
    rw [hnil]
    exact hrel.refl _
  | cons a as ih =>
    obtain ⟨pre, post, rfl, hpre, hsame⟩ := h.split
    have hokpre : ∀ b ∈ pre, ok b ∧ key b ≠ key a := fun b hb => ⟨hbs b (by simp [hb]), hpre b hb⟩
    have hokpost : ∀ b ∈ post, ok b := fun b hb => hbs b (by simp [hb])
    have hmove := runFrom_move hrel hstep hcomm (has a (by simp)) hokpre hokpost s
    have hrest : rel (runFrom step (step s a) as) (runFrom step (step s a) (pre ++ post)) := by
      refine ih (fun b hb => has b (by simp [hb])) (fun b hb => hbs b ?_) hsame (step s a)
      rcases List.mem_append.1 hb with hb | hb
      · simp [hb]
      · simp [hb]
    exact hrel.trans hrest hmove

end Interleave

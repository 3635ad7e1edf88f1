import Mathlib.Data.List.Induction

/-!
# A slot and its history

A slot holds at most one value.  An action keeps it, sets it (an occupied slot keeps the value it has) or clears
it, and which of the three may depend on all that happened before.  The content of the slot is a function of the
history: it holds `t` exactly when some action set it to `t`, nothing has cleared it since, and every earlier
setting was cleared before (`slot_eq_some_iff`).
-/

namespace Slot

variable {α τ : Type*}

/-- What one action does to a slot. -/
inductive Effect (τ : Type*) where
  | keep
  | set (t : τ)
  | clear
deriving DecidableEq

/-- The first value set is the one that stays. -/
def Effect.apply : Effect τ → Option τ → Option τ
  | .keep, o => o
  | .set t, none => some t
  | .set _, some t => some t
  | .clear, _ => none

/-- Every setting in `h` has been cleared again within `h`. -/
def Settled (eff : List α → α → Effect τ) (h : List α) : Prop :=
  ∀ a d b t, h = a ++ d :: b → eff a d = .set t → ∃ b₁ e b₂, b = b₁ ++ e :: b₂ ∧ eff (a ++ d :: b₁) e = .clear

/-- Some action of `h` set the slot to `t` while it was empty, and it has not been cleared since. -/
def Opened (eff : List α → α → Effect τ) (h : List α) (t : τ) : Prop :=
  ∃ pre c post, h = pre ++ c :: post ∧ eff pre c = .set t ∧ Settled eff pre ∧
    ∀ a d b, post = a ++ d :: b → eff (pre ++ c :: a) d ≠ .clear

/-- Whether everything was cleared depends only on the effects of the actions that happened. -/
theorem Settled.congr {eff eff' : List α → α → Effect τ} {h : List α}
    (he : ∀ pre c post, h = pre ++ c :: post → eff pre c = eff' pre c) (hs : Settled eff h) : Settled eff' h := by
  intro a d b t hsp hset
  obtain ⟨b₁, e, b₂, rfl, hclr⟩ := hs a d b t hsp (by rw [he a d b hsp]; exact hset)
  exact ⟨b₁, e, b₂, rfl, by rw [← he (a ++ d :: b₁) e b₂ (by rw [hsp]; simp)]; exact hclr⟩

theorem Opened.congr {eff eff' : List α → α → Effect τ} {h : List α} {t : τ}
    (he : ∀ pre c post, h = pre ++ c :: post → eff pre c = eff' pre c) (ho : Opened eff h t) : Opened eff' h t := by
  obtain ⟨pre, c, post, rfl, hset, hpre, hpost⟩ := ho
  refine ⟨pre, c, post, rfl, by rw [← he pre c post rfl]; exact hset, ?_, ?_⟩
  · apply hpre.congr
    intro a d b hsp
    exact he a d (b ++ c :: post) (by rw [hsp]; simp)
  · intro a d b hsp
    rw [← he (pre ++ c :: a) d b (by rw [hsp]; simp)]
    exact hpost a d b hsp

private theorem concat_eq_split {l a b : List α} {c d : α} :
    l ++ [c] = a ++ d :: b ↔ (b = [] ∧ l = a ∧ c = d) ∨ ∃ b', b = b' ++ [c] ∧ l = a ++ d :: b' := by
  constructor
  · intro h
    rcases List.eq_nil_or_concat b with rfl | ⟨b', x, rfl⟩
    · have := List.append_inj' h rfl
      exact Or.inl ⟨rfl, this.1, by simpa using this.2⟩
    · have h' : l ++ [c] = (a ++ d :: b') ++ [x] := by rw [h]; simp
      have := List.append_inj' h' rfl
      obtain rfl : c = x := by simpa using this.2
      exact Or.inr ⟨b', by simp, this.1⟩
  · rintro (⟨rfl, rfl, rfl⟩ | ⟨b', rfl, rfl⟩)
    · rfl
    · simp

private theorem settled_concat {eff : List α → α → Effect τ} {h : List α} {c : α} :
    Settled eff (h ++ [c]) ↔ eff h c = .clear ∨ (Settled eff h ∧ ∀ t, eff h c ≠ .set t) := by
  constructor
  · intro hs
    by_cases hc : eff h c = .clear
    · exact Or.inl hc
    refine Or.inr ⟨?_, ?_⟩
    · intro a d b t he hset
      obtain ⟨b₁, e, b₂, hb, hclr⟩ := hs a d (b ++ [c]) t (by rw [he]; simp) hset
      rcases concat_eq_split.1 hb with ⟨_, rfl, rfl⟩ | ⟨b₂', _, hb'⟩
      · exact absurd (by rw [he]; exact hclr) hc
      · exact ⟨b₁, e, b₂', hb', hclr⟩
    · intro t hset
      obtain ⟨b₁, e, b₂, hb, _⟩ := hs h c [] t rfl hset
      simp at hb
  · intro hs a d b t he hset
    rcases concat_eq_split.1 he with ⟨rfl, rfl, rfl⟩ | ⟨b', rfl, rfl⟩
    · rcases hs with hc | ⟨_, hn⟩
      · rw [hc] at hset; cases hset
      · exact absurd hset (hn t)
    · rcases hs with hc | ⟨hs, _⟩
      · exact ⟨b', c, [], by simp, hc⟩
      · obtain ⟨b₁, e, b₂, rfl, hclr⟩ := hs a d b' t rfl hset
        exact ⟨b₁, e, b₂ ++ [c], by simp, hclr⟩

private theorem opened_concat {eff : List α → α → Effect τ} {h : List α} {c : α} {t : τ} :
    Opened eff (h ++ [c]) t ↔
      (eff h c ≠ .clear ∧ Opened eff h t) ∨ (eff h c = .set t ∧ Settled eff h) := by
  constructor
  · rintro ⟨pre, d, post, he, hset, hpre, hpost⟩
    rcases concat_eq_split.1 he with ⟨rfl, rfl, rfl⟩ | ⟨post', rfl, rfl⟩
    · exact Or.inr ⟨hset, hpre⟩
    · refine Or.inl ⟨?_, pre, d, post', rfl, hset, hpre, ?_⟩
      · exact hpost post' c [] (by simp)
      · intro a e b hb
        exact hpost a e (b ++ [c]) (by rw [hb]; simp)
  · rintro (⟨hc, pre, d, post, rfl, hset, hpre, hpost⟩ | ⟨hset, hs⟩)
    · refine ⟨pre, d, post ++ [c], by simp, hset, hpre, ?_⟩
      intro a e b hb
      rcases concat_eq_split.1 hb with ⟨rfl, rfl, rfl⟩ | ⟨b', rfl, rfl⟩
      · exact hc
      · exact hpost a e b' rfl
    · exact ⟨h, c, [], rfl, hset, hs, by intro a d b hb; simp at hb⟩

/-- The content of a slot, read off its history: empty when everything set was cleared again, otherwise the first
value set since. -/
private theorem slot_history {slot : List α → Option τ} {eff : List α → α → Effect τ} (h0 : slot [] = none)
    (hs : ∀ h c, slot (h ++ [c]) = (eff h c).apply (slot h)) (h : List α) :
    (slot h = none ↔ Settled eff h) ∧ ∀ t, slot h = some t ↔ Opened eff h t := by
  induction h using List.reverseRecOn with
  | nil =>
    refine ⟨⟨fun _ a d b t he => by simp at he, fun _ => h0⟩, fun t => ⟨fun h => ?_, fun h => ?_⟩⟩
    · rw [h0] at h; cases h
    · obtain ⟨pre, c, post, he, _⟩ := h
      simp at he
  | append_singleton h c ih =>
    obtain ⟨ihn, ihs⟩ := ih
    rw [hs, settled_concat]
    constructor
    · rw [← ihn]
      cases he : eff h c <;> cases hh : slot h <;> simp [Effect.apply]
    · intro t
      rw [opened_concat, ← ihs, ← ihn]
      cases he : eff h c <;> cases hh : slot h <;> simp [Effect.apply]

theorem slot_eq_some_iff (slot : List α → Option τ) (eff : List α → α → Effect τ) (h0 : slot [] = none)
    (hs : ∀ h c, slot (h ++ [c]) = (eff h c).apply (slot h)) (h : List α) (t : τ) :
    slot h = some t ↔ Opened eff h t :=
  (slot_history h0 hs h).2 t

end Slot

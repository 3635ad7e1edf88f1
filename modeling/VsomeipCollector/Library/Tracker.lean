import Mathlib.Data.List.Induction
import Mathlib.Logic.Function.Basic
import VsomeipCollector.Library.Run

/-!
# Tracking requests until they are answered or expire

A tracker keeps, for every key, the time of the first request that is still open.  A reply within `window` of the
request is measured, and any reply closes the request; an expiration at `now` closes, silently, every request that
is more than `ttl` old.  Expirations are not part of the traffic: they run whenever the program gets to it
(`Insertion`).

What is measured depends on when they run unless the traffic is `Stable`.  For stable traffic every schedule
measures exactly the replies within `ttl` of the first request (`samples_of_insertion`); for any other sorted traffic
two schedules disagree (`samples_of_not_stable`).
-/

namespace Tracker

/-! ### Inserting actions into a sequence -/

section

variable {α β : Type*}

/-- `es` is `base` with `extra` actions inserted, each at a time between all that comes before and after it. -/
structure Insertion (extra : α → Bool) (time : α → Nat) (base es : List α) : Prop where
  rest : es.filter (fun a => !extra a) = base
  between : ∀ pre a post, es = pre ++ a :: post → extra a = true →
    (∀ b ∈ pre, extra b = false → time b ≤ time a) ∧ (∀ b ∈ post, extra b = false → time a ≤ time b)

variable {extra : α → Bool} {time : α → Nat} {base es : List α}

theorem Insertion.of_sorted (hrest : es.filter (fun a => !extra a) = base)
    (hsorted : es.Pairwise (time · ≤ time ·)) : Insertion extra time base es where
  rest := hrest
  between := by
    rintro pre a post rfl -
    rw [List.pairwise_append, List.pairwise_cons] at hsorted
    obtain ⟨-, ⟨hpost, -⟩, hpre⟩ := hsorted
    exact ⟨fun b hb _ => hpre b hb a (by simp), fun b hb _ => hpost b hb⟩

/-- A translation of actions that keeps kinds and times keeps insertions. -/
theorem Insertion.map {extra : α → Bool} {time : α → Nat} {extra' : β → Bool} {time' : β → Nat} (f : α → β)
    (hextra : ∀ a ∈ es, extra' (f a) = extra a) (htime : ∀ a ∈ es, time' (f a) = time a)
    (h : Insertion extra time base es) : Insertion extra' time' (base.map f) (es.map f) where
  rest := by
    rw [List.filter_map, ← h.rest]
    congr 1
    exact List.filter_congr fun a ha => by simp [hextra a ha]
  between := by
    intro pre a post he ha
    obtain ⟨pre', rest', rfl, rfl, hr⟩ := List.map_eq_append_iff.1 he
    obtain ⟨a', post', rfl, rfl, rfl⟩ := List.map_eq_cons_iff.1 hr
    rw [hextra a' (by simp)] at ha
    obtain ⟨hb, hf⟩ := h.between pre' a' post' rfl ha
    constructor
    · rintro b hm he'
      obtain ⟨b', hb', rfl⟩ := List.mem_map.1 hm
      rw [hextra b' (by simp [hb'])] at he'
      rw [htime b' (by simp [hb']), htime a' (by simp)]
      exact hb b' hb' he'
    · rintro b hm he'
      obtain ⟨b', hb', rfl⟩ := List.mem_map.1 hm
      rw [hextra b' (by simp [hb'])] at he'
      rw [htime b' (by simp [hb']), htime a' (by simp)]
      exact hf b' hb' he'

/-- A prefix of an insertion is an insertion into a prefix. -/
theorem Insertion.initial {pre post : List α} (h : Insertion extra time base (pre ++ post)) :
    Insertion extra time (pre.filter fun a => !extra a) pre where
  rest := rfl
  between := by
    rintro p a q rfl ha
    have h' := h.between p a (q ++ post) (by simp) ha
    exact ⟨h'.1, fun b hb => h'.2 b (by simp [hb])⟩

variable (tick : α → α)

/-- One extra action right before every action. -/
def eager (base : List α) : List α := base.flatMap fun a => [tick a, a]

@[simp] theorem eager_nil : eager tick [] = [] := rfl

@[simp] theorem eager_concat (base : List α) (a : α) : eager tick (base ++ [a]) = eager tick base ++ [tick a, a] := by
  simp [eager]

private theorem mem_eager {a : α} (h : a ∈ eager tick base) : ∃ b ∈ base, a = tick b ∨ a = b := by
  simpa [eager] using h

section

variable (hkind : ∀ a, extra (tick a) = true) (htime : ∀ a, time (tick a) = time a)
  (hbase : ∀ a ∈ base, extra a = false) (hsorted : base.Pairwise (time · ≤ time ·))

include hkind htime hbase hsorted

theorem insertion_eager : Insertion extra time base (eager tick base) := by
  apply Insertion.of_sorted
  · induction base with
    | nil => rfl
    | cons a base ih =>
      have ih' := ih (fun b hb => hbase b (by simp [hb])) (List.pairwise_cons.1 hsorted).2
      have ha := hbase a (by simp)
      show List.filter _ (tick a :: a :: eager tick base) = _
      simp only [List.filter_cons, hkind, ha, Bool.not_true, Bool.not_false, Bool.false_eq_true, ↓reduceIte, ih']
  · induction base with
    | nil => exact List.Pairwise.nil
    | cons a base ih =>
      have ih' := ih (fun b hb => hbase b (by simp [hb])) (List.pairwise_cons.1 hsorted).2
      have hle : ∀ b ∈ eager tick base, time a ≤ time b := by
        intro b hb
        obtain ⟨c, hc, rfl | rfl⟩ := mem_eager tick hb
        · rw [htime]; exact (List.pairwise_cons.1 hsorted).1 c hc
        · exact (List.pairwise_cons.1 hsorted).1 b hc
      show List.Pairwise _ (tick a :: a :: eager tick base)
      rw [List.pairwise_cons, List.pairwise_cons]
      refine ⟨?_, hle, ih'⟩
      intro b hb
      rw [htime]
      rcases List.mem_cons.1 hb with rfl | hb
      · exact Nat.le_refl _
      · exact hle b hb

theorem insertion_one {pre post : List α} {a : α} (hsp : base = pre ++ a :: post) :
    Insertion extra time base (pre ++ tick a :: a :: post) := by
  subst hsp
  have hpre : pre.filter (fun a => !extra a) = pre :=
    List.filter_eq_self.2 fun b hb => by simp [hbase b (by simp [hb])]
  have hpost : (a :: post).filter (fun a => !extra a) = a :: post :=
    List.filter_eq_self.2 fun b hb => by simp [hbase b (List.mem_append_right _ hb)]
  apply Insertion.of_sorted
  · rw [List.filter_append, hpre, List.filter_cons_of_neg (by simp [hkind]), hpost]
  · rw [List.pairwise_append] at hsorted ⊢
    obtain ⟨h1, h2, h3⟩ := hsorted
    refine ⟨h1, List.pairwise_cons.2 ⟨?_, h2⟩, ?_⟩
    · intro b hb
      rw [htime]
      rcases List.mem_cons.1 hb with rfl | hb
      · exact Nat.le_refl _
      · exact (List.pairwise_cons.1 h2).1 b hb
    · intro b hb c hc
      rcases List.mem_cons.1 hc with rfl | hc
      · rw [htime]; exact h3 b hb a (by simp)
      · exact h3 b hb c hc

end

end

/-! ### The tracker -/

variable {κ : Type*}

inductive Event (κ : Type*) where
  | request (q : κ) (s : Nat)
  | reply (q : κ) (r : Nat)
  | expire (now : Nat)

def Event.time : Event κ → Nat
  | .request _ s => s
  | .reply _ r => r
  | .expire now => now

def Event.isExpire : Event κ → Bool
  | .expire _ => true
  | _ => false

@[simp] theorem isExpire_request (q : κ) (s : Nat) : (Event.request q s).isExpire = false := rfl

@[simp] theorem isExpire_reply (q : κ) (r : Nat) : (Event.reply q r).isExpire = false := rfl

@[simp] theorem isExpire_expire (now : Nat) : (Event.expire now : Event κ).isExpire = true := rfl

structure State (κ : Type*) where
  slot : κ → Option Nat
  samples : List Nat

/-- What a reply at `r` measures. -/
def measure (window : Nat) (o : Option Nat) (r : Nat) : List Nat :=
  match o with
  | none => []
  | some s => if r ≤ s + window then [r - s] else []

section

variable [DecidableEq κ] (ttl window : Nat)

def empty : State κ := ⟨fun _ => none, []⟩

def step (st : State κ) : Event κ → State κ
  | .request q s => { st with slot := Function.update st.slot q (some ((st.slot q).getD s)) }
  | .reply q r => ⟨Function.update st.slot q none, st.samples ++ measure window (st.slot q) r⟩
  | .expire now => { st with slot := fun q => (st.slot q).filter fun s => now ≤ s + ttl }

def run (es : List (Event κ)) : State κ := Run.runFrom (step ttl window) empty es

@[simp] theorem run_nil : run ttl window ([] : List (Event κ)) = empty := rfl

@[simp] theorem run_concat (es : List (Event κ)) (e : Event κ) :
    run ttl window (es ++ [e]) = step ttl window (run ttl window es) e := Run.runFrom_concat ..

theorem run_append (es fs : List (Event κ)) :
    run ttl window (es ++ fs) = Run.runFrom (step ttl window) (run ttl window es) fs := Run.runFrom_append ..

variable {ttl window} in
private theorem slot_request_same (st : State κ) (q : κ) (s : Nat) :
    (step ttl window st (.request q s)).slot q = some ((st.slot q).getD s) := Function.update_self _ _ _

variable {ttl window} in
private theorem slot_request_of_ne (st : State κ) {q q' : κ} (s : Nat) (h : q ≠ q') :
    (step ttl window st (.request q' s)).slot q = st.slot q := Function.update_of_ne h _ _

variable {ttl window} in
private theorem slot_reply_same (st : State κ) (q : κ) (r : Nat) :
    (step ttl window st (.reply q r)).slot q = none := Function.update_self _ _ _

variable {ttl window} in
private theorem slot_reply_of_ne (st : State κ) {q q' : κ} (r : Nat) (h : q ≠ q') :
    (step ttl window st (.reply q' r)).slot q = st.slot q := Function.update_of_ne h _ _

def sinceStep (q : κ) (acc : List Nat) : Event κ → List Nat
  | .request q' s => if q' = q then acc ++ [s] else acc
  | .reply q' _ => if q' = q then [] else acc
  | .expire _ => acc

/-- The times of the requests under `q` since the last reply. -/
def since (q : κ) (es : List (Event κ)) : List Nat := Run.runFrom (sinceStep q) [] es

@[simp] theorem since_concat (q : κ) (es : List (Event κ)) (e : Event κ) :
    since q (es ++ [e]) = sinceStep q (since q es) e := Run.runFrom_concat ..

/-- The answer to the requests `rs` at `r` does not depend on expirations: it comes within `ttl` of the first request,
or more than `window` after the last, or more than `window` after the first while none came later than `ttl` after
the first. -/
def StableAt (rs : List Nat) (r : Nat) : Prop :=
  ∀ s ∈ rs.head?, ∀ l ∈ rs.getLast?, r ≤ s + ttl ∨ l + window < r ∨ (s + window < r ∧ l ≤ s + ttl)

def Stable (base : List (Event κ)) : Prop :=
  ∀ pre q r post, base = pre ++ .reply q r :: post → StableAt ttl window (since q pre) r

/-- What a reply at `r` measures if the first request has not expired. -/
def inTime (rs : List Nat) (r : Nat) : List Nat := measure ttl rs.head? r

/-- The replies that come within `ttl` of the first request. -/
def inTimeSamples (base : List (Event κ)) : List Nat :=
  Run.collect (fun h e => h ++ [e])
    (fun h e =>
      match e with
      | .reply q r => inTime ttl (since q h) r
      | _ => [])
    [] base

omit [DecidableEq κ] in
private theorem runFrom_snoc (h es : List (Event κ)) : Run.runFrom (fun h e => h ++ [e]) h es = h ++ es := by
  induction es generalizing h with
  | nil => simp
  | cons e es ih => simp [ih]

theorem inTimeSamples_concat (base : List (Event κ)) (e : Event κ) :
    inTimeSamples ttl (base ++ [e]) = inTimeSamples ttl base ++
      match e with
      | .reply q r => inTime ttl (since q base) r
      | _ => [] := by
  unfold inTimeSamples
  rw [Run.collect_concat, runFrom_snoc, List.nil_append]

/-! ### Requests since the last reply -/

private theorem since_filter (q : κ) (es : List (Event κ)) :
    since q (es.filter fun e => !e.isExpire) = since q es := by
  induction es using List.reverseRecOn with
  | nil => rfl
  | append_singleton es e ih =>
    rw [List.filter_append]
    cases e <;> simp [ih, sinceStep]

private theorem since_sublist (q : κ) (es : List (Event κ)) : (since q es).Sublist (es.map Event.time) := by
  induction es using List.reverseRecOn with
  | nil => exact List.Sublist.refl _
  | append_singleton es e ih =>
    rw [since_concat, List.map_append]
    have hkeep := ih.trans (List.sublist_append_left _ ([e].map Event.time))
    cases e with
    | request q' s =>
      by_cases hq : q' = q
      · simp only [sinceStep, hq, ↓reduceIte]
        exact ih.append (List.Sublist.refl [s])
      · simp only [sinceStep, hq, ↓reduceIte]
        exact hkeep
    | reply q' r =>
      by_cases hq : q' = q
      · simp only [sinceStep, hq, ↓reduceIte]
        exact List.nil_sublist _
      · simp only [sinceStep, hq, ↓reduceIte]
        exact hkeep
    | expire now => exact hkeep

/-- In sorted traffic no request since the last reply is later than the last of them. -/
private theorem le_getLast_since {q : κ} {es : List (Event κ)} (hsorted : es.Pairwise (·.time ≤ ·.time)) {l v : Nat}
    (hl : l ∈ (since q es).getLast?) (hv : v ∈ since q es) : v ≤ l := by
  have hp : (since q es).Pairwise (· ≤ ·) :=
    List.Pairwise.sublist (since_sublist q es) (List.pairwise_map.2 hsorted)
  obtain ⟨as, has⟩ := List.getLast?_eq_some_iff.1 hl
  rw [has] at hp hv
  rw [List.pairwise_append] at hp
  rcases List.mem_append.1 hv with hv | hv
  · exact hp.2.2 v hv l (by simp)
  · rw [List.mem_singleton] at hv; exact Nat.le_of_eq hv

/-! ### Stable traffic -/

/-- The slot of `q` after `es`: it holds the first request, or that one has expired by now. -/
def Tracked (es : List (Event κ)) (q : κ) (o : Option Nat) : Prop :=
  match since q es with
  | [] => o = none
  | s :: rest =>
    o = some s ∨ ∃ now, .expire now ∈ es ∧ s + ttl < now ∧ ∀ v ∈ o, v ∈ rest ∧ s + ttl < v

private theorem tracked_frame {es : List (Event κ)} {e : Event κ} {q : κ} {o : Option Nat}
    (he : sinceStep q (since q es) e = since q es) (h : Tracked ttl es q o) : Tracked ttl (es ++ [e]) q o := by
  unfold Tracked at h ⊢
  rw [since_concat, he]
  cases hs : since q es with
  | nil => rw [hs] at h; exact h
  | cons s rest =>
    rw [hs] at h
    rcases h with h | ⟨now, hm, h1, h2⟩
    · exact Or.inl h
    · exact Or.inr ⟨now, List.mem_append_left _ hm, h1, h2⟩

variable {ttl window}

omit [DecidableEq κ] in
/-- Once an expiration has run, every later event of the traffic is at least as late. -/
private theorem expire_le_time {base es : List (Event κ)} {e : Event κ}
    (h : Insertion Event.isExpire Event.time base (es ++ [e])) (he : e.isExpire = false) {now : Nat}
    (hm : .expire now ∈ es) : now ≤ e.time := by
  obtain ⟨pre, post, rfl⟩ := List.append_of_mem hm
  exact (h.between pre (.expire now) (post ++ [e]) (by simp) rfl).2 e (by simp) he

private theorem tracked_expire {es : List (Event κ)} {q : κ} {o : Option Nat} (now : Nat) (h : Tracked ttl es q o) :
    Tracked ttl (es ++ [.expire now]) q (o.filter fun s => now ≤ s + ttl) := by
  have hf : Tracked ttl (es ++ [.expire now]) q o := tracked_frame ttl rfl h
  unfold Tracked at hf ⊢
  cases hs : since q (es ++ [.expire now]) with
  | nil => rw [hs] at hf; rw [hf]; rfl
  | cons s rest =>
    rw [hs] at hf
    by_cases hn : now ≤ s + ttl
    · -- the first request stays, if it is still there
      rcases hf with hf | ⟨n, hm, h1, h2⟩
      · left; simp [hf, hn]
      · right
        refine ⟨n, hm, h1, fun v hv => h2 v ?_⟩
        exact (Option.filter_eq_some_iff.1 hv).1
    · right
      refine ⟨now, by simp, by omega, ?_⟩
      intro v hv
      obtain ⟨hv, hvn⟩ := Option.filter_eq_some_iff.1 hv
      rcases hf with hf | ⟨n, hm, h1, h2⟩
      · rw [hf] at hv; cases hv; simp [hn] at hvn
      · exact h2 v hv

/-- A request no earlier than the expirations that have run. -/
private theorem tracked_request {es : List (Event κ)} {q : κ} {o : Option Nat} {t : Nat} (h : Tracked ttl es q o)
    (hle : ∀ now, .expire now ∈ es → now ≤ t) : Tracked ttl (es ++ [.request q t]) q (some (o.getD t)) := by
  unfold Tracked at h ⊢
  rw [since_concat]
  simp only [sinceStep, ↓reduceIte]
  cases hs : since q es with
  | nil => rw [hs] at h; left; simp [h]
  | cons s rest =>
    rw [hs] at h
    rcases h with h | ⟨now, hm, h1, h2⟩
    · left; simp [h]
    · -- the first request has expired, so what the slot now holds came later
      right
      have hnow : now ≤ t := hle now hm
      refine ⟨now, by simp [hm], h1, ?_⟩
      intro v hv
      cases ho : o with
      | none =>
        rw [ho] at hv
        obtain rfl : t = v := by simpa using hv
        exact ⟨by simp, by omega⟩
      | some u =>
        rw [ho] at hv
        obtain rfl : u = v := by simpa using hv
        obtain ⟨h3, h4⟩ := h2 u ho
        exact ⟨by simp [h3], h4⟩

variable (ttl window) in
private theorem tracked_run {base es : List (Event κ)} (h : Insertion Event.isExpire Event.time base es) (q : κ) :
    Tracked ttl es q ((run ttl window es).slot q) := by
  induction es using List.reverseRecOn generalizing base with
  | nil => rfl
  | append_singleton es e ih =>
    have ih' := ih h.initial
    rw [run_concat]
    cases e with
    | expire now => exact tracked_expire now ih'
    | reply q' r =>
      by_cases hq : q = q'
      · subst hq
        rw [slot_reply_same]
        simp [Tracked, sinceStep]
      · rw [slot_reply_of_ne _ _ hq]
        exact tracked_frame ttl (by simp [sinceStep, Ne.symm hq]) ih'
    | request q' t =>
      by_cases hq : q = q'
      · subst hq
        rw [slot_request_same]
        exact tracked_request ih' fun now hm => expire_le_time h rfl hm
      · rw [slot_request_of_ne _ _ hq]
        exact tracked_frame ttl (by simp [sinceStep, Ne.symm hq]) ih'

/-- A stable reply measures what it would measure without expirations. -/
private theorem measure_of_stableAt (hle : ttl ≤ window) {base es : List (Event κ)} {q : κ} {r : Nat}
    (h : Insertion Event.isExpire Event.time base (es ++ [.reply q r])) (hsorted : base.Pairwise (·.time ≤ ·.time))
    (hstable : StableAt ttl window (since q es) r) :
    measure window ((run ttl window es).slot q) r = inTime ttl (since q es) r := by
  have htr := tracked_run ttl window h.initial q
  have hlast : ∀ l ∈ (since q es).getLast?, ∀ v ∈ since q es, v ≤ l := by
    intro l hl v hv
    rw [← since_filter] at hl hv
    apply le_getLast_since ?_ hl hv
    rw [← h.rest, List.filter_append] at hsorted
    exact (List.pairwise_append.1 hsorted).1
  unfold Tracked at htr
  unfold inTime
  cases hs : since q es with
  | nil => rw [hs] at htr; rw [htr]; rfl
  | cons s rest =>
    rw [hs] at htr hlast hstable
    obtain ⟨l, hl⟩ : ∃ l, (s :: rest).getLast? = some l := ⟨_, List.getLast?_cons⟩
    have hsl := hlast l hl s (by simp)
    have hst := hstable s rfl l hl
    rcases htr with htr | ⟨now, hm, h1, h2⟩
    · -- the first request is still there
      rw [htr]
      simp only [measure, List.head?_cons]
      by_cases hr : r ≤ s + ttl
      · rw [if_pos (by omega), if_pos hr]
      · rw [if_neg (by omega), if_neg hr]
    · -- it has expired: nothing is measured from it, nor from a later request, which is out of the window
      have hnow : now ≤ r := expire_le_time h rfl hm
      have hno : measure ttl (List.head? (s :: rest)) r = [] := if_neg (by omega)
      rw [hno]
      cases ho : (run ttl window es).slot q with
      | none => rfl
      | some v =>
        obtain ⟨hv, hsv⟩ := h2 v ho
        have hvl := hlast l hl v (by simp [hv])
        exact if_neg (by omega)

/-- Every schedule of stable traffic measures the replies that come in time, and nothing else. -/
theorem samples_of_insertion (hle : ttl ≤ window) {base es : List (Event κ)}
    (h : Insertion Event.isExpire Event.time base es) (hsorted : base.Pairwise (·.time ≤ ·.time))
    (hstable : Stable ttl window base) : (run ttl window es).samples = inTimeSamples ttl base := by
  induction es using List.reverseRecOn generalizing base with
  | nil => rw [← h.rest]; rfl
  | append_singleton es e ih =>
    have hb := h.rest
    rw [List.filter_append] at hb
    have hsorted' : (es.filter fun a => !a.isExpire).Pairwise (·.time ≤ ·.time) := by
      rw [← hb, List.pairwise_append] at hsorted
      exact hsorted.1
    have hstable' : Stable ttl window (es.filter fun a => !a.isExpire) := by
      intro pre q r post hsp
      exact hstable pre q r (post ++ List.filter (fun a => !a.isExpire) [e]) (by rw [← hb, hsp]; simp)
    have ih' := ih h.initial hsorted' hstable'
    rw [run_concat]
    cases e with
    | expire now =>
      have hb' : es.filter (fun a => !a.isExpire) = base := by simpa using hb
      rw [← hb']; exact ih'
    | request q s =>
      have hb' : es.filter (fun a => !a.isExpire) ++ [.request q s] = base := by simpa using hb
      rw [← hb', inTimeSamples_concat, List.append_nil]; exact ih'
    | reply q r =>
      have hb' : es.filter (fun a => !a.isExpire) ++ [.reply q r] = base := by simpa using hb
      have hst : StableAt ttl window (since q es) r := by
        rw [← since_filter]; exact hstable _ q r [] hb'.symm
      have hm := measure_of_stableAt hle h hsorted hst
      rw [← hb', inTimeSamples_concat, ← ih']
      show _ ++ measure window ((run ttl window es).slot q) r = _
      dsimp only
      rw [hm, since_filter]

/-! ### Traffic that is not stable -/

/-- An expiration at the time of an event. -/
def tick (e : Event κ) : Event κ := .expire e.time

private theorem slot_eq_head {base : List (Event κ)} (hbase : ∀ e ∈ base, e.isExpire = false) (q : κ) :
    (run ttl window base).slot q = (since q base).head? := by
  induction base using List.reverseRecOn with
  | nil => rfl
  | append_singleton es e ih =>
    have ih' := ih fun e' he' => hbase e' (by simp [he'])
    rw [run_concat, since_concat]
    cases e with
    | expire now => have := hbase (.expire now) (by simp); cases this
    | request q' s =>
      by_cases hq : q = q'
      · subst hq
        rw [slot_request_same, ih']
        simp only [sinceStep, ↓reduceIte]
        cases since q es <;> rfl
      · rw [slot_request_of_ne _ _ hq, ih']
        simp [sinceStep, Ne.symm hq]
    | reply q' r =>
      by_cases hq : q = q'
      · subst hq
        rw [slot_reply_same]
        simp [sinceStep]
      · rw [slot_reply_of_ne _ _ hq, ih']
        simp [sinceStep, Ne.symm hq]

private theorem samples_grow (st : State κ) (es : List (Event κ)) :
    st.samples <+: (Run.runFrom (step ttl window) st es).samples := by
  induction es generalizing st with
  | nil => exact List.prefix_rfl
  | cons e es ih =>
    refine List.IsPrefix.trans ?_ (ih (step ttl window st e))
    cases e with
    | request q s => exact List.prefix_rfl
    | expire now => exact List.prefix_rfl
    | reply q r => exact List.prefix_append _ _

variable (ttl window) in
/-- Expiring before every event leaves no sample above `ttl`. -/
theorem samples_eager_le (base : List (Event κ)) : ∀ x ∈ (run ttl window (eager tick base)).samples, x ≤ ttl := by
  induction base using List.reverseRecOn with
  | nil => simp [empty]
  | append_singleton es e ih =>
    rw [eager_concat, run_append]
    cases e with
    | request q s => exact ih
    | expire now => exact ih
    | reply q r =>
      intro x hx
      have hx' : x ∈ (run ttl window (eager tick es)).samples ++
          measure window (((run ttl window (eager tick es)).slot q).filter fun s => r ≤ s + ttl) r := hx
      rcases List.mem_append.1 hx' with hx' | hx'
      · exact ih x hx'
      · cases hs : ((run ttl window (eager tick es)).slot q).filter fun s => r ≤ s + ttl with
        | none => rw [hs] at hx'; cases hx'
        | some s =>
          rw [hs] at hx'
          have hle : r ≤ s + ttl := by simpa using (Option.filter_eq_some_iff.1 hs).2
          unfold measure at hx'
          dsimp only at hx'
          split at hx'
          · rw [List.mem_singleton] at hx'; omega
          · cases hx'

/-- A reply that is late but still within the window tells the eager schedule from the one without expirations. -/
private theorem samples_of_late {pre post : List (Event κ)} {q : κ} {r s : Nat}
    (hpre : ∀ e ∈ pre, e.isExpire = false) (hs : (since q pre).head? = some s) (h1 : s + ttl < r)
    (h2 : r ≤ s + window) :
    (run ttl window (eager tick (pre ++ .reply q r :: post))).samples ≠
      (run ttl window (pre ++ .reply q r :: post)).samples := by
  intro he
  have hle := samples_eager_le ttl window (pre ++ .reply q r :: post) (r - s)
  rw [he, run_append, Run.runFrom_cons] at hle
  have hm : r - s ∈ (step ttl window (run ttl window pre) (.reply q r)).samples := by
    show r - s ∈ _ ++ measure window ((run ttl window pre).slot q) r
    rw [slot_eq_head hpre, hs]
    simp [measure, h2]
  have := hle ((samples_grow _ post).subset hm)
  omega

/-- `e` has the requests of `n`, apart from some that were `ttl` old at `l`, and at least `d` more samples. -/
def Ahead (ttl l d : Nat) (n e : State κ) : Prop :=
  (∀ q, e.slot q = n.slot q ∨ ∃ s, n.slot q = some s ∧ s + ttl < l) ∧ n.samples.length + d ≤ e.samples.length

variable (window) in
private theorem ahead_step {l d : Nat} {n e : State κ} (a : Event κ) (h : Ahead ttl l d n e) (ha : a.isExpire = false)
    (hl : l ≤ a.time)
    (hlate : ∀ q r s, a = .reply q r → n.slot q = some s → r ≤ s + ttl ∨ s + window < r) :
    Ahead ttl l d (step ttl window n a) (step ttl window e a) := by
  obtain ⟨hslot, hlen⟩ := h
  cases a with
  | expire now => cases ha
  | request q t =>
    refine ⟨fun q' => ?_, hlen⟩
    by_cases hq : q' = q
    · subst hq
      rw [slot_request_same, slot_request_same]
      rcases hslot q' with h | ⟨s, hs, hsl⟩
      · left; rw [h]
      · right; exact ⟨s, by rw [hs]; rfl, hsl⟩
    · rw [slot_request_of_ne _ _ hq, slot_request_of_ne _ _ hq]
      exact hslot q'
  | reply q r =>
    refine ⟨fun q' => ?_, ?_⟩
    · by_cases hq : q' = q
      · subst hq
        left
        rw [slot_reply_same, slot_reply_same]
      · rw [slot_reply_of_ne _ _ hq, slot_reply_of_ne _ _ hq]
        exact hslot q'
    · show (n.samples ++ measure window (n.slot q) r).length + d ≤ (e.samples ++ measure window (e.slot q) r).length
      rw [List.length_append, List.length_append]
      rcases hslot q with h | ⟨s, hs, hsl⟩
      · rw [h]; omega
      · have hl' : l ≤ r := hl
        have hw := hlate q r s rfl hs
        have hm : measure window (n.slot q) r = [] := by rw [hs]; exact if_neg (by omega)
        rw [hm, List.length_nil]
        omega

variable (window) in
/-- An expiration closes only requests that are `ttl` old. -/
private theorem ahead_expire (l : Nat) (n : State κ) : Ahead ttl l 0 n (step ttl window n (.expire l)) := by
  refine ⟨fun q => ?_, Nat.le_refl _⟩
  show (n.slot q).filter (fun s => decide (l ≤ s + ttl)) = _ ∨ _
  cases hq : n.slot q with
  | none => left; rfl
  | some u =>
    by_cases hu : l ≤ u + ttl
    · left; simp [hu]
    · right; exact ⟨u, rfl, by omega⟩

/-- A reply in the window of the request of `e`, but out of the window of that of `n`. -/
private theorem ahead_reply {l d : Nat} {n e : State κ} {q : κ} {s r : Nat} (h : Ahead ttl l d n e)
    (hn : n.slot q = some s) (he : e.slot q = some l) (hl : l ≤ r) (hw : s + window < r) (hr : r ≤ l + window) :
    Ahead ttl l (d + 1) (step ttl window n (.reply q r)) (step ttl window e (.reply q r)) := by
  have hslot := ahead_step window (.reply q r) h rfl hl (by
    rintro q' r' s' hev hs'
    cases hev
    rw [hn] at hs'
    cases hs'
    exact Or.inr hw)
  refine ⟨hslot.1, ?_⟩
  show (n.samples ++ measure window (n.slot q) r).length + (d + 1) ≤ (e.samples ++ measure window (e.slot q) r).length
  have hm : measure window (some s) r = [] := if_neg (by omega)
  have hm' : measure window (some l) r = [r - l] := if_pos hr
  rw [hn, he, hm, hm', List.length_append, List.length_append]
  have hlen := h.2
  simp only [List.length_nil, List.length_cons]
  omega

private theorem ahead_run {l d : Nat} {pre : List (Event κ)} (post : List (Event κ)) {e : State κ}
    (h : Ahead ttl l d (run ttl window pre) e) (hbase : ∀ a ∈ pre ++ post, a.isExpire = false)
    (hl : ∀ a ∈ post, l ≤ a.time)
    (hlate : ∀ p q r p' s, pre ++ post = p ++ .reply q r :: p' → (since q p).head? = some s →
      r ≤ s + ttl ∨ s + window < r) :
    Ahead ttl l d (run ttl window (pre ++ post)) (Run.runFrom (step ttl window) e post) := by
  induction post generalizing pre e with
  | nil => rw [List.append_nil]; exact h
  | cons a post ih =>
    have hpre : ∀ b ∈ pre, b.isExpire = false := fun b hb => hbase b (by simp [hb])
    have h' : Ahead ttl l d (run ttl window (pre ++ [a])) (step ttl window e a) := by
      rw [run_concat]
      refine ahead_step window a h (hbase a (by simp)) (hl a (by simp)) ?_
      rintro q r s rfl hs
      rw [slot_eq_head hpre] at hs
      exact hlate pre q r post s rfl hs
    have := ih h' (by simpa using hbase) (fun b hb => hl b (by simp [hb])) (by simpa using hlate)
    rwa [List.append_assoc, List.singleton_append] at this

variable (ttl window) in
private theorem slot_kept {l : Nat} {q : κ} {st : State κ} (es : List (Event κ)) (h : st.slot q = some l)
    (hexp : ∀ e ∈ es, e.isExpire = false) (hrep : ∀ r, .reply q r ∉ es) :
    (Run.runFrom (step ttl window) st es).slot q = some l := by
  induction es generalizing st with
  | nil => exact h
  | cons e es ih =>
    refine ih ?_ (fun e' he' => hexp e' (by simp [he'])) (fun r hr => hrep r (by simp [hr]))
    cases e with
    | expire now => have := hexp (.expire now) (by simp); cases this
    | request q' s =>
      by_cases hq : q = q'
      · subst hq; rw [slot_request_same, h]; rfl
      · rw [slot_request_of_ne _ _ hq, h]
    | reply q' r =>
      have hq : q ≠ q' := by rintro rfl; exact hrep r (by simp)
      rw [slot_reply_of_ne _ _ hq, h]

/-- A request since the last reply, where it was made. -/
private theorem mem_since_split {q : κ} {l : Nat} {es : List (Event κ)} (h : l ∈ since q es) :
    ∃ a b t, es = a ++ .request q l :: b ∧ (∀ r, .reply q r ∉ b) ∧ since q es = since q a ++ l :: t := by
  induction es using List.reverseRecOn with
  | nil => cases h
  | append_singleton es e ih =>
    rw [since_concat] at h ⊢
    have hkeep : l ∈ since q es → sinceStep q (since q es) e = since q es → (∀ r, e ≠ .reply q r) →
        ∃ a b t, es ++ [e] = a ++ .request q l :: b ∧ (∀ r, .reply q r ∉ b) ∧
          sinceStep q (since q es) e = since q a ++ l :: t := by
      intro hm he hne
      obtain ⟨a, b, t, hsp, hr, ht⟩ := ih hm
      refine ⟨a, b ++ [e], t, by rw [hsp]; simp, ?_, he.trans ht⟩
      intro r hrm
      rcases List.mem_append.1 hrm with hrm | hrm
      · exact hr r hrm
      · exact hne r (List.mem_singleton.1 hrm).symm
    cases e with
    | expire now => exact hkeep h rfl (by simp)
    | reply q' r =>
      by_cases hq : q' = q
      · subst hq; simp [sinceStep] at h
      · have he : sinceStep q (since q es) (.reply q' r) = since q es := by simp [sinceStep, hq]
        rw [he] at h
        refine hkeep h he ?_
        intro r' hr'
        cases hr'
        exact hq rfl
    | request q' s =>
      by_cases hq : q' = q
      · subst hq
        have he : sinceStep q' (since q' es) (.request q' s) = since q' es ++ [s] := by simp [sinceStep]
        rw [he] at h ⊢
        rcases List.mem_append.1 h with h | h
        · obtain ⟨a, b, t, hsp, hr, ht⟩ := ih h
          refine ⟨a, b ++ [.request q' s], t ++ [s], by rw [hsp]; simp, ?_, by rw [ht]; simp⟩
          intro r hrm
          rcases List.mem_append.1 hrm with hrm | hrm
          · exact hr r hrm
          · cases List.mem_singleton.1 hrm
        · obtain rfl := List.mem_singleton.1 h
          exact ⟨es, [], [], rfl, by simp, rfl⟩
      · have he : sinceStep q (since q es) (.request q' s) = since q es := by simp [sinceStep, hq]
        rw [he] at h
        exact hkeep h he (by simp)

/-- When the first request is out of the window but the request `l`, made after its `ttl`, is still in it, an
expiration at `l` adds a sample. -/
private theorem samples_of_gap {a b post : List (Event κ)} {q : κ} {s l r : Nat}
    (hbase : ∀ e ∈ a ++ .request q l :: (b ++ .reply q r :: post), e.isExpire = false)
    (htime : ∀ e ∈ b ++ .reply q r :: post, l ≤ e.time) (hrep : ∀ r, .reply q r ∉ b)
    (hsa : (since q a).head? = some s) (hsl : s + ttl < l) (hw : s + window < r) (hr : r ≤ l + window)
    (hlate : ∀ p q' r' p' s', a ++ .request q l :: (b ++ .reply q r :: post) = p ++ .reply q' r' :: p' →
      (since q' p).head? = some s' → r' ≤ s' + ttl ∨ s' + window < r') :
    (run ttl window (a ++ tick (.request q l) :: .request q l :: (b ++ .reply q r :: post))).samples ≠
      (run ttl window (a ++ .request q l :: (b ++ .reply q r :: post))).samples := by
  have hA : ∀ e ∈ a, e.isExpire = false := fun e he => hbase e (by simp [he])
  have hB : ∀ e ∈ b, e.isExpire = false := fun e he => hbase e (by simp [he])
  have hslot : (run ttl window a).slot q = some s := by rw [slot_eq_head hA, hsa]
  -- the expiration at `l` empties the slot of `q`, and the request `l` takes it
  have h1 : Ahead ttl l 0 (run ttl window (a ++ [.request q l]))
      (step ttl window (step ttl window (run ttl window a) (.expire l)) (.request q l)) := by
    rw [run_concat]
    exact ahead_step window (.request q l) (ahead_expire window l _) rfl (Nat.le_refl l) fun _ _ _ he => by cases he
  have hl : (step ttl window (step ttl window (run ttl window a) (.expire l)) (.request q l)).slot q = some l := by
    have hnone : (step ttl window (run ttl window a) (.expire l)).slot q = none := by
      show ((run ttl window a).slot q).filter (fun s => decide (l ≤ s + ttl)) = none
      rw [hslot]
      simp [hsl]
    rw [slot_request_same, hnone]
    rfl
  have h2 := ahead_run b h1 (fun e he => hbase e (by simp at he ⊢; tauto))
    (fun e he => htime e (by simp [he])) (fun p q' r' p' s' hp =>
      hlate p q' r' (p' ++ .reply q r :: post) s' (by
        have := congrArg (· ++ .reply q r :: post) hp
        simpa using this))
  rw [List.append_assoc, List.singleton_append] at h2
  -- at the reply one schedule still has `s`, out of its window, and the other has `l`
  have hn : (run ttl window (a ++ .request q l :: b)).slot q = some s := by
    rw [run_append]
    exact slot_kept ttl window (.request q l :: b) hslot (fun e he => hbase e (by simp at he ⊢; tauto))
      (fun r' hr' => hrep r' (by simpa using hr'))
  have hlr : l ≤ r := htime (.reply q r) (by simp)
  have h3 := ahead_reply h2 hn (slot_kept ttl window b hl hB hrep) hlr hw hr
  rw [← run_concat, ← Run.runFrom_concat (step ttl window)] at h3
  have h4 := ahead_run post h3 (fun e he => hbase e (by simpa using he))
    (fun e he => htime e (by simp [he])) (fun p q' r' p' s' hp => hlate p q' r' p' s' (by simpa using hp))
  have hlen := h4.2
  rw [← Run.runFrom_append, ← Run.runFrom_cons (step ttl window) _ (.request q l),
    ← Run.runFrom_cons (step ttl window) _ (.expire l), ← run_append] at hlen
  intro heq
  have heq' := congrArg List.length heq
  simp only [List.append_assoc, List.cons_append, List.nil_append, tick, Event.time] at hlen heq'
  omega

/-- In sorted traffic that is not stable, the schedule without expirations disagrees with the eager one or with one
that expires once. -/
theorem samples_of_not_stable {base : List (Event κ)} (hbase : ∀ e ∈ base, e.isExpire = false)
    (hsorted : base.Pairwise (·.time ≤ ·.time)) (h : ¬ Stable ttl window base) :
    (run ttl window (eager tick base)).samples ≠ (run ttl window base).samples ∨
      ∃ pre e post, base = pre ++ e :: post ∧
        (run ttl window (pre ++ tick e :: e :: post)).samples ≠ (run ttl window base).samples := by
  -- is some reply late for the first request, but within the window?
  by_cases hlate : ∀ p q r p' s, base = p ++ .reply q r :: p' → (since q p).head? = some s →
      r ≤ s + ttl ∨ s + window < r
  · right
    unfold Stable StableAt at h
    push Not at h
    obtain ⟨pre, q, r, post, hsp, s, hs, l, hl, h1, h2, h3⟩ := h
    have hw : s + window < r := by
      have := hlate pre q r post s hsp hs
      omega
    have hsl : ¬ l ≤ s + ttl := by
      have := h3 hw
      omega
    obtain ⟨a, b, t, rfl, hrep, ht⟩ := mem_since_split (List.mem_of_getLast? hl)
    have hsa : (since q a).head? = some s := by
      cases ha : since q a with
      | nil =>
        rw [ht, ha] at hs
        obtain rfl : l = s := by simpa using hs
        omega
      | cons x xs => rw [ht, ha] at hs; exact hs
    rw [List.append_assoc, List.cons_append] at hsp
    subst hsp
    have htime : ∀ e ∈ b ++ .reply q r :: post, l ≤ e.time := by
      rw [List.pairwise_append, List.pairwise_cons] at hsorted
      exact hsorted.2.1.1
    exact ⟨a, .request q l, b ++ .reply q r :: post, rfl,
      samples_of_gap hbase htime hrep hsa (by omega) hw (by omega) hlate⟩
  · left
    push Not at hlate
    obtain ⟨p, q, r, p', s, rfl, hs, h1, h2⟩ := hlate
    exact samples_of_late (fun e he => hbase e (by simp [he])) hs (by omega) (by omega)

end

end Tracker

import Mathlib.Data.Multiset.AddSub
import Mathlib.Data.Multiset.UnionInter

/-!
# Acquiring and releasing resources

A pool hands out resources under fresh numbers and takes them back.  `live` are the resources handed out and not yet
taken back; a release of something that is not live is a fault.  A pool is `Sound` when the live resources have
different numbers and there was no fault: since a number is never handed out again, each resource was then released
at most once.

Several owners can share a pool: what one of them does to its own resources it does the same way while those of the
others are live (`frame`), and its new ones meet none of theirs (`Sound.frame`).
-/

structure Pool (ρ : Type*) where
  next : Nat := 0
  live : Multiset ρ := 0
  /-- Releases of what was not live. -/
  faults : List ρ := []

namespace Pool

variable {ρ : Type*}

/-- Hand out the resource `make` makes from the next number. -/
def acquire (p : Pool ρ) (make : Nat → ρ) : Pool ρ :=
  { p with next := p.next + 1, live := make p.next ::ₘ p.live }

variable [DecidableEq ρ]

def release (p : Pool ρ) (r : ρ) : Pool ρ :=
  if r ∈ p.live then { p with live := p.live.erase r } else { p with faults := r :: p.faults }

/-- Release the resources of a list one after the other. -/
def releaseAll (p : Pool ρ) (rs : List ρ) : Pool ρ := rs.foldl release p

theorem release_of_live {p : Pool ρ} {r : ρ} {m : Multiset ρ} (h : p.live = r ::ₘ m) :
    p.release r = { p with live := m } := by
  unfold release
  rw [h, if_pos (Multiset.mem_cons_self r m), Multiset.erase_cons_head]

/-- Live resources are released without a fault, and the others stay. -/
theorem releaseAll_of_live {p : Pool ρ} {rs : List ρ} {m : Multiset ρ} (h : p.live = rs + m) :
    p.releaseAll rs = { p with live := m } := by
  induction rs generalizing p with
  | nil =>
    have hm : p.live = m := by simpa using h
    rw [← hm]
    rfl
  | cons r rs ih =>
    have hr : p.live = r ::ₘ (rs + m) := by rw [h, ← Multiset.cons_coe, Multiset.cons_add]
    have ih' := ih (p := { p with live := rs + m }) rfl
    show (p.release r).releaseAll rs = _
    rw [release_of_live hr, ih']

/-- The live resources have different numbers below `next`, and nothing was released that was not live. -/
structure Sound (number : ρ → Nat) (p : Pool ρ) : Prop where
  nodup : (p.live.map number).Nodup
  fresh : ∀ r ∈ p.live, number r < p.next
  faults : p.faults = []

variable {number : ρ → Nat}

omit [DecidableEq ρ] in
theorem Sound.acquire {p : Pool ρ} (h : p.Sound number) {make : Nat → ρ} (hn : number (make p.next) = p.next) :
    (p.acquire make).Sound number where
  nodup := by
    show ((make p.next ::ₘ p.live).map number).Nodup
    rw [Multiset.map_cons, Multiset.nodup_cons]
    refine ⟨?_, h.nodup⟩
    intro hm
    obtain ⟨r, hr, he⟩ := Multiset.mem_map.1 hm
    have := h.fresh r hr
    omega
  fresh := by
    intro r hr
    show number r < p.next + 1
    rcases Multiset.mem_cons.1 hr with rfl | hr
    · omega
    · have := h.fresh r hr
      omega
  faults := h.faults

omit [DecidableEq ρ] in
/-- Several resources acquired one after the other. -/
theorem Sound.extend {p q : Pool ρ} (h : p.Sound number) (rs : List ρ) (hlive : q.live = rs + p.live)
    (hnumbers : rs.map number = List.range' p.next rs.length) (hnext : q.next = p.next + rs.length)
    (hfaults : q.faults = p.faults) : q.Sound number where
  nodup := by
    rw [hlive, Multiset.map_add, Multiset.map_coe, hnumbers, Multiset.nodup_add]
    refine ⟨Multiset.coe_nodup.2 List.nodup_range', h.nodup, ?_⟩
    rw [Multiset.disjoint_left]
    intro n hn hm
    obtain ⟨r, hr, he⟩ := Multiset.mem_map.1 hm
    have hge := (List.mem_range'_1.1 (Multiset.mem_coe.1 hn)).1
    have hlt := h.fresh r hr
    omega
  fresh := by
    intro r hr
    rw [hnext]
    rw [hlive] at hr
    rcases Multiset.mem_add.1 hr with hr | hr
    · have hm : number r ∈ rs.map number := List.mem_map_of_mem (Multiset.mem_coe.1 hr)
      rw [hnumbers] at hm
      exact (List.mem_range'_1.1 hm).2
    · have hlt := h.fresh r hr
      omega
  faults := hfaults.trans h.faults

omit [DecidableEq ρ] in
/-- Taking some of the live resources back keeps the rest sound. -/
theorem Sound.of_le {p q : Pool ρ} (h : p.Sound number) (hle : q.live ≤ p.live) (hnext : q.next = p.next)
    (hfaults : q.faults = p.faults) : q.Sound number where
  nodup := Multiset.nodup_of_le (Multiset.map_le_map hle) h.nodup
  fresh := by
    intro r hr
    rw [hnext]
    exact h.fresh r (Multiset.mem_of_le hle hr)
  faults := hfaults.trans h.faults

/-! ### Sharing a pool -/

/-- The pool while the resources of others are live as well. -/
def frame (rest : Multiset ρ) (p : Pool ρ) : Pool ρ := { p with live := p.live + rest }

section

variable (rest : Multiset ρ) (p : Pool ρ)

omit [DecidableEq ρ] in
theorem acquire_frame (make : Nat → ρ) : (p.frame rest).acquire make = (p.acquire make).frame rest := by
  unfold acquire frame
  rw [Multiset.cons_add]

variable {p}

theorem release_frame {r : ρ} {m : Multiset ρ} (h : p.live = r ::ₘ m) :
    (p.frame rest).release r = (p.release r).frame rest := by
  have hrest : (p.frame rest).live = r ::ₘ (m + rest) := by
    show p.live + rest = _
    rw [h, Multiset.cons_add]
  rw [release_of_live hrest, release_of_live h]
  rfl

theorem releaseAll_frame {rs : List ρ} {m : Multiset ρ} (h : p.live = rs + m) :
    (p.frame rest).releaseAll rs = (p.releaseAll rs).frame rest := by
  have hrest : (p.frame rest).live = rs + (m + rest) := by
    show p.live + rest = _
    rw [h, Multiset.add_assoc]
  rw [releaseAll_of_live hrest, releaseAll_of_live h]
  rfl

end

/-- What is live was so before, or was acquired since. -/
structure Later (number : ρ → Nat) (p q : Pool ρ) : Prop where
  next : p.next ≤ q.next
  live : ∀ r ∈ q.live, r ∈ p.live ∨ p.next ≤ number r

omit [DecidableEq ρ] in
theorem Later.refl (p : Pool ρ) : Later number p p := ⟨Nat.le_refl _, fun _ h => .inl h⟩

omit [DecidableEq ρ] in
theorem Later.trans {p q q' : Pool ρ} (h : Later number p q) (h' : Later number q q') : Later number p q' where
  next := Nat.le_trans h.next h'.next
  live := by
    intro r hr
    rcases h'.live r hr with hr | hr
    · exact h.live r hr
    · exact .inr (Nat.le_trans h.next hr)

omit [DecidableEq ρ] in
theorem later_acquire (p : Pool ρ) {make : Nat → ρ} (hn : number (make p.next) = p.next) :
    Later number p (p.acquire make) where
  next := Nat.le_succ _
  live := by
    intro r hr
    rcases Multiset.mem_cons.1 hr with rfl | hr
    · exact .inr (Nat.le_of_eq hn.symm)
    · exact .inl hr

theorem later_release (p : Pool ρ) (r : ρ) : Later number p (p.release r) := by
  unfold release
  split
  · exact ⟨Nat.le_refl _, fun _ h => .inl (Multiset.mem_of_mem_erase h)⟩
  · exact ⟨Nat.le_refl _, fun _ h => .inl h⟩

theorem later_releaseAll (p : Pool ρ) (rs : List ρ) : Later number p (p.releaseAll rs) := by
  induction rs generalizing p with
  | nil => exact .refl p
  | cons r rs ih => exact (p.later_release r).trans (ih _)

omit [DecidableEq ρ] in
/-- What one owner acquires has numbers that nothing of the others has. -/
theorem Sound.frame {p q : Pool ρ} {rest : Multiset ρ} (h : (p.frame rest).Sound number) (hq : q.Sound number)
    (hlater : Later number p q) : (q.frame rest).Sound number := by
  have hnodup := h.nodup
  rw [show (p.frame rest).live = p.live + rest from rfl, Multiset.map_add, Multiset.nodup_add] at hnodup
  obtain ⟨-, hrest, hapart⟩ := hnodup
  refine ⟨?_, ?_, hq.faults⟩
  · show ((q.live + rest).map number).Nodup
    rw [Multiset.map_add, Multiset.nodup_add]
    refine ⟨hq.nodup, hrest, ?_⟩
    rw [Multiset.disjoint_left] at hapart ⊢
    intro n hn hm
    obtain ⟨r, hr, rfl⟩ := Multiset.mem_map.1 hn
    rcases hlater.live r hr with hr | hr
    · exact hapart (Multiset.mem_map_of_mem number hr) hm
    · obtain ⟨t, ht, he⟩ := Multiset.mem_map.1 hm
      have hlt : number t < p.next := h.fresh t (Multiset.mem_add.2 (.inr ht))
      omega
  · intro r hr
    show number r < q.next
    rcases Multiset.mem_add.1 hr with hr | hr
    · exact hq.fresh r hr
    · have hlt : number r < p.next := h.fresh r (Multiset.mem_add.2 (.inr hr))
      have hle := hlater.next
      omega

end Pool

import VsomeipCollector.Collector

/-!
# Who owns the resources of libbpf

Along every run of calls on a collector, the live resources are those in `obj_`, `links_` and `ringbuf_` and the BPF
objects that an `init` has overwritten (`Inv`).  Where `init` is called only while `obj_` is null nothing is ever
overwritten, so the live resources are exactly those held, and after `destroy` there are none
(`resources_owned`).
-/

namespace VsomeipCollector

open Run Collector

/-- The BPF object that a collector holds. -/
def Collector.heldObject (c : Collector) : Multiset Resource := (c.obj.map Resource.object).toList

/-- The resources in the fields of a collector. -/
def Collector.held (c : Collector) : Multiset Resource :=
  (c.links.map Resource.link : Multiset Resource) + ((c.ringbuf.map Resource.ringbuf).toList + c.heldObject)

/-- What holds after any calls; `lost` are the BPF objects that `init` has overwritten. -/
structure Inv (lost : Multiset Nat) (s : Sys) : Prop where
  live : s.lib.live = s.c.held + lost.map Resource.object
  sound : s.lib.Sound Resource.number
  owner : ∀ r ∈ s.lib.live, ∀ o ∈ r.owner, .object o ∈ s.lib.live
  attached : s.c.attached = s.c.ringbuf.isSome
  fd_none : s.c.ringbuf = none → s.c.ringbufFd = -1
  fd_some : s.c.ringbuf ≠ none → 0 ≤ s.c.ringbufFd

/-- The object that is held is live. -/
private theorem Inv.object_live {lost : Multiset Nat} {s : Sys} (h : Inv lost s) {o : Nat} (ho : s.c.obj = some o) :
    .object o ∈ s.lib.live := by
  rw [h.live]
  simp [Collector.held, Collector.heldObject, ho]

/-! ### `detach` and `destroy` -/

/-- After `detach` links and ring buffer are gone, from the collector and from the library. -/
theorem detach_eq {lost : Multiset Nat} {s : Sys} (h : Inv lost s) :
    detach s =
      { c := { obj := s.c.obj }
        lib := { s.lib with live := s.c.heldObject + lost.map Resource.object } } := by
  obtain ⟨⟨obj, ringbuf, fd, attached, links⟩, lib⟩ := s
  have hlive := h.live
  simp only [Collector.held, Multiset.add_assoc] at hlive
  have hrel := Pool.releaseAll_of_live hlive
  unfold detach
  dsimp only
  rw [hrel]
  cases ringbuf with
  | none =>
    have hfd : fd = -1 := h.fd_none rfl
    simp [hfd, Collector.heldObject]
  | some r =>
    dsimp only
    rw [Pool.release_of_live (m := Collector.heldObject ⟨obj, none, -1, false, []⟩ + lost.map Resource.object)
      (by simp [Collector.heldObject])]
    rfl

private theorem mem_heldObject {c : Collector} {lost : Multiset Nat} {r : Resource}
    (h : r ∈ c.heldObject + lost.map Resource.object) : ∃ n, r = .object n := by
  rcases Multiset.mem_add.1 h with h | h
  · obtain ⟨n, -, rfl⟩ := Option.map_eq_some_iff.1 (Option.mem_toList.1 (Multiset.mem_coe.1 h))
    exact ⟨n, rfl⟩
  · obtain ⟨n, -, rfl⟩ := Multiset.mem_map.1 h
    exact ⟨n, rfl⟩

private theorem Inv.detach {lost : Multiset Nat} {s : Sys} (h : Inv lost s) : Inv lost (detach s) := by
  have hle : s.c.heldObject + lost.map Resource.object ≤ s.lib.live := by
    rw [h.live, Collector.held, Multiset.add_assoc, Multiset.add_assoc]
    exact (Multiset.le_add_left _ _).trans (Multiset.le_add_left _ _)
  rw [detach_eq h]
  refine ⟨by simp [Collector.held, Collector.heldObject], h.sound.of_le hle rfl rfl, ?_, rfl, fun _ => rfl,
    fun hr => absurd rfl hr⟩
  intro r hr o ho
  obtain ⟨n, rfl⟩ := mem_heldObject hr
  cases ho

/-- After `destroy` only overwritten objects are live. -/
theorem destroy_eq {lost : Multiset Nat} {s : Sys} (h : Inv lost s) :
    destroy s = { c := {}, lib := { s.lib with live := lost.map Resource.object } } := by
  unfold destroy
  rw [detach_eq h]
  cases ho : s.c.obj with
  | none => simp [Collector.heldObject, ho]
  | some o =>
    dsimp only
    rw [Pool.release_of_live (m := lost.map Resource.object) (by simp [Collector.heldObject, ho])]

/-- The object that an `init` overwrites. -/
def overwritten (s : Sys) : CollectorOp → Multiset Nat
  | .init _ => s.c.obj.toList
  | _ => 0

private theorem Inv.destroy {lost : Multiset Nat} {s : Sys} (h : Inv lost s) : Inv lost (destroy s) := by
  have hle : lost.map Resource.object ≤ s.lib.live := by
    rw [h.live]
    exact Multiset.le_add_left _ _
  rw [destroy_eq h]
  refine ⟨by simp [Collector.held, Collector.heldObject], h.sound.of_le hle rfl rfl, ?_, rfl, fun _ => rfl,
    fun hr => absurd rfl hr⟩
  intro r hr o ho
  obtain ⟨n, -, rfl⟩ := Multiset.mem_map.1 hr
  cases ho

/-! ### `init` -/

/-- Dropping the pointer to the BPF object turns it into a lost one. -/
private theorem held_drop (c : Collector) (lost : Multiset Nat) :
    c.held + lost.map Resource.object =
      ({ c with obj := none } : Collector).held + (lost + (c.obj.toList : Multiset Nat)).map Resource.object := by
  unfold Collector.held Collector.heldObject
  cases c.obj with
  | none => simp
  | some o =>
    simp only [Option.map_some, Option.toList_some, Option.map_none, Option.toList_none, Multiset.coe_singleton,
      Multiset.coe_nil, Multiset.map_add, Multiset.map_singleton, Multiset.add_zero, Multiset.add_assoc]
    rw [Multiset.add_comm {Resource.object o}]

private theorem Inv.init {lost : Multiset Nat} {s : Sys} (h : Inv lost s) (env : InitEnv) :
    Inv (lost + (s.c.obj.toList : Multiset Nat)) (init env s).2 := by
  obtain ⟨c, lib⟩ := s
  have hdrop : lib.live = _ := h.live.trans (held_drop c lost)
  have hsound : (lib.acquire .object).Sound Resource.number := h.sound.acquire rfl
  unfold Collector.init
  by_cases ho : env.openMem = true
  · rw [if_pos ho]
    by_cases hl : env.load = true
    · -- the new object is held; the one held before, if any, is lost
      dsimp only
      rw [if_pos hl]
      refine ⟨?_, hsound, ?_, h.attached, h.fd_none, h.fd_some⟩
      · show Resource.object lib.next ::ₘ lib.live = _
        rw [hdrop]
        unfold Collector.held Collector.heldObject
        simp only [Option.map_some, Option.toList_some, Option.map_none, Option.toList_none, Multiset.coe_singleton,
          Multiset.coe_nil, Multiset.add_zero]
        rw [← Multiset.singleton_add]
        simp only [← Multiset.add_assoc]
        rw [Multiset.add_comm {_}, Multiset.add_assoc _ {_}, Multiset.add_comm {_}]
        simp only [Multiset.add_assoc]
      · intro r hr o hro
        show Resource.object o ∈ Resource.object lib.next ::ₘ lib.live
        rcases Multiset.mem_cons.1 hr with rfl | hr
        · cases hro
        · exact Multiset.mem_cons_of_mem (h.owner r hr o hro)
    · -- the new object is closed again
      dsimp only
      rw [if_neg hl]
      have hrel : (lib.acquire .object).release (.object lib.next) = { lib with next := lib.next + 1 } :=
        Pool.release_of_live rfl
      rw [hrel]
      refine ⟨hdrop, ?_, h.owner, h.attached, h.fd_none, h.fd_some⟩
      rw [← hrel]
      refine hsound.of_le ?_ (by rw [hrel]; rfl) (by rw [hrel]; rfl)
      rw [hrel]
      exact Multiset.le_cons_self _ _
  · rw [if_neg ho]
    exact ⟨hdrop, h.sound, h.owner, h.attached, h.fd_none, h.fd_some⟩

/-- `init` touches neither links nor status. -/
theorem links_init (env : InitEnv) (s : Sys) :
    (init env s).2.c.links = s.c.links ∧ (init env s).2.c.attached = s.c.attached := by
  unfold Collector.init
  dsimp only
  split
  · split <;> exact ⟨rfl, rfl⟩
  · exact ⟨rfl, rfl⟩

/-! ### `attach` -/

variable (g : FileGroup)

/-- The loop over the hooks keeps the invariant. -/
private theorem Inv.attachHooks {lost : Multiset Nat} {s : Sys} (h : Inv lost s) (env : AttachEnv) (pid : Int)
    {o : Nat} (ho : s.c.obj = some o) (is : List Nat) : Inv lost (attachHooks g env pid o is s).2 := by
  have hown := fun l (hl : l ∈ newLinks g env pid o is s.lib.next) => (mem_newLinks g env pid o hl).1
  have hids := ids_newLinks g env pid o is s.lib.next
  rw [attachHooks_eq]
  generalize newLinks g env pid o is s.lib.next = new at hown hids
  refine ⟨?_, ?_, ?_, h.attached, h.fd_none, h.fd_some⟩
  · dsimp only
    rw [h.live]
    unfold Collector.held Collector.heldObject
    dsimp only
    rw [List.map_append, ← Multiset.coe_add]
    simp only [← Multiset.add_assoc]
    rw [Multiset.add_comm (new.map Resource.link : Multiset Resource)]
  · apply h.sound.extend (new.map Resource.link) rfl
    · rw [List.map_map, List.length_map]
      exact hids
    · rw [List.length_map]
    · rfl
  · intro r hr o' ho'
    show Resource.object o' ∈ (new.map Resource.link : Multiset Resource) + s.lib.live
    rcases Multiset.mem_add.1 hr with hr | hr
    · obtain ⟨l, hl, rfl⟩ := List.mem_map.1 (Multiset.mem_coe.1 hr)
      obtain rfl : l.owner = o' := Option.some.inj ho'
      rw [hown l hl]
      exact Multiset.mem_add.2 (Or.inr (h.object_live ho))
    · exact Multiset.mem_add.2 (Or.inr (h.owner r hr o' ho'))

/-- A new ring buffer on the object that is held. -/
private theorem Inv.newRing {lost : Multiset Nat} {s : Sys} (h : Inv lost s) {o : Nat} (ho : s.c.obj = some o)
    (hr : s.c.ringbuf = none) (map : String) (fd : Nat) :
    Inv lost
      ⟨{ s.c with ringbuf := some ⟨s.lib.next, o, map⟩, ringbufFd := fd, attached := true },
        s.lib.acquire fun n => .ringbuf ⟨n, o, map⟩⟩ := by
  have hs : (s.lib.acquire fun n => Resource.ringbuf ⟨n, o, map⟩).Sound Resource.number := h.sound.acquire rfl
  refine ⟨?_, hs, ?_, rfl, fun hn => ?_, fun _ => Int.natCast_nonneg fd⟩
  · show Resource.ringbuf ⟨s.lib.next, o, map⟩ ::ₘ s.lib.live = _
    rw [h.live]
    unfold Collector.held Collector.heldObject
    simp only [hr, Option.map_none, Option.toList_none, Option.map_some, Option.toList_some, Multiset.coe_nil,
      Multiset.coe_singleton, Multiset.zero_add, ← Multiset.singleton_add, ← Multiset.add_assoc]
    rw [Multiset.add_comm {_}]
  · intro r hm o' ho'
    show Resource.object o' ∈ Resource.ringbuf ⟨s.lib.next, o, map⟩ ::ₘ s.lib.live
    rcases Multiset.mem_cons.1 hm with rfl | hm
    · obtain rfl : o = o' := Option.some.inj ho'
      exact Multiset.mem_cons_of_mem (h.object_live ho)
    · exact Multiset.mem_cons_of_mem (h.owner r hm o' ho')
  · cases hn

/-- The state in which the loop over the hooks starts. -/
def beforeLoop (s : Sys) : Sys := if s.c.attached then detach s else s

/-- It has a BPF object if there was one, and neither links of an earlier attachment nor a ring buffer. -/
theorem inv_beforeLoop {lost : Multiset Nat} {s : Sys} (h : Inv lost s) :
    Inv lost (beforeLoop s) ∧ (beforeLoop s).c.obj = s.c.obj ∧ (beforeLoop s).c.ringbuf = none ∧
      (beforeLoop s).c.attached = false ∧
      (beforeLoop s).c.links = if s.c.attached then [] else s.c.links := by
  unfold beforeLoop
  by_cases ha : s.c.attached = true
  · rw [if_pos ha, if_pos ha]
    refine ⟨h.detach, ?_⟩
    rw [detach_eq h]
    exact ⟨rfl, rfl, rfl, rfl⟩
  · rw [if_neg ha, if_neg ha]
    have hr : s.c.ringbuf = none := by
      have := h.attached
      simpa [ha] using this.symm
    exact ⟨h, rfl, hr, by simpa using ha, rfl⟩

private theorem Inv.attach {lost : Multiset Nat} {s : Sys} (h : Inv lost s) (env : AttachEnv) (pid : Int) :
    Inv lost (attach g env pid s).2 := by
  unfold Collector.attach
  cases ho : s.c.obj with
  | none => exact h
  | some o =>
    dsimp only
    obtain ⟨hb, hobj, hring, -, -⟩ := inv_beforeLoop h
    rw [show (if s.c.attached = true then Collector.detach s else s) = beforeLoop s from rfl]
    have hl := hb.attachHooks g env pid (hobj.trans ho) (List.range g.hookCount)
    have hobj' : (Collector.attachHooks g env pid o (List.range g.hookCount) (beforeLoop s)).2.c.obj = some o := by
      rw [attachHooks_eq]
      exact hobj.trans ho
    have hring' : (Collector.attachHooks g env pid o (List.range g.hookCount) (beforeLoop s)).2.c.ringbuf = none := by
      rw [attachHooks_eq]
      exact hring
    generalize Collector.attachHooks g env pid o (List.range g.hookCount) (beforeLoop s) = r at hl hobj' hring'
    split
    · exact hl
    · split
      · -- `detach` has cleared `ringbuf_` already, so the failed creation changes nothing
        have hsame : ({ r.2.c with ringbuf := none } : Collector) = r.2.c := by
          rw [← hring']
        rw [hsame]
        exact hl
      · exact hl.newRing hobj' hring' g.ringbufMap env.epollFd

/-! ### Runs -/

/-- Every call keeps the invariant, and only an `init` over a BPF object loses one. -/
theorem Inv.step {lost : Multiset Nat} {s : Sys} (h : Inv lost s) (op : CollectorOp) :
    Inv (lost + overwritten s op) (s.step g op) := by
  cases op with
  | init env => exact h.init env
  | attach env pid =>
    rw [show overwritten s (.attach env pid) = 0 from rfl, Multiset.add_zero]
    exact h.attach g env pid
  | detach =>
    rw [show overwritten s .detach = 0 from rfl, Multiset.add_zero]
    exact h.detach
  | destroy =>
    rw [show overwritten s .destroy = 0 from rfl, Multiset.add_zero]
    exact h.destroy

theorem inv_start : Inv 0 {} :=
  ⟨rfl, ⟨Multiset.nodup_zero, by simp, rfl⟩, by simp, rfl, fun _ => rfl, fun h => absurd rfl h⟩

/-- After any calls the invariant holds, for some lost objects. -/
theorem inv_run (ops : List CollectorOp) : ∃ lost, Inv lost (Sys.run g ops) :=
  runFrom_invariant (fun s => ∃ lost, Inv lost s) (fun _ op ⟨_, h⟩ => ⟨_, h.step g op⟩) ⟨0, inv_start⟩ ops

/-- Where `init` is called only while `obj_` is null nothing is lost. -/
theorem inv_run_of_init {ops : List CollectorOp}
    (hinit : ∀ pre env post, ops = pre ++ .init env :: post → (Sys.run g pre).c.obj = none) :
    Inv 0 (Sys.run g ops) := by
  refine runFrom_guarded (Inv 0) (fun s op => overwritten s op = 0) ?_ inv_start ops ?_
  · intro s op h hov
    have := h.step g op
    rwa [hov] at this
  · intro pre op post he
    cases op with
    | init env =>
      show ((Sys.run g pre).c.obj.toList : Multiset Nat) = 0
      rw [hinit pre env post he]
      rfl
    | _ => rfl

/-- The live resources are those held, each acquired once and none released twice, none outlives its BPF object, and
the status fields agree. -/
structure Owned (s : Sys) : Prop where
  live : s.lib.live = s.c.held
  distinct : (s.lib.live.map Resource.number).Nodup
  faults : s.lib.faults = []
  owner : ∀ r ∈ s.lib.live, ∀ o ∈ r.owner, .object o ∈ s.lib.live
  attached_iff : s.c.attached = true ↔ s.c.ringbuf ≠ none
  ringbuf_iff : s.c.ringbuf ≠ none ↔ 0 ≤ s.c.ringbufFd
  attached_obj : s.c.attached = true → s.c.obj ≠ none

private theorem owned_of_inv {s : Sys} (h : Inv 0 s) : Owned s where
  live := by
    have := h.live
    rwa [Multiset.map_zero, Multiset.add_zero] at this
  distinct := h.sound.nodup
  faults := h.sound.faults
  owner := h.owner
  attached_iff := by
    rw [h.attached, Option.isSome_iff_ne_none]
  ringbuf_iff := by
    refine ⟨h.fd_some, ?_⟩
    intro hfd hr
    have := h.fd_none hr
    omega
  attached_obj := by
    intro ha ho
    rw [h.attached] at ha
    obtain ⟨rb, hrb⟩ := Option.isSome_iff_exists.1 ha
    have hlive := h.live
    rw [Multiset.map_zero, Multiset.add_zero] at hlive
    -- the ring buffer is live, so is its object, and only a held one is
    have hm : Resource.ringbuf rb ∈ s.lib.live := by
      rw [hlive]
      simp [Collector.held, hrb]
    have hobj := h.owner _ hm rb.owner rfl
    rw [hlive] at hobj
    simp [Collector.held, Collector.heldObject, ho] at hobj

/-! ### After `destroy` -/

/-- What may still happen to a collector that was destroyed: `destroy`, which is all its destructor does, and
`shutdown`, which is all the destructor of the manager does. -/
inductive Ending where
  | destroy
  | shutdown

def Manager.finish (m : Manager) : Ending → Manager
  | .destroy => { m with collectors := (destroyAll m.collectors m.lib).1, lib := (destroyAll m.collectors m.lib).2 }
  | .shutdown => m.shutdown

private theorem destroyAll_empty {cs : List Collector} (h : ∀ c ∈ cs, c = {}) (lib : Pool Resource) :
    destroyAll cs lib = (cs, lib) := by
  induction cs with
  | nil => rfl
  | cons c cs ih =>
    obtain rfl := h c (by simp)
    have ih' := ih fun c hc => h c (by simp [hc])
    show (({} : Collector) :: (destroyAll cs lib).1, (destroyAll cs lib).2) = _
    rw [ih']

private theorem finish_empty {m : Manager} (h : ∀ c ∈ m.collectors, c = {}) (e : Ending) :
    (∀ c ∈ (m.finish e).collectors, c = {}) ∧ (m.finish e).lib = m.lib := by
  cases e with
  | destroy =>
    unfold Manager.finish
    rw [destroyAll_empty h]
    exact ⟨h, rfl⟩
  | shutdown =>
    unfold Manager.finish Manager.shutdown
    rw [destroyAll_empty h]
    dsimp only
    rw [destroyAll_empty h]
    exact ⟨by simp, rfl⟩

/-- In every run that calls `init` only while `obj_` is null, the collector owns what is live at every state; and
after `destroy` nothing is live and nothing has been released twice, whatever else is destroyed or shut down. -/
theorem resources_owned (ops : List CollectorOp)
    (hinit : ∀ pre env post, ops = pre ++ .init env :: post → (Sys.run g pre).c.obj = none) :
    Owned (Sys.run g ops) ∧ ∀ ends : List Ending,
      let s := destroy (Sys.run g ops)
      (runFrom Manager.finish { collectors := [s.c], lib := s.lib } ends).lib.live = 0 ∧
        (runFrom Manager.finish { collectors := [s.c], lib := s.lib } ends).lib.faults = [] := by
  have h := inv_run_of_init g hinit
  refine ⟨owned_of_inv h, ?_⟩
  intro ends
  dsimp only
  rw [destroy_eq h]
  have hend := runFrom_invariant
    (fun m : Manager => (∀ c ∈ m.collectors, c = {}) ∧ m.lib.live = 0 ∧ m.lib.faults = [])
    (fun m e ⟨hc, hl, hf⟩ => by
      obtain ⟨h1, h2⟩ := finish_empty hc e
      exact ⟨h1, by rw [h2]; exact hl, by rw [h2]; exact hf⟩)
    (s := { collectors := [{}], lib := { (Sys.run g ops).lib with live := Multiset.map Resource.object 0 } })
    ⟨by simp, rfl, h.sound.faults⟩ ends
  exact hend.2

/-- A collector that is attached, attached again and destroyed. -/
theorem resources_owned_attached_twice :
    let g : FileGroup := ⟨"routing", "routing_events", 1, 1, [⟨"rm_send_entry", "/usr/lib/libvsomeip3.so", 64, false⟩],
      ["rm_send_entry"], "routing_event_handler"⟩
    let env : AttachEnv := ⟨fun _ _ => some ⟨"hook_rm_send_entry", "uprobe/rm_send_entry"⟩, fun _ => true, true,
      true, 5, fun _ => ⟨"", "", 0, false⟩⟩
    Owned (Sys.run g [.init ⟨true, true⟩, .attach env 7, .attach env 7]) ∧
      (Sys.run g [.init ⟨true, true⟩, .attach env 7, .attach env 7]).c.attached = true := by
  intro g env
  refine ⟨(resources_owned g _ ?_).1, rfl⟩
  intro pre env' post he
  rcases pre with _ | ⟨a, _ | ⟨b, _ | ⟨c, _ | ⟨d, pre⟩⟩⟩⟩ <;>
    simp only [List.nil_append, List.cons_append, List.cons.injEq, reduceCtorEq, false_and, and_false] at he
  rfl

end VsomeipCollector

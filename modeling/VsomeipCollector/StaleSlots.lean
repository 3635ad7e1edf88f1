import VsomeipCollector.Bpf
import VsomeipCollector.Pairing

/-!
# What a reserved slot held before

The routing programs fire, submit events, and the events are dispatched to `routing_event_handler`.  `submit_routing`
writes the fields of the message header only if the header could be read, and submits the event in either case, so a
firing that gets a slot but reads no header submits what the slot held before.  All that is observed is independent
of the old contents exactly when that never happens (`slotsHarmless_iff`).
-/

namespace VsomeipCollector

open Table Run StatsCollector

/-- The programs of `routing.bpf.c`. -/
inductive RoutingProg where
  | rmSendEntry
  | rmSendRet
  | rmSendToEntry
  | rmSendToRet
  | rmOnMessage
deriving DecidableEq, Repr

/-- One firing; `reserved` tells whether the ring buffer had room. -/
structure Firing where
  prog : RoutingProg
  ctx : PtRegs
  kernel : Kernel
  reserved : Bool

section

variable (ids : Macros)

/-- The event submitted from a slot that held `old`. -/
def Firing.submit (f : Firing) (old : RoutingEvent) : Option RoutingEvent :=
  let slot := if f.reserved then some old else none
  match f.prog with
  | .rmSendEntry => hookRmSendEntry ids f.kernel slot f.ctx
  | .rmSendRet => hookRmSendRet ids f.kernel slot f.ctx
  | .rmSendToEntry => hookRmSendToEntry ids f.kernel slot f.ctx
  | .rmSendToRet => hookRmSendToRet ids f.kernel slot f.ctx
  | .rmOnMessage => hookRmOnMessage ids f.kernel slot f.ctx

/-- The buffer and the length that the program passes on. -/
def Firing.buffer (f : Firing) : UInt64 × UInt32 :=
  match f.prog with
  | .rmSendEntry => (f.ctx.parm3, f.ctx.parm4.toUInt32)
  | .rmSendRet => (0, 0)
  | .rmSendToEntry => (f.ctx.parm3, f.ctx.parm4.toUInt32)
  | .rmSendToRet => (0, 0)
  | .rmOnMessage => (f.ctx.parm2, f.ctx.parm3.toUInt32)

/-- The program has a buffer of at least 16 bytes, and reading it succeeds; never so at a return probe. -/
def Firing.headerRead (f : Firing) : Bool := f.kernel.readable f.buffer.1 f.buffer.2

/-- The events submitted by a sequence of firings; the slot of the `i`-th firing held `slots i`. -/
def submitted : List Firing → (Nat → RoutingEvent) → List RoutingEvent
  | [], _ => []
  | f :: fs, slots => (f.submit ids (slots 0)).toList ++ submitted fs fun i => slots (i + 1)

variable (cfg : HookConfig) (w : Bool) (g : FileGroup)

/-- The open requests and samples after the submitted events were dispatched. -/
def matching (fs : List Firing) (slots : Nat → RoutingEvent) : Option (Tbl UInt64 PendingEntry × List UInt64) :=
  (deliveries cfg w ((submitted ids fs slots).map fun e => .event e (g.hookName e.hdr))).map fun s =>
    (s.stats.pending, s.stats.latency)

/-- What the old contents of the slots must not show in. -/
structure SlotsHarmless (fs : List Firing) : Prop where
  events : ∀ slots slots', submitted ids fs slots = submitted ids fs slots'
  payloads : ∀ slots slots' size, (submitted ids fs slots).map (·.formatPayload size) =
    (submitted ids fs slots').map (·.formatPayload size)
  matched : ∀ slots slots', matching ids cfg w g fs slots = matching ids cfg w g fs slots'
  /-- A firing without a header neither opens nor answers a request. -/
  unread : ∀ pre f post slots, fs = pre ++ f :: post → f.headerRead = false →
    matching ids cfg w g (pre ++ [f]) slots = matching ids cfg w g pre slots

end

/-! ### One firing -/

variable (ids : Macros)

private theorem submit_eq (f : Firing) : ∃ hookId dir isRet retval, ∀ old, f.submit ids old =
    submitRouting ids f.kernel (if f.reserved then some old else none) hookId dir isRet f.buffer.1 f.buffer.2
      retval := by
  unfold Firing.submit Firing.buffer
  cases f.prog <;> exact ⟨_, _, _, _, fun _ => rfl⟩

private theorem submit_of_not_reserved {f : Firing} (h : f.reserved = false) (old : RoutingEvent) :
    f.submit ids old = none := by
  obtain ⟨_, _, _, _, he⟩ := submit_eq ids f
  rw [he, h]
  rfl

/-- A firing that reads the header writes every field. -/
theorem submit_of_headerRead {f : Firing} (h : f.headerRead = true) (old old' : RoutingEvent) :
    f.submit ids old = f.submit ids old' := by
  obtain ⟨hookId, dir, isRet, retval, he⟩ := submit_eq ids f
  rw [he, he]
  by_cases hr : f.reserved = true
  · rw [if_pos hr, if_pos hr]
    exact submitRouting_congr ids h old old' hookId dir isRet retval
  · rw [if_neg hr, if_neg hr]

/-- A firing that gets a slot and reads no header submits the old fields. -/
theorem submit_of_not_headerRead {f : Firing} (hres : f.reserved = true) (h : f.headerRead = false)
    (old : RoutingEvent) : ∃ e, f.submit ids old = some e ∧ e.serviceId = old.serviceId := by
  obtain ⟨hookId, dir, isRet, retval, he⟩ := submit_eq ids f
  rw [he, if_pos hres, submitRouting_of_not_readable ids old h]
  exact ⟨_, rfl, rfl⟩

/-! ### Sequences of firings -/

theorem submitted_concat (fs : List Firing) (f : Firing) (slots : Nat → RoutingEvent) :
    submitted ids (fs ++ [f]) slots = submitted ids fs slots ++ (f.submit ids (slots fs.length)).toList := by
  induction fs generalizing slots with
  | nil => simp [submitted]
  | cons g fs ih =>
    simp only [List.cons_append, submitted, ih, List.append_assoc, List.length_cons]

private theorem submitted_of_headerRead {fs : List Firing} (h : ∀ f ∈ fs, f.reserved = true → f.headerRead = true)
    (slots slots' : Nat → RoutingEvent) : submitted ids fs slots = submitted ids fs slots' := by
  induction fs generalizing slots slots' with
  | nil => rfl
  | cons f fs ih =>
    have hf : f.submit ids (slots 0) = f.submit ids (slots' 0) := by
      by_cases hr : f.reserved = true
      · exact submit_of_headerRead ids (h f (by simp) hr) _ _
      · rw [submit_of_not_reserved ids (by simpa using hr), submit_of_not_reserved ids (by simpa using hr)]
    have ih' := ih (fun g hg => h g (by simp [hg])) (fun i => slots (i + 1)) (fun i => slots' (i + 1))
    simp only [submitted, hf, ih']

/-- Where the submitted events do not depend on the slots, every firing with a slot has read its header. -/
private theorem headerRead_of_submitted {fs : List Firing}
    (h : ∀ slots slots', submitted ids fs slots = submitted ids fs slots') :
    ∀ f ∈ fs, f.reserved = true → f.headerRead = true := by
  induction fs with
  | nil => simp
  | cons f fs ih =>
    intro f' hf' hres
    rcases List.mem_cons.1 hf' with rfl | hm
    · by_contra hno
      have hno' : f'.headerRead = false := by simpa using hno
      -- two slots that differ in the service alone
      have old : RoutingEvent :=
        ⟨⟨0, 0, 0, Vector.replicate 16 0, 0, 0, 0, false⟩, 0, 0, 0, 0, 0, 0, 0, 0, 0, 0⟩
      obtain ⟨e, he, hs⟩ := submit_of_not_headerRead ids hres hno' { old with serviceId := 0 }
      obtain ⟨e', he', hs'⟩ := submit_of_not_headerRead ids hres hno' { old with serviceId := 1 }
      have heq := h (fun | 0 => { old with serviceId := 0 } | _ + 1 => old)
        (fun | 0 => { old with serviceId := 1 } | _ + 1 => old)
      simp only [submitted, he, he', Option.toList_some, List.singleton_append, List.cons.injEq] at heq
      have h10 : (1 : UInt16) = 0 := by
        rw [heq.1] at hs
        exact hs'.symm.trans hs
      exact absurd h10 (by decide)
    · -- the same first slot in both runs
      refine ih ?_ f' hm hres
      intro slots slots'
      have heq := h (fun | 0 => slots 0 | i + 1 => slots i) (fun | 0 => slots 0 | i + 1 => slots' i)
      exact List.append_cancel_left heq

variable (cfg : HookConfig) (w : Bool) (g : FileGroup)

/-- The old contents of the slots show nowhere exactly when every firing that gets a slot reads its header. -/
theorem slotsHarmless_iff (fs : List Firing) :
    SlotsHarmless ids cfg w g fs ↔ ∀ f ∈ fs, f.reserved = true → f.headerRead = true := by
  constructor
  · exact fun h => headerRead_of_submitted ids h.events
  · intro h
    have hev := submitted_of_headerRead ids h
    refine ⟨hev, ?_, ?_, ?_⟩
    · intro slots slots' size
      rw [hev slots slots']
    · intro slots slots'
      unfold matching
      rw [hev slots slots']
    · rintro pre f post slots rfl hno
      have hres : f.reserved = false := by
        by_contra hr
        have := h f (by simp) (by simpa using hr)
        rw [hno] at this
        cases this
      unfold matching
      rw [submitted_concat, submit_of_not_reserved ids hres, Option.toList_none, List.append_nil]

/-- A message of eight bytes in a slot that still holds a request is recorded as that request. -/
theorem short_message_recorded :
    let ids : Macros := [("MODULE_ROUTING", 1), ("HOOK_RM_SEND_ENTRY", 0)]
    let f : Firing := ⟨.rmSendEntry, { parm3 := 0x7000, parm4 := 8 },
      ⟨0, 77, Vector.replicate 16 0, fun _ => none⟩, true⟩
    let old : RoutingEvent :=
      ⟨⟨5, 1, 1, Vector.replicate 16 0, 1, 0, 0, false⟩, 0x1234, 1, 7, 9, 1, 1, 0x00, 0, 8, 0⟩
    let g : FileGroup := ⟨"routing", "routing_events", 1, 1, [], ["rm_send_entry"], "routing_event_handler"⟩
    ¬ SlotsHarmless ids ⟨[g], 3⟩ true g [f] ∧
      (matching ids ⟨[g], 3⟩ true g [f] fun _ => old).map (fun m => m.1.lookup 0x1234000100070009) =
        some (some ⟨77⟩) := by
  intro ids f old g
  constructor
  · intro h
    have heq := h.events (fun _ => old) (fun _ => { old with serviceId := 1 })
    have hs := congrArg (List.map RoutingEvent.serviceId) heq
    revert hs
    decide
  · decide

end VsomeipCollector

import Mathlib.Data.UInt
import Mathlib.Data.UInt
import VsomeipCollector.Lines
import VsomeipCollector.Operations

/-!
# The traffic counters along a run

A report hands out the counters of a module in one line and resets them (`moduleOut`).  So what the lines of a module
have reported, together with what the counters hold now, is what was counted, modulo `2 ^ 64`
(`traffic_conserved`): an idle module and a report without log writer write nothing and reset nothing.

What a line has reported is what can be read at the end of its text.  The text is made in a buffer of 256 bytes, which
the name of a module may fill: then the line is cut and reports nothing, and the counters are reset all the same
(`cut_line_loses_counts`).
-/

namespace VsomeipCollector

open Numerals Table Run StatsCollector

/-! ### The lines of a module -/

/-- What `snprintf` leaves of a line in its buffer. -/
def LogLine.buffered (l : LogLine) : String := snprintf l.bufferSize l.text

/-- The numbers at the end of a line about a module: what it sent, and what it received. -/
def readTraffic (line : String) : Option (Nat × Nat) :=
  if line.toList.getLast? = some '\x7d' then
    (lastNumber ",\"recv\":".toList line.toList.dropLast).bind fun r =>
      (lastNumber ",\"send\":".toList r.2).map fun t => (t.1, r.1)
  else none

/-- What a line about a module says that it sent; nothing where the text was cut before. -/
def LogLine.send : LogLine → UInt64
  | modStats nm elapse send recv =>
    (readTraffic (modStats nm elapse send recv).buffered).elim 0 fun r => UInt64.ofNat r.1
  | _ => 0

/-- What a line about a module says that it received. -/
def LogLine.recv : LogLine → UInt64
  | modStats nm elapse send recv =>
    (readTraffic (modStats nm elapse send recv).buffered).elim 0 fun r => UInt64.ofNat r.2
  | _ => 0

/-- The buffer has room for the whole text of the line. -/
def LogLine.Fits (l : LogLine) : Prop := l.text.utf8ByteSize < l.bufferSize

/-- The value that the line is made of. -/
def LogLine.sendValue : LogLine → UInt64
  | modStats _ _ send _ => send
  | _ => 0

def LogLine.recvValue : LogLine → UInt64
  | modStats _ _ _ recv => recv
  | _ => 0

private theorem readTraffic_text (nm : String) (elapse send recv : UInt64) :
    readTraffic (LogLine.modStats nm elapse send recv).text = some (send.toNat, recv.toNat) := by
  have htext : ∃ front, (LogLine.modStats nm elapse send recv).text.toList =
      (front ++ ",\"send\":".toList ++ Nat.toDigits 10 send.toNat) ++ ",\"recv\":".toList ++
        Nat.toDigits 10 recv.toNat ++ ['\x7d'] := by
    refine ⟨("\x7b\"module\":\"" ++ nm ++ "\",\"elapsed\":" ++ fixed1 (scaled elapse 1000000000)).toList, ?_⟩
    unfold LogLine.text
    simp only [String.toList_append, Nat.toString_eq_repr, Nat.toList_repr]
    rfl
  obtain ⟨front, hfront⟩ := htext
  unfold readTraffic
  rw [hfront, List.getLast?_concat, if_pos rfl, List.dropLast_concat,
    lastNumber_append (c := ':') (by decide) (by decide), Option.bind_some,
    lastNumber_append (c := ':') (by decide) (by decide)]
  rfl

/-- A line that was not cut reports the values it was made of. -/
private theorem send_of_fits {l : LogLine} (h : l.Fits) : l.send = l.sendValue ∧ l.recv = l.recvValue := by
  cases l with
  | modStats nm elapse send recv =>
    have hbuffered : (LogLine.modStats nm elapse send recv).buffered = (LogLine.modStats nm elapse send recv).text :=
      snprintf_of_size_lt h
    simp only [LogLine.send, LogLine.recv, LogLine.sendValue, LogLine.recvValue, hbuffered, readTraffic_text,
      Option.elim_some, UInt64.ofNat_toNat, and_self]
  | latency | latencyStats | timeout | event => exact ⟨rfl, rfl⟩

theorem map_send_of_fits {ls : List LogLine} (h : ∀ l ∈ ls, l.Fits) :
    ls.map LogLine.send = ls.map LogLine.sendValue ∧ ls.map LogLine.recv = ls.map LogLine.recvValue :=
  ⟨List.map_congr_left fun l hl => (send_of_fits (h l hl)).1, List.map_congr_left fun l hl => (send_of_fits (h l hl)).2⟩

/-- The line reports the traffic of a module. -/
def LogLine.isModStats : LogLine → Bool
  | modStats .. => true
  | _ => false

variable (cfg : HookConfig)

/-- What an operation writes for module `m`: a report with a log writer may write a line. -/
def Session.moduleOut (m : Nat) (s : Session) : Operation → List LogLine
  | .call (.flushReport now) => if s.stats.logWriter then s.stats.moduleLines cfg now m else []
  | _ => []

/-- The lines of module `m` in all reports of a run. -/
def moduleLog (w : Bool) (m : Nat) (ops : List Operation) : List LogLine :=
  collect (lift (Session.operate cfg)) (fun o op => o.elim [] fun s => s.moduleOut cfg m op)
    (some ⟨fresh cfg w, []⟩) ops

private theorem moduleOut_of_no_report {op : Operation} (hop : ∀ now, op ≠ .call (.flushReport now)) (m : Nat)
    (s : Session) : s.moduleOut cfg m op = [] := by
  unfold Session.moduleOut
  split
  · exact absurd rfl (hop _)
  · rfl

private theorem length_moduleLines_le (s : StatsCollector) (now : UInt64) (m : Nat) :
    (s.moduleLines cfg now m).length ≤ 1 := by
  rw [moduleLines_eq]
  split
  · exact Nat.zero_le 1
  · exact Nat.le_refl 1

private theorem sum_moduleLines (s : StatsCollector) (now : UInt64) (m : Nat) :
    ((s.moduleLines cfg now m).map LogLine.sendValue).sum = s.modSend.getD m 0 ∧
      ((s.moduleLines cfg now m).map LogLine.recvValue).sum = s.modRecv.getD m 0 := by
  rw [moduleLines_eq]
  split
  · rename_i h; exact ⟨h.1.symm, h.2.symm⟩
  · simp [LogLine.sendValue, LogLine.recvValue]

/-- The lines about a module have its name. -/
theorem mem_moduleOut {s : Session} {op : Operation} {m : Nat} {l : LogLine} (hl : l ∈ s.moduleOut cfg m op) :
    ∃ elapse send recv, l = .modStats (cfg.reportName m) elapse send recv := by
  unfold Session.moduleOut at hl
  split at hl
  · split at hl
    · rw [moduleLines_eq] at hl
      split at hl
      · cases hl
      · exact ⟨_, _, _, List.mem_singleton.1 hl⟩
    · cases hl
  · cases hl

/-- The lines about a module with a name of at most 162 bytes are not cut. -/
theorem moduleOut_fits {s : Session} {op : Operation} {m : Nat} (hname : (cfg.reportName m).utf8ByteSize ≤ 162) :
    ∀ l ∈ s.moduleOut cfg m op, l.Fits := by
  intro l hl
  obtain ⟨elapse, send, recv, rfl⟩ := mem_moduleOut cfg hl
  have hsize := size_modStats (cfg.reportName m) elapse send recv
  show (LogLine.modStats (cfg.reportName m) elapse send recv).text.utf8ByteSize < 256
  omega

private theorem moduleLog_fits (w : Bool) {m : Nat} (ops : List Operation)
    (hname : (cfg.reportName m).utf8ByteSize ≤ 162) : ∀ l ∈ moduleLog cfg w m ops, l.Fits := by
  intro l hl
  obtain ⟨pre, op, post, -, hl⟩ := mem_collect hl
  cases hs : runFrom (lift (Session.operate cfg)) (some ⟨fresh cfg w, []⟩) pre with
  | none =>
    rw [hs] at hl
    cases hl
  | some s =>
    rw [hs] at hl
    exact moduleOut_fits cfg hname l hl

/-! ### One operation -/

/-- The counters of a module after an operation, with the values of what it wrote for the module, are those before with
the event, if it is one. -/
structure Balanced (m : Nat) (s s' : Session) (op : Operation) : Prop where
  send : s'.stats.modSend.getD m 0 + ((s.moduleOut cfg m op).map LogLine.sendValue).sum =
    s.stats.modSend.getD m 0 + if op.isSend m then 1 else 0
  recv : s'.stats.modRecv.getD m 0 + ((s.moduleOut cfg m op).map LogLine.recvValue).sum =
    s.stats.modRecv.getD m 0 + if op.isRecv m then 1 else 0

private theorem balanced_of_counters {m : Nat} {s s' : Session} {op : Operation}
    (h1 : s'.stats.modSend = s.stats.modSend) (h2 : s'.stats.modRecv = s.stats.modRecv)
    (hout : s.moduleOut cfg m op = []) (hs : op.isSend m = false) (hr : op.isRecv m = false) :
    Balanced cfg m s s' op := by
  constructor
  · rw [hout, hs, h1]; rfl
  · rw [hout, hr, h2]; rfl

/-- A report moves the counters into its line, and without a log writer it leaves them. -/
private theorem balanced_flushReport (s : Session) (now : UInt64) {m : Nat} (hm : 1 ≤ m ∧ m ≤ cfg.maxModuleId) :
    Balanced cfg m s (s.step cfg (.flushReport now)) (.call (.flushReport now)) := by
  cases hw : s.stats.logWriter with
  | true =>
    obtain ⟨hrep, -⟩ := flushReport_counters cfg hw now
    have hout : s.moduleOut cfg m (.call (.flushReport now)) = s.stats.moduleLines cfg now m := if_pos hw
    obtain ⟨hs, hr⟩ := sum_moduleLines cfg s.stats now m
    have h1 : (s.stats.flushReport cfg now).1.modSend.getD m 0 = 0 := by rw [hrep.send, if_pos hm]
    have h2 : (s.stats.flushReport cfg now).1.modRecv.getD m 0 = 0 := by rw [hrep.recv, if_pos hm]
    constructor
    · rw [hout, hs]
      exact (congrArg (· + _) h1).trans (add_comm ..)
    · rw [hout, hr]
      exact (congrArg (· + _) h2).trans (add_comm ..)
  | false =>
    have hout : s.moduleOut cfg m (.call (.flushReport now)) = [] := if_neg (by simp [hw])
    have hst : (s.step cfg (.flushReport now)).stats = { s.stats with lastReportNs := now } :=
      congrArg Prod.fst (flushReport_of_no_writer cfg hw now)
    constructor
    · rw [hout, hst]; rfl
    · rw [hout, hst]; rfl

theorem operate_balanced {s s' : Session} {op : Operation} (hsized : Sized cfg s.stats) (hin : op.InTable cfg)
    (h : s.operate cfg op = some s') {m : Nat} (hm : 1 ≤ m ∧ m ≤ cfg.maxModuleId) : Balanced cfg m s s' op := by
  cases op with
  | processEvent hdr hook retval latency =>
    obtain ⟨t, ht, hc⟩ := operate_processEvent cfg hsized hin hook retval latency
    obtain rfl : t = s' := Option.some.inj (ht.symm.trans h)
    have hplace := hsized.place cfg hin
    have h1 : t.stats.modSend = (s.stats.counted hdr hook retval).modSend := congrArg Counters.modSend hc
    have h2 : t.stats.modRecv = (s.stats.counted hdr hook retval).modRecv := congrArg Counters.modRecv hc
    constructor
    · rw [h1, getD_modSend_counted hplace]
      exact add_zero _
    · rw [h2, getD_modRecv_counted hplace]
      exact add_zero _
  | setLogWriter w =>
    cases h
    exact balanced_of_counters cfg rfl rfl rfl rfl rfl
  | call c =>
    cases h
    rcases c.flushReport_or with ⟨now, rfl⟩ | hc
    · exact balanced_flushReport cfg s now hm
    · have hcnt := counters_call cfg hc s.stats
      have hout : s.moduleOut cfg m (.call c) = [] :=
        moduleOut_of_no_report cfg (fun now he => hc now (Operation.call.inj he)) m s
      exact balanced_of_counters cfg (congrArg Counters.modSend hcnt) (congrArg Counters.modRecv hcnt) hout rfl rfl

/-! ### Runs -/

private theorem sum_ones (counts : Operation → Bool) (ops : List Operation) :
    (ops.flatMap fun op => if counts op then [(1 : UInt64)] else []).sum = UInt64.ofNat (ops.countP counts) := by
  induction ops with
  | nil => rfl
  | cons op ops ih =>
    rw [List.flatMap_cons, List.sum_append, ih, List.countP_cons]
    cases counts op with
    | true => simp [UInt64.ofNat_add, add_comm]
    | false => simp

/-- A counter that every operation balances is balanced along a run. -/
private theorem operations_ledger (w : Bool) {m : Nat} (quantity : StatsCollector → UInt64) (value : LogLine → UInt64)
    (counts : Operation → Bool)
    (hstep : ∀ (s s' : Session) (op : Operation), Sized cfg s.stats → op.InTable cfg → s.operate cfg op = some s' →
      quantity s'.stats + ((s.moduleOut cfg m op).map value).sum = quantity s.stats + if counts op then 1 else 0)
    {ops : List Operation} (hin : ∀ op ∈ ops, op.InTable cfg) {s : Session} (hs : operations cfg w ops = some s) :
    quantity s.stats + ((moduleLog cfg w m ops).map value).sum =
      quantity (fresh cfg w) + UInt64.ofNat (ops.countP counts) := by
  have hinv : ∀ (o : Option Session) (op : Operation), (∃ s, o = some s ∧ Sized cfg s.stats) → op.InTable cfg →
      ∃ s, lift (Session.operate cfg) o op = some s ∧ Sized cfg s.stats := by
    rintro _ op ⟨s, rfl, hsized⟩ hop
    exact operate_isSome cfg hsized hop
  have hfresh : ∃ s, some (Session.mk (fresh cfg w) []) = some s ∧ Sized cfg s.stats := ⟨_, rfl, sized_fresh cfg w⟩
  have h := runFrom_ledger (fun o => ∃ s : Session, o = some s ∧ Sized cfg s.stats) (fun op => op.InTable cfg) hinv
    (fun o => o.elim 0 fun s : Session => quantity s.stats) (fun _ op => if counts op then [(1 : UInt64)] else [])
    (fun o op => (o.elim [] fun s : Session => s.moduleOut cfg m op).map value)
    (by
      rintro _ op ⟨s, rfl, hsized⟩ hop
      obtain ⟨s', hs', -⟩ := operate_isSome cfg hsized hop
      have hb := hstep s s' op hsized hop hs'
      have hl : lift (Session.operate cfg) (some s) op = some s' := hs'
      rw [hl]
      refine hb.trans ?_
      cases counts op <;> simp)
    hfresh ops hin
  rw [collect_const, sum_ones, ← map_collect] at h
  unfold operations at hs
  rw [hs] at h
  exact h

/-! ### The lines of an operation -/

private theorem filter_moduleLines (s : StatsCollector) (now : UInt64) (m : Nat) :
    (s.moduleLines cfg now m).filter LogLine.isModStats = s.moduleLines cfg now m := by
  rw [moduleLines_eq]
  split <;> rfl

private theorem filter_flushLatency (s : StatsCollector) : s.flushLatency.2.filter LogLine.isModStats = [] := by
  unfold flushLatency
  split <;> rfl

private theorem filter_tryMatch (s : StatsCollector) (a b c d : UInt16) (r : UInt64) (ty : UInt8) :
    (s.tryMatch a b c d r ty).2.filter LogLine.isModStats = [] := by
  unfold tryMatch
  dsimp only
  split
  · rfl
  · split
    · rfl
    · cases s.logWriter <;> rfl

private theorem filter_evictExpired (s : StatsCollector) (now : UInt64) (o : Enumeration PendingItem) :
    (s.evictExpired now o).2.filter LogLine.isModStats = [] := by
  rw [lines_evictExpired]
  split
  · rw [List.filter_eq_nil_iff]
    intro l hl
    obtain ⟨it, -, rfl⟩ := List.mem_map.1 hl
    exact Bool.false_ne_true
  · rfl

private theorem filter_onLatency (e : RoutingEvent) (hook : String) (s : StatsCollector) :
    (onLatency e hook s).2.filter LogLine.isModStats = [] := by
  unfold onLatency
  dsimp only
  split
  · rfl
  · split
    · exact filter_tryMatch ..
    · rfl

/-- What the log shows of an operation: at most one line for every module, and those of a report. -/
structure Written (s s' : Session) (op : Operation) : Prop where
  lines : ∃ new, s'.log = s.log ++ new ∧
    new.filter LogLine.isModStats = (List.range' 1 cfg.maxModuleId).flatMap fun m => s.moduleOut cfg m op
  once : ∀ m, (s.moduleOut cfg m op).length ≤ 1
  no_writer : ∀ now, op = .call (.flushReport now) → s.stats.logWriter = false →
    s'.log = s.log ∧ s'.stats.modSend = s.stats.modSend ∧ s'.stats.modRecv = s.stats.modRecv ∧
      s'.stats.hookStats = s.stats.hookStats

private theorem length_moduleOut_le (m : Nat) (s : Session) (op : Operation) : (s.moduleOut cfg m op).length ≤ 1 := by
  unfold Session.moduleOut
  split
  · split
    · exact length_moduleLines_le ..
    · exact Nat.zero_le 1
  · exact Nat.zero_le 1

/-- An operation that is no report writes nothing about the modules. -/
private theorem written_of_no_report {s s' : Session} {op : Operation} (hop : ∀ now, op ≠ .call (.flushReport now))
    {new : List LogLine} (hlog : s'.log = s.log ++ new) (hnew : new.filter LogLine.isModStats = []) :
    Written cfg s s' op where
  lines := by
    refine ⟨new, hlog, ?_⟩
    rw [hnew, eq_comm, List.flatMap_eq_nil_iff]
    exact fun m _ => moduleOut_of_no_report cfg hop m s
  once := fun m => length_moduleOut_le cfg m s op
  no_writer := fun now h => absurd h (hop now)

private theorem written_flushReport (s : Session) (now : UInt64) :
    Written cfg s (s.step cfg (.flushReport now)) (.call (.flushReport now)) := by
  have hlog : (s.step cfg (.flushReport now)).log = s.log ++ (s.stats.flushReport cfg now).2 := rfl
  have hst : (s.step cfg (.flushReport now)).stats = (s.stats.flushReport cfg now).1 := rfl
  refine ⟨⟨_, hlog, ?_⟩, fun m => length_moduleOut_le cfg m s _, fun now' hnow hw => ?_⟩
  · cases hw : s.stats.logWriter with
    | true =>
      have hout : ∀ m, s.moduleOut cfg m (.call (.flushReport now)) = s.stats.moduleLines cfg now m :=
        fun m => if_pos hw
      rw [(flushReport_counters cfg hw now).2, List.filter_append, filter_flushLatency, List.append_nil,
        List.filter_flatMap]
      simp only [filter_moduleLines, hout]
    | false =>
      have hout : ∀ m, s.moduleOut cfg m (.call (.flushReport now)) = [] := fun m => if_neg (by simp [hw])
      rw [flushReport_of_no_writer cfg hw]
      simp [hout]
  · cases hnow
    rw [hlog, hst, flushReport_of_no_writer cfg hw]
    exact ⟨List.append_nil _, rfl, rfl, rfl⟩

theorem operate_written {s s' : Session} {op : Operation} (hsized : Sized cfg s.stats) (hin : op.InTable cfg)
    (h : s.operate cfg op = some s') : Written cfg s s' op := by
  cases op with
  | processEvent hdr hook retval latency =>
    have hplace := hsized.place cfg hin
    unfold Session.operate at h
    cases latency with
    | none =>
      dsimp only at h
      rw [processEvent_eq hplace] at h
      cases h
      exact written_of_no_report cfg (fun _ h => by cases h) rfl rfl
    | some e =>
      dsimp only at h
      rw [processEvent_eq hplace] at h
      cases h
      exact written_of_no_report cfg (fun _ h => by cases h) rfl (filter_onLatency ..)
  | setLogWriter w =>
    cases h
    exact written_of_no_report cfg (fun _ h => by cases h) (List.append_nil _).symm rfl
  | call c =>
    cases h
    cases c with
    | recordPending q ts => exact written_of_no_report cfg (fun _ h => by cases h) rfl rfl
    | tryMatch q r ty => exact written_of_no_report cfg (fun _ h => by cases h) rfl (filter_tryMatch ..)
    | evictExpired now o => exact written_of_no_report cfg (fun _ h => by cases h) rfl (filter_evictExpired ..)
    | flushReport now => exact written_flushReport cfg s now

/-! ### The accounts of the modules -/

/-- After the operations `ops` the account of module `m` is in order: what its lines reported and what its counters
hold is what was counted, modulo `2 ^ 64`. -/
structure Accounted (w : Bool) (m : Nat) (ops : List Operation) (s : StatsCollector) : Prop where
  send : s.modSend.getD m 0 + ((moduleLog cfg w m ops).map LogLine.send).sum =
    UInt64.ofNat (ops.countP (Operation.isSend m))
  recv : s.modRecv.getD m 0 + ((moduleLog cfg w m ops).map LogLine.recv).sum =
    UInt64.ofNat (ops.countP (Operation.isRecv m))

private theorem accounted_of_fits (w : Bool) {ops : List Operation} (hin : ∀ op ∈ ops, op.InTable cfg) {s : Session}
    (hs : operations cfg w ops = some s) {m : Nat} (hm : 1 ≤ m ∧ m ≤ cfg.maxModuleId)
    (hfits : ∀ l ∈ moduleLog cfg w m ops, l.Fits) : Accounted cfg w m ops s.stats := by
  obtain ⟨hsend, hrecv⟩ := map_send_of_fits hfits
  constructor
  · have h := operations_ledger cfg w (m := m) (fun s => s.modSend.getD m 0) LogLine.sendValue (Operation.isSend m)
      (fun s s' op hsized hop ho => (operate_balanced cfg hsized hop ho hm).send) hin hs
    rwa [show (fresh cfg w).modSend.getD m 0 = 0 from getD_replicate_zero _ m, zero_add, ← hsend] at h
  · have h := operations_ledger cfg w (m := m) (fun s => s.modRecv.getD m 0) LogLine.recvValue (Operation.isRecv m)
      (fun s s' op hsized hop ho => (operate_balanced cfg hsized hop ho hm).recv) hin hs
    rwa [show (fresh cfg w).modRecv.getD m 0 = 0 from getD_replicate_zero _ m, zero_add, ← hrecv] at h

/-- Along every run of operations whose entry events name modules of the table: the account of every module whose lines
are not cut is in order, and those of a module with a name of at most 162 bytes are not cut; each operation writes at
most one line for every module, and the callback of the routing module moves no counter. -/
theorem traffic_conserved (w : Bool) {ops : List Operation} (hin : ∀ op ∈ ops, op.InTable cfg) :
    ∃ s, operations cfg w ops = some s ∧
      (∀ m, 1 ≤ m → m ≤ cfg.maxModuleId →
        ((∀ l ∈ moduleLog cfg w m ops, l.Fits) → Accounted cfg w m ops s.stats) ∧
          ((cfg.reportName m).utf8ByteSize ≤ 162 → ∀ l ∈ moduleLog cfg w m ops, l.Fits)) ∧
      (∀ op : Operation, op.InTable cfg → ∃ s', s.operate cfg op = some s' ∧ Written cfg s s' op) ∧
      ∀ (e : RoutingEvent) (hook : String) (t : StatsCollector),
        (onLatency e hook t).1.modSend = t.modSend ∧ (onLatency e hook t).1.modRecv = t.modRecv := by
  obtain ⟨s, hs, hsized⟩ := operations_isSome cfg w hin
  refine ⟨s, hs, fun m h1 h2 => ⟨accounted_of_fits cfg w hin hs ⟨h1, h2⟩, moduleLog_fits cfg w ops⟩, fun op hop => ?_,
    fun e hook t => ?_⟩
  · obtain ⟨s', hs', -⟩ := operate_isSome cfg hsized hop
    exact ⟨s', hs', operate_written cfg hsized hop hs'⟩
  · have hc := counters_onLatency e hook t
    exact ⟨congrArg Counters.modSend hc, congrArg Counters.modRecv hc⟩

/-- An entry event of a module, without anything else. -/
def trafficEvent (moduleId direction : UInt8) : Operation :=
  .processEvent ⟨5, 1, 1, Vector.replicate 16 0, moduleId, 0, direction, false⟩ "hook" 0 none

/-- Two events that are sent, of which the report without a log writer says nothing, then one that is received, and one
that is sent after the report of these. -/
def trafficRun : List Operation :=
  [trafficEvent 1 dirSend, trafficEvent 1 dirSend, .setLogWriter false, .call (.flushReport 9), .setLogWriter true,
    trafficEvent 1 dirRecv, .call (.flushReport 12), trafficEvent 1 dirSend]

/-- The events of module 1 are counted and handed out, and module 2 stays idle. -/
theorem traffic_conserved_two_modules :
    ∃ s, operations ⟨[], 2⟩ true trafficRun = some s ∧
      (s.stats.modSend.getD 1 0 + ((moduleLog ⟨[], 2⟩ true 1 trafficRun).map LogLine.send).sum = 3 ∧
        s.stats.modRecv.getD 1 0 + ((moduleLog ⟨[], 2⟩ true 1 trafficRun).map LogLine.recv).sum = 1) ∧
      s.stats.modSend.getD 2 0 + ((moduleLog ⟨[], 2⟩ true 2 trafficRun).map LogLine.send).sum = 0 := by
  have hin : ∀ op ∈ trafficRun, op.InTable ⟨[], 2⟩ := by simp [trafficRun, trafficEvent, Operation.InTable]
  obtain ⟨s, hs, haccounts, -⟩ := traffic_conserved ⟨[], 2⟩ true hin
  have haccount : ∀ m, 1 ≤ m → m ≤ 2 → Accounted ⟨[], 2⟩ true m trafficRun s.stats := by
    intro m h1 h2
    obtain ⟨hfits, hlines⟩ := haccounts m h1 h2
    exact hfits (hlines (show "?".utf8ByteSize ≤ 162 by decide))
  have hfirst := haccount 1 (by decide) (by decide)
  exact ⟨s, hs, ⟨hfirst.send, hfirst.recv⟩, (haccount 2 (by decide) (by decide)).send⟩

/-- A module with a name of 300 letters. -/
def longFile : FileJson :=
  ⟨String.ofList (List.replicate 300 'a'), "long_events", 1, "libvsomeip3", "/usr/lib/libvsomeip3.so",
    [⟨"long_hook", "send()", false⟩]⟩

def longConfig : HookConfig := ⟨[genFileGroup longFile [("send()", some 64)]], 1⟩

private theorem fitting_replicate (cs : List Char) {n k : Nat} (h : n ≤ k) :
    fitting n (List.replicate k 'a' ++ cs) = List.replicate n 'a' := by
  induction n generalizing k with
  | zero =>
    cases List.replicate k 'a' ++ cs with
    | nil => rfl
    | cons c cs =>
      have hpos := c.utf8Size_pos
      exact if_neg (by omega)
  | succ n ih =>
    obtain ⟨k, rfl⟩ : ∃ j, k = j + 1 := ⟨k - 1, by omega⟩
    have hsize : 'a'.utf8Size = 1 := by decide
    rw [List.replicate_succ, List.cons_append, fitting, if_pos (by omega), hsize, Nat.add_sub_cancel, ih (by omega),
      List.replicate_succ]

private theorem send_longFile : (LogLine.modStats longFile.name 0 1 0).send = 0 := by
  have htext : ∃ rest, (LogLine.modStats longFile.name 0 1 0).text.toList =
      "\x7b\"module\":\"".toList ++ (List.replicate 300 'a' ++ rest) := by
    have hname : longFile.name.toList = List.replicate 300 'a' := String.toList_ofList
    unfold LogLine.text
    simp only [String.toList_append, hname, List.append_assoc]
    exact ⟨_, rfl⟩
  obtain ⟨rest, hrest⟩ := htext
  have hcut : (LogLine.modStats longFile.name 0 1 0).buffered.toList =
      "\x7b\"module\":\"".toList ++ List.replicate 244 'a' := by
    unfold LogLine.buffered snprintf
    rw [String.toList_ofList, hrest]
    have hkey : ∀ cs, fitting 255 ("\x7b\"module\":\"".toList ++ cs) = "\x7b\"module\":\"".toList ++ fitting 244 cs :=
      fun _ => rfl
    exact (hkey _).trans (congrArg _ (fitting_replicate rest (by decide)))
  have hread : readTraffic (LogLine.modStats longFile.name 0 1 0).buffered = none := by
    unfold readTraffic
    rw [hcut, if_neg]
    rw [show 244 = 243 + 1 from rfl, List.replicate_succ', ← List.append_assoc, List.getLast?_concat]
    decide
  have hsend : ∀ l : LogLine, readTraffic l.buffered = none → l.send = 0 := by
    intro l hnone
    cases l with
    | modStats nm elapse send recv => simp only [LogLine.send, hnone, Option.elim_none]
    | latency | latencyStats | timeout | event => rfl
  exact hsend _ hread

/-- Its line is cut within the name, so that the event it reports is lost. -/
theorem cut_line_loses_counts :
    genConfig [longFile] (fun _ => some [("send()", some 64)]) = some longConfig ∧
      ∃ s, operations longConfig true [trafficEvent 1 dirSend, .call (.flushReport 9)] = some s ∧
        (moduleLog longConfig true 1 [trafficEvent 1 dirSend, .call (.flushReport 9)]).length = 1 ∧
        s.stats.modSend.getD 1 0 +
            ((moduleLog longConfig true 1 [trafficEvent 1 dirSend, .call (.flushReport 9)]).map LogLine.send).sum ≠
          UInt64.ofNat ([trafficEvent 1 dirSend, .call (.flushReport 9)].countP (Operation.isSend 1)) := by
  have hlog : moduleLog longConfig true 1 [trafficEvent 1 dirSend, .call (.flushReport 9)] =
      [.modStats longFile.name 0 1 0] := rfl
  refine ⟨rfl, _, rfl, by rw [hlog]; rfl, ?_⟩
  rw [hlog, List.map_singleton, List.sum_singleton, send_longFile]
  decide

end VsomeipCollector

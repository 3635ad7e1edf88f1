import Mathlib.Order.Defs.LinearOrder
import VsomeipCollector.Config
import VsomeipCollector.Output
import VsomeipCollector.Library.Table

/-!
# The statistics collector (`src/user/stats`)

`StatsCollector` counts events and measures the time between a request and its reply.  The open requests are kept
in the hash table `pending`, under a key that packs service, method, client and session into 64 bits.  The functions
below return the new state together with the lines handed to the log writer, if one is set.

The monotonic clock is an argument (`now`, in nanoseconds) of the functions that read it, and so is the order in
which `evict_expired` walks through the hash table.
-/

namespace VsomeipCollector

open Table (Tbl Entry Enumeration)

structure HookStats where
  total : UInt64 := 0
  succ : UInt64 := 0
  fail : UInt64 := 0
deriving DecidableEq, Repr

/-- The counters of one hook after one more event. -/
def HookStats.count (h : HookStats) (isRet : Bool) (retval : Int64) : HookStats :=
  let h := { h with total := h.total + 1 }
  if isRet then
    if retval = 0 then { h with succ := h.succ + 1 } else { h with fail := h.fail + 1 }
  else h

structure PendingEntry where
  sendTs : UInt64
deriving DecidableEq, Repr

/-- An entry of the table of open requests. -/
abbrev PendingItem := Entry UInt64 PendingEntry

/-- The walk through the open requests in the order of their keys. -/
def byKey : Enumeration PendingItem :=
  Enumeration.sortedBy (fun it => it.1.toNat * 2 ^ 64 + it.2.sendTs.toNat) (by
    rintro ⟨a, ⟨x⟩⟩ ⟨b, ⟨y⟩⟩ h
    have hx := x.toNat_lt
    have hy := y.toNat_lt
    dsimp only at h
    obtain rfl : a = b := UInt64.toNat_inj.1 (by omega)
    obtain rfl : x = y := UInt64.toNat_inj.1 (by omega)
    rfl)

structure StatsCollector where
  hookStats : Tbl String HookStats := ∅
  modSend : List UInt64
  modRecv : List UInt64
  pending : Tbl UInt64 PendingEntry := ∅
  latency : List UInt64 := []
  lastReportNs : UInt64 := 0
  /-- Whether `log_writer_` is set. -/
  logWriter : Bool := false

def timeoutNs : UInt64 := 30 * 1000 * 1000 * 1000

/-- The bound of the plausibility check of `try_match`. -/
def plausibleNs : UInt64 := 60 * 1000 * 1000 * 1000

/-- The 64-bit key of a request and its reply. -/
def packKey (svc method client session : UInt16) : UInt64 :=
  (svc.toUInt64 <<< 48) ||| (method.toUInt64 <<< 32) ||| (client.toUInt64 <<< 16) ||| session.toUInt64

namespace StatsCollector

/-- The constructor; the tables of the modules have `MAX_MODULE_ID + 1` counters. -/
def new (cfg : HookConfig) : StatsCollector where
  modSend := List.replicate (cfg.maxModuleId + 1) 0
  modRecv := List.replicate (cfg.maxModuleId + 1) 0

def setLogWriter (s : StatsCollector) (w : Bool) : StatsCollector := { s with logWriter := w }

/-- A collector before its first call, with or without a log writer. -/
def fresh (cfg : HookConfig) (w : Bool) : StatsCollector := (new cfg).setLogWriter w

/-! ### Counting events -/

/-- The module counters after one more event; `none` is an index outside the counter tables. -/
def countModule (s : StatsCollector) (hdr : EventHeader) : Option StatsCollector :=
  let m := hdr.moduleId.toNat
  if hdr.isRetprobe then some s
  else if hdr.direction = dirSend then
    s.modSend[m]?.map fun n => { s with modSend := s.modSend.set m (n + 1) }
  else
    s.modRecv[m]?.map fun n => { s with modRecv := s.modRecv.set m (n + 1) }

/-- `process_event`: `onLatency` is the callback of the handler, called with the payload and the hook name. -/
def processEvent {π : Type} (s : StatsCollector) (hdr : EventHeader) (payload : π) (hook : String) (retval : Int64)
    (onLatency : Option (π → String → StatsCollector → StatsCollector × List LogLine)) :
    Option (StatsCollector × List LogLine) :=
  let h := ((s.hookStats.lookup hook).getD {}).count hdr.isRetprobe retval
  (countModule { s with hookStats := s.hookStats.insert hook h } hdr).map fun s =>
    match onLatency with
    | some f => f payload hook s
    | none => (s, [])

/-! ### Matching requests and replies -/

/-- A request that is open already keeps its time. -/
def recordPending (s : StatsCollector) (svc method client session : UInt16) (ts : UInt64) : StatsCollector :=
  let k := packKey svc method client session
  match s.pending.lookup k with
  | none => { s with pending := s.pending.insert k ⟨ts⟩ }
  | some _ => s

def tryMatch (s : StatsCollector) (svc method client session : UInt16) (recvTs : UInt64) (msgType : UInt8) :
    StatsCollector × List LogLine :=
  let k := packKey svc method client session
  match s.pending.lookup k with
  | none => (s, [])
  | some e =>
    let lat := recvTs - e.sendTs
    if lat > plausibleNs then ({ s with pending := s.pending.erase k }, [])
    else
      let typeStr :=
        if msgType = someipMtResponse then "RESPONSE"
        else if msgType = someipMtError then "ERROR"
        else if msgType = someipMtNotification then "NOTIFICATION" else "UNKNOWN"
      ({ s with latency := s.latency ++ [lat], pending := s.pending.erase k },
        if s.logWriter then [.latency svc method client session typeStr e.sendTs recvTs lat] else [])

/-- The loop of `evict_expired` over the entries still to be visited. -/
def evictLoop (now : UInt64) (w : Bool) : List PendingItem → Tbl UInt64 PendingEntry →
    Tbl UInt64 PendingEntry × List LogLine
  | [], pending => (pending, [])
  | it :: rest, pending =>
    let elapsed := now - it.2.sendTs
    if elapsed > timeoutNs then
      let r := evictLoop now w rest (pending.erase it.1)
      (r.1, (if w then [.timeout it.1 (elapsed / 1000000)] else []) ++ r.2)
    else evictLoop now w rest pending

def evictExpired (s : StatsCollector) (now : UInt64) (order : Enumeration PendingItem) :
    StatsCollector × List LogLine :=
  let r := evictLoop now s.logWriter (order.list s.pending.entries) s.pending
  ({ s with pending := r.1 }, r.2)

/-! ### The periodic report -/

/-- The part of `flush_report` for module `m`. -/
def flushModule (cfg : HookConfig) (elapse : UInt64) (s : StatsCollector) (m : Nat) :
    StatsCollector × List LogLine :=
  let send := s.modSend.getD m 0
  let recv := s.modRecv.getD m 0
  if send = 0 ∧ recv = 0 then (s, [])
  else
    let nm := ((cfg.fileGroups.find? fun g => g.moduleId == m).map FileGroup.name).getD "?"
    ({ s with modSend := s.modSend.set m 0, modRecv := s.modRecv.set m 0 }, [.modStats nm elapse send recv])

/-- The part of `flush_report` for the latency samples. -/
def flushLatency (s : StatsCollector) : StatsCollector × List LogLine :=
  if s.latency = [] then (s, [])
  else
    let v := s.latency.insertionSort (· ≤ ·)
    let n := v.length
    let sum := v.foldl (· + ·) 0
    let at' := fun i => v.getD i 0
    ({ s with latency := [] },
      [.latencyStats n ((sum / n.toUInt64) / 1000) (at' (n * 50 % 2 ^ 64 / 100) / 1000)
        (at' (n * 99 % 2 ^ 64 / 100) / 1000) (at' (n - 1) / 1000)])

/-- The loop of `flush_report` over the modules. -/
def flushModules (cfg : HookConfig) (elapse : UInt64) : List Nat → StatsCollector → StatsCollector × List LogLine
  | [], s => (s, [])
  | m :: ms, s =>
    let r := flushModule cfg elapse s m
    let r' := flushModules cfg elapse ms r.1
    (r'.1, r.2 ++ r'.2)

def flushReport (cfg : HookConfig) (s : StatsCollector) (now : UInt64) : StatsCollector × List LogLine :=
  let elapse := if s.lastReportNs ≠ 0 then now - s.lastReportNs else 0
  let s := { s with lastReportNs := now }
  if s.logWriter then
    let r := flushModules cfg elapse (List.range' 1 cfg.maxModuleId) s
    let r' := flushLatency r.1
    -- the counters of the hooks are reset, but no line is written for them
    ({ r'.1 with hookStats := Table.mapValues (fun _ => {}) r'.1.hookStats }, r.2 ++ r'.2)
  else (s, [])

end StatsCollector

/-! ### Calls -/

/-- What a request and its reply have in common. -/
structure Tuple where
  svc : UInt16
  method : UInt16
  client : UInt16
  session : UInt16
deriving DecidableEq, Repr

def Tuple.key (q : Tuple) : UInt64 := packKey q.svc q.method q.client q.session

/-- The calls that record, match, expire and report requests. -/
inductive Call where
  | recordPending (q : Tuple) (ts : UInt64)
  | tryMatch (q : Tuple) (recvTs : UInt64) (msgType : UInt8)
  | evictExpired (now : UInt64) (order : Enumeration PendingItem)
  | flushReport (now : UInt64)

namespace StatsCollector

variable (cfg : HookConfig)

/-- One call, with the lines it hands to the log writer. -/
def call (s : StatsCollector) : Call → StatsCollector × List LogLine
  | .recordPending q ts => (s.recordPending q.svc q.method q.client q.session ts, [])
  | .tryMatch q recvTs msgType => s.tryMatch q.svc q.method q.client q.session recvTs msgType
  | .evictExpired now order => s.evictExpired now order
  | .flushReport now => s.flushReport cfg now

/-- The state after one call. -/
def step (s : StatsCollector) (c : Call) : StatsCollector := (s.call cfg c).1

/-- The time at which the request `q` was sent, if it is open. -/
def sentAt (s : StatsCollector) (q : Tuple) : Option UInt64 := (s.pending.lookup q.key).map PendingEntry.sendTs

end StatsCollector

/-- The collector together with all lines it has handed to the log writer. -/
structure Session where
  stats : StatsCollector
  log : List LogLine := []

def Session.step (cfg : HookConfig) (s : Session) (c : Call) : Session where
  stats := s.stats.step cfg c
  log := s.log ++ (s.stats.call cfg c).2

end VsomeipCollector

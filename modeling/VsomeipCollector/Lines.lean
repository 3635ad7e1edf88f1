import VsomeipCollector.Handler
import VsomeipCollector.Library.Binary64
import VsomeipCollector.Library.Numerals

/-!
# The texts of the lines

Lines and payloads are made with `snprintf` in buffers of fixed size.  What bounds a text is the width of the values it
prints, and for the latency of a pair the plausibility check before it.  No buffer is too small for its text
(`texts_complete`).
-/

namespace VsomeipCollector

open Binary64 Numerals StatsCollector

/-! ### Format strings (`stats_collector.cpp`) -/

/-- The conversion `%.1f` of a value that is not negative. -/
def fixed1 (q : ℚ) : String :=
  let tenths := (roundHalfEven (10 * q)).toNat
  toString (tenths / 10) ++ "." ++ toString (tenths % 10)

/-- A number of nanoseconds, converted to `double` and divided. -/
def scaled (ns : UInt64) (unit : ℕ) : ℚ := toDouble (toDouble ns.toNat / unit)

/-- What the format string of a line expands to, before it is cut to the buffer. -/
def LogLine.text : LogLine → String
  | .latency svc method client session typeStr sendTs recvTs lat =>
    "\x7b\"svc\":" ++ toString svc.toNat ++ ",\"method\":" ++ toString method.toNat ++
      ",\"client\":" ++ toString client.toNat ++ ",\"session\":" ++ toString session.toNat ++
      ",\"type\":\"" ++ typeStr ++ "\",\"send_ts\":" ++ toString sendTs.toNat ++
      ",\"recv_ts\":" ++ toString recvTs.toNat ++ ",\"latency_us\":" ++ fixed1 (scaled lat 1000) ++ "\x7d"
  | .modStats nm elapse send recv =>
    "\x7b\"module\":\"" ++ nm ++ "\",\"elapsed\":" ++ fixed1 (scaled elapse 1000000000) ++
      ",\"send\":" ++ toString send.toNat ++ ",\"recv\":" ++ toString recv.toNat ++ "\x7d"
  | .latencyStats samples avgUs p50Us p99Us maxUs =>
    "\x7b\"type\":\"latency\",\"samples\":" ++ toString (samples % 2 ^ 64) ++
      ",\"avg_us\":" ++ toString avgUs.toNat ++ ",\"p50_us\":" ++ toString p50Us.toNat ++
      ",\"p99_us\":" ++ toString p99Us.toNat ++ ",\"max_us\":" ++ toString maxUs.toNat ++ "\x7d"
  | .timeout key elapsedMs =>
    "\x7b\"type\":\"timeout\",\"key\":\"" ++ hex key.toNat ++ "\",\"elapsed_ms\":" ++ toString elapsedMs.toNat ++ "\x7d"
  | .event _ _ payload => payload

/-- The size of the buffer that the text is made in; for an event the smaller one of the two writers. -/
def LogLine.bufferSize : LogLine → Nat
  | .timeout .. => 128
  | _ => 256

/-- The buffer has room for the text and its terminator, and the text ends with its closing brace. -/
structure LogLine.Complete (l : LogLine) : Prop where
  fits : l.text.utf8ByteSize < l.bufferSize
  uncut : snprintf l.bufferSize l.text = l.text
  closed : l.text.toList.getLast? = some '\x7d'

theorem snprintf_of_size_lt {size : Nat} {text : String} (h : text.utf8ByteSize < size) :
    snprintf size text = text := by
  have hlen : String.utf8Len text.toList ≤ size - 1 := by
    rw [← String.utf8ByteSize_ofList, String.ofList_toList]
    omega
  unfold snprintf
  rw [fitting_of_le hlen, String.ofList_toList]

/-! ### Sizes of values -/

private theorem size_uint8 (x : UInt8) : x.toNat.repr.utf8ByteSize ≤ 3 :=
  size_repr_le (by decide) (by have := x.toNat_lt; omega)

private theorem size_uint16 (x : UInt16) : x.toNat.repr.utf8ByteSize ≤ 5 :=
  size_repr_le (by decide) (by have := x.toNat_lt; omega)

private theorem size_uint32 (x : UInt32) : x.toNat.repr.utf8ByteSize ≤ 10 :=
  size_repr_le (by decide) (by have := x.toNat_lt; omega)

private theorem size_uint64 (x : UInt64) : x.toNat.repr.utf8ByteSize ≤ 20 :=
  size_repr_le (by decide) (by have := x.toNat_lt; omega)

private theorem size_int64 (i : Int64) : i.toInt.repr.utf8ByteSize ≤ 20 := by
  have hlt := i.toInt_lt
  have hle := i.le_toInt
  exact size_int_repr_le (k := 19) (by decide) (by omega)

private theorem size_hex (x : UInt64) : (hex x.toNat).utf8ByteSize ≤ 18 := by
  have hdigits : (String.ofList (Nat.toDigits 16 x.toNat)).utf8ByteSize ≤ 16 :=
    size_toDigits_le (by decide) (by decide) (by decide) (by have := x.toNat_lt; omega)
  have hprefix : "0x".utf8ByteSize = 2 := by decide
  unfold hex
  rw [String.utf8ByteSize_append]
  omega

private theorem size_msgTypeText (t : UInt8) : (msgTypeText t).utf8ByteSize ≤ 12 := by
  unfold msgTypeText
  repeat' split
  all_goals decide

/-- Neither conversion leads beyond a whole number of units. -/
private theorem scaled_le {ns : UInt64} {unit n : ℕ} (hu : 0 < unit) (hns : ns.toNat ≤ n * unit)
    (hn : n * unit < 2 ^ 53) : scaled ns unit ≤ n := by
  have hu' : (0 : ℚ) < unit := Nat.cast_pos.2 hu
  have hpos : (0 : ℚ) ≤ toDouble ns.toNat := toDouble_nonneg (Nat.cast_nonneg _)
  have hdouble : toDouble ns.toNat ≤ n * unit := by
    have h := toDouble_le_natCast (Nat.cast_nonneg _) (Nat.cast_le.2 hns) hn
    rwa [Nat.cast_mul] at h
  have hn' : n < 2 ^ 53 := (Nat.le_mul_of_pos_right n hu).trans_lt hn
  exact toDouble_le_natCast (div_nonneg hpos hu'.le) ((div_le_iff₀ hu').2 hdouble) hn'

/-- Any number of nanoseconds, in seconds. -/
private theorem scaled_seconds_le (ns : UInt64) : scaled ns 1000000000 ≤ (18446744074 : ℕ) := by
  have hns : (ns.toNat : ℚ) ≤ (1 : ℕ) * 2 ^ 64 := by
    have hlt : ns.toNat ≤ 2 ^ 64 := ns.toNat_lt.le
    exact_mod_cast hlt
  have hpos : (0 : ℚ) ≤ toDouble ns.toNat := toDouble_nonneg (Nat.cast_nonneg _)
  have hdouble : toDouble ns.toNat ≤ (1 : ℕ) * 2 ^ 64 := toDouble_le_mul_pow (Nat.cast_nonneg _) hns (by decide)
  refine toDouble_le_natCast (div_nonneg hpos (Nat.cast_nonneg _)) ?_ (by decide)
  rw [div_le_iff₀ (by norm_num)]
  refine hdouble.trans ?_
  norm_num

/-- Digits before the point, the point, and one digit behind it. -/
private theorem size_fixed1 {q : ℚ} {n k : ℕ} (h : q ≤ n) (hk : 0 < k) (hn : n < 10 ^ k) :
    (fixed1 q).utf8ByteSize ≤ k + 2 := by
  have htenths : roundHalfEven (10 * q) ≤ ((10 * n : ℕ) : ℤ) := by
    apply roundHalfEven_le
    push_cast
    linarith
  have h1 : ((roundHalfEven (10 * q)).toNat / 10).repr.utf8ByteSize ≤ k := size_repr_le hk (by omega)
  have h2 : ((roundHalfEven (10 * q)).toNat % 10).repr.utf8ByteSize ≤ 1 := size_repr_le (by decide) (by omega)
  have hpoint : ".".utf8ByteSize = 1 := by decide
  unfold fixed1
  simp only [String.utf8ByteSize_append, Nat.toString_eq_repr]
  omega

/-! ### Payloads -/

theorem RoutingEvent.size_payloadText (e : RoutingEvent) : e.payloadText.utf8ByteSize < 256 := by
  have h1 := size_uint16 e.serviceId
  have h2 := size_uint16 e.methodId
  have h3 := size_uint16 e.clientId
  have h4 := size_uint16 e.sessionId
  have h5 := size_msgTypeText e.messageType
  have h6 := size_uint8 e.returnCode
  have h7 := size_uint32 e.payloadLength
  have h8 := size_int64 e.retval
  have hkeys : "\"svc\":".utf8ByteSize + ",\"method\":".utf8ByteSize + ",\"client\":".utf8ByteSize +
      ",\"session\":".utf8ByteSize + ",\"msg_type\":\"".utf8ByteSize + "\",\"ret_code\":".utf8ByteSize +
      ",\"len\":".utf8ByteSize + ",\"retval\":".utf8ByteSize ≤ 100 := by decide
  unfold payloadText
  simp only [String.utf8ByteSize_append, Nat.toString_eq_repr, Int.toString_eq_repr]
  omega

theorem AppEvent.size_payloadText (e : AppEvent) : e.payloadText.utf8ByteSize < 256 := by
  have h1 := size_hex e.thisPtr
  have h2 := size_hex e.messagePtr
  have h3 := size_int64 e.retval
  have hkeys : "\"this\":\"".utf8ByteSize + "\",\"msg\":\"".utf8ByteSize + "\",\"retval\":".utf8ByteSize ≤ 100 := by
    decide
  unfold payloadText
  simp only [String.utf8ByteSize_append, Int.toString_eq_repr]
  omega

theorem SdEvent.size_payloadText (e : SdEvent) : e.payloadText.utf8ByteSize < 256 := by
  have h1 := size_uint16 e.serviceId
  have h2 := size_uint16 e.instanceId
  have h3 := size_uint16 e.eventgroupId
  have h4 := size_uint32 e.ttl
  have hkeys : "\"svc\":".utf8ByteSize + ",\"inst\":".utf8ByteSize + ",\"evg\":".utf8ByteSize +
      ",\"ttl\":".utf8ByteSize ≤ 100 := by decide
  unfold payloadText
  simp only [String.utf8ByteSize_append, Nat.toString_eq_repr]
  omega

/-- A buffer of 256 bytes or more takes the whole payload. -/
theorem RoutingEvent.formatPayload_eq (e : RoutingEvent) {size : Nat} (h : 256 ≤ size) :
    e.formatPayload size = e.payloadText := snprintf_of_size_lt (e.size_payloadText.trans_le h)

theorem AppEvent.formatPayload_eq (e : AppEvent) {size : Nat} (h : 256 ≤ size) :
    e.formatPayload size = e.payloadText := snprintf_of_size_lt (e.size_payloadText.trans_le h)

theorem SdEvent.formatPayload_eq (e : SdEvent) {size : Nat} (h : 256 ≤ size) :
    e.formatPayload size = e.payloadText := snprintf_of_size_lt (e.size_payloadText.trans_le h)

/-! ### Lines of the collector -/

private theorem complete_of_lt {l : LogLine} {body : String} (h : l.text = body ++ "\x7d")
    (hlt : l.text.utf8ByteSize < l.bufferSize) : l.Complete where
  fits := hlt
  uncut := snprintf_of_size_lt hlt
  closed := by
    rw [h, String.toList_append]
    exact List.getLast?_concat

/-- The latency of a line has passed the plausibility check. -/
theorem complete_latency (svc method client session : UInt16) {typeStr : String} (sendTs recvTs : UInt64)
    {lat : UInt64} (ht : typeStr.utf8ByteSize ≤ 12) (hlat : lat ≤ plausibleNs) :
    (LogLine.latency svc method client session typeStr sendTs recvTs lat).Complete := by
  refine complete_of_lt rfl ?_
  have hns : lat.toNat ≤ 60000000000 := UInt64.le_iff_toNat_le.1 hlat
  have h1 := size_uint16 svc
  have h2 := size_uint16 method
  have h3 := size_uint16 client
  have h4 := size_uint16 session
  have h5 := size_uint64 sendTs
  have h6 := size_uint64 recvTs
  have h7 : (fixed1 (scaled lat 1000)).utf8ByteSize ≤ 10 :=
    size_fixed1 (n := 60000000) (k := 8) (scaled_le (by decide) (by omega) (by decide)) (by decide) (by decide)
  have hkeys : "\x7b\"svc\":".utf8ByteSize + ",\"method\":".utf8ByteSize + ",\"client\":".utf8ByteSize +
      ",\"session\":".utf8ByteSize + ",\"type\":\"".utf8ByteSize + "\",\"send_ts\":".utf8ByteSize +
      ",\"recv_ts\":".utf8ByteSize + ",\"latency_us\":".utf8ByteSize + "\x7d".utf8ByteSize ≤ 100 := by decide
  unfold LogLine.text LogLine.bufferSize
  simp only [String.utf8ByteSize_append, Nat.toString_eq_repr]
  omega

theorem complete_latencyStats (samples : Nat) (avgUs p50Us p99Us maxUs : UInt64) :
    (LogLine.latencyStats samples avgUs p50Us p99Us maxUs).Complete := by
  refine complete_of_lt rfl ?_
  have h1 : (samples % 2 ^ 64).repr.utf8ByteSize ≤ 20 := size_repr_le (by decide) (by omega)
  have h2 := size_uint64 avgUs
  have h3 := size_uint64 p50Us
  have h4 := size_uint64 p99Us
  have h5 := size_uint64 maxUs
  have hkeys : "\x7b\"type\":\"latency\",\"samples\":".utf8ByteSize + ",\"avg_us\":".utf8ByteSize +
      ",\"p50_us\":".utf8ByteSize + ",\"p99_us\":".utf8ByteSize + ",\"max_us\":".utf8ByteSize +
      "\x7d".utf8ByteSize ≤ 100 := by decide
  unfold LogLine.text LogLine.bufferSize
  simp only [String.utf8ByteSize_append, Nat.toString_eq_repr]
  omega

/-- The room that a line about a module takes besides its name. -/
theorem size_modStats (nm : String) (elapse send recv : UInt64) :
    (LogLine.modStats nm elapse send recv).text.utf8ByteSize ≤ nm.utf8ByteSize + 93 := by
  have h1 : (fixed1 (scaled elapse 1000000000)).utf8ByteSize ≤ 13 :=
    size_fixed1 (k := 11) (scaled_seconds_le elapse) (by decide) (by decide)
  have h2 := size_uint64 send
  have h3 := size_uint64 recv
  have hkeys : "\x7b\"module\":\"".utf8ByteSize + "\",\"elapsed\":".utf8ByteSize + ",\"send\":".utf8ByteSize +
      ",\"recv\":".utf8ByteSize + "\x7d".utf8ByteSize ≤ 40 := by decide
  unfold LogLine.text
  simp only [String.utf8ByteSize_append, Nat.toString_eq_repr]
  omega

theorem complete_timeout (key elapsedMs : UInt64) : (LogLine.timeout key elapsedMs).Complete := by
  refine complete_of_lt rfl ?_
  have h1 := size_hex key
  have h2 := size_uint64 elapsedMs
  have hkeys : "\x7b\"type\":\"timeout\",\"key\":\"".utf8ByteSize + "\",\"elapsed_ms\":".utf8ByteSize +
      "\x7d".utf8ByteSize ≤ 80 := by decide
  unfold LogLine.text LogLine.bufferSize
  simp only [String.utf8ByteSize_append, Nat.toString_eq_repr]
  omega

theorem complete_tryMatch (s : StatsCollector) (svc method client session : UInt16) (recvTs : UInt64)
    (msgType : UInt8) : ∀ l ∈ (s.tryMatch svc method client session recvTs msgType).2, l.Complete := by
  have htype : (if msgType = someipMtResponse then "RESPONSE" else if msgType = someipMtError then "ERROR"
      else if msgType = someipMtNotification then "NOTIFICATION" else "UNKNOWN").utf8ByteSize ≤ 12 := by
    repeat' split
    all_goals decide
  unfold tryMatch
  dsimp only
  split
  · simp
  · rename_i e he
    split
    · simp
    · rename_i hlat
      split
      · intro l hl
        rw [List.mem_singleton.1 hl]
        exact complete_latency svc method client session e.sendTs recvTs htype (UInt64.not_lt.1 hlat)
      · simp

theorem complete_evictExpired (s : StatsCollector) (now : UInt64) (order : Table.Enumeration PendingItem) :
    ∀ l ∈ (s.evictExpired now order).2, l.Complete := by
  rw [lines_evictExpired]
  split
  · intro l hl
    obtain ⟨it, -, rfl⟩ := List.mem_map.1 hl
    exact complete_timeout it.1 ((now - it.2.sendTs) / 1000000)
  · simp

theorem complete_flushLatency (s : StatsCollector) : ∀ l ∈ s.flushLatency.2, l.Complete := by
  unfold flushLatency
  split
  · simp
  · intro l hl
    rw [List.mem_singleton.1 hl]
    exact complete_latencyStats _ _ _ _ _

/-- No text of a payload, and none of a line that the collector hands on, is cut by the buffer it is made in. -/
theorem texts_complete :
    (∀ e : RoutingEvent, e.payloadText.utf8ByteSize < 256 ∧ e.formatPayload 256 = e.payloadText ∧
      e.formatPayload 512 = e.payloadText) ∧
    (∀ e : AppEvent, e.payloadText.utf8ByteSize < 256 ∧ e.formatPayload 256 = e.payloadText ∧
      e.formatPayload 512 = e.payloadText) ∧
    (∀ e : SdEvent, e.payloadText.utf8ByteSize < 256 ∧ e.formatPayload 256 = e.payloadText ∧
      e.formatPayload 512 = e.payloadText) ∧
    (∀ (s : StatsCollector) (svc method client session : UInt16) (recvTs : UInt64) (msgType : UInt8),
      ∀ l ∈ (s.tryMatch svc method client session recvTs msgType).2, l.Complete) ∧
    (∀ (s : StatsCollector) (now : UInt64) (order : Table.Enumeration PendingItem),
      ∀ l ∈ (s.evictExpired now order).2, l.Complete) ∧
    ∀ s : StatsCollector, ∀ l ∈ s.flushLatency.2, l.Complete := by
  refine ⟨fun e => ?_, fun e => ?_, fun e => ?_, complete_tryMatch, complete_evictExpired, complete_flushLatency⟩
  · exact ⟨e.size_payloadText, e.formatPayload_eq (by decide), e.formatPayload_eq (by decide)⟩
  · exact ⟨e.size_payloadText, e.formatPayload_eq (by decide), e.formatPayload_eq (by decide)⟩
  · exact ⟨e.size_payloadText, e.formatPayload_eq (by decide), e.formatPayload_eq (by decide)⟩

-- a latency of 1234567 ns
example : (LogLine.latency 1 2 3 4 "RESPONSE" 5 1234572 1234567).text =
    "\x7b\"svc\":1,\"method\":2,\"client\":3,\"session\":4,\"type\":\"RESPONSE\",\"send_ts\":5," ++
      "\"recv_ts\":1234572,\"latency_us\":1234.6\x7d" := by decide +kernel

end VsomeipCollector

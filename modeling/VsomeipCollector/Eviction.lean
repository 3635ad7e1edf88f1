import VsomeipCollector.Matching
import VsomeipCollector.Library.Numerals

/-!
# Eviction of expired requests

`evict_expired` walks the hash table in an order of its own and erases as it goes.  Whatever the order, it removes
exactly the requests more than 30 s old and writes one line for each, whose printed key gives the four numbers of the
request back; and an eviction that a later one follows changes neither what is left in the end nor which requests are
reported (`evictExpired_exact`).
-/

namespace VsomeipCollector

open Table StatsCollector

/-- The request is more than 30 s old. -/
def Overdue (now : UInt64) (it : PendingItem) : Prop := 30 * 10 ^ 9 < now.toNat - it.2.sendTs.toNat

instance (now : UInt64) (it : PendingItem) : Decidable (Overdue now it) := inferInstanceAs (Decidable (_ < _))

/-- The tuple that a printed key stands for. -/
def Tuple.ofHex (s : String) : Option Tuple :=
  match s.toList with
  | '0' :: 'x' :: ds => (Numerals.readDigits 16 ds).map fun n => Tuple.ofKey (UInt64.ofNat n)
  | _ => none

/-- The line reports the removal of the entry: its key, printed in hexadecimal, gives the tuple of the entry back, and
its time is the age of the request in whole milliseconds. -/
def Reports (now : UInt64) (it : PendingItem) (line : LogLine) : Prop :=
  ∃ (q : Tuple) (key ms : UInt64), line = .timeout key ms ∧ q.key = it.1 ∧ Tuple.ofHex (hex key.toNat) = some q ∧
    ms.toNat = (now.toNat - it.2.sendTs.toNat) / 10 ^ 6

/-- The keys of the time-outs that the lines report. -/
def timeoutKeys (lines : List LogLine) : List UInt64 :=
  lines.filterMap fun l =>
    match l with
    | .timeout key _ => some key
    | _ => none

/-- An eviction at `now` removes the overdue requests, changes nothing else, and reports each of them once. -/
structure ExactEviction (s : StatsCollector) (now : UInt64) (o : Enumeration PendingItem) : Prop where
  keeps : (s.evictExpired now o).1.pending.entries = s.pending.entries.filter fun it => ¬ Overdue now it
  frame : (s.evictExpired now o).1 = { s with pending := (s.evictExpired now o).1.pending }
  reports : s.logWriter = true →
    ∃ removed : List PendingItem, (removed : Multiset PendingItem) = s.pending.entries.filter (Overdue now) ∧
      List.Forall₂ (Reports now) removed (s.evictExpired now o).2

/-- An eviction at `t1` followed by one at `t2` does what the one at `t2` does alone. -/
structure Composes (s : StatsCollector) (t1 t2 : UInt64) (o o' o'' : Enumeration PendingItem) : Prop where
  table : ((s.evictExpired t1 o).1.evictExpired t2 o').1.pending = (s.evictExpired t2 o'').1.pending
  keys : (timeoutKeys (s.evictExpired t1 o).2 ++ timeoutKeys ((s.evictExpired t1 o).1.evictExpired t2 o').2).Perm
    (timeoutKeys (s.evictExpired t2 o'').2)

/-! ### The walk -/

private theorem overdue_iff {now : UInt64} {it : PendingItem} (h : it.2.sendTs ≤ now) :
    expired now it.2.sendTs = true ↔ Overdue now it := by
  have h' := UInt64.le_iff_toNat_le.1 h
  rw [expired_iff h]
  unfold Overdue
  omega

private theorem pending_evictExpired (s : StatsCollector) (now : UInt64) (o : Enumeration PendingItem) :
    (s.evictExpired now o).1.pending =
      (eraseLoop (fun it => expired now it.2.sendTs) (o.list s.pending.entries) s.pending).1 := by
  unfold evictExpired
  dsimp only
  rw [evictLoop_eq]

/-- The lines of an eviction are one for each entry that the walk erases. -/
private theorem lines_eq_eraseLoop (s : StatsCollector) (now : UInt64) (o : Enumeration PendingItem) :
    (s.evictExpired now o).2 = if s.logWriter then
      (eraseLoop (fun it => expired now it.2.sendTs) (o.list s.pending.entries) s.pending).2.map (timeoutLine now)
        else [] := by
  rw [lines_evictExpired, eraseLoop_snd]

private theorem timeoutKeys_map (now : UInt64) (its : List PendingItem) :
    timeoutKeys (its.map (timeoutLine now)) = its.map Sigma.fst := by
  unfold timeoutKeys
  rw [List.filterMap_map, ← List.filterMap_eq_map]
  rfl

theorem Tuple.ofHex_hex (q : Tuple) : Tuple.ofHex (hex q.key.toNat) = some q := by
  have hdigits : (hex q.key.toNat).toList = '0' :: 'x' :: Nat.toDigits 16 q.key.toNat := by
    unfold hex
    simp
  unfold Tuple.ofHex
  simp only [hdigits]
  rw [Numerals.readDigits_toDigits (by decide) (by decide), Option.map_some, UInt64.ofNat_toNat]
  exact congrArg some (Tuple.key_inj.1 (Tuple.key_ofKey q.key))

/-- The line of an entry that is not from the future reports it. -/
private theorem reports_timeoutLine {now : UInt64} {it : PendingItem} (h : it.2.sendTs ≤ now) :
    Reports now it (timeoutLine now it) := by
  refine ⟨Tuple.ofKey it.1, it.1, (now - it.2.sendTs) / 1000000, rfl, Tuple.key_ofKey it.1, ?_, ?_⟩
  · conv => lhs; rw [← Tuple.key_ofKey it.1]
    exact Tuple.ofHex_hex _
  · rw [UInt64.toNat_div, UInt64.toNat_sub_of_le _ _ h]
    rfl

private theorem exactEviction_of_le {s : StatsCollector} {now : UInt64}
    (h : ∀ it ∈ s.pending.entries, it.2.sendTs ≤ now) (o : Enumeration PendingItem) : ExactEviction s now o where
  keeps := by
    rw [pending_evictExpired, entries_eraseLoop]
    exact Multiset.filter_congr fun it hit => not_congr (overdue_iff (h it hit))
  frame := rfl
  reports hw := by
    refine ⟨(eraseLoop (fun it => expired now it.2.sendTs) (o.list s.pending.entries) s.pending).2, ?_, ?_⟩
    · rw [coe_eraseLoop_snd]
      exact Multiset.filter_congr fun it hit => overdue_iff (h it hit)
    · rw [lines_eq_eraseLoop, if_pos hw, List.forall₂_map_right_iff, List.forall₂_same]
      intro it hit
      rw [eraseLoop_snd] at hit
      exact reports_timeoutLine (h it (o.mem_list.1 (List.mem_filter.1 hit).1))

/-! ### Two evictions -/

/-- A request expired at `t1` is expired at any later time. -/
private theorem expired_mono {t1 t2 ts : UInt64} (h1 : ts ≤ t1) (h12 : t1 ≤ t2) (he : expired t1 ts = true) :
    expired t2 ts = true := by
  have h2 : ts ≤ t2 := UInt64.le_trans h1 h12
  have hle := UInt64.le_iff_toNat_le.1 h12
  rw [expired_iff h2]
  rw [expired_iff h1] at he
  omega

private theorem composes_of_le {s : StatsCollector} {t1 t2 : UInt64} (h : ∀ it ∈ s.pending.entries, it.2.sendTs ≤ t1)
    (h12 : t1 ≤ t2) (o o' o'' : Enumeration PendingItem) : Composes s t1 t2 o o' o'' := by
  obtain ⟨ht, hk⟩ := eraseLoop_eraseLoop (fun it hit he => expired_mono (h it hit) h12 he) o o' o''
  have hw : (s.evictExpired t1 o).1.logWriter = s.logWriter := rfl
  constructor
  · rw [pending_evictExpired, pending_evictExpired, pending_evictExpired]
    exact ht
  · rw [lines_eq_eraseLoop, lines_eq_eraseLoop, lines_eq_eraseLoop, hw, pending_evictExpired]
    split
    · rw [timeoutKeys_map, timeoutKeys_map, timeoutKeys_map, ← List.map_append]
      exact hk.map _
    · exact .nil

/-- With no request from the future, an eviction is exact in every order of the walk, and evictions compose. -/
theorem evictExpired_exact {s : StatsCollector} {t1 : UInt64} (h : ∀ it ∈ s.pending.entries, it.2.sendTs ≤ t1) :
    (∀ o, ExactEviction s t1 o) ∧ ∀ t2, t1 ≤ t2 → ∀ o o' o'', Composes s t1 t2 o o' o'' :=
  ⟨exactEviction_of_le h, fun _ h12 => composes_of_le h h12⟩

/-- A collector with two open requests, the first of which is overdue at the first eviction. -/
theorem evictExpired_exact_two :
    let s : StatsCollector := { fresh ⟨[], 3⟩ true with
      pending := (Finmap.singleton (Tuple.key ⟨0x1234, 1, 7, 9⟩) ⟨5⟩).insert (Tuple.key ⟨0x1234, 2, 7, 9⟩) ⟨20000000000⟩ }
    ExactEviction s 31000000000 byKey ∧ Composes s 31000000000 60000000000 byKey byKey byKey :=
  have h := evictExpired_exact (by decide)
  ⟨h.1 byKey, h.2 60000000000 (by decide) byKey byKey byKey⟩

end VsomeipCollector

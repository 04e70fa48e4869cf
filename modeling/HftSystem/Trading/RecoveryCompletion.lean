import Mathlib.Data.List.Sort
import HftSystem.Trading.SnapshotSync

set_option relaxedAutoImplicit false
set_option autoImplicit false

/-!
# When a recovery is complete

The exact condition under which `checkSnapshotSync` leaves the recovery, for any content of the two
queues. Sequence numbers are `size_t`s here, and the number behind the largest one is 0: an order id
of a SNAPSHOT_END can be the largest one, `OrderId_INVALID`.

## Main definitions

* `Trading.MarketDataConsumer.SizeT.checkSnapshotSync` — `checkSnapshotSync` in 64 bits.
* `Trading.MarketDataConsumer.MayComplete` — the queues with which a recovery may complete.

## Main results

* `Trading.MarketDataConsumer.SizeT.checkSnapshotSync_eq_of_lt` — where no number wraps, nothing is
  different in 64 bits.
* `Trading.MarketDataConsumer.SizeT.checkSnapshotSync_completes_iff` — recovery completes exactly when
  it may.
-/

/-! ## Keys that are consecutive -/

namespace SortedMap

variable {α : Type*}

/-- A key with a value. -/
lemma isSome_find? {m : SortedMap ℕ α} {k : ℕ} :
    (m.find? k).isSome = true ↔ k ∈ m.entries.map Prod.fst := by
  rw [Option.isSome_iff_exists, List.mem_map]
  refine ⟨fun ⟨a, ha⟩ => ⟨(k, a), find?_eq_some.mp ha, rfl⟩, ?_⟩
  rintro ⟨e, he, rfl⟩
  exact ⟨e.2, find?_eq_some.mpr he⟩

/-- The keys in order are consecutive exactly if they are all those of an interval. -/
lemma keys_eq_range' {es : List (ℕ × α)} (hsorted : es.Pairwise fun x y => x.1 < y.1) {n j : ℕ} :
    es.map Prod.fst = List.range' n j ↔ ∀ k, k ∈ es.map Prod.fst ↔ n ≤ k ∧ k < n + j := by
  refine ⟨fun h k => by rw [h, List.mem_range'_1], fun h => ?_⟩
  have hkeys : (es.map Prod.fst).Pairwise (· < ·) := List.pairwise_map.mpr hsorted
  refine hkeys.sortedLT.eq_of_mem_iff (List.pairwise_lt_range' 1).sortedLT fun k => ?_
  rw [h, List.mem_range'_1]

/-- The keys 0, 1, … are the places of the entries. -/
lemma fst_of_getElem? {m : SortedMap ℕ α}
    (h : m.entries.map Prod.fst = List.range' 0 m.entries.length) {i : ℕ} {e : ℕ × α}
    (he : m.entries[i]? = some e) : e.1 = i := by
  have hkey : (m.entries.map Prod.fst)[i]? = some e.1 := by rw [List.getElem?_map, he, Option.map_some]
  obtain ⟨hlt, -⟩ := List.getElem?_eq_some_iff.mp he
  rw [h, List.getElem?_range' hlt, Nat.zero_add, Nat.one_mul, Option.some_inj] at hkey
  exact hkey.symm

/-- Where the keys are the positions, a look-up is one by position. -/
lemma find?_iff_getElem? {m : SortedMap ℕ α}
    (h : m.entries.map Prod.fst = List.range' 0 m.entries.length) {i : ℕ} {a : α} :
    m.find? i = some a ↔ ∃ e, m.entries[i]? = some e ∧ e.2 = a := by
  rw [find?_eq_some]
  constructor
  · intro hmem
    obtain ⟨k, hk⟩ := List.mem_iff_getElem?.mp hmem
    obtain rfl : i = k := fst_of_getElem? h hk
    exact ⟨_, hk, rfl⟩
  · rintro ⟨e, he, rfl⟩
    rw [← fst_of_getElem? h he]
    exact List.mem_of_getElem? he

/-- The values of some of the entries, looked up. -/
lemma filterMap_find?_keys {m : SortedMap ℕ α} {es : List (ℕ × α)} (hes : es ⊆ m.entries) :
    (es.map Prod.fst).filterMap m.find? = es.map Prod.snd := by
  induction es with
  | nil => rfl
  | cons e es ih =>
    obtain ⟨he, hes⟩ := List.cons_subset.mp hes
    rw [List.map_cons, List.filterMap_cons_some (find?_eq_some.mpr he), ih hes, List.map_cons]

end SortedMap

namespace Trading

open Exchange

namespace MarketDataConsumer

/-! ## The code in 64 bits -/

namespace SizeT

/-- The loop over `incremental_queued_msgs_`: `have_complete_incremental`,
`next_exp_inc_seq_num_` and `final_events`. -/
def collectIncremental (nextExpIncSeqNum : ℕ) (finalEvents : List MEMarketUpdate) :
    List (ℕ × MEMarketUpdate) → Bool × ℕ × List MEMarketUpdate
  | [] => (true, nextExpIncSeqNum, finalEvents)
  | (seqNum, u) :: msgs =>
    if seqNum < nextExpIncSeqNum then collectIncremental nextExpIncSeqNum finalEvents msgs
    else if seqNum ≠ nextExpIncSeqNum then (false, nextExpIncSeqNum, finalEvents)
    else collectIncremental ((nextExpIncSeqNum + 1) % 2 ^ 64) (pushEvent finalEvents u) msgs

/-- The rest of `checkSnapshotSync` once a whole snapshot is queued. -/
def finishSync (c : MarketDataConsumer) (finalEvents : List MEMarketUpdate) (orderId : ℕ) :
    MarketDataConsumer :=
  let (haveCompleteIncremental, nextExpIncSeqNum, finalEvents) :=
    collectIncremental ((orderId + 1) % 2 ^ 64) finalEvents c.incrementalQueuedMsgs.entries
  let c := { c with nextExpIncSeqNum }
  if haveCompleteIncremental then
    { c with
      incomingMdUpdates := c.incomingMdUpdates ++ finalEvents
      snapshotQueuedMsgs := {}
      incrementalQueuedMsgs := {}
      inRecovery := false }
  else c.clearSnapshot

/-- `checkSnapshotSync`. The number that is expected in the snapshot queue counts its messages, and
needs no more than 64 bits. -/
def checkSnapshotSync (c : MarketDataConsumer) : MarketDataConsumer :=
  match c.snapshotQueuedMsgs.entries with
  | [] => c
  | first :: msgs =>
    if first.2.type ≠ .snapshotStart then c.clearSnapshot
    else
      let (haveCompleteSnapshot, finalEvents) := collectSnapshot 0 [] (first :: msgs)
      if !haveCompleteSnapshot then c.clearSnapshot
      else
        let last := (msgs.getLastD first).2
        if last.type ≠ .snapshotEnd then c else finishSync c finalEvents last.orderId

/-- The check of the snapshot comes first, and the end of the synchronisation behind it. -/
lemma checkSnapshotSync_eq (c : MarketDataConsumer) :
    checkSnapshotSync c = c.checkSnapshot (finishSync c) := rfl

/-! ## What is different in 64 bits -/

/-- **The loop in 64 bits** goes as the one with unbounded numbers, but for the number it ends with. -/
lemma collectIncremental_eq {n : ℕ} (finalEvents : List MEMarketUpdate)
    {msgs : List (ℕ × MEMarketUpdate)} (hn : n < 2 ^ 64)
    (hsorted : msgs.Pairwise fun m m' => m.1 < m'.1) (hmsgs : ∀ m ∈ msgs, m.1 < 2 ^ 64) :
    (collectIncremental n finalEvents msgs).1 =
        (MarketDataConsumer.collectIncremental n finalEvents msgs).1 ∧
      (collectIncremental n finalEvents msgs).2 =
        ((MarketDataConsumer.collectIncremental n finalEvents msgs).2.1 % 2 ^ 64,
          (MarketDataConsumer.collectIncremental n finalEvents msgs).2.2) := by
  induction msgs generalizing n finalEvents with
  | nil => exact ⟨rfl, by rw [collectIncremental, MarketDataConsumer.collectIncremental, Nat.mod_eq_of_lt hn]⟩
  | cons m msgs ih =>
    obtain ⟨seqNum, u⟩ := m
    obtain ⟨hbehind, hsorted⟩ := List.pairwise_cons.mp hsorted
    have htail : ∀ m ∈ msgs, m.1 < 2 ^ 64 := fun m hm => hmsgs m (List.mem_cons_of_mem _ hm)
    rw [collectIncremental, MarketDataConsumer.collectIncremental]
    split_ifs with hlt hne
    · exact ih finalEvents hn hsorted htail
    · exact ⟨rfl, by rw [Nat.mod_eq_of_lt hn]⟩
    · obtain rfl : seqNum = n := not_not.mp hne
      rcases Nat.lt_or_eq_of_le (Nat.succ_le_of_lt hn) with hlt | hwrap
      · rw [Nat.mod_eq_of_lt hlt]
        exact ih (pushEvent finalEvents u) hlt hsorted htail
      · -- the number wraps behind the largest one, and no message is left
        have hnil : msgs = [] := List.eq_nil_iff_forall_not_mem.mpr fun m hm => by
          have hafter := hbehind m hm
          have hbound := htail m hm
          omega
        rw [hnil]
        exact ⟨rfl, rfl⟩

/-- Where the numbers do not reach the largest one, the loop is the same. -/
lemma collectIncremental_eq_of_lt (n : ℕ) (finalEvents : List MEMarketUpdate)
    {msgs : List (ℕ × MEMarketUpdate)} (hmsgs : ∀ m ∈ msgs, m.1 + 1 < 2 ^ 64) :
    collectIncremental n finalEvents msgs =
      MarketDataConsumer.collectIncremental n finalEvents msgs := by
  induction msgs generalizing n finalEvents with
  | nil => rfl
  | cons m msgs ih =>
    obtain ⟨seqNum, u⟩ := m
    have htail : ∀ m ∈ msgs, m.1 + 1 < 2 ^ 64 := fun m hm => hmsgs m (List.mem_cons_of_mem _ hm)
    rw [collectIncremental, MarketDataConsumer.collectIncremental]
    split_ifs with hlt hne
    · exact ih _ _ htail
    · rfl
    · obtain rfl : seqNum = n := not_not.mp hne
      rw [Nat.mod_eq_of_lt (hmsgs _ (List.mem_cons_self ..)), ih _ _ htail]

/-- **Where no number wraps, nothing is different in 64 bits.** -/
theorem checkSnapshotSync_eq_of_lt {c : MarketDataConsumer}
    (hsnapshot : ∀ m ∈ c.snapshotQueuedMsgs.entries, m.2.orderId + 1 < 2 ^ 64)
    (hincremental : ∀ m ∈ c.incrementalQueuedMsgs.entries, m.1 + 1 < 2 ^ 64) :
    checkSnapshotSync c = c.checkSnapshotSync := by
  have hcases := checkSnapshot_cases (finishSync c) c
  rw [← checkSnapshotSync_eq] at hcases
  generalize checkSnapshotSync c = c' at hcases ⊢
  cases hcases with
  | wait h => exact h.checkSnapshotSync.symm
  | clear hnot h => rw [c.checkSnapshotSync_eq, checkSnapshot_of_not hnot h]
  | finish orderId h =>
    obtain ⟨m, hlast, -, rfl⟩ := h.finish
    rw [h.checkSnapshotSync]
    unfold finishSync MarketDataConsumer.finishSync
    rw [Nat.mod_eq_of_lt (hsnapshot m (List.mem_of_getLast? hlast)),
      collectIncremental_eq_of_lt _ _ hincremental]

/-! ## The second half -/

/-- The number behind an order id. -/
def nextSeqNum (orderId : ℕ) : ℕ := (orderId + 1) % 2 ^ 64

/-- It is a `size_t`. -/
lemma nextSeqNum_lt (orderId : ℕ) : nextSeqNum orderId < 2 ^ 64 := Nat.mod_lt _ (by decide)

/-- The incremental updates behind the snapshot. -/
def missed (c : MarketDataConsumer) (orderId : ℕ) : List (ℕ × MEMarketUpdate) :=
  fromSeq (nextSeqNum orderId) c.incrementalQueuedMsgs.entries

variable {c : MarketDataConsumer}

/-- **Updates that continue the snapshot** end the recovery. -/
lemma finishSync_of_consecutive (hrange : ∀ m ∈ c.incrementalQueuedMsgs.entries, m.1 < 2 ^ 64)
    (finalEvents : List MEMarketUpdate) {orderId : ℕ}
    (h : (missed c orderId).map Prod.fst =
      List.range' (nextSeqNum orderId) (missed c orderId).length) :
    finishSync c finalEvents orderId =
      { nextExpIncSeqNum := (nextSeqNum orderId + (missed c orderId).length) % 2 ^ 64
        incomingMdUpdates :=
          c.incomingMdUpdates ++ (finalEvents ++ events ((missed c orderId).map Prod.snd))
        inRecovery := false
        snapshotQueuedMsgs := {}
        incrementalQueuedMsgs := {} } := by
  have hsorted := c.incrementalQueuedMsgs.sorted
  obtain ⟨hcomplete, hrest⟩ := collectIncremental_eq finalEvents (nextSeqNum_lt orderId) hsorted hrange
  have hnat := (collectIncremental_fst (nextSeqNum orderId) finalEvents hsorted).mpr h
  rw [hnat] at hcomplete
  rw [collectIncremental_snd hsorted hnat] at hrest
  unfold finishSync
  rw [show (orderId + 1) % 2 ^ 64 = nextSeqNum orderId from rfl, ← Prod.mk.eta (p := collectIncremental ..),
    hcomplete, hrest]
  rfl

/-- **A gap behind the snapshot** leaves the incremental updates queued. -/
lemma finishSync_of_gap (hrange : ∀ m ∈ c.incrementalQueuedMsgs.entries, m.1 < 2 ^ 64)
    (finalEvents : List MEMarketUpdate) {orderId : ℕ}
    (h : (missed c orderId).map Prod.fst ≠
      List.range' (nextSeqNum orderId) (missed c orderId).length) :
    ∃ nextExpIncSeqNum, finishSync c finalEvents orderId =
      { c with nextExpIncSeqNum, snapshotQueuedMsgs := {} } := by
  have hsorted := c.incrementalQueuedMsgs.sorted
  obtain ⟨hcomplete, -⟩ := collectIncremental_eq finalEvents (nextSeqNum_lt orderId) hsorted hrange
  have hnat := (collectIncremental_fst (nextSeqNum orderId) finalEvents hsorted).not.mpr h
  rw [Bool.not_eq_true] at hnat
  rw [hnat] at hcomplete
  unfold finishSync
  generalize hloop : collectIncremental ((orderId + 1) % 2 ^ 64) finalEvents _ = r
  obtain ⟨complete, next, events⟩ := r
  obtain rfl : complete = false := (congrArg Prod.fst hloop).symm.trans hcomplete
  exact ⟨next, rfl⟩

end SizeT

/-! ## When it is complete -/

/-- **The recovery may complete**: the snapshot queue holds the messages 0 to `m`, from a SNAPSHOT_START
to a SNAPSHOT_END, and of the incremental queue exactly the first `j` messages behind the order id
`orderId` of the end. -/
structure MayComplete (c : MarketDataConsumer) (m orderId j : ℕ) : Prop where
  snapshotKeys : ∀ k, (c.snapshotQueuedMsgs.find? k).isSome = true ↔ k ≤ m
  start : ∃ u, c.snapshotQueuedMsgs.find? 0 = some u ∧ u.type = .snapshotStart
  finish : ∃ u, c.snapshotQueuedMsgs.find? m = some u ∧ u.type = .snapshotEnd ∧ u.orderId = orderId
  incrementalKeys : ∀ k, SizeT.nextSeqNum orderId ≤ k →
    ((c.incrementalQueuedMsgs.find? k).isSome = true ↔ k < SizeT.nextSeqNum orderId + j)

/-- The consumer after a recovery: the messages 0 to `m` of the snapshot and the `j` updates behind it
were forwarded, and the queues are empty. -/
def recovered (c : MarketDataConsumer) (m orderId j : ℕ) : MarketDataConsumer where
  nextExpIncSeqNum := (orderId + j + 1) % 2 ^ 64
  incomingMdUpdates := c.incomingMdUpdates ++
    (events ((List.range' 0 (m + 1)).filterMap c.snapshotQueuedMsgs.find?) ++
      events ((List.range' (SizeT.nextSeqNum orderId) j).filterMap c.incrementalQueuedMsgs.find?))
  inRecovery := false
  snapshotQueuedMsgs := {}
  incrementalQueuedMsgs := {}

variable {c : MarketDataConsumer} {m orderId j : ℕ}

/-- The keys of the snapshot queue are 0 to `m`. -/
lemma snapshotKeys_iff : (∀ k, (c.snapshotQueuedMsgs.find? k).isSome = true ↔ k ≤ m) ↔
    c.snapshotQueuedMsgs.entries.map Prod.fst = List.range' 0 (m + 1) := by
  rw [SortedMap.keys_eq_range' c.snapshotQueuedMsgs.sorted]
  refine forall_congr' fun k => ?_
  rw [SortedMap.isSome_find?, Nat.zero_add, Nat.lt_succ_iff]
  exact iff_congr Iff.rfl (and_iff_right (Nat.zero_le k)).symm

/-- **A whole snapshot is queued** exactly if its messages are looked up as such. -/
lemma completeSnapshot_iff : CompleteSnapshot c.snapshotQueuedMsgs.entries orderId ↔
    ∃ m, (∀ k, (c.snapshotQueuedMsgs.find? k).isSome = true ↔ k ≤ m) ∧
      (∃ u, c.snapshotQueuedMsgs.find? 0 = some u ∧ u.type = .snapshotStart) ∧
      ∃ u, c.snapshotQueuedMsgs.find? m = some u ∧ u.type = .snapshotEnd ∧ u.orderId = orderId := by
  have hlength {m : ℕ} (h : c.snapshotQueuedMsgs.entries.map Prod.fst = List.range' 0 (m + 1)) :
      c.snapshotQueuedMsgs.entries.length = m + 1 := by
    rw [← List.length_map (f := Prod.fst), h, List.length_range']
  constructor
  · rintro ⟨hall, ⟨first, hfirst, hstart⟩, last, hlast, hend, horder⟩
    have hpos : 0 < c.snapshotQueuedMsgs.entries.length := List.length_pos_of_mem (List.mem_of_head? hfirst)
    obtain ⟨m, hm⟩ := Nat.exists_eq_succ_of_ne_zero hpos.ne'
    rw [List.head?_eq_getElem?] at hfirst
    rw [List.getLast?_eq_getElem?, hm, Nat.succ_sub_one] at hlast
    refine ⟨m, snapshotKeys_iff.mpr (by rw [hall, hm]), ⟨first.2, ?_, hstart⟩, last.2, ?_, hend, horder⟩
    · exact (SortedMap.find?_iff_getElem? hall).mpr ⟨first, hfirst, rfl⟩
    · exact (SortedMap.find?_iff_getElem? hall).mpr ⟨last, hlast, rfl⟩
  · rintro ⟨m, hsome, ⟨u, hu, hstart⟩, v, hv, hend, horder⟩
    have hm := snapshotKeys_iff.mp hsome
    have hall := hm
    rw [← hlength hm] at hall
    obtain ⟨first, hfirst, rfl⟩ := (SortedMap.find?_iff_getElem? hall).mp hu
    obtain ⟨last, hlast, rfl⟩ := (SortedMap.find?_iff_getElem? hall).mp hv
    refine ⟨hall, ⟨first, ?_, hstart⟩, last, ?_, hend, horder⟩
    · rw [List.head?_eq_getElem?, hfirst]
    · rw [List.getLast?_eq_getElem?, hlength hm, Nat.add_sub_cancel, hlast]

/-- **The updates behind the snapshot** are consecutive exactly if they are the first ones. -/
lemma missed_consecutive_iff : (∀ k, SizeT.nextSeqNum orderId ≤ k →
      ((c.incrementalQueuedMsgs.find? k).isSome = true ↔ k < SizeT.nextSeqNum orderId + j)) ↔
    (SizeT.missed c orderId).map Prod.fst = List.range' (SizeT.nextSeqNum orderId) j := by
  have hsorted : (SizeT.missed c orderId).Pairwise fun x y => x.1 < y.1 :=
    c.incrementalQueuedMsgs.sorted.filter _
  have hmem (k : ℕ) : k ∈ (SizeT.missed c orderId).map Prod.fst ↔
      SizeT.nextSeqNum orderId ≤ k ∧ (c.incrementalQueuedMsgs.find? k).isSome = true := by
    rw [SortedMap.isSome_find?, SizeT.missed, fromSeq, List.mem_map, List.mem_map]
    constructor
    · rintro ⟨e, he, rfl⟩
      obtain ⟨he, hle⟩ := List.mem_filter.mp he
      exact ⟨of_decide_eq_true hle, e, he, rfl⟩
    · rintro ⟨hle, e, he, rfl⟩
      exact ⟨e, List.mem_filter.mpr ⟨he, decide_eq_true hle⟩, rfl⟩
  rw [SortedMap.keys_eq_range' hsorted]
  refine forall_congr' fun k => ?_
  rw [hmem]
  exact ⟨fun h => and_congr_right h, fun h hle => by simpa [hle] using h⟩

/-- **A recovery that may complete does.** -/
lemma MayComplete.checkSnapshotSync (h : MayComplete c m orderId j)
    (hrange : ∀ e ∈ c.incrementalQueuedMsgs.entries, e.1 < 2 ^ 64) :
    SizeT.checkSnapshotSync c = c.recovered m orderId j := by
  have hcomplete := completeSnapshot_iff.mpr ⟨m, h.snapshotKeys, h.start, h.finish⟩
  have hmissed := missed_consecutive_iff.mp h.incrementalKeys
  have hlength : (SizeT.missed c orderId).length = j := by
    rw [← List.length_map (f := Prod.fst), hmissed, List.length_range']
  -- the messages are those that are found under their numbers
  have hsnapshot : c.snapshotQueuedMsgs.entries.map Prod.snd =
      (List.range' 0 (m + 1)).filterMap c.snapshotQueuedMsgs.find? := by
    rw [← snapshotKeys_iff.mp h.snapshotKeys, SortedMap.filterMap_find?_keys (List.Subset.refl _)]
  have hincremental : (SizeT.missed c orderId).map Prod.snd =
      (List.range' (SizeT.nextSeqNum orderId) j).filterMap c.incrementalQueuedMsgs.find? := by
    rw [← hmissed]
    exact (SortedMap.filterMap_find?_keys (List.filter_subset_self _)).symm
  rw [SizeT.checkSnapshotSync_eq, hcomplete.checkSnapshot,
    SizeT.finishSync_of_consecutive hrange _ (by rw [hlength, hmissed]), hlength, hsnapshot,
    hincremental, recovered, SizeT.nextSeqNum, Nat.mod_add_mod, Nat.add_right_comm]

/-- **A recovery that may not complete** keeps the incremental updates and forwards nothing. -/
lemma checkSnapshotSync_of_not_mayComplete (h : ∀ m orderId j, ¬ MayComplete c m orderId j)
    (hrange : ∀ e ∈ c.incrementalQueuedMsgs.entries, e.1 < 2 ^ 64) :
    (SizeT.checkSnapshotSync c).incomingMdUpdates = c.incomingMdUpdates ∧
      (SizeT.checkSnapshotSync c).inRecovery = c.inRecovery ∧
      (SizeT.checkSnapshotSync c).incrementalQueuedMsgs = c.incrementalQueuedMsgs := by
  have hcases := checkSnapshot_cases (SizeT.finishSync c) c
  rw [← SizeT.checkSnapshotSync_eq] at hcases
  generalize SizeT.checkSnapshotSync c = c' at hcases ⊢
  cases hcases with
  | wait => exact ⟨rfl, rfl, rfl⟩
  | clear => exact ⟨rfl, rfl, rfl⟩
  | finish orderId hcomplete =>
    obtain ⟨m, hkeys, hstart, hfinish⟩ := completeSnapshot_iff.mp hcomplete
    have hgap : (SizeT.missed c orderId).map Prod.fst ≠
        List.range' (SizeT.nextSeqNum orderId) (SizeT.missed c orderId).length := fun hmissed =>
      h m orderId _ ⟨hkeys, hstart, hfinish, missed_consecutive_iff.mpr hmissed⟩
    obtain ⟨next, hnext⟩ := SizeT.finishSync_of_gap hrange
      (events (c.snapshotQueuedMsgs.entries.map Prod.snd)) hgap
    rw [hnext]
    exact ⟨rfl, rfl, rfl⟩

/-- **Recovery completes exactly when it may**, and forwards the snapshot and the updates behind it;
otherwise it goes on, and keeps the updates. -/
theorem SizeT.checkSnapshotSync_completes_iff (hrecovery : c.inRecovery = true)
    (hrange : ∀ e ∈ c.incrementalQueuedMsgs.entries, e.1 < 2 ^ 64) :
    ((SizeT.checkSnapshotSync c).inRecovery = false ↔ ∃ m orderId j, MayComplete c m orderId j) ∧
      (∀ m orderId j, MayComplete c m orderId j →
        SizeT.checkSnapshotSync c = c.recovered m orderId j) ∧
      ((∀ m orderId j, ¬ MayComplete c m orderId j) →
        (SizeT.checkSnapshotSync c).incomingMdUpdates = c.incomingMdUpdates ∧
          (SizeT.checkSnapshotSync c).inRecovery = true ∧
          (SizeT.checkSnapshotSync c).incrementalQueuedMsgs = c.incrementalQueuedMsgs) := by
  have hcompletes (m orderId j : ℕ) (h : MayComplete c m orderId j) := h.checkSnapshotSync hrange
  have hstays (h : ∀ m orderId j, ¬ MayComplete c m orderId j) :=
    checkSnapshotSync_of_not_mayComplete h hrange
  rw [hrecovery] at hstays
  refine ⟨⟨fun hdone => ?_, ?_⟩, hcompletes, hstays⟩
  · by_contra hnot
    have hstill := (hstays fun m orderId j h => hnot ⟨m, orderId, j, h⟩).2.1
    rw [hdone] at hstill
    cases hstill
  · rintro ⟨m, orderId, j, h⟩
    rw [hcompletes m orderId j h]
    rfl

/-- In recovery, with a whole snapshot of order id 5 and the updates 3, 6 and 7. -/
def sampleRecovery : MarketDataConsumer where
  inRecovery := true
  snapshotQueuedMsgs :=
    ⟨[(0, { type := .snapshotStart, orderId := 5 }), (1, { type := .add, orderId := 1 }),
      (2, { type := .snapshotEnd, orderId := 5 })], by decide⟩
  incrementalQueuedMsgs :=
    ⟨[(3, { type := .add, orderId := 1 }), (6, { type := .add, orderId := 2 }),
      (7, { type := .cancel, orderId := 1 })], by decide⟩

/-- The updates 6 and 7 are forwarded behind the one of the snapshot. -/
theorem SizeT.checkSnapshotSync_completes_sample :
    SizeT.checkSnapshotSync sampleRecovery = sampleRecovery.recovered 2 5 2 := by
  exact (checkSnapshotSync_completes_iff rfl (by decide)).2.1 2 5 2
    { snapshotKeys := fun _ => snapshotKeys_iff.mpr (by decide) _
      start := ⟨_, rfl, rfl⟩
      finish := ⟨_, rfl, rfl, rfl⟩
      incrementalKeys := missed_consecutive_iff.mpr (by decide) }

end MarketDataConsumer

end Trading

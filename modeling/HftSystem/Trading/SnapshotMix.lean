import HftSystem.Exchange.SnapshotSynthesizer
import HftSystem.Trading.SnapshotSync

set_option relaxedAutoImplicit false
set_option autoImplicit false

/-!
# Messages of several snapshots

A snapshot message is queued under its number within its snapshot, and nothing else tells the
snapshots apart. Where no message is queued behind the messages of another snapshot, whatever was
lost, a completed recovery forwards the events of one snapshot only.

## Main definitions

* `Trading.FromOneSnapshot` — a completed recovery forwards events of one snapshot.
* `Trading.Joins` — a message that continues the queue belongs to the snapshot whose
  SNAPSHOT_START is in front of it.

## Main results

* `Trading.recovers_from_one_snapshot` — recoveries whose messages all join their own snapshot.
* `Trading.recovers_from_two_snapshots` — a recovery that completes from two.
-/

namespace Trading

open Common Exchange Fallible MarketDataConsumer

namespace MarketDataConsumer

/-- `recvCallback` calls `checkSnapshotSync` for a message. -/
def Checks (c : MarketDataConsumer) (m : MDPMarketUpdate) : Prop :=
  c.inRecovery = true ∨ m.seqNum ≠ c.nextExpIncSeqNum

/-- The consumer that queues a message: a recovery starts if it has not started. -/
def inSync (c : MarketDataConsumer) : MarketDataConsumer :=
  if c.inRecovery then c else { c with inRecovery := true }.startSnapshotSync

/-- The consumer when `checkSnapshotSync` is called for a message. -/
def atCheck (c : MarketDataConsumer) (isSnapshot : Bool) (m : MDPMarketUpdate) :
    MarketDataConsumer := c.inSync.enqueue isSnapshot m

/-- A message that is checked is queued before. -/
lemma recvMessage_of_checks {c : MarketDataConsumer} {m : MDPMarketUpdate} (h : c.Checks m)
    (isSnapshot : Bool) :
    recvMessage isSnapshot c m = (c.atCheck isSnapshot m).checkSnapshotSync := by
  unfold atCheck inSync
  cases hrecovery : c.inRecovery with
  | true =>
    rw [recvMessage_of_inRecovery hrecovery, if_pos rfl]
    rfl
  | false =>
    have hseq := h.resolve_left (by simp [hrecovery])
    rw [recvMessage_of_not_inRecovery hrecovery, if_pos hseq, if_neg (by simp)]
    rfl

/-- The check is made in a recovery. -/
lemma inRecovery_atCheck (c : MarketDataConsumer) (isSnapshot : Bool) (m : MDPMarketUpdate) :
    (c.atCheck isSnapshot m).inRecovery = true := by
  have hsync : c.inSync.inRecovery = true := by
    unfold inSync
    split_ifs with h
    · exact h
    · rfl
  unfold atCheck enqueue
  split_ifs <;> exact hsync

/-- A message without a check is not queued. -/
lemma snapshotQueuedMsgs_of_not_checks {c : MarketDataConsumer} {m : MDPMarketUpdate}
    (h : ¬ c.Checks m) (isSnapshot : Bool) :
    (recvMessage isSnapshot c m).snapshotQueuedMsgs = c.snapshotQueuedMsgs := by
  obtain ⟨hrecovery, hseq⟩ := not_or.mp h
  rw [recvMessage_of_not_inRecovery (by simpa using hrecovery), if_neg hseq]
  split_ifs <;> rfl

/-- The snapshot queue that a message is put into. -/
lemma inSync_cases (c : MarketDataConsumer) :
    c.inSync = c ∧ c.inRecovery = true ∨ c.inSync.snapshotQueuedMsgs.entries = [] := by
  unfold inSync
  split_ifs with h
  · exact .inl ⟨rfl, h⟩
  · exact .inr rfl

end MarketDataConsumer

/-! ## Snapshots apart -/

section Snapshots

variable {snaps : List SnapshotSynthesizer}

/-- **A completed recovery forwards the events of one snapshot**: at the call of
`checkSnapshotSync`, all messages in the snapshot queue belong to the snapshot whose number its
SNAPSHOT_END carries, and their events are forwarded before some incremental updates. -/
def FromOneSnapshot (snaps : List SnapshotSynthesizer) (q : MarketDataConsumer) : Prop :=
  ∃ s ∈ snaps, (∀ e ∈ q.snapshotQueuedMsgs.entries, e ∈ queued s.publishSnapshot) ∧
    (∃ m, q.snapshotQueuedMsgs.entries.getLast? = some m ∧ m.2.type = .snapshotEnd ∧
      m.2.orderId = s.lastIncSeqNum) ∧
    ∃ incrementals, incrementals ⊆ q.incrementalQueuedMsgs.values ∧
      q.checkSnapshotSync.incomingMdUpdates =
        q.incomingMdUpdates ++ (events q.snapshotQueuedMsgs.values ++ incrementals)

/-- **A message joins its own snapshot**: if it continues the snapshot queue, it belongs to the
snapshot whose SNAPSHOT_START is in front of the queue. -/
def Joins (snaps : List SnapshotSynthesizer) (c : MarketDataConsumer) (m : MDPMarketUpdate) :
    Prop :=
  c.inRecovery = true → ∀ first, c.snapshotQueuedMsgs.entries.head? = some first →
    m.seqNum = c.snapshotQueuedMsgs.entries.length →
      ∃ s ∈ snaps, s.lastIncSeqNum = first.2.orderId ∧ m ∈ s.publishSnapshot

/-- The snapshot queue between two messages: its messages belong to the snapshot whose
SNAPSHOT_START is in front. -/
structure Apart (snaps : List SnapshotSynthesizer) (c : MarketDataConsumer) : Prop where
  resumable : c.Resumable
  snapshot : ∀ first, c.snapshotQueuedMsgs.entries.head? = some first →
    ∃ s ∈ snaps, s.lastIncSeqNum = first.2.orderId ∧
      ∀ e ∈ c.snapshotQueuedMsgs.entries, e ∈ queued s.publishSnapshot

/-- An empty snapshot queue. -/
lemma apart_of_nil {c : MarketDataConsumer} (h : c.snapshotQueuedMsgs.entries = []) :
    Apart snaps c := ⟨.inl h, fun first hfirst => by simp [h] at hfirst⟩

/-- Nothing but the snapshot queue matters. -/
lemma Apart.of_snapshotQueuedMsgs {c c' : MarketDataConsumer} (h : Apart snaps c)
    (hc' : c'.snapshotQueuedMsgs = c.snapshotQueuedMsgs) : Apart snaps c' := by
  refine ⟨?_, ?_⟩
  · unfold Resumable
    rw [hc']
    exact h.resumable
  · rw [hc']
    exact h.snapshot

/-- Snapshots that are taken after different numbers of updates. -/
structure Taken (snaps : List SnapshotSynthesizer) : Prop where
  adds : ∀ s ∈ snaps, s.OnlyAdds
  increasing : snaps.Pairwise fun s s' => s.lastIncSeqNum < s'.lastIncSeqNum

/-- The number identifies the snapshot. -/
lemma Taken.eq_of_lastIncSeqNum (h : Taken snaps) {s s' : SnapshotSynthesizer} (hs : s ∈ snaps)
    (hs' : s' ∈ snaps) (he : s.lastIncSeqNum = s'.lastIncSeqNum) : s = s' := by
  have hnodup : (snaps.map SnapshotSynthesizer.lastIncSeqNum).Nodup :=
    List.pairwise_map.mpr (h.increasing.imp fun hlt => hlt.ne)
  exact List.inj_on_of_nodup_map hnodup hs hs' he

/-- The snapshot queue with a message of a snapshot in it: it is the only one, or the queue was
continued within one snapshot, or there is a gap. -/
inductive Enqueued (snaps : List SnapshotSynthesizer) (m : MDPMarketUpdate)
    (es : List (ℕ × MEMarketUpdate)) : Prop
  | alone (h : es = [(m.seqNum, m.meMarketUpdate)])
  | joined (s : SnapshotSynthesizer) (hs : s ∈ snaps) (first : ℕ × MEMarketUpdate)
      (hfirst : es.head? = some first) (hnum : s.lastIncSeqNum = first.2.orderId)
      (hlast : es.getLast? = some (m.seqNum, m.meMarketUpdate)) (hlength : 1 < es.length)
      (h : ∀ e ∈ es, e ∈ queued s.publishSnapshot)
  | gap (h : es.map Prod.fst ≠ List.range' 0 es.length)

/-- A snapshot message in an empty queue, or in one that has its number. -/
lemma entries_enqueue_of_empty {q : MarketDataConsumer} {m : MDPMarketUpdate}
    (h : q.snapshotQueuedMsgs.entries = [] ∨
      (q.snapshotQueuedMsgs.find? m.seqNum).isSome = true) :
    (q.enqueue true m).snapshotQueuedMsgs.entries = [(m.seqNum, m.meMarketUpdate)] := by
  unfold enqueue
  rw [if_pos rfl]
  split_ifs with hfind
  · rfl
  · have hempty := h.resolve_right hfind
    show (q.snapshotQueuedMsgs.insert m.seqNum m.meMarketUpdate).entries = _
    rw [SortedMap.entries_insert_of_lt (by simp [hempty]), hempty]
    rfl

/-- A snapshot message whose number is new in a resumable queue: it comes last. -/
lemma entries_enqueue_of_resumable {q : MarketDataConsumer} (h : q.Resumable) {m : MDPMarketUpdate}
    (hfind : q.snapshotQueuedMsgs.find? m.seqNum = none) :
    (q.enqueue true m).snapshotQueuedMsgs.entries =
        q.snapshotQueuedMsgs.entries ++ [(m.seqNum, m.meMarketUpdate)] ∧
      q.snapshotQueuedMsgs.entries.map Prod.fst =
        List.range' 0 q.snapshotQueuedMsgs.entries.length := by
  have hkeys : q.snapshotQueuedMsgs.entries.map Prod.fst =
      List.range' 0 q.snapshotQueuedMsgs.entries.length := by
    rcases h with hnil | ⟨hkeys, -⟩
    · rw [hnil]
      rfl
    · exact hkeys
  have hnew := SortedMap.find?_eq_none.mp hfind
  have hlt : ∀ e ∈ q.snapshotQueuedMsgs.entries, e.1 < m.seqNum := by
    intro e he
    have hkey := hkeys ▸ List.mem_map_of_mem (f := Prod.fst) he
    rw [List.mem_range'_1] at hkey
    by_contra hge
    -- the number would be one of the numbers in the queue
    have hmem : m.seqNum ∈ q.snapshotQueuedMsgs.entries.map Prod.fst := by
      rw [hkeys, List.mem_range'_1]
      omega
    obtain ⟨e', he', hid⟩ := List.mem_map.mp hmem
    exact hnew e' he' hid
  refine ⟨?_, hkeys⟩
  unfold enqueue
  rw [if_pos rfl, hfind, if_neg (by simp)]
  exact SortedMap.entries_insert_of_lt hlt _

/-- **What a snapshot message makes of the snapshot queue.**

**Proof sketch.** By what the queue holds. An empty queue, and one that has the number already, is left
with the message alone. Otherwise the message is put behind the others, and if its number is the next
one, then it belongs to the snapshot of the first one (`Joins`), as there is one snapshot of each
number. If its number is not the next one, the queue has a gap. -/
lemma Apart.enqueued (hsnaps : Taken snaps) {c : MarketDataConsumer} (h : Apart snaps c)
    {m : MDPMarketUpdate} (hjoins : Joins snaps c m) :
    Enqueued snaps m (c.atCheck true m).snapshotQueuedMsgs.entries := by
  unfold atCheck
  rcases c.inSync_cases with ⟨hsync, hrecovery⟩ | hempty
  swap
  · exact .alone (entries_enqueue_of_empty (.inl hempty))
  rw [hsync]
  cases hfind : c.snapshotQueuedMsgs.find? m.seqNum with
  | some u => exact .alone (entries_enqueue_of_empty (.inr (by simp [hfind])))
  | none =>
    obtain ⟨hentries, hkeys⟩ := entries_enqueue_of_resumable h.resumable hfind
    cases hes : c.snapshotQueuedMsgs.entries with
    | nil => exact .alone (entries_enqueue_of_empty (.inl hes))
    | cons first es =>
      have hhead : c.snapshotQueuedMsgs.entries.head? = some first := by rw [hes]; rfl
      by_cases hseq : m.seqNum = c.snapshotQueuedMsgs.entries.length
      · obtain ⟨s, hs, hnum, hall⟩ := h.snapshot first hhead
        obtain ⟨s', hs', hnum', hm⟩ := hjoins hrecovery first hhead hseq
        obtain rfl := hsnaps.eq_of_lastIncSeqNum hs' hs (hnum'.trans hnum.symm)
        refine .joined s' hs first ?_ hnum ?_ ?_ fun e he => ?_
        · rw [hentries, hes]
          rfl
        · rw [hentries, List.getLast?_append]
          rfl
        · rw [hentries, hes, List.length_append]
          simp
        · rw [hentries] at he
          rcases List.mem_append.mp he with he | he
          · exact hall e he
          · rw [List.mem_singleton.mp he]
            exact List.mem_map_of_mem hm
      · refine .gap fun hrange => hseq ?_
        rw [hentries, List.map_append, hkeys, List.length_append, List.length_singleton,
          List.range'_concat] at hrange
        have hlast := List.append_cancel_left hrange
        simpa using hlast

/-! ## Runs -/

/-- A check of a queue that a snapshot message was put into leaves the snapshots apart, and if it
ends the recovery, it forwards the events of one snapshot.

**Proof sketch.** By the cases of the check. If the queue is cleared there is nothing to tell apart. If
the check waits, the queue is the beginning of a snapshot: a single message is its SNAPSHOT_START,
which carries the number of its snapshot, and a joined one leaves the queue with the snapshot that it
had. If the snapshot is complete it is not a single message, since none is both START and END, so all
messages are of one snapshot and the END carries its number. -/
lemma Enqueued.checkSnapshotSync (hsnaps : Taken snaps) {q : MarketDataConsumer}
    {m : MDPMarketUpdate} (hm : ∃ s ∈ snaps, m ∈ s.publishSnapshot) (hq : q.inRecovery = true)
    (h : Enqueued snaps m q.snapshotQueuedMsgs.entries) :
    Apart snaps q.checkSnapshotSync ∧
      (q.checkSnapshotSync.inRecovery = false → FromOneSnapshot snaps q) := by
  have hcases := checkSnapshotSync_cases q
  generalize hc' : q.checkSnapshotSync = c' at hcases ⊢
  cases hcases with
  | clear => exact ⟨apart_of_nil rfl, fun hend => by simp [clearSnapshot, hq] at hend⟩
  | wait hresumable =>
    refine ⟨⟨hresumable, fun first hfirst => ?_⟩, fun hend => by simp [hq] at hend⟩
    cases h with
    | alone h =>
      -- the only message is a SNAPSHOT_START
      obtain ⟨s, hs, hms⟩ := hm
      rw [h] at hfirst
      cases hfirst
      have hstart : m.meMarketUpdate.type = .snapshotStart := by
        rcases hresumable with hnil | ⟨-, ⟨e, he, hstart⟩, -⟩
        · simp [h] at hnil
        · rw [h] at he
          cases he
          exact hstart
      have hnum := (hsnaps.adds s hs).orderId_of_marker hms (.inl hstart)
      refine ⟨s, hs, hnum.symm, fun e he => ?_⟩
      rw [h] at he
      rw [List.mem_singleton.mp he]
      exact List.mem_map_of_mem hms
    | joined s hs first' hfirst' hnum _ _ hall =>
      obtain rfl := Option.some_inj.mp (hfirst'.symm.trans hfirst)
      exact ⟨s, hs, hnum, hall⟩
    | gap hgap =>
      rcases hresumable with hnil | ⟨hkeys, -⟩
      · simp [hnil] at hgap
      · exact absurd hkeys hgap
  | finish orderId hcomplete =>
    obtain ⟨hkeys, ⟨first, hfirst, hstart⟩, last, hlast, hend, -⟩ := hcomplete
    obtain ⟨s, hs, hall, hlast'⟩ : ∃ s ∈ snaps,
        (∀ e ∈ q.snapshotQueuedMsgs.entries, e ∈ queued s.publishSnapshot) ∧
          q.snapshotQueuedMsgs.entries.getLast? = some last := by
      cases h with
      | alone h =>
        -- no message is both a SNAPSHOT_START and a SNAPSHOT_END
        rw [h] at hfirst hlast
        cases hfirst
        cases hlast
        exact absurd (hstart.symm.trans hend) (by decide)
      | joined s hs _ _ _ _ _ hall => exact ⟨s, hs, hall, hlast⟩
      | gap hgap => exact absurd hkeys hgap
    have hnum : last.2.orderId = s.lastIncSeqNum := by
      obtain ⟨w, hw, rfl⟩ := List.mem_map.mp (hall last (List.mem_of_getLast? hlast'))
      exact (hsnaps.adds s hs).orderId_of_marker hw (.inr hend)
    have hfinished :=
      finishSync_cases q (events (q.snapshotQueuedMsgs.entries.map Prod.snd)) orderId
    generalize q.finishSync _ orderId = c' at hc' hfinished ⊢
    cases hfinished with
    | recover _ =>
      refine ⟨apart_of_nil rfl, fun _ => ⟨s, hs, hall, ⟨last, hlast', hend, hnum⟩,
        events ((fromSeq (orderId + 1) q.incrementalQueuedMsgs.entries).map Prod.snd), ?_, ?_⟩⟩
      · intro u hu
        obtain ⟨e, he, rfl⟩ := List.mem_map.mp (List.mem_filter.mp hu).1
        exact List.mem_map_of_mem (List.mem_filter.mp he).1
      · rw [hc']
        rfl
    | gap _ => exact ⟨apart_of_nil rfl, fun hend => by simp [hq] at hend⟩

/-- **One message** leaves the snapshots apart, and if it ends the recovery, the events of one
snapshot are forwarded. -/
lemma Apart.recvMessage (hsnaps : Taken snaps) {c : MarketDataConsumer} (h : Apart snaps c)
    {isSnapshot : Bool} {m : MDPMarketUpdate}
    (hm : isSnapshot = true → (∃ s ∈ snaps, m ∈ s.publishSnapshot) ∧ Joins snaps c m) :
    Apart snaps (recvMessage isSnapshot c m) ∧ (c.Checks m →
      (c.atCheck isSnapshot m).checkSnapshotSync.inRecovery = false →
        FromOneSnapshot snaps (c.atCheck isSnapshot m)) := by
  by_cases hchecks : c.Checks m
  swap
  · exact ⟨h.of_snapshotQueuedMsgs (snapshotQueuedMsgs_of_not_checks hchecks isSnapshot),
      fun hc => absurd hc hchecks⟩
  rw [recvMessage_of_checks hchecks]
  cases isSnapshot with
  | true =>
    obtain ⟨hsnap, hjoins⟩ := hm rfl
    have hcheck := (h.enqueued hsnaps hjoins).checkSnapshotSync hsnaps hsnap
      (inRecovery_atCheck c true m)
    exact ⟨hcheck.1, fun _ => hcheck.2⟩
  | false =>
    -- the snapshot queue is what it was, or empty, and the check waits
    have hapart : Apart snaps (c.atCheck false m) := by
      rcases c.inSync_cases with ⟨hsync, -⟩ | hempty
      · exact h.of_snapshotQueuedMsgs (by rw [atCheck, hsync]; rfl)
      · exact apart_of_nil hempty
    rw [hapart.resumable.checkSnapshotSync]
    refine ⟨hapart, fun _ hend => ?_⟩
    rw [inRecovery_atCheck] at hend
    cases hend

/-- **Recoveries do not mix snapshots whose messages join their own.** Let some snapshots be
taken after different numbers of updates, and let any reads contain messages of these snapshots
and any incremental messages. If every snapshot message that is processed joins its own snapshot,
then every completed recovery forwards the events of one snapshot, the one whose number its
SNAPSHOT_END carries. -/
theorem recovers_from_one_snapshot
    (hreached : ∀ s ∈ snaps, ∃ us : List MDPMarketUpdate,
      us.foldlM SnapshotSynthesizer.addToSnapshot .new = .ok s)
    (hincreasing : snaps.Pairwise fun s s' => s.lastIncSeqNum < s'.lastIncSeqNum)
    {reads : List (Bool × List MDPMarketUpdate)}
    (hsnapshot : ∀ m ∈ messagesFrom true reads, ∃ s ∈ snaps, m ∈ s.publishSnapshot)
    (hjoins : ∀ pre m post, processed {} reads = pre ++ (true, m) :: post →
      Joins snaps (recvMessages {} pre) m) :
    ∀ pre isSnapshot m post, processed {} reads = pre ++ (isSnapshot, m) :: post →
      (recvMessages {} pre).Checks m →
        ((recvMessages {} pre).atCheck isSnapshot m).checkSnapshotSync.inRecovery = false →
          FromOneSnapshot snaps ((recvMessages {} pre).atCheck isSnapshot m) := by
  have hsnaps : Taken snaps := ⟨fun s hs => (hreached s hs).elim fun us hus =>
    SnapshotSynthesizer.onlyAdds_of_run hus, hincreasing⟩
  have hfrom : ∀ m, (true, m) ∈ processed {} reads → ∃ s ∈ snaps, m ∈ s.publishSnapshot :=
    fun m hm => hsnapshot m (mem_of_mem_processed hm)
  generalize processed {} reads = msgs at hjoins hfrom ⊢
  have happly : ∀ pre isSnapshot m post, msgs = pre ++ (isSnapshot, m) :: post →
      isSnapshot = true →
        (∃ s ∈ snaps, m ∈ s.publishSnapshot) ∧ Joins snaps (recvMessages {} pre) m := by
    rintro pre _ m post rfl rfl
    exact ⟨hfrom m (by simp), hjoins pre m post rfl⟩
  have hapart : ∀ pre post, msgs = pre ++ post → Apart snaps (recvMessages {} pre) := by
    intro pre
    induction pre using List.reverseRecOn with
    | nil => exact fun _ _ => apart_of_nil rfl
    | append_singleton pre m ih =>
      intro post hmsgs
      rw [List.append_assoc] at hmsgs
      rw [recvMessages_append_singleton]
      exact ((ih _ hmsgs).recvMessage hsnaps (happly pre m.1 m.2 post hmsgs)).1
  intro pre isSnapshot m post hmsgs
  exact ((hapart pre _ hmsgs).recvMessage hsnaps (happly pre isSnapshot m post hmsgs)).2

end Snapshots

/-! ## Two snapshots -/

/-- An ADD of one ticker. -/
def addUpdate (orderId : ℕ) (price : ℤ) : MEMarketUpdate :=
  { type := .add, orderId, tickerId := 0, side := .buy, price, qty := 5, priority := 1 }

/-- An order is added and canceled, and another one is added. -/
def twoOrders : List MDPMarketUpdate :=
  numberedFrom 1 [addUpdate 1 10,
    { type := .cancel, orderId := 1, tickerId := 0, side := .buy, price := 10, qty := 0,
      priority := 1 },
    addUpdate 2 11]

/-- A snapshot of one order, after `n` updates. -/
def oneOrder (n : ℕ) (u : MEMarketUpdate) : List MDPMarketUpdate :=
  numberedFrom 0
    [{ type := .snapshotStart, orderId := n }, { type := .clear, tickerId := 0 }, u,
     { type := .clear, tickerId := 1 }, { type := .clear, tickerId := 2 },
     { type := .clear, tickerId := 3 }, { type := .clear, tickerId := 4 },
     { type := .clear, tickerId := 5 }, { type := .clear, tickerId := 6 },
     { type := .clear, tickerId := 7 }, { type := .snapshotEnd, orderId := n }]

/-- The synthesizers after the first update and after all three. -/
lemma exists_twoOrders :
    (∃ s, (twoOrders.take 1).foldlM SnapshotSynthesizer.addToSnapshot .new = .ok s ∧
      s.publishSnapshot = oneOrder 1 (addUpdate 1 10) ∧ s.lastIncSeqNum = 1) ∧
    ∃ s, twoOrders.foldlM SnapshotSynthesizer.addToSnapshot .new = .ok s ∧
      s.publishSnapshot = oneOrder 3 (addUpdate 2 11) ∧ s.lastIncSeqNum = 3 :=
  ⟨(show Safe (fun _ => False) (fun s : SnapshotSynthesizer =>
      s.publishSnapshot = oneOrder 1 (addUpdate 1 10) ∧ s.lastIncSeqNum = 1) _
      by decide +kernel).exists_ok,
    (show Safe (fun _ => False) (fun s : SnapshotSynthesizer =>
      s.publishSnapshot = oneOrder 3 (addUpdate 2 11) ∧ s.lastIncSeqNum = 3) _
      by decide +kernel).exists_ok⟩

/-- The update that is received when the first one is lost. -/
def lostFirst : List MDPMarketUpdate := (twoOrders.drop 1).take 1

/-- The messages of a recovery that receives three messages of the first snapshot and then all of the
second one. -/
def restartedMsgs : List (Bool × MDPMarketUpdate) :=
  lostFirst.map (fun m => (false, m)) ++
    ((oneOrder 1 (addUpdate 1 10)).take 3 ++ oneOrder 3 (addUpdate 2 11)).map fun m => (true, m)

/-- Every message that continues the snapshot queue belongs to the snapshot in front of it. -/
lemma joins_restartedMsgs : ∀ i, (hi : i < restartedMsgs.length) →
    (recvMessages {} (restartedMsgs.take i)).snapshotQueuedMsgs.entries.head?.all (fun first =>
      restartedMsgs[i].2.seqNum ≠
          (recvMessages {} (restartedMsgs.take i)).snapshotQueuedMsgs.entries.length ∨
        first.2.orderId = 1 ∧ restartedMsgs[i].2 ∈ oneOrder 1 (addUpdate 1 10) ∨
        first.2.orderId = 3 ∧ restartedMsgs[i].2 ∈ oneOrder 3 (addUpdate 2 11)) = true := by
  decide +kernel

/-- A recovery that loses the end of one snapshot completes from the next one. -/
theorem recovers_from_one_snapshot_sample : ∃ s₁ s₂ : SnapshotSynthesizer,
    s₁.publishSnapshot = oneOrder 1 (addUpdate 1 10) ∧
      s₂.publishSnapshot = oneOrder 3 (addUpdate 2 11) ∧
      FromOneSnapshot [s₁, s₂] ((recvMessages {} (restartedMsgs.take 14)).atCheck true
        { seqNum := 10, meMarketUpdate := { type := .snapshotEnd, orderId := 3 } }) := by
  obtain ⟨⟨s₁, hs₁, hsnapshot₁, hnum₁⟩, s₂, hs₂, hsnapshot₂, hnum₂⟩ := exists_twoOrders
  refine ⟨s₁, s₂, hsnapshot₁, hsnapshot₂, ?_⟩
  have hprocessed : processed {} [(false, lostFirst), (true, s₁.publishSnapshot.take 3),
      (true, s₂.publishSnapshot)] = restartedMsgs := by
    rw [hsnapshot₁, hsnapshot₂]
    decide
  refine @recovers_from_one_snapshot [s₁, s₂] ?_ (by simp [hnum₁, hnum₂])
    [(false, lostFirst), (true, s₁.publishSnapshot.take 3), (true, s₂.publishSnapshot)]
    ?_ ?_ _ true _ [] (hprocessed.trans ?_) (.inl ?_) ?_
  · intro s hs
    obtain rfl | rfl : s = s₁ ∨ s = s₂ := by simpa using hs
    · exact ⟨_, hs₁⟩
    · exact ⟨_, hs₂⟩
  · intro m hm
    have hm : m ∈ s₁.publishSnapshot.take 3 ∨ m ∈ s₂.publishSnapshot := by
      simpa [messagesFrom] using hm
    exact hm.elim (fun h => ⟨s₁, by simp, List.mem_of_mem_take h⟩) fun h => ⟨s₂, by simp, h⟩
  · intro pre m post hsplit _ first hfirst hseq
    rw [hprocessed] at hsplit
    have hpre : restartedMsgs.take pre.length = pre := by rw [hsplit]; simp
    have hlength : pre.length < restartedMsgs.length := by rw [hsplit]; simp
    have hm : restartedMsgs[pre.length] = (true, m) := by simp [hsplit]
    have hjoins := joins_restartedMsgs pre.length hlength
    rw [hpre, hfirst, hm] at hjoins
    obtain hne | ⟨hid, hmem⟩ | ⟨hid, hmem⟩ := of_decide_eq_true hjoins
    · exact absurd hseq hne
    · exact ⟨s₁, by simp, hnum₁.trans hid.symm, by rwa [hsnapshot₁]⟩
    · exact ⟨s₂, by simp, hnum₂.trans hid.symm, by rwa [hsnapshot₂]⟩
  · decide
  · decide
  · decide

/-- The messages of a recovery from the first three messages of the first snapshot and the last
eight of the second one. -/
def twoSnapshotMsgs : List (Bool × MDPMarketUpdate) :=
  lostFirst.map (fun m => (false, m)) ++
    ((oneOrder 1 (addUpdate 1 10)).take 3 ++ (oneOrder 3 (addUpdate 2 11)).drop 3).map
      fun m => (true, m)

/-- **A recovery from two snapshots**: the second snapshot is received from its fourth message on,
its messages continue the queue of the first one, and the recovery completes with the order of the
first snapshot and the number of the second one.

**Proof sketch.** The two snapshots and the run over them are evaluated. The queue that completes the
recovery holds the first order of the one snapshot and ends with the number of the other, so it is the
messages of neither. -/
theorem recovers_from_two_snapshots : ∃ s₁ s₂ : SnapshotSynthesizer,
    (twoOrders.take 1).foldlM SnapshotSynthesizer.addToSnapshot .new = .ok s₁ ∧
    twoOrders.foldlM SnapshotSynthesizer.addToSnapshot .new = .ok s₂ ∧
    s₁.lastIncSeqNum < s₂.lastIncSeqNum ∧
    ∃ reads : List (Bool × List MDPMarketUpdate), ∃ pre m,
      (messagesFrom false reads).Sublist twoOrders ∧
      messagesFrom true reads = s₁.publishSnapshot.take 3 ++ s₂.publishSnapshot.drop 3 ∧
      processed {} reads = pre ++ [(true, m)] ∧ (recvMessages {} pre).Checks m ∧
      ((recvMessages {} pre).atCheck true m).checkSnapshotSync.inRecovery = false ∧
      ¬ FromOneSnapshot [s₁, s₂] ((recvMessages {} pre).atCheck true m) := by
  obtain ⟨⟨s₁, hs₁, hsnapshot₁, hnum₁⟩, s₂, hs₂, hsnapshot₂, hnum₂⟩ := exists_twoOrders
  refine ⟨s₁, s₂, hs₁, hs₂, by omega,
    [(false, lostFirst), (true, s₁.publishSnapshot.take 3), (true, s₂.publishSnapshot.drop 3)],
    twoSnapshotMsgs.take 11,
    { seqNum := 10, meMarketUpdate := { type := .snapshotEnd, orderId := 3 } }, ?_, ?_, ?_,
    .inl ?_, ?_, ?_⟩
  · show (messagesFrom false [(false, lostFirst), (true, _), (true, _)]).Sublist twoOrders
    rw [messagesFrom]
    exact (List.take_sublist 1 (twoOrders.drop 1)).trans (List.drop_sublist 1 twoOrders)
  · simp [messagesFrom]
  · rw [hsnapshot₁, hsnapshot₂]
    decide
  · decide
  · decide
  · rintro ⟨s, hs, hall, ⟨last, hlast, -, hnum⟩, -⟩
    obtain rfl | rfl : s = s₁ ∨ s = s₂ := by simpa using hs
    · -- the SNAPSHOT_END carries the number of the second snapshot
      have hend : last = (10, { type := .snapshotEnd, orderId := 3 }) :=
        Option.some_inj.mp (hlast.symm.trans (by decide))
      rw [hend, hnum₁] at hnum
      exact absurd hnum (by decide)
    · -- the first order is not in the second snapshot
      have hadd := hall (2, addUpdate 1 10) (by decide)
      rw [hsnapshot₂] at hadd
      exact absurd hadd (by decide)

end Trading

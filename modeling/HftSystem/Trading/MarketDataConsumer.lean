import Mathlib.Tactic.SplitIfs
import HftSystem.Lib.SortedMap
import HftSystem.Exchange.Messages

set_option relaxedAutoImplicit false
set_option autoImplicit false

/-!
# The market data consumer

`trading/market_data/market_data_consumer.{h,cpp}`. The two `std::map`s of queued messages are
sorted maps, and the queue to the trade engine is the list of what was written to it. Joining
and leaving the snapshot stream is left out; it is assumed to succeed.

## Main definitions

* `Trading.MarketDataConsumer` with `recvCallback`, `queueMessage` and `checkSnapshotSync`.
* `Trading.MarketDataConsumer.recvAll` — the consumer after a sequence of reads.
* `Trading.MarketDataConsumer.processed` — the messages of the reads that are not dropped.
-/

namespace Trading

open Exchange

/-- `MarketDataConsumer`. -/
structure MarketDataConsumer where
  nextExpIncSeqNum : ℕ := 1
  incomingMdUpdates : List MEMarketUpdate := []
  inRecovery : Bool := false
  snapshotQueuedMsgs : SortedMap ℕ MEMarketUpdate := {}
  incrementalQueuedMsgs : SortedMap ℕ MEMarketUpdate := {}
  deriving DecidableEq

namespace MarketDataConsumer

/-- The messages that `checkSnapshotSync` does not forward. -/
def isMarker (u : MEMarketUpdate) : Bool := u.type = .snapshotStart || u.type = .snapshotEnd

/-- `final_events.push_back(u)`, unless `u` is a SNAPSHOT_START or a SNAPSHOT_END. -/
def pushEvent (finalEvents : List MEMarketUpdate) (u : MEMarketUpdate) : List MEMarketUpdate :=
  if isMarker u then finalEvents else finalEvents ++ [u]

/-- The loop over `snapshot_queued_msgs_`: `have_complete_snapshot` and `final_events`. -/
def collectSnapshot (nextSnapshotSeq : ℕ) (finalEvents : List MEMarketUpdate) :
    List (ℕ × MEMarketUpdate) → Bool × List MEMarketUpdate
  | [] => (true, finalEvents)
  | (seqNum, u) :: msgs =>
    if seqNum ≠ nextSnapshotSeq then (false, finalEvents)
    else collectSnapshot (nextSnapshotSeq + 1) (pushEvent finalEvents u) msgs

/-- The loop over `incremental_queued_msgs_`: `have_complete_incremental`,
`next_exp_inc_seq_num_` and `final_events`. -/
def collectIncremental (nextExpIncSeqNum : ℕ) (finalEvents : List MEMarketUpdate) :
    List (ℕ × MEMarketUpdate) → Bool × ℕ × List MEMarketUpdate
  | [] => (true, nextExpIncSeqNum, finalEvents)
  | (seqNum, u) :: msgs =>
    if seqNum < nextExpIncSeqNum then collectIncremental nextExpIncSeqNum finalEvents msgs
    else if seqNum ≠ nextExpIncSeqNum then (false, nextExpIncSeqNum, finalEvents)
    else collectIncremental (nextExpIncSeqNum + 1) (pushEvent finalEvents u) msgs

/-- `snapshot_queued_msgs_.clear()`. -/
def clearSnapshot (c : MarketDataConsumer) : MarketDataConsumer := { c with snapshotQueuedMsgs := {} }

/-- The rest of `checkSnapshotSync` once a whole snapshot is queued: `finalEvents` are its
events, and `orderId` is the order id of its last message. The expected sequence number moves
also where the incremental updates have a gap. -/
def finishSync (c : MarketDataConsumer) (finalEvents : List MEMarketUpdate) (orderId : ℕ) :
    MarketDataConsumer :=
  let (haveCompleteIncremental, nextExpIncSeqNum, finalEvents) :=
    collectIncremental (orderId + 1) finalEvents c.incrementalQueuedMsgs.entries
  let c := { c with nextExpIncSeqNum }
  if haveCompleteIncremental then
    { c with
      incomingMdUpdates := c.incomingMdUpdates ++ finalEvents
      snapshotQueuedMsgs := {}
      incrementalQueuedMsgs := {}
      inRecovery := false }
  else c.clearSnapshot

/-- `checkSnapshotSync`. -/
def checkSnapshotSync (c : MarketDataConsumer) : MarketDataConsumer :=
  match c.snapshotQueuedMsgs.entries with
  | [] => c
  | first :: msgs =>
    if first.2.type ≠ .snapshotStart then c.clearSnapshot
    else
      let (haveCompleteSnapshot, finalEvents) := collectSnapshot 0 [] (first :: msgs)
      if !haveCompleteSnapshot then c.clearSnapshot
      else
        let last := ((first :: msgs).getLast (List.cons_ne_nil _ _)).2
        if last.type ≠ .snapshotEnd then c else c.finishSync finalEvents last.orderId

/-- The first half of `queueMessage`: a snapshot message that is queued a second time empties
the snapshot queue first. -/
def enqueue (c : MarketDataConsumer) (isSnapshot : Bool) (request : MDPMarketUpdate) :
    MarketDataConsumer :=
  if isSnapshot then
    let c := if (c.snapshotQueuedMsgs.find? request.seqNum).isSome then c.clearSnapshot else c
    { c with
      snapshotQueuedMsgs := c.snapshotQueuedMsgs.insert request.seqNum request.meMarketUpdate }
  else
    { c with
      incrementalQueuedMsgs := c.incrementalQueuedMsgs.insert request.seqNum request.meMarketUpdate }

/-- `queueMessage`. -/
def queueMessage (c : MarketDataConsumer) (isSnapshot : Bool) (request : MDPMarketUpdate) :
    MarketDataConsumer :=
  (c.enqueue isSnapshot request).checkSnapshotSync

/-- `startSnapshotSync`. -/
def startSnapshotSync (c : MarketDataConsumer) : MarketDataConsumer :=
  { c with snapshotQueuedMsgs := {}, incrementalQueuedMsgs := {} }

/-- The body of the loop of `recvCallback`. -/
def recvMessage (isSnapshot : Bool) (c : MarketDataConsumer) (request : MDPMarketUpdate) :
    MarketDataConsumer :=
  let alreadyInRecovery := c.inRecovery
  let c := { c with inRecovery := alreadyInRecovery || request.seqNum ≠ c.nextExpIncSeqNum }
  if c.inRecovery then
    let c := if alreadyInRecovery then c else c.startSnapshotSync
    c.queueMessage isSnapshot request
  else if isSnapshot then c
  else
    { c with
      nextExpIncSeqNum := c.nextExpIncSeqNum + 1
      incomingMdUpdates := c.incomingMdUpdates ++ [request.meMarketUpdate] }

/-- `recvCallback` for a read from one of the two sockets that holds `requests`. A read from
the snapshot socket outside of recovery is dropped as a whole. -/
def recvCallback (c : MarketDataConsumer) (isSnapshot : Bool) (requests : List MDPMarketUpdate) :
    MarketDataConsumer :=
  if isSnapshot && !c.inRecovery then c else requests.foldl (recvMessage isSnapshot) c

/-- The consumer after a sequence of reads, each from the socket that its flag names. -/
def recvAll (c : MarketDataConsumer) (reads : List (Bool × List MDPMarketUpdate)) :
    MarketDataConsumer :=
  reads.foldl (fun c read => c.recvCallback read.1 read.2) c

/-- No reads. -/
@[simp] lemma recvAll_nil (c : MarketDataConsumer) : c.recvAll [] = c := rfl

/-- The first read comes first. -/
@[simp] lemma recvAll_cons (c : MarketDataConsumer) (read : Bool × List MDPMarketUpdate)
    (reads : List (Bool × List MDPMarketUpdate)) :
    c.recvAll (read :: reads) = (c.recvCallback read.1 read.2).recvAll reads := rfl

/-- A message that is received in recovery is queued. -/
lemma recvMessage_of_inRecovery {c : MarketDataConsumer} (h : c.inRecovery = true)
    (isSnapshot : Bool) (request : MDPMarketUpdate) :
    recvMessage isSnapshot c request = c.queueMessage isSnapshot request := by
  obtain ⟨next, incoming, inRecovery, snapshot, incremental⟩ := c
  obtain rfl : inRecovery = true := h
  rfl

/-- A message that is received outside of recovery is forwarded, or it starts a recovery. -/
lemma recvMessage_of_not_inRecovery {c : MarketDataConsumer} (h : c.inRecovery = false)
    (isSnapshot : Bool) (request : MDPMarketUpdate) :
    recvMessage isSnapshot c request =
      if request.seqNum ≠ c.nextExpIncSeqNum then
        { c with inRecovery := true }.startSnapshotSync.queueMessage isSnapshot request
      else if isSnapshot then c
      else
        { c with
          nextExpIncSeqNum := c.nextExpIncSeqNum + 1
          incomingMdUpdates := c.incomingMdUpdates ++ [request.meMarketUpdate] } := by
  obtain ⟨next, incoming, inRecovery, snapshot, incremental⟩ := c
  obtain rfl : inRecovery = false := h
  by_cases hseq : request.seqNum = next <;> simp [recvMessage, hseq]

/-- A read in recovery is processed message by message. -/
lemma recvCallback_of_inRecovery {c : MarketDataConsumer} (h : c.inRecovery = true)
    (isSnapshot : Bool) (requests : List MDPMarketUpdate) :
    c.recvCallback isSnapshot requests = requests.foldl (recvMessage isSnapshot) c := by
  simp [recvCallback, h]

/-- The messages that a sequence of reads takes from the snapshot socket, or from the
incremental socket. -/
def messagesFrom (isSnapshot : Bool) (reads : List (Bool × List MDPMarketUpdate)) :
    List MDPMarketUpdate := (reads.filter fun read => read.1 = isSnapshot).flatMap Prod.snd

/-- A read of the socket. -/
lemma messagesFrom_cons_self (isSnapshot : Bool) (msgs : List MDPMarketUpdate)
    (reads : List (Bool × List MDPMarketUpdate)) :
    messagesFrom isSnapshot ((isSnapshot, msgs) :: reads) = msgs ++ messagesFrom isSnapshot reads := by
  simp [messagesFrom]

/-- A read of the other socket. -/
lemma messagesFrom_cons_of_ne {isSnapshot isSnapshot' : Bool} (h : isSnapshot' ≠ isSnapshot)
    (msgs : List MDPMarketUpdate) (reads : List (Bool × List MDPMarketUpdate)) :
    messagesFrom isSnapshot ((isSnapshot', msgs) :: reads) = messagesFrom isSnapshot reads := by
  simp [messagesFrom, h]

/-- The messages of two sequences of reads. -/
lemma messagesFrom_append (isSnapshot : Bool) (r₁ r₂ : List (Bool × List MDPMarketUpdate)) :
    messagesFrom isSnapshot (r₁ ++ r₂) = messagesFrom isSnapshot r₁ ++ messagesFrom isSnapshot r₂ := by
  simp [messagesFrom, List.filter_append]

/-- The messages that `recvCallback` processes in a sequence of reads, each with its socket. -/
def processed : MarketDataConsumer → List (Bool × List MDPMarketUpdate) →
    List (Bool × MDPMarketUpdate)
  | _, [] => []
  | c, (isSnapshot, requests) :: reads =>
    (if isSnapshot && !c.inRecovery then [] else requests.map fun m => (isSnapshot, m)) ++
      processed (c.recvCallback isSnapshot requests) reads

/-- The consumer after it has processed messages. -/
def recvMessages (c : MarketDataConsumer) (msgs : List (Bool × MDPMarketUpdate)) :
    MarketDataConsumer := msgs.foldl (fun c m => recvMessage m.1 c m.2) c

/-- Messages one after the other. -/
lemma recvMessages_append (c : MarketDataConsumer) (msgs msgs' : List (Bool × MDPMarketUpdate)) :
    c.recvMessages (msgs ++ msgs') = (c.recvMessages msgs).recvMessages msgs' := List.foldl_append

/-- One more message behind the others. -/
lemma recvMessages_append_singleton (c : MarketDataConsumer) (msgs : List (Bool × MDPMarketUpdate))
    (m : Bool × MDPMarketUpdate) :
    c.recvMessages (msgs ++ [m]) = recvMessage m.1 (c.recvMessages msgs) m.2 := by
  simp [recvMessages]

/-- The reads lead where the processed messages lead. -/
lemma recvAll_eq_recvMessages (c : MarketDataConsumer) (reads : List (Bool × List MDPMarketUpdate)) :
    c.recvAll reads = c.recvMessages (c.processed reads) := by
  induction reads generalizing c with
  | nil => rfl
  | cons read reads ih =>
    obtain ⟨isSnapshot, requests⟩ := read
    have hread : c.recvCallback isSnapshot requests = c.recvMessages
        (if isSnapshot && !c.inRecovery then [] else requests.map fun m => (isSnapshot, m)) := by
      unfold recvCallback
      split_ifs
      · rfl
      · rw [recvMessages, List.foldl_map]
    rw [recvAll_cons, ih, processed, recvMessages_append, ← hread]

/-- A processed message was received. -/
lemma mem_of_mem_processed {c : MarketDataConsumer} {reads : List (Bool × List MDPMarketUpdate)}
    {m : Bool × MDPMarketUpdate} (h : m ∈ c.processed reads) : m.2 ∈ messagesFrom m.1 reads := by
  induction reads generalizing c with
  | nil => cases h
  | cons read reads ih =>
    obtain ⟨isSnapshot, requests⟩ := read
    rw [processed, List.mem_append] at h
    have hcons : messagesFrom m.1 ((isSnapshot, requests) :: reads) =
        (if isSnapshot = m.1 then requests else []) ++ messagesFrom m.1 reads := by
      split_ifs with hm
      · rw [hm, messagesFrom_cons_self]
      · rw [messagesFrom_cons_of_ne hm, List.nil_append]
    rw [hcons, List.mem_append]
    rcases h with h | h
    · left
      split_ifs at h
      · cases h
      · obtain ⟨w, hw, rfl⟩ := List.mem_map.mp h
        rw [if_pos rfl]
        exact hw
    · exact .inr (ih h)

end MarketDataConsumer

end Trading

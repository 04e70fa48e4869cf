import Mathlib.Data.List.Range
import HftSystem.Trading.MarketDataConsumer

set_option relaxedAutoImplicit false
set_option autoImplicit false

/-!
# When a recovery completes

What the two loops of `checkSnapshotSync` accept, and what the snapshot queue looks like between
two messages: it is empty, or it is the beginning of a snapshot, with its SNAPSHOT_START but
without its SNAPSHOT_END.

## Main definitions

* `Trading.queued` — numbered messages as the entries of a queue.
* `Trading.MarketDataConsumer.CompleteSnapshot` — queued messages that are numbered from 0, from
  a SNAPSHOT_START to a SNAPSHOT_END.
* `Trading.MarketDataConsumer.Resumable` — the snapshot queue between two messages.

## Main results

* `Trading.MarketDataConsumer.checkSnapshotSync_cases` — the outcomes of `checkSnapshotSync`.
* `Trading.MarketDataConsumer.finishSync_cases` — the outcomes of its second half.
* `Trading.MarketDataConsumer.recvAll_of_recvMessage` — the invariant rule of the consumer.
-/

namespace Trading

open Exchange

/-! ## Numbered messages in a queue -/

/-- Messages as the entries of a queue. -/
def queued (msgs : List MDPMarketUpdate) : List (ℕ × MEMarketUpdate) :=
  msgs.map fun m => (m.seqNum, m.meMarketUpdate)

/-- The first message is queued under its number. -/
@[simp] lemma queued_cons (m : MDPMarketUpdate) (msgs : List MDPMarketUpdate) :
    queued (m :: msgs) = (m.seqNum, m.meMarketUpdate) :: queued msgs := rfl

/-- The queue of two streams of numbered updates. -/
lemma queued_numberedFrom_append (n : ℕ) (us us' : List MEMarketUpdate) :
    queued (numberedFrom n (us ++ us')) =
      queued (numberedFrom n us) ++ queued (numberedFrom (n + us.length) us') := by
  rw [numberedFrom_append, queued, List.map_append]
  rfl

/-- The numbers of a queue of numbered updates. -/
lemma map_fst_queued_numberedFrom (n : ℕ) (us : List MEMarketUpdate) :
    (queued (numberedFrom n us)).map Prod.fst = List.range' n us.length := by
  induction us generalizing n with
  | nil => rfl
  | cons u us ih => simp [ih, List.range'_succ]

/-- The updates of a queue of numbered updates. -/
lemma map_snd_queued_numberedFrom (n : ℕ) (us : List MEMarketUpdate) :
    (queued (numberedFrom n us)).map Prod.snd = us := by
  induction us generalizing n with
  | nil => rfl
  | cons u us ih => simp [ih]

/-- A queue is as long as the updates in it. -/
lemma length_queued_numberedFrom (n : ℕ) (us : List MEMarketUpdate) :
    (queued (numberedFrom n us)).length = us.length := by
  have hlength := congrArg List.length (map_snd_queued_numberedFrom n us)
  rwa [List.length_map] at hlength

/-- The entry of a number. -/
lemma mem_queued_numberedFrom {n k : ℕ} {us : List MEMarketUpdate} {u : MEMarketUpdate} :
    (k, u) ∈ queued (numberedFrom n us) ↔ n ≤ k ∧ us[k - n]? = some u := by
  induction us generalizing n with
  | nil => simp [queued]
  | cons w us ih =>
    rw [numberedFrom_cons, queued_cons, List.mem_cons, ih]
    by_cases hk : k = n
    · subst hk
      simp [eq_comm]
    by_cases hle : n + 1 ≤ k
    · have hsub : k - n = k - (n + 1) + 1 := by omega
      simp [hk, hle, hsub, Nat.le_of_succ_le hle]
    · have hlt : ¬ n ≤ k := by omega
      simp [hk, hle, hlt]

/-- **Consecutive messages of a stream** are a piece of it. -/
lemma eq_take_of_mem {us : List MEMarketUpdate} {n : ℕ} {msgs : List (ℕ × MEMarketUpdate)}
    (hmem : ∀ m ∈ msgs, m ∈ queued (numberedFrom 1 us))
    (hkeys : msgs.map Prod.fst = List.range' (n + 1) msgs.length) (hn : n ≤ us.length) :
    msgs.map Prod.snd = (us.drop n).take msgs.length ∧ n + msgs.length ≤ us.length := by
  induction msgs generalizing n with
  | nil => exact ⟨rfl, hn⟩
  | cons m msgs ih =>
    obtain ⟨k, u⟩ := m
    rw [List.map_cons, List.length_cons, List.range'_succ, List.cons.injEq] at hkeys
    obtain ⟨rfl, hkeys⟩ := hkeys
    obtain ⟨-, hu⟩ := mem_queued_numberedFrom.mp (hmem _ (List.mem_cons_self ..))
    rw [Nat.add_sub_cancel] at hu
    obtain ⟨hlt, hu⟩ := List.getElem?_eq_some_iff.mp hu
    obtain ⟨hrest, hle⟩ := ih (n := n + 1) (fun m hm => hmem m (List.mem_cons_of_mem _ hm)) hkeys hlt
    refine ⟨?_, by rw [List.length_cons]; omega⟩
    rw [List.drop_eq_getElem_cons hlt, hu, List.map_cons, List.length_cons, List.take_succ_cons, hrest]

namespace MarketDataConsumer

/-- The messages among `us` that are forwarded. -/
def events (us : List MEMarketUpdate) : List MEMarketUpdate := us.filter fun u => !isMarker u

/-- No updates have no events. -/
@[simp] lemma events_nil : events [] = [] := rfl

/-- The events of two lists of updates. -/
lemma events_append (us us' : List MEMarketUpdate) : events (us ++ us') = events us ++ events us' :=
  List.filter_append ..

/-- An update is pushed if it is an event. -/
lemma pushEvent_eq (finalEvents : List MEMarketUpdate) (u : MEMarketUpdate) :
    pushEvent finalEvents u = finalEvents ++ events [u] := by
  cases h : isMarker u <;> simp [pushEvent, events, h]

/-! ## The two loops -/

/-- **The loop over the snapshot queue** accepts what is numbered consecutively. -/
lemma collectSnapshot_fst (n : ℕ) (finalEvents : List MEMarketUpdate)
    (msgs : List (ℕ × MEMarketUpdate)) :
    (collectSnapshot n finalEvents msgs).1 = true ↔
      msgs.map Prod.fst = List.range' n msgs.length := by
  induction msgs generalizing n finalEvents with
  | nil => simp [collectSnapshot]
  | cons m msgs ih =>
    obtain ⟨seqNum, u⟩ := m
    rw [collectSnapshot]
    split_ifs with h
    · simp [List.range'_succ, h]
    · rw [ih]
      simp [List.range'_succ, not_not.mp h]

/-- The events of an accepted queue. -/
lemma collectSnapshot_snd {n : ℕ} {finalEvents : List MEMarketUpdate}
    {msgs : List (ℕ × MEMarketUpdate)} (h : (collectSnapshot n finalEvents msgs).1 = true) :
    (collectSnapshot n finalEvents msgs).2 = finalEvents ++ events (msgs.map Prod.snd) := by
  induction msgs generalizing n finalEvents with
  | nil => simp [collectSnapshot]
  | cons m msgs ih =>
    obtain ⟨seqNum, u⟩ := m
    rw [collectSnapshot] at h ⊢
    split_ifs with hne
    · rw [if_pos hne] at h
      cases h
    · rw [if_neg hne] at h
      rw [ih h, pushEvent_eq, List.append_assoc, ← events_append]
      rfl

/-- The messages from a sequence number on. -/
def fromSeq (n : ℕ) (msgs : List (ℕ × MEMarketUpdate)) : List (ℕ × MEMarketUpdate) :=
  msgs.filter fun m => n ≤ m.1

/-- Messages behind a number. -/
lemma fromSeq_eq_self {n : ℕ} {msgs : List (ℕ × MEMarketUpdate)} (h : ∀ m ∈ msgs, n ≤ m.1) :
    fromSeq n msgs = msgs := List.filter_eq_self.mpr fun m hm => decide_eq_true (h m hm)

/-- A message before the number is skipped. -/
lemma fromSeq_cons_of_lt {n : ℕ} {m : ℕ × MEMarketUpdate} (h : m.1 < n)
    (msgs : List (ℕ × MEMarketUpdate)) : fromSeq n (m :: msgs) = fromSeq n msgs :=
  List.filter_cons_of_neg (by simpa using h)

/-- Nothing is skipped from the first message on. -/
lemma fromSeq_cons_of_le {n : ℕ} {m : ℕ × MEMarketUpdate} {msgs : List (ℕ × MEMarketUpdate)}
    (hsorted : (m :: msgs).Pairwise fun m m' => m.1 < m'.1) (h : n ≤ m.1) :
    fromSeq n (m :: msgs) = m :: msgs := by
  refine fromSeq_eq_self fun m' hm' => ?_
  rcases List.mem_cons.mp hm' with rfl | hm'
  · exact h
  · exact Nat.le_of_lt (Nat.lt_of_le_of_lt h ((List.pairwise_cons.mp hsorted).1 m' hm'))

/-- Behind the first message, nothing is skipped either. -/
lemma fromSeq_succ_of_cons {m : ℕ × MEMarketUpdate} {msgs : List (ℕ × MEMarketUpdate)}
    (hsorted : (m :: msgs).Pairwise fun m m' => m.1 < m'.1) : fromSeq (m.1 + 1) msgs = msgs :=
  fromSeq_eq_self (List.pairwise_cons.mp hsorted).1

/-- **The loop over the incremental queue** accepts what is numbered consecutively from the
expected number on. -/
lemma collectIncremental_fst (n : ℕ) (finalEvents : List MEMarketUpdate)
    {msgs : List (ℕ × MEMarketUpdate)} (hsorted : msgs.Pairwise fun m m' => m.1 < m'.1) :
    (collectIncremental n finalEvents msgs).1 = true ↔
      (fromSeq n msgs).map Prod.fst = List.range' n (fromSeq n msgs).length := by
  induction msgs generalizing n finalEvents with
  | nil => simp [collectIncremental, fromSeq]
  | cons m msgs ih =>
    obtain ⟨seqNum, u⟩ := m
    have htail := (List.pairwise_cons.mp hsorted).2
    rw [collectIncremental]
    split_ifs with hlt hne
    · rw [ih _ _ htail, fromSeq_cons_of_lt hlt]
    · rw [fromSeq_cons_of_le hsorted (Nat.le_of_not_lt hlt)]
      simp [List.range'_succ, hne]
    · obtain rfl := not_not.mp hne
      rw [ih _ _ htail, fromSeq_succ_of_cons hsorted, fromSeq_cons_of_le hsorted le_rfl]
      simp [List.range'_succ]

/-- The expected number and the events of an accepted queue. -/
lemma collectIncremental_snd {n : ℕ} {finalEvents : List MEMarketUpdate}
    {msgs : List (ℕ × MEMarketUpdate)} (hsorted : msgs.Pairwise fun m m' => m.1 < m'.1)
    (h : (collectIncremental n finalEvents msgs).1 = true) :
    (collectIncremental n finalEvents msgs).2 = (n + (fromSeq n msgs).length,
      finalEvents ++ events ((fromSeq n msgs).map Prod.snd)) := by
  induction msgs generalizing n finalEvents with
  | nil => simp [collectIncremental, fromSeq]
  | cons m msgs ih =>
    obtain ⟨seqNum, u⟩ := m
    have htail := (List.pairwise_cons.mp hsorted).2
    rw [collectIncremental] at h ⊢
    split_ifs with hlt hne
    · rw [if_pos hlt] at h
      rw [ih htail h, fromSeq_cons_of_lt hlt]
    · rw [if_neg hlt, if_pos hne] at h
      cases h
    · rw [if_neg hlt, if_neg hne] at h
      obtain rfl := not_not.mp hne
      rw [ih htail h, fromSeq_succ_of_cons hsorted, fromSeq_cons_of_le hsorted le_rfl, pushEvent_eq,
        List.append_assoc, ← events_append]
      simp [Nat.add_assoc, Nat.add_comm 1]

/-! ## The outcomes -/

/-- Queued messages numbered from 0 that start with a SNAPSHOT_START and end with a SNAPSHOT_END
that carries `orderId`. -/
structure CompleteSnapshot (msgs : List (ℕ × MEMarketUpdate)) (orderId : ℕ) : Prop where
  keys : msgs.map Prod.fst = List.range' 0 msgs.length
  start : ∃ m, msgs.head? = some m ∧ m.2.type = .snapshotStart
  finish : ∃ m, msgs.getLast? = some m ∧ m.2.type = .snapshotEnd ∧ m.2.orderId = orderId

/-- The snapshot queue is empty, or the beginning of a snapshot. -/
def Resumable (c : MarketDataConsumer) : Prop :=
  c.snapshotQueuedMsgs.entries = [] ∨
    c.snapshotQueuedMsgs.entries.map Prod.fst =
        List.range' 0 c.snapshotQueuedMsgs.entries.length ∧
      (∃ m, c.snapshotQueuedMsgs.entries.head? = some m ∧ m.2.type = .snapshotStart) ∧
      ∀ m, c.snapshotQueuedMsgs.entries.getLast? = some m → m.2.type ≠ .snapshotEnd

/-- A queue without a whole snapshot. -/
lemma Resumable.not_completeSnapshot {c : MarketDataConsumer} (h : c.Resumable) (orderId : ℕ) :
    ¬ CompleteSnapshot c.snapshotQueuedMsgs.entries orderId := by
  rintro ⟨-, -, m, hlast, hend, -⟩
  rcases h with hempty | ⟨-, -, hnot⟩
  · simp [hempty] at hlast
  · exact hnot m hlast hend

/-- `checkSnapshotSync` with any second half. -/
def checkSnapshot (finish : List MEMarketUpdate → ℕ → MarketDataConsumer) (c : MarketDataConsumer) :
    MarketDataConsumer :=
  match c.snapshotQueuedMsgs.entries with
  | [] => c
  | first :: msgs =>
    if first.2.type ≠ .snapshotStart then c.clearSnapshot
    else
      let (haveCompleteSnapshot, finalEvents) := collectSnapshot 0 [] (first :: msgs)
      if !haveCompleteSnapshot then c.clearSnapshot
      else
        let last := (msgs.getLastD first).2
        if last.type ≠ .snapshotEnd then c else finish finalEvents last.orderId

/-- The check of the snapshot comes first, and the end of the synchronisation behind it. -/
lemma checkSnapshotSync_eq (c : MarketDataConsumer) :
    c.checkSnapshotSync = c.checkSnapshot c.finishSync := by
  unfold checkSnapshotSync checkSnapshot
  cases c.snapshotQueuedMsgs.entries with
  | nil => rfl
  | cons first msgs => simp only [List.getLast_eq_getLastD]

/-- The ways in which the first half can go. -/
inductive SnapshotChecked (finish : List MEMarketUpdate → ℕ → MarketDataConsumer)
    (c : MarketDataConsumer) : MarketDataConsumer → Prop
  | wait (h : c.Resumable) : SnapshotChecked finish c c
  | clear (hnot : ¬ c.Resumable)
      (h : ∀ orderId, ¬ CompleteSnapshot c.snapshotQueuedMsgs.entries orderId) :
      SnapshotChecked finish c c.clearSnapshot
  | finish (orderId : ℕ) (h : CompleteSnapshot c.snapshotQueuedMsgs.entries orderId) :
      SnapshotChecked finish c (finish (events (c.snapshotQueuedMsgs.entries.map Prod.snd)) orderId)

/-- **The first half of `checkSnapshotSync`** waits, empties the snapshot queue, or has a whole
snapshot.

**Proof sketch.** By the branches of the check: the first message is no SNAPSHOT_START, or the numbers
have a gap (`collectSnapshot_fst`), and the queue is emptied; or the last message is no SNAPSHOT_END,
and the check waits. In the remaining branch the queue is a complete snapshot, and the events are those
that were collected (`collectSnapshot_snd`). -/
theorem checkSnapshot_cases (finish : List MEMarketUpdate → ℕ → MarketDataConsumer)
    (c : MarketDataConsumer) : SnapshotChecked finish c (c.checkSnapshot finish) := by
  unfold checkSnapshot
  cases hentries : c.snapshotQueuedMsgs.entries with
  | nil => exact .wait (.inl hentries)
  | cons first msgs =>
    simp only
    split_ifs with hstart hcomplete hend
    · have hnot : ¬ ∃ m, c.snapshotQueuedMsgs.entries.head? = some m ∧ m.2.type = .snapshotStart := by
        rw [hentries]
        rintro ⟨m, hm, htype⟩
        cases hm
        exact hstart htype
      refine .clear (fun h => ?_) fun orderId h => hnot h.start
      rcases h with hempty | ⟨-, hhead, -⟩
      · cases hentries.symm.trans hempty
      · exact hnot hhead
    · have hnot : ¬ c.snapshotQueuedMsgs.entries.map Prod.fst =
          List.range' 0 c.snapshotQueuedMsgs.entries.length := by
        rw [hentries]
        intro hkeys
        simp [(collectSnapshot_fst 0 [] _).mpr hkeys] at hcomplete
      refine .clear (fun h => ?_) fun orderId h => hnot h.keys
      rcases h with hempty | ⟨hkeys, -, -⟩
      · cases hentries.symm.trans hempty
      · exact hnot hkeys
    all_goals
      simp only [Bool.not_eq_true', Bool.not_eq_false] at hcomplete
      have hkeys := (collectSnapshot_fst _ _ _).mp hcomplete
      have hlast := List.getLast?_eq_some_getLast (List.cons_ne_nil first msgs)
      rw [List.getLast_eq_getLastD] at hlast
      have hfirst : first.2.type = .snapshotStart := not_not.mp hstart
    · refine .wait (.inr ?_)
      rw [hentries]
      refine ⟨hkeys, ⟨first, rfl, hfirst⟩, fun m hm => ?_⟩
      rw [hlast] at hm
      cases hm
      exact hend
    · have h : CompleteSnapshot c.snapshotQueuedMsgs.entries
          (msgs.getLastD first).2.orderId := by
        rw [hentries]
        exact ⟨hkeys, ⟨first, rfl, hfirst⟩, _, hlast, not_not.mp hend, rfl⟩
      have hevents := collectSnapshot_snd hcomplete
      rw [List.nil_append] at hevents
      have hfinish : SnapshotChecked finish c _ := .finish _ h
      rw [hentries] at hfinish
      rwa [hevents]

/-- The ways in which `checkSnapshotSync` can go. -/
inductive Checked (c : MarketDataConsumer) : MarketDataConsumer → Prop
  | wait (h : c.Resumable) : Checked c c
  | clear : Checked c c.clearSnapshot
  | finish (orderId : ℕ) (h : CompleteSnapshot c.snapshotQueuedMsgs.entries orderId) :
      Checked c (c.finishSync (events (c.snapshotQueuedMsgs.entries.map Prod.snd)) orderId)

/-- **`checkSnapshotSync`** waits, empties the snapshot queue, or has a whole snapshot. -/
theorem checkSnapshotSync_cases (c : MarketDataConsumer) : Checked c c.checkSnapshotSync := by
  have hcases := checkSnapshot_cases c.finishSync c
  rw [← checkSnapshotSync_eq] at hcases
  generalize c.checkSnapshotSync = c' at hcases ⊢
  cases hcases with
  | wait h => exact .wait h
  | clear => exact .clear
  | finish orderId h => exact .finish orderId h

/-- A resumable queue is left as it is. -/
lemma Resumable.checkSnapshot {c : MarketDataConsumer} (h : c.Resumable)
    (finish : List MEMarketUpdate → ℕ → MarketDataConsumer) : c.checkSnapshot finish = c := by
  have hcases := checkSnapshot_cases finish c
  generalize c.checkSnapshot finish = c' at hcases ⊢
  cases hcases with
  | wait => rfl
  | clear hnot => exact absurd h hnot
  | finish orderId h' => exact absurd h' (h.not_completeSnapshot orderId)

/-- Where a snapshot is not complete, the check waits. -/
lemma Resumable.checkSnapshotSync {c : MarketDataConsumer} (h : c.Resumable) :
    c.checkSnapshotSync = c := by
  rw [checkSnapshotSync_eq, h.checkSnapshot]

/-- Anything else is dropped. -/
lemma checkSnapshot_of_not {c : MarketDataConsumer} (hnot : ¬ c.Resumable)
    (h : ∀ orderId, ¬ CompleteSnapshot c.snapshotQueuedMsgs.entries orderId)
    (finish : List MEMarketUpdate → ℕ → MarketDataConsumer) :
    c.checkSnapshot finish = c.clearSnapshot := by
  have hcases := checkSnapshot_cases finish c
  generalize c.checkSnapshot finish = c' at hcases ⊢
  cases hcases with
  | wait hresumable => exact absurd hresumable hnot
  | clear => rfl
  | finish orderId h' => exact absurd h' (h orderId)

/-- A snapshot ends with one order id. -/
lemma CompleteSnapshot.orderId_eq {msgs : List (ℕ × MEMarketUpdate)} {orderId orderId' : ℕ}
    (h : CompleteSnapshot msgs orderId) (h' : CompleteSnapshot msgs orderId') : orderId = orderId' := by
  obtain ⟨m, hlast, -, rfl⟩ := h.finish
  obtain ⟨m', hlast', -, rfl⟩ := h'.finish
  cases hlast.symm.trans hlast'
  rfl

/-- A whole snapshot is followed by the second half. -/
lemma CompleteSnapshot.checkSnapshot {c : MarketDataConsumer} {orderId : ℕ}
    (h : CompleteSnapshot c.snapshotQueuedMsgs.entries orderId)
    (finish : List MEMarketUpdate → ℕ → MarketDataConsumer) : c.checkSnapshot finish =
      finish (events (c.snapshotQueuedMsgs.entries.map Prod.snd)) orderId := by
  have hcases := checkSnapshot_cases finish c
  generalize c.checkSnapshot finish = c' at hcases ⊢
  cases hcases with
  | wait hresumable => exact absurd h (hresumable.not_completeSnapshot orderId)
  | clear _ hnot => exact absurd h (hnot orderId)
  | finish orderId' h' => rw [h.orderId_eq h']

/-- A whole snapshot is followed by the incremental updates. -/
lemma CompleteSnapshot.checkSnapshotSync {c : MarketDataConsumer} {orderId : ℕ}
    (h : CompleteSnapshot c.snapshotQueuedMsgs.entries orderId) : c.checkSnapshotSync =
      c.finishSync (events (c.snapshotQueuedMsgs.entries.map Prod.snd)) orderId := by
  rw [checkSnapshotSync_eq, h.checkSnapshot]

/-- The ways in which the second half can go, for the events of a snapshot and the order id of
its end. -/
inductive Finished (c : MarketDataConsumer) (finalEvents : List MEMarketUpdate) (orderId : ℕ) :
    MarketDataConsumer → Prop
  | recover (h : (fromSeq (orderId + 1) c.incrementalQueuedMsgs.entries).map Prod.fst =
        List.range' (orderId + 1) (fromSeq (orderId + 1) c.incrementalQueuedMsgs.entries).length) :
      Finished c finalEvents orderId
        { nextExpIncSeqNum :=
            orderId + 1 + (fromSeq (orderId + 1) c.incrementalQueuedMsgs.entries).length
          incomingMdUpdates := c.incomingMdUpdates ++ (finalEvents ++
            events ((fromSeq (orderId + 1) c.incrementalQueuedMsgs.entries).map Prod.snd))
          inRecovery := false
          snapshotQueuedMsgs := {}
          incrementalQueuedMsgs := {} }
  | gap (nextExpIncSeqNum : ℕ) :
      Finished c finalEvents orderId { c with nextExpIncSeqNum, snapshotQueuedMsgs := {} }

/-- **The second half of `checkSnapshotSync`** ends the recovery or finds a gap. -/
theorem finishSync_cases (c : MarketDataConsumer) (finalEvents : List MEMarketUpdate)
    (orderId : ℕ) : Finished c finalEvents orderId (c.finishSync finalEvents orderId) := by
  have hsorted := c.incrementalQueuedMsgs.sorted
  have hfst := collectIncremental_fst (orderId + 1) finalEvents hsorted
  have hsnd : (collectIncremental (orderId + 1) finalEvents _).1 = true → _ :=
    collectIncremental_snd hsorted
  unfold finishSync
  split
  next complete next events heq =>
    rw [heq] at hfst hsnd
    cases complete with
    | false => exact .gap _
    | true =>
      obtain ⟨rfl, rfl⟩ := Prod.mk.inj (hsnd rfl)
      exact .recover (hfst.mp rfl)

/-! ## The snapshot queue between two messages -/

/-- An empty snapshot queue is the beginning of a snapshot. -/
lemma resumable_clearSnapshot (c : MarketDataConsumer) : c.clearSnapshot.Resumable := .inl rfl

/-- **A check leaves a resumable queue.** -/
lemma resumable_checkSnapshotSync (c : MarketDataConsumer) : c.checkSnapshotSync.Resumable := by
  have hcases := checkSnapshotSync_cases c
  generalize c.checkSnapshotSync = c' at hcases ⊢
  cases hcases with
  | wait h => exact h
  | clear => exact resumable_clearSnapshot c
  | finish orderId _ =>
    have hcases := finishSync_cases c (events (c.snapshotQueuedMsgs.entries.map Prod.snd)) orderId
    generalize c.finishSync _ orderId = c' at hcases ⊢
    cases hcases with
    | recover _ => exact .inl rfl
    | gap _ => exact .inl rfl

/-- **A message leaves a resumable queue.** -/
lemma Resumable.recvMessage {c : MarketDataConsumer} (h : c.Resumable) (isSnapshot : Bool)
    (request : MDPMarketUpdate) : (recvMessage isSnapshot c request).Resumable := by
  cases hrecovery : c.inRecovery with
  | true =>
    rw [recvMessage_of_inRecovery hrecovery]
    exact resumable_checkSnapshotSync _
  | false =>
    rw [recvMessage_of_not_inRecovery hrecovery]
    split_ifs
    · exact resumable_checkSnapshotSync _
    · exact h
    · exact h

/-- **The invariant rule of the consumer**: what every message preserves holds in every state
reached. -/
theorem recvAll_of_recvMessage {P : MarketDataConsumer → Prop} {C : Bool → MDPMarketUpdate → Prop}
    (hstep : ∀ c isSnapshot m, P c → C isSnapshot m → P (recvMessage isSnapshot c m))
    {c : MarketDataConsumer} (h : P c) {reads : List (Bool × List MDPMarketUpdate)}
    (hreads : ∀ read ∈ reads, ∀ m ∈ read.2, C read.1 m) : P (c.recvAll reads) := by
  have hloop : ∀ (isSnapshot : Bool) (msgs : List MDPMarketUpdate) (c : MarketDataConsumer), P c →
      (∀ m ∈ msgs, C isSnapshot m) → P (msgs.foldl (recvMessage isSnapshot) c) := by
    intro isSnapshot msgs
    induction msgs with
    | nil => exact fun _ hc _ => hc
    | cons m msgs ih =>
      intro c hc hmsgs
      exact ih _ (hstep c isSnapshot m hc (hmsgs m (List.mem_cons_self ..)))
        fun m' hm' => hmsgs m' (List.mem_cons_of_mem _ hm')
  induction reads generalizing c with
  | nil => exact h
  | cons read reads ih =>
    rw [recvAll_cons]
    refine ih ?_ fun r hr => hreads r (List.mem_cons_of_mem _ hr)
    rw [recvCallback]
    split_ifs
    · exact h
    · exact hloop _ _ _ h (hreads read (List.mem_cons_self ..))

/-- The snapshot queue is resumable in every state reached. -/
lemma Resumable.recvAll {c : MarketDataConsumer} (h : c.Resumable)
    (reads : List (Bool × List MDPMarketUpdate)) : (c.recvAll reads).Resumable :=
  recvAll_of_recvMessage (C := fun _ _ => True) (fun _ _ _ hc _ => hc.recvMessage _ _) h
    fun _ _ _ _ => trivial

end MarketDataConsumer

end Trading

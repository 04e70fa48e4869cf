import HftSystem.Trading.SnapshotSync

set_option relaxedAutoImplicit false
set_option autoImplicit false

/-!
# Messages that share a read

`recvCallback` asks once whether snapshot messages are wanted, before its loop, and the loop can end the
recovery. What becomes of the messages behind that point depends on the read they arrive in.

## Main definitions

* `Trading.MarketDataConsumer.IndependentOfBatching` — it does not matter how messages share reads.
* `Trading.MarketDataConsumer.ExpectedOutsideRecovery` — the messages for which it does not.

## Main results

* `Trading.MarketDataConsumer.inRecovery_recvMessage_of_unexpected` — a snapshot message can start a
  recovery.
* `Trading.MarketDataConsumer.independentOfBatching_iff` — the exact condition.
-/

namespace Trading

open Exchange

namespace MarketDataConsumer

/-- **It does not matter how messages from a socket share reads.**

* Any division into reads has the effect of a single read.
* A snapshot message behind the end of a recovery is discarded. -/
structure IndependentOfBatching (c : MarketDataConsumer) (isSnapshot : Bool)
    (msgs : List MDPMarketUpdate) : Prop where
  batches : ∀ batches : List (List MDPMarketUpdate), batches.flatten = msgs →
    c.recvAll (batches.map fun batch => (isSnapshot, batch)) = c.recvCallback isSnapshot msgs
  discards : isSnapshot = true → ∀ pre m post, msgs = pre ++ m :: post →
    (c.recvCallback isSnapshot pre).inRecovery = false →
      c.recvCallback isSnapshot (pre ++ [m]) = c.recvCallback isSnapshot pre

/-- The messages that the loop over a snapshot read processes outside of recovery have the expected
number. -/
def ExpectedOutsideRecovery (c : MarketDataConsumer) (msgs : List MDPMarketUpdate) : Prop :=
  ∀ pre m post, msgs = pre ++ m :: post → (pre.foldl (recvMessage true) c).inRecovery = false →
    m.seqNum = (pre.foldl (recvMessage true) c).nextExpIncSeqNum

variable {c : MarketDataConsumer} {msgs msgs' : List MDPMarketUpdate}

/-- A snapshot message with the expected number is discarded. -/
lemma recvMessage_of_expected {m : MDPMarketUpdate} (h : c.inRecovery = false)
    (hseq : m.seqNum = c.nextExpIncSeqNum) : recvMessage true c m = c := by
  rw [recvMessage_of_not_inRecovery h, if_neg (not_not.mpr hseq), if_pos rfl]

/-- **A snapshot message with another number starts a recovery**, which it cannot end. -/
lemma inRecovery_recvMessage_of_unexpected {m : MDPMarketUpdate} (h : c.inRecovery = false)
    (hseq : m.seqNum ≠ c.nextExpIncSeqNum) : (recvMessage true c m).inRecovery = true := by
  rw [recvMessage_of_not_inRecovery h, if_pos hseq, queueMessage]
  set q := enqueue _ true m with hq
  have hentries : q.snapshotQueuedMsgs.entries = [(m.seqNum, m.meMarketUpdate)] := rfl
  have hrecovery : q.inRecovery = true := rfl
  have hcases := checkSnapshotSync_cases q
  generalize q.checkSnapshotSync = c' at hcases ⊢
  cases hcases with
  | wait => exact hrecovery
  | clear => exact hrecovery
  | finish orderId hcomplete =>
    -- the only message would be the start and the end of a snapshot
    obtain ⟨-, ⟨first, hfirst, hstart⟩, last, hlast, hend, -⟩ := hcomplete
    rw [hentries] at hfirst hlast
    cases hfirst
    cases hlast
    cases hstart.symm.trans hend

namespace ExpectedOutsideRecovery

/-- The messages of one of two reads. -/
lemma of_append (h : ExpectedOutsideRecovery c (msgs ++ msgs')) : ExpectedOutsideRecovery c msgs ∧
    ExpectedOutsideRecovery (msgs.foldl (recvMessage true) c) msgs' := by
  refine ⟨fun pre m post hmsgs hrecovery => ?_, fun pre m post hmsgs hrecovery => ?_⟩
  · exact h pre m (post ++ msgs') (by simp [hmsgs]) hrecovery
  · rw [← List.foldl_append] at hrecovery ⊢
    exact h (msgs ++ pre) m post (by simp [hmsgs]) hrecovery

/-- Outside of recovery all of them are discarded. -/
lemma foldl_eq (h : ExpectedOutsideRecovery c msgs) (hrecovery : c.inRecovery = false) :
    msgs.foldl (recvMessage true) c = c := by
  induction msgs with
  | nil => rfl
  | cons m msgs ih =>
    have hm := recvMessage_of_expected hrecovery (h [] m msgs rfl hrecovery)
    have hrest := (@of_append c [m] msgs h).2
    rw [List.foldl_cons, List.foldl_nil, hm] at hrest
    rw [List.foldl_cons, hm, ih hrest]

/-- A read has the effect of its loop, whether it is dropped as a whole or not. -/
lemma recvCallback_eq (h : ExpectedOutsideRecovery c msgs) :
    c.recvCallback true msgs = msgs.foldl (recvMessage true) c := by
  cases hrecovery : c.inRecovery with
  | true => exact recvCallback_of_inRecovery hrecovery true msgs
  | false =>
    rw [h.foldl_eq hrecovery]
    simp [recvCallback, hrecovery]

/-- **Any division into reads** has the effect of the loop over all messages. -/
lemma recvAll_eq {batches : List (List MDPMarketUpdate)}
    (h : ExpectedOutsideRecovery c batches.flatten) :
    c.recvAll (batches.map fun batch => (true, batch)) =
      batches.flatten.foldl (recvMessage true) c := by
  induction batches generalizing c with
  | nil => rfl
  | cons batch batches ih =>
    obtain ⟨hbatch, hrest⟩ := of_append h
    rw [List.map_cons, recvAll_cons, hbatch.recvCallback_eq, ih hrest, List.flatten_cons,
      List.foldl_append]

end ExpectedOutsideRecovery

/-- Reads of the incremental socket are loops over their messages. -/
lemma recvAll_incremental (c : MarketDataConsumer) (batches : List (List MDPMarketUpdate)) :
    c.recvAll (batches.map fun batch => (false, batch)) =
      batches.flatten.foldl (recvMessage false) c := by
  induction batches generalizing c with
  | nil => rfl
  | cons batch batches ih =>
    rw [List.map_cons, recvAll_cons, ih, List.flatten_cons, List.foldl_append]
    rfl

/-- Reads of the snapshot socket outside of recovery are dropped. -/
lemma recvAll_of_not_inRecovery (h : c.inRecovery = false) (batches : List (List MDPMarketUpdate)) :
    c.recvAll (batches.map fun batch => (true, batch)) = c := by
  induction batches with
  | nil => rfl
  | cons batch batches ih =>
    have hdropped : c.recvCallback true batch = c := by simp [recvCallback, h]
    rw [List.map_cons, recvAll_cons, hdropped, ih]

/-- **When it does not matter how messages share reads**: always for the incremental socket, and for
the snapshot socket outside of recovery; in recovery, if the messages that the loop reaches behind its
end have the expected number. -/
theorem independentOfBatching_iff (c : MarketDataConsumer) (isSnapshot : Bool)
    (msgs : List MDPMarketUpdate) : c.IndependentOfBatching isSnapshot msgs ↔
      (isSnapshot = true → c.inRecovery = true → c.ExpectedOutsideRecovery msgs) := by
  cases isSnapshot with
  | false =>
    refine iff_of_true ⟨fun batches hbatches => ?_, fun h => by cases h⟩ fun h => by cases h
    rw [recvAll_incremental, hbatches]
    rfl
  | true =>
    cases hrecovery : c.inRecovery with
    | false =>
      have hdropped (msgs : List MDPMarketUpdate) : c.recvCallback true msgs = c := by
        simp [recvCallback, hrecovery]
      refine iff_of_true ⟨fun batches _ => ?_, fun _ pre m post _ _ => ?_⟩ fun _ h => by cases h
      · rw [recvAll_of_not_inRecovery hrecovery, hdropped]
      · rw [hdropped, hdropped]
    | true =>
      have hloop := recvCallback_of_inRecovery hrecovery true
      refine ⟨fun h _ _ pre m post hmsgs houtside => ?_, fun h => ?_⟩
      · have hdiscards := h.discards rfl pre m post hmsgs
        rw [hloop, hloop, List.foldl_append] at hdiscards
        by_contra hseq
        have hback := inRecovery_recvMessage_of_unexpected houtside hseq
        rw [← List.foldl_nil (f := recvMessage true) (b := recvMessage true _ m), ← List.foldl_cons,
          hdiscards houtside, houtside] at hback
        cases hback
      · have hexpected := h rfl rfl
        refine ⟨fun batches hbatches => ?_, fun _ pre m post hmsgs houtside => ?_⟩
        · subst hbatches
          rw [hexpected.recvAll_eq, hloop]
        · rw [hloop] at houtside ⊢
          rw [hloop, List.foldl_append]
          exact recvMessage_of_expected houtside (hexpected pre m post hmsgs houtside)

/-- A new consumer that has lost the first update and received the second one. -/
def lostFirst : MarketDataConsumer :=
  ({} : MarketDataConsumer).recvCallback false [{ seqNum := 2, meMarketUpdate := { type := .add } }]

/-- A snapshot of two updates, and the first message of the next one. -/
def snapshotAndMore : List MDPMarketUpdate :=
  numberedFrom 0 [{ type := .snapshotStart, orderId := 2 }, { type := .snapshotEnd, orderId := 2 }] ++
    numberedFrom 0 [{ type := .snapshotStart, orderId := 2 }]

/-- **The message behind the snapshot starts another recovery**, if it comes in the same read. -/
theorem not_independentOfBatching_snapshotAndMore :
    ¬ lostFirst.IndependentOfBatching true snapshotAndMore := by
  intro h
  have hsplit := h.batches [snapshotAndMore.take 2, snapshotAndMore.drop 2] rfl
  exact absurd hsplit (by decide)

end MarketDataConsumer

end Trading

import HftSystem.Trading.FeedReplay
import HftSystem.Trading.SnapshotSync

set_option relaxedAutoImplicit false
set_option autoImplicit false

/-!
# A snapshot recovery reconstructs the books

A consumer in recovery receives the messages of one snapshot in order, between any messages of
the incremental stream. If the recovery completes, what it forwards is the snapshot followed by
the incremental updates behind it, without gap or overlap, and the books that process this
contain what they would contain after the stream itself.

## Main definitions

* `Trading.Receiving`, `Trading.Recovered` — a consumer between two messages of a snapshot, and a
  consumer whose recovery is over.
* `Trading.SameLists` — two books with the same levels and queues.

## Main results

* `Trading.recovered_of_reads` — what a completed recovery forwards.
* `Trading.recovery_reconstructs` — the books after it.
-/

namespace Trading

open Common Exchange LimitOrderBook PriceTime Fallible MarketDataConsumer

/-! ## The consumer between two messages -/

section Consumer

variable (us : List MEMarketUpdate) (old : List MEMarketUpdate) (n : ℕ)

/-- The consumer in recovery when it has received the messages `done` of a snapshot and those of
`todo` are still to come. -/
structure Receiving (done todo : List MEMarketUpdate) (c : MarketDataConsumer) : Prop where
  inRecovery : c.inRecovery = true
  incoming : c.incomingMdUpdates = old
  resumable : c.Resumable
  incremental : ∀ e ∈ c.incrementalQueuedMsgs.entries, e ∈ queued (numberedFrom 1 us)
  snapshot : done ≠ [] → todo ≠ [] →
    c.snapshotQueuedMsgs.entries = queued (numberedFrom 0 done)

/-- The consumer when the recovery is over: it has forwarded the events of a snapshot that was
taken after `n` incremental updates, and the incremental updates behind it. -/
structure Recovered (snapshotEvents : List MEMarketUpdate) (c : MarketDataConsumer) : Prop where
  inRecovery : c.inRecovery = false
  incoming : ∃ k, n ≤ k ∧ k ≤ us.length ∧ c.nextExpIncSeqNum = k + 1 ∧
    c.incomingMdUpdates = old ++ (snapshotEvents ++ events ((us.drop n).take (k - n)))

variable {us old n}

/-- A snapshot: its events between a SNAPSHOT_START and a SNAPSHOT_END. -/
def snapshotContents (n : ℕ) (mid : List MEMarketUpdate) : List MEMarketUpdate :=
  { type := .snapshotStart, orderId := n } :: (mid ++ [{ type := .snapshotEnd, orderId := n }])

/-- The events of a snapshot. -/
lemma events_snapshotContents {mid : List MEMarketUpdate} (hmid : ∀ w ∈ mid, isMarker w = false) :
    events (snapshotContents n mid) = mid := by
  have hself : events mid = mid := List.filter_eq_self.mpr fun w hw => by simp [hmid w hw]
  rw [snapshotContents, ← List.singleton_append, events_append, events_append, hself]
  simp [events, isMarker]

/-- Where the next message of a snapshot stands: at its start, between, or at its end. -/
lemma snapshotContents_split {done todo mid : List MEMarketUpdate} {u : MEMarketUpdate}
    (h : done ++ u :: todo = snapshotContents n mid) :
    (∃ rest, done ++ [u] = { type := .snapshotStart, orderId := n } :: rest) ∧
      (todo ≠ [] → u.type = .snapshotStart ∨ u ∈ mid) ∧
      (todo = [] → u = { type := .snapshotEnd, orderId := n }) := by
  unfold snapshotContents at h
  cases done with
  | nil =>
    rw [List.nil_append, List.cons.injEq] at h
    obtain ⟨rfl, rfl⟩ := h
    exact ⟨⟨[], rfl⟩, fun _ => .inl rfl, fun hnil => by simp at hnil⟩
  | cons d done =>
    rw [List.cons_append, List.cons.injEq] at h
    obtain ⟨rfl, h⟩ := h
    refine ⟨⟨done ++ [u], rfl⟩, fun htodo => .inr ?_, fun htodo => ?_⟩
    · obtain ⟨todo, z, rfl⟩ := (List.eq_nil_or_concat todo).resolve_left htodo
      have happend : (done ++ u :: todo) ++ [z] = mid ++ [{ type := .snapshotEnd, orderId := n }] := by
        simpa using h
      obtain ⟨rfl, -⟩ := List.append_inj' happend rfl
      simp
    · subst htodo
      exact List.singleton_inj.mp (List.append_inj' h rfl).2

/-- **An incremental message** is queued. -/
lemma Receiving.recvIncremental {done todo : List MEMarketUpdate} {c : MarketDataConsumer}
    (h : Receiving us old done todo c) {m : MDPMarketUpdate} (hm : m ∈ numberedFrom 1 us) :
    Receiving us old done todo (recvMessage false c m) := by
  rw [recvMessage_of_inRecovery h.inRecovery]
  have hresumable : (c.enqueue false m).Resumable := h.resumable
  rw [queueMessage, hresumable.checkSnapshotSync]
  refine ⟨h.inRecovery, h.incoming, hresumable, fun e he => ?_, h.snapshot⟩
  rcases SortedMap.mem_insertEntry he with rfl | he
  · exact List.mem_map_of_mem hm
  · exact h.incremental e he

/-- The snapshot queue after the next message of the snapshot.

**Proof sketch.** The first message of the snapshot has the number 0. If the queue has that number, it
is emptied first, and if it has not, it is empty, since a queue that is kept starts at 0. A later
message has a larger number than all that are queued, so it is inserted behind them. -/
lemma Receiving.enqueue_snapshot {done todo : List MEMarketUpdate} {c : MarketDataConsumer}
    {u : MEMarketUpdate} (h : Receiving us old done (u :: todo) c) :
    (c.enqueue true { seqNum := done.length, meMarketUpdate := u }).snapshotQueuedMsgs.entries =
      queued (numberedFrom 0 (done ++ [u])) := by
  rw [queued_numberedFrom_append]
  cases done with
  | nil =>
    -- a queue that is not empty holds the number 0 and is emptied
    simp only [enqueue, if_true, List.length_nil]
    cases hfind : c.snapshotQueuedMsgs.find? 0 with
    | some w => rfl
    | none =>
      have hempty : c.snapshotQueuedMsgs.entries = [] := by
        refine h.resumable.resolve_right fun ⟨hkeys, ⟨m, hhead, _⟩, _⟩ => ?_
        cases hentries : c.snapshotQueuedMsgs.entries with
        | nil => simp [hentries] at hhead
        | cons e es =>
          rw [hentries, List.map_cons, List.length_cons, List.range'_succ, List.cons.injEq] at hkeys
          exact SortedMap.find?_eq_none.mp hfind e (by simp [hentries]) hkeys.1
      have hinsert := SortedMap.entries_insert_of_lt (m := c.snapshotQueuedMsgs) (k := 0)
        (by simp [hempty]) u
      simp only [Option.isSome_none, Bool.false_eq_true, if_false, hinsert, hempty]
      rfl
  | cons d done =>
    have hentries := h.snapshot (by simp) (by simp)
    have hlt : ∀ e ∈ c.snapshotQueuedMsgs.entries, e.1 < (d :: done).length := by
      intro e he
      rw [hentries] at he
      have hkey := List.mem_map_of_mem (f := Prod.fst) he
      rw [map_fst_queued_numberedFrom, List.mem_range'_1] at hkey
      omega
    have hfind : c.snapshotQueuedMsgs.find? (d :: done).length = none :=
      SortedMap.find?_eq_none.mpr fun e he => (hlt e he).ne
    simp only [enqueue, if_true, hfind, Option.isSome_none, Bool.false_eq_true, if_false]
    rw [SortedMap.entries_insert_of_lt hlt, hentries]
    simp [queued]

/-- **The next message of the snapshot** is queued, or it is the last one and the recovery may be
over.

**Proof sketch.** The message is put behind the ones that are queued, so the queue holds the first
messages of the snapshot. If it is the last one, the queue is a complete snapshot whose events are
`mid`, and either the incremental queue has a gap, and the snapshot is received again, or the recovery
is over, and what is forwarded from the queue is a piece of the stream (`eq_take_of_mem`). If it is
not, no message is a SNAPSHOT_END, and the check waits. -/
lemma Receiving.recvSnapshot {done todo mid : List MEMarketUpdate} {c : MarketDataConsumer}
    {u : MEMarketUpdate} (h : Receiving us old done (u :: todo) c)
    (hsplit : done ++ u :: todo = snapshotContents n mid) (hmid : ∀ w ∈ mid, isMarker w = false)
    (hn : n ≤ us.length) :
    let c' := recvMessage true c { seqNum := done.length, meMarketUpdate := u }
    Receiving us old (done ++ [u]) todo c' ∨ Recovered us old n mid c' ∧ todo = [] := by
  intro c'
  have hc' : c' = (c.enqueue true { seqNum := done.length, meMarketUpdate := u }).checkSnapshotSync :=
    recvMessage_of_inRecovery h.inRecovery _ _
  have hentries := h.enqueue_snapshot
  generalize hq : c.enqueue true { seqNum := done.length, meMarketUpdate := u } = q at hc' hentries
  have hq₁ : q.inRecovery = true ∧ q.incomingMdUpdates = old ∧
      q.incrementalQueuedMsgs = c.incrementalQueuedMsgs := by
    rw [← hq, enqueue, if_pos rfl]
    split_ifs <;> exact ⟨h.inRecovery, h.incoming, rfl⟩
  obtain ⟨hrecovery, hincoming, hincremental⟩ := hq₁
  have hkeys := map_fst_queued_numberedFrom 0 (done ++ [u])
  rw [← length_queued_numberedFrom 0 (done ++ [u]), ← hentries] at hkeys
  obtain ⟨⟨rest, hfirst⟩, hbetween, hend⟩ := snapshotContents_split hsplit
  have hstart : ∃ m, q.snapshotQueuedMsgs.entries.head? = some m ∧ m.2.type = .snapshotStart := by
    rw [hentries, hfirst, numberedFrom_cons, queued_cons]
    exact ⟨_, List.head?_cons .., rfl⟩
  have hlast : q.snapshotQueuedMsgs.entries.getLast? = some (done.length, u) := by
    rw [hentries, queued_numberedFrom_append]
    simp [queued]
  by_cases htodo : todo = []
  · have hcomplete : CompleteSnapshot q.snapshotQueuedMsgs.entries n :=
      ⟨hkeys, hstart, _, hlast, by rw [hend htodo], by rw [hend htodo]⟩
    have hevents : events (q.snapshotQueuedMsgs.entries.map Prod.snd) = mid := by
      rw [hentries, map_snd_queued_numberedFrom, ← events_snapshotContents hmid, ← hsplit, htodo]
    rw [hc', hcomplete.checkSnapshotSync, hevents]
    have hcases := finishSync_cases q mid n
    generalize q.finishSync mid n = q' at hcases ⊢
    cases hcases with
    | recover hrange =>
      right
      have hmem : ∀ m ∈ fromSeq (n + 1) q.incrementalQueuedMsgs.entries,
          m ∈ queued (numberedFrom 1 us) := fun m hm =>
        h.incremental m (hincremental ▸ (List.mem_filter.mp hm).1)
      obtain ⟨htake, hle⟩ := eq_take_of_mem hmem hrange hn
      refine ⟨⟨rfl, n + (fromSeq (n + 1) q.incrementalQueuedMsgs.entries).length, by omega, hle,
        ?_, ?_⟩, htodo⟩
      · show n + 1 + _ = _
        omega
      · rw [hincoming, htake, Nat.add_sub_cancel_left]
    | gap next =>
      left
      exact ⟨hrecovery, hincoming, .inl rfl, fun e he => h.incremental e (hincremental ▸ he),
        fun _ hne => absurd htodo hne⟩
  · left
    have hresumable : q.Resumable := by
      refine .inr ⟨hkeys, hstart, fun m hm => ?_⟩
      rw [hlast] at hm
      cases hm
      rcases hbetween htodo with hu | hu
      · simp [hu]
      · intro hu'
        have hnot := hmid u hu
        simp only [isMarker, Bool.or_eq_false_iff, decide_eq_false_iff_not] at hnot
        exact hnot.2 hu'
    rw [hc', hresumable.checkSnapshotSync]
    exact ⟨hrecovery, hincoming, hresumable, fun e he => h.incremental e (hincremental ▸ he),
      fun _ _ => hentries⟩

/-! ## Reads -/

/-- **A read from the snapshot socket** holds the next messages of the snapshot. -/
lemma Receiving.recvSnapshots {done todo mid : List MEMarketUpdate} {c : MarketDataConsumer}
    (h : Receiving us old done todo c) (hsplit : done ++ todo = snapshotContents n mid)
    (hmid : ∀ w ∈ mid, isMarker w = false) (hn : n ≤ us.length) {msgs : List MDPMarketUpdate}
    (hmsgs : msgs <+: numberedFrom done.length todo) :
    (∃ got rest, todo = got ++ rest ∧ msgs = numberedFrom done.length got ∧
        Receiving us old (done ++ got) rest (c.recvCallback true msgs)) ∨
      Recovered us old n mid (c.recvCallback true msgs) := by
  rw [recvCallback_of_inRecovery h.inRecovery]
  induction msgs generalizing done todo c with
  | nil => exact .inl ⟨[], todo, rfl, rfl, by rwa [List.append_nil]⟩
  | cons m msgs ih =>
    cases todo with
    | nil => simp at hmsgs
    | cons u todo =>
      rw [numberedFrom_cons, List.cons_prefix_cons] at hmsgs
      obtain ⟨rfl, hmsgs⟩ := hmsgs
      have hlength : (done ++ [u]).length = done.length + 1 := by simp
      rw [List.foldl_cons]
      rcases h.recvSnapshot hsplit hmid hn with h' | ⟨h', rfl⟩
      · have hsplit' : done ++ [u] ++ todo = snapshotContents n mid := by simpa using hsplit
        rcases ih h' hsplit' (by rwa [hlength]) with ⟨got, rest, rfl, rfl, h''⟩ | h''
        · refine .inl ⟨u :: got, rest, rfl, by rw [numberedFrom_cons, hlength], ?_⟩
          simpa using h''
        · exact .inr h''
      · -- the recovery is over, and the snapshot has no further message
        obtain rfl : msgs = [] := by simpa using hmsgs
        exact .inr h'

/-- A read from the incremental socket. -/
lemma Receiving.recvIncrementals {done todo : List MEMarketUpdate} {c : MarketDataConsumer}
    (h : Receiving us old done todo c) {msgs : List MDPMarketUpdate}
    (hmsgs : ∀ m ∈ msgs, m ∈ numberedFrom 1 us) :
    Receiving us old done todo (c.recvCallback false msgs) := by
  rw [recvCallback_of_inRecovery h.inRecovery]
  induction msgs generalizing c with
  | nil => exact h
  | cons m msgs ih =>
    exact ih (h.recvIncremental (hmsgs m (List.mem_cons_self ..)))
      fun m' hm' => hmsgs m' (List.mem_cons_of_mem _ hm')

end Consumer

/-- The reads take the consumer out of recovery, and the reads before the last one do not. -/
def Recovers (c : MarketDataConsumer) (reads : List (Bool × List MDPMarketUpdate)) : Prop :=
  (∀ pre, pre <+: reads → pre ≠ reads → (c.recvAll pre).inRecovery = true) ∧
    (c.recvAll reads).inRecovery = false

/-- **What a completed recovery forwards.**

**Proof sketch.** By induction on the reads, with what is left of the snapshot. A read of incremental
messages keeps the recovery (`Receiving.recvIncrementals`). A read of snapshot messages keeps it or
completes it (`Receiving.recvSnapshots`); once it is complete the consumer is out of recovery, and
`Recovers` says that this was the last read. -/
theorem recovered_of_reads {us old done todo mid : List MEMarketUpdate} {n : ℕ}
    {c : MarketDataConsumer} (h : Receiving us old done todo c)
    (hsplit : done ++ todo = snapshotContents n mid) (hmid : ∀ w ∈ mid, isMarker w = false)
    (hn : n ≤ us.length) {reads : List (Bool × List MDPMarketUpdate)}
    (hsnapshot : messagesFrom true reads <+: numberedFrom done.length todo)
    (hincremental : ∀ m ∈ messagesFrom false reads, m ∈ numberedFrom 1 us)
    (hrecovers : Recovers c reads) : Recovered us old n mid (c.recvAll reads) := by
  obtain ⟨hbefore, hafter⟩ := hrecovers
  induction reads generalizing done todo c with
  | nil => simp [h.inRecovery] at hafter
  | cons read reads ih =>
    obtain ⟨isSnapshot, msgs⟩ := read
    have hbefore' : ∀ pre, pre <+: reads → pre ≠ reads →
        ((c.recvCallback isSnapshot msgs).recvAll pre).inRecovery = true := by
      intro pre hpre hne
      exact hbefore ((isSnapshot, msgs) :: pre) (List.cons_prefix_cons.mpr ⟨rfl, hpre⟩)
        fun he => hne (List.cons.inj he).2
    cases isSnapshot with
    | false =>
      rw [messagesFrom_cons_of_ne (by simp)] at hsnapshot
      rw [messagesFrom_cons_self] at hincremental
      have h' := h.recvIncrementals fun m hm => hincremental m (List.mem_append_left _ hm)
      exact ih h' hsplit hsnapshot (fun m hm => hincremental m (List.mem_append_right _ hm))
        hbefore' hafter
    | true =>
      rw [messagesFrom_cons_self] at hsnapshot
      rw [messagesFrom_cons_of_ne (by simp)] at hincremental
      have hmsgs : msgs <+: numberedFrom done.length todo := (List.prefix_append _ _).trans hsnapshot
      rcases h.recvSnapshots hsplit hmid hn hmsgs with ⟨got, rest, rfl, rfl, h'⟩ | h'
      · rw [numberedFrom_append, List.prefix_append_right_inj] at hsnapshot
        rw [← List.append_assoc] at hsplit
        exact ih h' hsplit (by rwa [List.length_append]) hincremental hbefore' hafter
      · -- the recovery is over, so this was the last read
        cases reads with
        | nil => exact h'
        | cons read reads =>
          have hrecovery := hbefore' [] List.nil_prefix (by simp)
          rw [recvAll_nil, h'.inRecovery] at hrecovery
          cases hrecovery

/-! ## Where a recovery starts -/

/-- The incremental messages that are queued come from the stream. -/
def QueuesOnly (us : List MEMarketUpdate) (c : MarketDataConsumer) : Prop :=
  ∀ e ∈ c.incrementalQueuedMsgs.entries, e ∈ queued (numberedFrom 1 us)

/-- A check queues no message. -/
lemma QueuesOnly.checkSnapshotSync {us : List MEMarketUpdate} {c : MarketDataConsumer}
    (h : QueuesOnly us c) : QueuesOnly us c.checkSnapshotSync := by
  have hcases := checkSnapshotSync_cases c
  generalize c.checkSnapshotSync = c' at hcases ⊢
  cases hcases with
  | wait _ => exact h
  | clear => exact h
  | finish orderId _ =>
    have hcases := finishSync_cases c (events (c.snapshotQueuedMsgs.entries.map Prod.snd)) orderId
    generalize c.finishSync _ orderId = c' at hcases ⊢
    cases hcases with
    | recover _ =>
      intro e he
      cases he
    | gap _ => exact h

/-- A message of the stream, or of a snapshot, is queued. -/
lemma QueuesOnly.queueMessage {us : List MEMarketUpdate} {c : MarketDataConsumer}
    (h : QueuesOnly us c) {isSnapshot : Bool} {m : MDPMarketUpdate}
    (hm : isSnapshot = false → m ∈ numberedFrom 1 us) :
    QueuesOnly us (c.queueMessage isSnapshot m) := by
  apply QueuesOnly.checkSnapshotSync
  cases isSnapshot with
  | true =>
    unfold enqueue
    rw [if_pos rfl]
    split_ifs <;> exact h
  | false =>
    intro e he
    rcases SortedMap.mem_insertEntry he with rfl | he
    · exact List.mem_map_of_mem (hm rfl)
    · exact h e he

/-- **A message of the stream, or of a snapshot**, leaves only messages of the stream in the
queue. -/
lemma QueuesOnly.recvMessage {us : List MEMarketUpdate} {c : MarketDataConsumer}
    (h : QueuesOnly us c) {isSnapshot : Bool} {m : MDPMarketUpdate}
    (hm : isSnapshot = false → m ∈ numberedFrom 1 us) :
    QueuesOnly us (recvMessage isSnapshot c m) := by
  cases hrecovery : c.inRecovery with
  | true =>
    rw [recvMessage_of_inRecovery hrecovery]
    exact h.queueMessage hm
  | false =>
    rw [recvMessage_of_not_inRecovery hrecovery]
    split_ifs
    · apply QueuesOnly.queueMessage
      · intro e he
        cases he
      · exact hm
    · exact h
    · exact h

/-- A consumer that has received messages of the stream, and any messages of snapshots, can
receive a snapshot. -/
lemma receiving_of_reads {us : List MEMarketUpdate} {before : List (Bool × List MDPMarketUpdate)}
    (hbefore : ∀ m ∈ messagesFrom false before, m ∈ numberedFrom 1 us)
    (hrecovery : (MarketDataConsumer.recvAll {} before).inRecovery = true)
    (todo : List MEMarketUpdate) :
    Receiving us (MarketDataConsumer.recvAll {} before).incomingMdUpdates [] todo
      (MarketDataConsumer.recvAll {} before) := by
  refine ⟨hrecovery, rfl, Resumable.recvAll (.inl rfl) before, ?_, fun hne => absurd rfl hne⟩
  refine recvAll_of_recvMessage (P := QueuesOnly us)
    (C := fun isSnapshot m => isSnapshot = false → m ∈ numberedFrom 1 us)
    (fun c isSnapshot m hc hm => hc.recvMessage hm) (fun e he => by cases he) ?_
  refine fun read hread m hm hsnapshot => hbefore m ?_
  exact List.mem_flatMap.mpr ⟨read, List.mem_filter.mpr ⟨hread, by simp [hsnapshot]⟩, hm⟩

/-! ## The books after a recovery -/

/-- The two books have the same price levels on each side, with the same queues of orders. -/
def SameLists (b b' : MarketOrderBook) : Prop :=
  ∃ v v', WellFormed b v ∧ WellFormed b' v' ∧ ∀ s, s.IsBookSide → v.contents s = v'.contents s

/-- Books that contain the same live orders have the same lists. -/
lemma Tracks.sameLists {b b' : MarketOrderBook} {live : SortedMap ℕ MEMarketUpdate}
    (h : Tracks b live) (h' : Tracks b' live) : SameLists b b' := by
  obtain ⟨v, hb, hv⟩ := h
  obtain ⟨v', hb', hv'⟩ := h'
  exact ⟨v, v', hb, hb', fun s hs => (hv s hs).trans (hv' s hs).symm⟩

/-- The updates of a snapshot are no markers. -/
lemma isMarker_snapshotUpdates {fs : ℕ → Feed} (hhomed : Homed fs) :
    ∀ u ∈ snapshotUpdates fs, isMarker u = false := by
  intro u hu
  obtain ⟨t, -, hu⟩ := mem_snapshotUpdates.mp hu
  rcases List.mem_cons.mp hu with rfl | hu
  · rfl
  · obtain ⟨e, he, rfl⟩ := List.mem_map.mp hu
    simp [isMarker, (hhomed t).1.type e he]

/-- **The snapshot of a stream** is taken of the feeds after the updates that the synthesizer has
seen.

**Proof sketch.** The synthesizer holds these feeds (`safe_addAllToSnapshot`) and the number of the
last update. If `e` exceeds the length of the stream, that number is the length. -/
lemma exists_publishSnapshot {us : List MEMarketUpdate} (hus : Stream us) {e : ℕ}
    {s : SnapshotSynthesizer}
    (hs : (numberedFrom 1 (us.take e)).foldlM SnapshotSynthesizer.addToSnapshot .new = .ok s) :
    ∃ n ≤ us.length, ∃ fs, feedsOf (us.take n) = some fs ∧
      s.publishSnapshot = numberedFrom 0 (snapshotContents n (snapshotUpdates fs)) := by
  obtain ⟨fs, hfs⟩ := hus.exists_feeds (List.take_prefix e us)
  obtain ⟨hholds, hseq⟩ := (SnapshotSynthesizer.safe_addAllToSnapshot SnapshotSynthesizer.holds_new
    homed_empty hfs).of_eq_ok hs
  have htake : us.take (min e us.length) = us.take e := by
    rw [← List.take_take, List.take_length]
  have hlast : s.lastIncSeqNum = min e us.length := by
    rw [hseq, List.length_take]
    exact Nat.zero_add _
  refine ⟨min e us.length, min_le_right _ _, fs, htake ▸ hfs, ?_⟩
  rw [SnapshotSynthesizer.publishSnapshot_eq hholds, hlast, snapshotUpdates]
  rfl

/-- **A completed recovery reconstructs the books.** Let the synthesizer have processed the first
`e` updates of a well-formed stream `us`. A consumer that is in recovery after some reads receives
all messages of the synthesizer's snapshot in order, between any messages of the stream. When the
recovery is over, after the reads `done`, then `k` is one less than the expected number, and
applying what was forwarded to new books gives the same lists as applying the first `k` updates of
the stream. The latter only fails for want of a fresh block or a table entry; when it returns, the
former only fails for want of a fresh block.

**Proof sketch.** The snapshot was taken of the feeds after `n` updates (`exists_publishSnapshot`), and
`recovered_of_reads` says what the consumer forwards: the events of this snapshot and then the updates
from `n` to `k`. A snapshot applied to new books tracks the feeds of which it was taken
(`safe_snapshotUpdates`), the updates behind it make these the feeds after `k` (`safe_stream`), and the
first `k` updates applied to new books track the same feeds. Books that track the same feeds have the
same lists. -/
theorem recovery_reconstructs {us : List MEMarketUpdate} (hus : Stream us) (e : ℕ)
    {s : SnapshotSynthesizer}
    (hs : (numberedFrom 1 (us.take e)).foldlM SnapshotSynthesizer.addToSnapshot .new = .ok s)
    {before reads done : List (Bool × List MDPMarketUpdate)}
    (hbefore : ∀ m ∈ messagesFrom false before, m ∈ numberedFrom 1 us)
    (hsnapshot : messagesFrom true reads = s.publishSnapshot)
    (hincremental : ∀ m ∈ messagesFrom false reads, m ∈ numberedFrom 1 us)
    (hrecovery : (MarketDataConsumer.recvAll {} before).inRecovery = true)
    (hdone : done <+: reads) (hrecovers : Recovers (MarketDataConsumer.recvAll {} before) done) :
    let c := MarketDataConsumer.recvAll {} before
    let c' := c.recvAll done
    ∃ k forwarded, c'.nextExpIncSeqNum = k + 1 ∧ k ≤ us.length ∧
      c'.incomingMdUpdates = c.incomingMdUpdates ++ forwarded ∧
      Safe (UpdatesFault (us.take k))
        (fun books' => Safe NoFreshBlock
          (fun books => ∀ t < meMaxTickers, SameLists (books t) (books' t))
          (onMarketUpdates newBooks forwarded))
        (onMarketUpdates newBooks (us.take k)) := by
  intro c c'
  obtain ⟨n, hn, fs, hfs, hpublish⟩ := exists_publishSnapshot hus hs
  have hhomed := homed_feedsOf hfs
  have hmarker := isMarker_snapshotUpdates hhomed
  -- what the consumer forwards
  have hstart := receiving_of_reads hbefore hrecovery (snapshotContents n (snapshotUpdates fs))
  obtain ⟨rest, rfl⟩ := hdone
  have hsnapshot' : messagesFrom true done <+: numberedFrom 0 (snapshotContents n (snapshotUpdates fs)) :=
    ⟨messagesFrom true rest, by rw [← messagesFrom_append, hsnapshot, hpublish]⟩
  have hincremental' : ∀ m ∈ messagesFrom false done, m ∈ numberedFrom 1 us := fun m hm =>
    hincremental m (by rw [messagesFrom_append]; exact List.mem_append_left _ hm)
  obtain ⟨-, k, hnk, hk, hnext, hincoming⟩ := recovered_of_reads hstart rfl hmarker hn hsnapshot'
    hincremental' hrecovers
  refine ⟨k, _, hnext, hk, hincoming, ?_⟩
  -- the books
  have hsplit : us.take k = us.take n ++ (us.drop n).take (k - n) := by
    rw [← List.take_add, Nat.add_sub_cancel' hnk]
  obtain ⟨fs', hfs'⟩ := hus.exists_feeds (List.take_prefix k us)
  have hpre : [] ++ us.take k <+: us := List.take_prefix k us
  have hdirect := safe_stream hus hpre (fun _ => true) (fun _ h => by cases h) rfl hfs'
    tracksAll_newBooks
  rw [List.filter_true] at hdirect
  refine hdirect.mono (fun _ hf => hf) ?_
  rintro books' ⟨hbooks', hin⟩
  have hin₁ : ∀ u ∈ us.take n, SnapshotSynthesizer.InTables u := fun u hu =>
    hin u (by rw [hsplit]; exact List.mem_append_left _ hu)
  have hin₂ : ∀ u ∈ (us.drop n).take (k - n), SnapshotSynthesizer.InTables u := fun u hu =>
    hin u (by rw [hsplit]; exact List.mem_append_right _ hu)
  have hcompat := hus.compatible _ (List.take_prefix n us) fs hfs
  rw [onMarketUpdates, List.foldlM_append]
  refine Safe.bind ((safe_snapshotUpdates hhomed hcompat tracksAll_newBooks).mono
    (fun f hf => hf.noFreshBlock (inTables_snapshotUpdates hfs hin₁)) fun _ hb => hb) ?_
  intro books hbooks
  rw [hsplit] at hfs'
  refine (safe_stream hus (hsplit ▸ List.take_prefix k us) (fun u => !isMarker u) ?_ hfs hfs'
    hbooks).mono (fun f hf => hf.noFreshBlock hin₂) ?_
  · intro u hu
    simpa [isMarker, Unannounced, or_iff_not_imp_left] using hu
  · rintro books₁ ⟨hbooks₁, -⟩ t ht
    exact (hbooks₁ t ht).sameLists (hbooks' t ht)

/-- Two orders of one ticker, of which one is modified and the other canceled. -/
def sampleStream : List MEMarketUpdate :=
  [{ type := .add, orderId := 1, tickerId := 0, side := .buy, price := 10, qty := 5, priority := 1 },
   { type := .add, orderId := 2, tickerId := 0, side := .sell, price := 20, qty := 7, priority := 1 },
   { type := .modify, orderId := 1, tickerId := 0, side := .buy, price := 10, qty := 3, priority := 1 },
   { type := .cancel, orderId := 2, tickerId := 0, side := .sell, price := 20, qty := 0,
     priority := 1 }]

/-- The snapshot after its first two updates. -/
def sampleSnapshot : List MDPMarketUpdate :=
  numberedFrom 0 (snapshotContents 2
    ({ type := .clear, tickerId := 0 } :: sampleStream.take 2 ++
      [{ type := .clear, tickerId := 1 }, { type := .clear, tickerId := 2 },
       { type := .clear, tickerId := 3 }, { type := .clear, tickerId := 4 },
       { type := .clear, tickerId := 5 }, { type := .clear, tickerId := 6 },
       { type := .clear, tickerId := 7 }]))

/-- The updates of the sample are a well-formed stream. -/
lemma stream_sampleStream : Stream sampleStream where
  announced := by decide
  increasing t := by
    by_cases ht : 0 = t
    · subst ht
      decide
    · simp [sampleStream, addedIds, ht]
  compatible pre hpre fs hfs t := by
    -- every live order has the side and the price of one of the two ADDs
    have hadd : ∀ e ∈ (fs t).live.entries,
        e.2.side = .buy ∧ e.2.price = 10 ∨ e.2.side = .sell ∧ e.2.price = 20 := by
      intro e he
      obtain ⟨u, hu, htype, hside, hprice⟩ := exists_add_of_live hfs he
      have hall : ∀ u ∈ sampleStream, u.type = .add →
          u.side = .buy ∧ u.price = 10 ∨ u.side = .sell ∧ u.price = 20 := by decide
      rw [hside, hprice]
      exact hall u (hpre.subset hu) htype
    refine ⟨fun e he => ?_, fun e he e' he' hmod => ?_, fun e he e' he' hs hs' => ?_⟩
    · exact (hadd e he).imp And.left And.left
    · rcases hadd e he with ⟨-, hp⟩ | ⟨-, hp⟩ <;> rcases hadd e' he' with ⟨-, hp'⟩ | ⟨-, hp'⟩ <;>
        rw [hp, hp'] at hmod ⊢ <;> exact absurd hmod (by decide)
    · have hp := (hadd e he).resolve_right fun h => by simp [hs] at h
      have hp' := (hadd e' he').resolve_left fun h => by simp [hs'] at h
      omega

/-- Recoveries complete: a consumer that first sees the third update recovers from the snapshot of
the first two. -/
theorem recovery_reconstructs_sample :
    let c := MarketDataConsumer.recvAll {} [(false, (numberedFrom 1 sampleStream).drop 2 |>.take 1)]
    let c' := c.recvAll [(true, sampleSnapshot)]
    ∃ k forwarded, c'.nextExpIncSeqNum = k + 1 ∧ k ≤ sampleStream.length ∧
      c'.incomingMdUpdates = c.incomingMdUpdates ++ forwarded ∧
      Safe (UpdatesFault (sampleStream.take k))
        (fun books' => Safe NoFreshBlock
          (fun books => ∀ t < meMaxTickers, SameLists (books t) (books' t))
          (onMarketUpdates newBooks forwarded))
        (onMarketUpdates newBooks (sampleStream.take k)) := by
  obtain ⟨s, hs, hsnapshot⟩ := (show Safe (fun _ => False)
    (fun s : SnapshotSynthesizer => s.publishSnapshot = sampleSnapshot)
    ((numberedFrom 1 (sampleStream.take 2)).foldlM SnapshotSynthesizer.addToSnapshot .new)
    by decide +kernel).exists_ok
  refine recovery_reconstructs stream_sampleStream 2 hs (by decide)
    (hsnapshot ▸ List.append_nil _) (by decide) (by decide) (List.prefix_refl _) ⟨?_, by decide⟩
  intro pre hpre hne
  rcases List.prefix_cons_iff.mp hpre with rfl | ⟨pre, rfl, hnil⟩
  · decide
  · rw [List.prefix_nil.mp hnil] at hne
    exact absurd rfl hne

end Trading

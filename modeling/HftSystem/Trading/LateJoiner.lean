import HftSystem.Trading.PublishedStream
import HftSystem.Trading.SnapshotRecovery

set_option relaxedAutoImplicit false
set_option autoImplicit false

/-!
# A client that joins late

A client that starts when the exchange has been running misses the beginning of the incremental
stream. It goes into recovery with the first message that it sees, receives a snapshot of the
synthesizer, and from then on reads the incremental stream. When it loses nothing after its
recovery, its books mirror those of the exchange: what it forwards is a snapshot of the resting
orders and the updates behind it, each of them once.

## Main definitions

* `Trading.Joined` — the reads of a client that joins late and recovers from one snapshot.

## Main results

* `Trading.recvAll_of_next` — reads outside of recovery that miss nothing.
* `Trading.Joined.forwarded` — what the client forwards.
* `Trading.late_joiner_mirrors` — its books.
-/

namespace Trading

open Common Exchange LimitOrderBook PriceTime Fallible MarketDataConsumer

/-! ## Outside of recovery -/

/-- The messages of a stream behind the first `k`. -/
lemma drop_numberedFrom (us : List MEMarketUpdate) (start k : ℕ) :
    (numberedFrom start us).drop k = numberedFrom (start + k) (us.drop k) := by
  induction k generalizing start us with
  | zero => rfl
  | succ k ih =>
    cases us with
    | nil => rfl
    | cons u us =>
      rw [numberedFrom_cons, List.drop_succ_cons, List.drop_succ_cons, ih, Nat.add_right_comm,
        Nat.add_assoc]

/-- The consumer after it has forwarded the next updates. -/
def forward (c : MarketDataConsumer) (us : List MEMarketUpdate) : MarketDataConsumer :=
  { c with
    nextExpIncSeqNum := c.nextExpIncSeqNum + us.length
    incomingMdUpdates := c.incomingMdUpdates ++ us }

/-- Nothing is forwarded. -/
lemma forward_nil (c : MarketDataConsumer) : forward c [] = c := by simp [forward]

/-- What is forwarded in two goes is forwarded in one. -/
lemma forward_append (c : MarketDataConsumer) (us us' : List MEMarketUpdate) :
    forward c (us ++ us') = forward (forward c us) us' := by
  simp [forward, Nat.add_assoc]

/-- A read of the next incremental messages forwards them. -/
lemma recvCallback_of_next {c : MarketDataConsumer} (hrecovery : c.inRecovery = false)
    (us : List MEMarketUpdate) :
    c.recvCallback false (numberedFrom c.nextExpIncSeqNum us) = forward c us := by
  show (numberedFrom c.nextExpIncSeqNum us).foldl (recvMessage false) c = _
  induction us generalizing c with
  | nil => exact (forward_nil c).symm
  | cons u us ih =>
    have hnext : recvMessage false c { seqNum := c.nextExpIncSeqNum, meMarketUpdate := u } =
        forward c [u] := by
      rw [recvMessage_of_not_inRecovery hrecovery]
      simp [forward]
    have hrest := ih (c := forward c [u]) hrecovery
    rw [numberedFrom_cons, List.foldl_cons, hnext]
    exact hrest.trans (forward_append c [u] us).symm

/-- **Reads outside of recovery that miss nothing**: the incremental messages are forwarded, and
messages of snapshots are dropped. -/
theorem recvAll_of_next {c : MarketDataConsumer} (hrecovery : c.inRecovery = false)
    {reads : List (Bool × List MDPMarketUpdate)} {us : List MEMarketUpdate}
    (hreads : messagesFrom false reads = numberedFrom c.nextExpIncSeqNum us) :
    c.recvAll reads = forward c us := by
  induction reads generalizing c us with
  | nil =>
    cases us with
    | nil => exact (forward_nil c).symm
    | cons u us => simp [messagesFrom] at hreads
  | cons read reads ih =>
    obtain ⟨isSnapshot, msgs⟩ := read
    rw [recvAll_cons]
    cases isSnapshot with
    | true =>
      rw [messagesFrom_cons_of_ne (by simp)] at hreads
      have hdropped : c.recvCallback true msgs = c := by simp [recvCallback, hrecovery]
      rw [hdropped]
      exact ih hrecovery hreads
    | false =>
      rw [messagesFrom_cons_self] at hreads
      -- the read holds the next messages
      obtain ⟨us₁, us₂, rfl, hlength⟩ : ∃ us₁ us₂, us = us₁ ++ us₂ ∧ us₁.length = msgs.length := by
        have hle := congrArg List.length hreads
        simp only [List.length_append, numberedFrom, List.length_mapIdx] at hle
        exact ⟨us.take msgs.length, us.drop msgs.length, (List.take_append_drop _ _).symm,
          List.length_take_of_le (by omega)⟩
      rw [numberedFrom_append] at hreads
      obtain ⟨rfl, hrest⟩ := List.append_inj hreads (by simp [numberedFrom, hlength])
      rw [recvCallback_of_next hrecovery, forward_append]
      exact ih (c := forward c us₁) hrecovery hrest

/-! ## Joining late -/

/-- **A client that joins late.** Of a stream `us` it first reads `before`, forwards none of it and
goes into recovery; its recovery is over after the reads `recovering`, which hold the beginning of
the snapshot that the synthesizer publishes after `e` updates, in order and between any messages of
the stream; and after them it misses nothing. -/
structure Joined (us : List MEMarketUpdate) (e : ℕ)
    (before recovering after : List (Bool × List MDPMarketUpdate)) : Prop where
  early : ∀ m ∈ messagesFrom false before, m ∈ numberedFrom 1 us
  inRecovery : (recvAll {} before).inRecovery = true
  nothing : (recvAll {} before).incomingMdUpdates = []
  snapshot : ∃ s, (numberedFrom 1 (us.take e)).foldlM SnapshotSynthesizer.addToSnapshot .new = .ok s ∧
    messagesFrom true recovering <+: s.publishSnapshot
  incremental : ∀ m ∈ messagesFrom false recovering, m ∈ numberedFrom 1 us
  recovers : Recovers (recvAll {} before) recovering
  complete : messagesFrom false after =
    (numberedFrom 1 us).drop ((recvAll {} (before ++ recovering)).nextExpIncSeqNum - 1)

/-- Reads one after the other. -/
lemma recvAll_append (c : MarketDataConsumer) (reads reads' : List (Bool × List MDPMarketUpdate)) :
    c.recvAll (reads ++ reads') = (c.recvAll reads).recvAll reads' := List.foldl_append

/-- **What the client forwards**: a snapshot of the feeds after some updates, and then every later
update once.

**Proof sketch.** The snapshot is taken of the feeds of the first updates (`exists_publishSnapshot`).
The recovery forwards what `recovered_of_reads` says, up to some later update `k`. Behind it the
client reads all later updates in order, from the number that it expects next, so it forwards each
one (`recvAll_of_next`). -/
theorem Joined.forwarded {us : List MEMarketUpdate} {e : ℕ}
    {before recovering after : List (Bool × List MDPMarketUpdate)}
    (h : Joined us e before recovering after) (hus : Stream us) :
    let c := recvAll {} (before ++ recovering ++ after)
    c.inRecovery = false ∧ c.nextExpIncSeqNum = us.length + 1 ∧
      ∃ n k fs, n ≤ k ∧ k ≤ us.length ∧ feedsOf (us.take n) = some fs ∧
        c.incomingMdUpdates =
          snapshotUpdates fs ++ events ((us.drop n).take (k - n)) ++ us.drop k := by
  intro c
  obtain ⟨s, hs, hsnapshot⟩ := h.snapshot
  obtain ⟨n, hn, fs, hfs, hpublish⟩ := exists_publishSnapshot hus hs
  have hhomed := homed_feedsOf hfs
  -- the recovery
  have hstart := receiving_of_reads h.early h.inRecovery (snapshotContents n (snapshotUpdates fs))
  obtain ⟨hover, k, hnk, hk, hnext, hincoming⟩ := recovered_of_reads hstart rfl
    (isMarker_snapshotUpdates hhomed) hn (hpublish ▸ hsnapshot) h.incremental h.recovers
  rw [← recvAll_append] at hover hnext hincoming
  rw [h.nothing, List.nil_append] at hincoming
  -- what comes after it
  have hafter : messagesFrom false after =
      numberedFrom (recvAll {} (before ++ recovering)).nextExpIncSeqNum (us.drop k) := by
    rw [h.complete, drop_numberedFrom, hnext, Nat.add_sub_cancel, Nat.add_comm]
  have hc : c = forward (recvAll {} (before ++ recovering)) (us.drop k) := by
    show recvAll {} (before ++ recovering ++ after) = _
    rw [recvAll_append]
    exact recvAll_of_next hover hafter
  rw [hc]
  refine ⟨hover, ?_, n, k, fs, hnk, hk, hfs, ?_⟩
  · simp only [forward, hnext, List.length_drop]
    omega
  · simp only [forward, hincoming]

/-! ## The books of the client -/

/-- The books that process what the client forwards.

**Proof sketch.** The client forwards three pieces (`Joined.forwarded`). The orders of the snapshot
bring new books to the feeds of the first updates (`safe_snapshotUpdates`); the updates that were
queued, without the markers, and those behind the recovery are two pieces of the stream, which the
books follow (`safe_stream`). -/
lemma Joined.tracksAll {us : List MEMarketUpdate} {e : ℕ}
    {before recovering after : List (Bool × List MDPMarketUpdate)}
    (h : Joined us e before recovering after) (hus : Stream us) {fs : ℕ → Feed}
    (hfs : feedsOf us = some fs) :
    Safe (UpdatesFault us) (fun books => TracksAll books fs)
      (onMarketUpdates newBooks (recvAll {} (before ++ recovering ++ after)).incomingMdUpdates) := by
  obtain ⟨-, -, n, k, fs₁, hnk, hk, hfs₁, hincoming⟩ := h.forwarded hus
  have hhomed := homed_feedsOf hfs₁
  have hcompat := hus.compatible _ (List.take_prefix n us) fs₁ hfs₁
  have hsplit : us.take k = us.take n ++ (us.drop n).take (k - n) := by
    rw [← List.take_add, Nat.add_sub_cancel' hnk]
  obtain ⟨fs₂, hfs₂⟩ := hus.exists_feeds (List.take_prefix k us)
  rw [hincoming, onMarketUpdates, List.foldlM_append, List.foldlM_append, bind_assoc]
  -- the snapshot
  refine Safe.bind ((safe_snapshotUpdates hhomed hcompat tracksAll_newBooks).mono
    (fun f hf => ?_) fun _ hb => hb) ?_
  · by_cases hin : ∀ u ∈ us.take n, SnapshotSynthesizer.InTables u
    · exact .inl (hf.noFreshBlock (inTables_snapshotUpdates hfs₁ hin))
    · obtain ⟨u, hu, hout⟩ := not_forall₂.mp hin
      exact .inr ⟨u, List.mem_of_mem_take hu, hout⟩
  intro books₁ hbooks₁
  -- the updates that were queued
  have hfs₂' : feedsOf (us.take n ++ (us.drop n).take (k - n)) = some fs₂ := hsplit ▸ hfs₂
  refine Safe.bind ((safe_stream hus (hsplit ▸ List.take_prefix k us) (fun u => !isMarker u) ?_ hfs₁
    hfs₂' hbooks₁).mono (fun f hf => hf.mono ?_) fun _ hb => hb) ?_
  · intro u hu
    simpa [isMarker, Unannounced, or_iff_not_imp_left] using hu
  · exact fun u hu => List.mem_of_mem_drop (List.mem_of_mem_take hu)
  rintro books₂ ⟨hbooks₂, -⟩
  -- the updates behind the recovery
  have hpre : us.take k ++ us.drop k <+: us := by rw [List.take_append_drop]
  have hfs' : feedsOf (us.take k ++ us.drop k) = some fs := by rwa [List.take_append_drop]
  have hrest := safe_stream hus hpre (fun _ => true) (fun _ hu => by cases hu) hfs₂ hfs' hbooks₂
  rw [List.filter_true] at hrest
  exact hrest.mono (fun f hf => hf.mono fun u hu => List.mem_of_mem_drop hu) fun _ hb => hb.1

/-- **The books of a client that joins late mirror those of the exchange.** When a client joins the
market data of a completed run of admissible requests late, with `add` through line 105, processing
what it forwards, from new books, fails only for want of a fresh block or of a table entry, and the
book of each ticker ends up with the prices and the queues of the exchange's book.

**Proof sketch.** The recovery forwards the orders that were live at the snapshot and every later
update, and its books track the live orders of the whole stream (`Joined.tracksAll`). These are the
orders that rest in the exchange's books. -/
theorem late_joiner_mirrors {requests : List MEClientRequest} {x : EngineState} {e : ℕ}
    {before recovering after : List (Bool × List MDPMarketUpdate)}
    (h : Meets (EngineState.process MEOrderBook.addAnnounced) EngineAdmissible {} requests)
    (hx : requests.foldlM (EngineState.process MEOrderBook.addAnnounced) {} = .ok x)
    (hjoined : Joined x.queues.outgoingMdUpdates e before recovering after) :
    Safe (UpdatesFault x.queues.outgoingMdUpdates)
      (fun books => ∀ t < meMaxTickers, ∃ v w, BookInvariant (x.tickerOrderBook t) v ∧
        WellFormed (books t) w ∧ Mirrors v w)
      (onMarketUpdates newBooks (recvAll {} (before ++ recovering ++ after)).incomingMdUpdates) := by
  obtain ⟨hstream, fs, hfs, hshown⟩ := ((enginePublishes_of_run h).of_eq_ok hx).stream
  refine (hjoined.tracksAll hstream hfs).mono (fun _ hf => hf) fun books hbooks t ht => ?_
  obtain ⟨w, hwf, hw⟩ := hbooks t ht
  obtain ⟨v, hinv, hv⟩ := hshown t
  exact ⟨v, w, hinv, hwf, hv.mirrors hw⟩

/-- What is published about `sampleOrders`. -/
def sampleUpdates : List MEMarketUpdate :=
  [{ type := .add, orderId := 1, tickerId := 0, side := .sell, price := 12, qty := 5, priority := 1 },
   { type := .add, orderId := 1, tickerId := 4, side := .sell, price := 7, qty := 2, priority := 1 },
   { type := .trade, tickerId := 0, side := .buy, price := 12, qty := 3 },
   { type := .modify, orderId := 1, tickerId := 0, side := .sell, price := 12, qty := 2,
     priority := 1 },
   { type := .cancel, orderId := 1, tickerId := 4, side := .sell, price := 7, qty := 0,
     priority := 1 }]

/-- A snapshot after the first two updates. -/
def sampleJoin : List MDPMarketUpdate :=
  numberedFrom 0 (snapshotContents 2
    ([{ type := .clear, tickerId := 0 },
      { type := .add, orderId := 1, tickerId := 0, side := .sell, price := 12, qty := 5,
        priority := 1 },
      { type := .clear, tickerId := 1 }, { type := .clear, tickerId := 2 },
      { type := .clear, tickerId := 3 }, { type := .clear, tickerId := 4 },
      { type := .add, orderId := 1, tickerId := 4, side := .sell, price := 7, qty := 2,
        priority := 1 },
      { type := .clear, tickerId := 5 }, { type := .clear, tickerId := 6 },
      { type := .clear, tickerId := 7 }]))

/-- The third update is the first one that the client sees. -/
def readsBefore : List (Bool × List MDPMarketUpdate) :=
  [(false, ((numberedFrom 1 sampleUpdates).drop 2).take 1)]

/-- In its recovery it sees the fourth update and the snapshot. -/
def readsRecovering : List (Bool × List MDPMarketUpdate) :=
  [(false, ((numberedFrom 1 sampleUpdates).drop 3).take 1), (true, sampleJoin)]

/-- After the recovery it sees the last update. -/
def readsAfter : List (Bool × List MDPMarketUpdate) :=
  [(false, (numberedFrom 1 sampleUpdates).drop 4)]

/-- The client has joined and missed nothing since. -/
lemma joined_sample : Joined sampleUpdates 2 readsBefore readsRecovering readsAfter where
  early := by decide
  inRecovery := by decide
  nothing := by decide
  snapshot := by
    obtain ⟨s, hs, hsnapshot⟩ := (show Safe (fun _ => False)
      (fun s : SnapshotSynthesizer => s.publishSnapshot = sampleJoin)
      ((numberedFrom 1 (sampleUpdates.take 2)).foldlM SnapshotSynthesizer.addToSnapshot .new)
      by decide +kernel).exists_ok
    exact ⟨s, hs, by rw [hsnapshot]; exact List.prefix_refl _⟩
  incremental := by decide
  recovers := by
    refine ⟨fun pre hpre hne => ?_, by decide⟩
    rcases List.prefix_cons_iff.mp hpre with rfl | ⟨pre', rfl, htail⟩
    · decide
    rcases List.prefix_cons_iff.mp htail with rfl | ⟨pre', rfl, hnil⟩
    · decide
    · rw [List.prefix_nil.mp hnil] at hne
      exact absurd rfl hne
  complete := by decide

/-- The client mirrors the books of all tickers although it never saw the first two updates. -/
theorem late_joiner_mirrors_sample :
    ∃ x, sampleOrders.foldlM (EngineState.process MEOrderBook.addAnnounced) {} = .ok x ∧
      x.queues.outgoingMdUpdates = sampleUpdates ∧
      Safe (UpdatesFault x.queues.outgoingMdUpdates)
        (fun books => ∀ t < meMaxTickers, ∃ v w, BookInvariant (x.tickerOrderBook t) v ∧
          WellFormed (books t) w ∧ Mirrors v w)
        (onMarketUpdates newBooks
          (recvAll {} (readsBefore ++ readsRecovering ++ readsAfter)).incomingMdUpdates) := by
  obtain ⟨x, hx, hupdates⟩ := (show Safe (fun _ => False)
    (fun x : EngineState => x.queues.outgoingMdUpdates = sampleUpdates)
    (sampleOrders.foldlM (EngineState.process MEOrderBook.addAnnounced) {})
    by decide).exists_ok
  have hjoined : Joined x.queues.outgoingMdUpdates 2 readsBefore readsRecovering readsAfter :=
    hupdates ▸ joined_sample
  refine ⟨x, hx, hupdates, ?_⟩
  -- a CLEAR goes over the whole table of orders, so the reads must not be evaluated
  generalize readsBefore = before, readsRecovering = recovering, readsAfter = after at hjoined ⊢
  exact late_joiner_mirrors meets_sampleOrders hx hjoined

end Trading

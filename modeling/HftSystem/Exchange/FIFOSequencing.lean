import HftSystem.Exchange.OrderServer
import HftSystem.Lib.KeySort

set_option relaxedAutoImplicit false
set_option autoImplicit false

/-!
# The order in which the sequencer publishes

The sequencer sorts what is pending by the time of receipt and gives it to the matching engine.
The requests of one read have the same time, and `std::sort` may put them into any order, so that
two requests of a client can change places.

## Main definitions

* `Exchange.FIFOSequencer.IsStdSort` — what the standard says about `std::sort`.
* `Exchange.FIFOSequencer.taken` — the requests that the sequencer was given.
* `Exchange.FIFOSequencer.PublishesInOrder` — the batch is published in the order of receipt, and
  each client's requests in the order in which they were added.

## Main results

* `Exchange.FIFOSequencer.foldlM_addClientRequest` — a batch that fits becomes pending.
* `Exchange.FIFOSequencer.publishesInOrder_iff` — the batches that every sort keeps in order.
-/

namespace Exchange

open Common KeySort

namespace FIFOSequencer

/-- What the standard says about `std::sort` with `RecvTimeClientRequest::operator<`. -/
def IsStdSort (sort : List RecvTimeClientRequest → List RecvTimeClientRequest) : Prop :=
  IsSort RecvTimeClientRequest.recvTime sort

/-- The requests that the sequencer was given: those that it has published, and those that it still
holds. -/
def taken (s : FIFOSequencer) : List MEClientRequest :=
  s.incomingRequests ++ s.pendingClientRequests.map RecvTimeClientRequest.request

/-- The requests of a client. -/
def ofClient (clientId : ℕ) (entries : List RecvTimeClientRequest) : List RecvTimeClientRequest :=
  entries.filter fun e => e.request.clientId = clientId

/-- The requests of a client among those of a batch. -/
lemma map_request_ofClient (clientId : ℕ) (entries : List RecvTimeClientRequest) :
    (ofClient clientId entries).map RecvTimeClientRequest.request =
      (entries.map RecvTimeClientRequest.request).filter fun r => r.clientId = clientId := by
  rw [List.filter_map]
  rfl

/-- `addClientRequest`, for an entry. -/
def addEntry (s : FIFOSequencer) (e : RecvTimeClientRequest) : Except Fault FIFOSequencer :=
  s.addClientRequest e.recvTime e.request

/-- **The batch is published in order**: behind what was published before, as a permutation whose
times do not decrease and in which each client's requests are in the order in which they were
added, and nothing stays pending. -/
def PublishesInOrder (before : List MEClientRequest) (batch : List RecvTimeClientRequest)
    (s : FIFOSequencer) : Prop :=
  (∃ order, s.incomingRequests = before ++ order.map RecvTimeClientRequest.request ∧
    order.Perm batch ∧ Sorted RecvTimeClientRequest.recvTime order ∧
    ∀ clientId, ofClient clientId order = ofClient clientId batch) ∧
  s.pendingClientRequests = []

/-- The receive times of the client increase strictly, equal entries apart. -/
def Forced (batch : List RecvTimeClientRequest) (clientId : ℕ) : Prop :=
  (ofClient clientId batch).Pairwise fun a b => a.recvTime < b.recvTime ∨ a = b

/-- Whether the order of a client's requests is forced can be evaluated. -/
instance (batch : List RecvTimeClientRequest) (clientId : ℕ) : Decidable (Forced batch clientId) :=
  inferInstanceAs (Decidable (List.Pairwise _ _))

/-- **A batch that fits becomes pending.** -/
lemma foldlM_addClientRequest (s : FIFOSequencer) (batch : List RecvTimeClientRequest)
    (h : s.pendingClientRequests.length + batch.length ≤ meMaxPendingRequests) :
    batch.foldlM addEntry s =
      .ok { s with pendingClientRequests := s.pendingClientRequests ++ batch } := by
  induction batch generalizing s with
  | nil => simp [pure, Except.pure]
  | cons e batch ih =>
    rw [List.length_cons] at h
    rw [List.foldlM_cons, addEntry, addClientRequest, if_neg (by omega)]
    show batch.foldlM addEntry _ = _
    rw [ih _ (by simp only [List.length_append, List.length_singleton]; omega)]
    simp

/-- What is published, when something or nothing is pending. -/
lemma sequenceAndPublish_eq {sort : List RecvTimeClientRequest → List RecvTimeClientRequest}
    (hsort : IsStdSort sort) (s : FIFOSequencer) :
    s.sequenceAndPublish sort =
      { incomingRequests := s.incomingRequests ++
          (sort s.pendingClientRequests).map RecvTimeClientRequest.request
        pendingClientRequests := [] } := by
  unfold sequenceAndPublish
  split_ifs with hnone
  · obtain ⟨incoming, pending⟩ := s
    obtain rfl : pending = [] := hnone
    rw [(hsort.perm []).eq_nil]
    simp
  · rfl

/-- Publishing neither loses nor makes up a request: it moves those that the sequencer holds, in some
order, to those that it has published. -/
lemma perm_taken_sequenceAndPublish
    {sort : List RecvTimeClientRequest → List RecvTimeClientRequest} (hsort : IsStdSort sort)
    (s : FIFOSequencer) : (s.sequenceAndPublish sort).taken.Perm s.taken := by
  rw [sequenceAndPublish_eq hsort]
  unfold taken
  rw [List.map_nil, List.append_nil]
  exact ((hsort.perm _).map _).append_left _

/-- **What the batch forces is kept by every sort.** -/
lemma publishesInOrder_of_forced {sort : List RecvTimeClientRequest → List RecvTimeClientRequest}
    (hsort : IsStdSort sort) {s : FIFOSequencer}
    (h : ∀ clientId, Forced s.pendingClientRequests clientId) :
    PublishesInOrder s.incomingRequests s.pendingClientRequests (s.sequenceAndPublish sort) := by
  rw [sequenceAndPublish_eq hsort]
  refine ⟨⟨sort s.pendingClientRequests, rfl, hsort.perm _, hsort.sorted _, fun clientId => ?_⟩, rfl⟩
  exact filter_eq_of_forced (hsort.perm _) (hsort.sorted _) (h clientId)

/-- **What the batch does not force is broken by some sort.**

**Proof sketch.** Take a sort that publishes the batch in order. If the times of a client do not
increase strictly, two of its entries in that order have the same time and differ in their
requests, and the sort that swaps them publishes another sequence of the client's requests. -/
lemma forced_of_publishesInOrder {s : FIFOSequencer}
    (h : ∀ sort, IsStdSort sort →
      PublishesInOrder s.incomingRequests s.pendingClientRequests (s.sequenceAndPublish sort))
    (clientId : ℕ) : Forced s.pendingClientRequests clientId := by
  obtain ⟨⟨order, -, hperm, hsorted, hkept⟩, -⟩ := h _ isSort_insertionSort_reverse
  unfold Forced
  rw [← hkept clientId, ofClient, List.pairwise_filter, List.pairwise_iff_forall_sublist]
  intro a b hab ha hb
  rw [decide_eq_true_eq] at ha hb
  obtain ⟨l₁, l₂, l₃, rfl⟩ := exists_split hab
  have hle : a.recvTime ≤ b.recvTime := List.pairwise_iff_forall_sublist.mp hsorted hab
  rcases hle.lt_or_eq with hlt | heq
  · exact .inl hlt
  · right
    obtain ⟨sort, hsort, hswap⟩ := exists_isSort_swap hperm hsorted heq
    obtain ⟨⟨order', hpublished, -, -, hkept'⟩, -⟩ := h sort hsort
    rw [sequenceAndPublish_eq hsort, hswap, List.append_cancel_left_eq] at hpublished
    -- the client's requests in the two orders
    have hrequests := congrArg (List.filter fun r => r.clientId = clientId) hpublished
    rw [← map_request_ofClient, ← map_request_ofClient, hkept' clientId, ← hkept clientId]
      at hrequests
    simp only [ofClient, List.filter_append, List.filter_cons, ha, hb, decide_true, if_true,
      List.map_append, List.map_cons, List.append_cancel_left_eq, List.cons.injEq] at hrequests
    obtain ⟨ta, ra⟩ := a
    obtain ⟨tb, rb⟩ := b
    obtain rfl : ta = tb := heq
    rw [show rb = ra from hrequests.1]

/-- **The batches that are published in order.** Whatever the sort does with ties, the sequencer
publishes a batch in the order of receipt and each client's requests in the order in which they
were added, exactly when for each client the receive times increase strictly from request to
request, equal ones apart. -/
theorem publishesInOrder_iff (s : FIFOSequencer) (batch : List RecvTimeClientRequest)
    (hs : s.pendingClientRequests = []) (hbatch : batch.length ≤ meMaxPendingRequests) :
    (∀ sort, IsStdSort sort → ∃ s', batch.foldlM addEntry s = .ok s' ∧
        PublishesInOrder s.incomingRequests batch (s'.sequenceAndPublish sort)) ↔
      ∀ clientId, Forced batch clientId := by
  have hadd := foldlM_addClientRequest s batch (by rw [hs, List.length_nil]; omega)
  rw [hs, List.nil_append] at hadd
  constructor
  · intro h
    refine forced_of_publishesInOrder (s := { s with pendingClientRequests := batch })
      fun sort hsort => ?_
    obtain ⟨s', hs', horder⟩ := h sort hsort
    rw [hadd, Except.ok.injEq] at hs'
    rwa [← hs'] at horder
  · intro h sort hsort
    exact ⟨_, hadd, publishesInOrder_of_forced (s := { s with pendingClientRequests := batch })
      hsort h⟩

/-- Two reads of one client, and two requests of other clients in one read. -/
theorem publishesInOrder_two_reads :
    let batch : List RecvTimeClientRequest :=
      [{ recvTime := 5, request := { type := .new, clientId := 3, orderId := 1 } },
        { recvTime := 5, request := { type := .new, clientId := 4, orderId := 1 } },
        { recvTime := 9, request := { type := .cancel, clientId := 3, orderId := 1 } }]
    ∀ sort, IsStdSort sort → ∃ s', batch.foldlM addEntry {} = .ok s' ∧
      PublishesInOrder [] batch (s'.sequenceAndPublish sort) := by
  refine (publishesInOrder_iff {} _ rfl (by decide)).mpr fun clientId => ?_
  by_cases h3 : clientId = 3
  · subst h3
    decide
  · by_cases h4 : clientId = 4
    · subst h4
      decide
    · have : ofClient clientId
          [{ recvTime := 5, request := { type := .new, clientId := 3, orderId := 1 } },
            { recvTime := 5, request := { type := .new, clientId := 4, orderId := 1 } },
            { recvTime := 9, request := { type := .cancel, clientId := 3, orderId := 1 } }] = [] := by
        simp [ofClient, Ne.symm h3, Ne.symm h4]
      unfold Forced
      rw [this]
      exact List.Pairwise.nil

/-- **A client's NEW and CANCEL in one read** are published as CANCEL and NEW by a sort that
reverses ties. -/
theorem cancel_published_before_new :
    let batch : List RecvTimeClientRequest :=
      [{ recvTime := 5, request := { type := .new, clientId := 3, orderId := 1 } },
        { recvTime := 5, request := { type := .cancel, clientId := 3, orderId := 1 } }]
    ∃ sort, IsStdSort sort ∧ ∃ s', batch.foldlM addEntry {} = .ok s' ∧
      (s'.sequenceAndPublish sort).incomingRequests =
        [{ type := .cancel, clientId := 3, orderId := 1 },
          { type := .new, clientId := 3, orderId := 1 }] ∧
      ¬ PublishesInOrder [] batch (s'.sequenceAndPublish sort) := by
  intro batch
  refine ⟨_, isSort_insertionSort_reverse, _, rfl, by decide, ?_⟩
  rintro ⟨⟨order, hpublished, -, -, hkept⟩, -⟩
  have hclient := map_request_ofClient 3 order
  rw [hkept 3, show order.map RecvTimeClientRequest.request = _ from hpublished.symm] at hclient
  exact absurd hclient (by decide)

end FIFOSequencer

end Exchange

import HftSystem.Exchange.Matching

set_option relaxedAutoImplicit false
set_option autoImplicit false

/-!
# What the clients are told

The responses that `add` sends. The book keeps the last response in `client_response_`, and the
last statement of `add` sends that member again, so every request is answered by one response
too many.

## Main definitions

* `Exchange.ReportedOnce` — one ACCEPTED, and two FILLED for every execution.

## Main results

* `Exchange.checkForMatch_responses` — the matching loop sends two FILLED for every execution.
* `Exchange.add_responses` — what `add` sends.
* `Exchange.add_never_reportedOnce` — it never reports exactly once.
-/

namespace Exchange

open Common LimitOrderBook PriceTime Fallible MEOrderBook

/-- A response is sent behind the others. -/
@[simp] lemma sent_respond (b : MEOrderBook) (r : MEClientResponse) :
    (b.respond r).sent = b.sent ++ [r] := rfl

/-- An update is no response. -/
@[simp] lemma sent_publish (b : MEOrderBook) (u : MEMarketUpdate) : (b.publish u).sent = b.sent := rfl

/-- Neither is the update that the book keeps. -/
@[simp] lemma sent_sendMarketUpdate (b : MEOrderBook) : b.sendMarketUpdate.sent = b.sent := rfl

/-- An operation of the shared book sends nothing. -/
lemma matchingEngine_of_onBook {b b' : MEOrderBook}
    {f : LimitOrderBook MEOrder (ℕ × ℕ) → Except Fault (LimitOrderBook MEOrder (ℕ × ℕ))}
    (h : b.onBook f = .ok b') : b'.matchingEngine = b.matchingEngine := by
  obtain ⟨book, -, hb'⟩ := bind_eq_ok.mp h
  cases hb'
  rfl

/-- Letting the remainder rest sends nothing. -/
lemma matchingEngine_of_addRemainder {b : MEOrderBook}
    {clientId clientOrderId tickerId newMarketOrderId : ℕ} {side : Side} {price : ℤ} {leavesQty : ℕ}
    {r : MEOrderBook × ℕ × Ptr}
    (h : b.addRemainder clientId clientOrderId tickerId newMarketOrderId side price leavesQty =
      .ok r) : r.1.matchingEngine = b.matchingEngine := by
  obtain ⟨priority, -, h⟩ := bind_eq_ok.mp h
  obtain ⟨⟨p, pool⟩, -, h⟩ := bind_eq_ok.mp h
  obtain ⟨b', hb', h⟩ := bind_eq_ok.mp h
  cases h
  exact (matchingEngine_of_onBook hb').trans rfl

section Loop

variable {clientId clientOrderId tickerId : ℕ} {side : Side} {price : ℤ} {newMarketOrderId : ℕ}

/-- **One execution is reported to the two clients**, whatever the state of the book. -/
lemma matchOrder_responses {b : MEOrderBook} {itr : Ptr} {leavesQty : ℕ} {r : MEOrderBook × ℕ}
    (h : b.matchOrder tickerId clientId side clientOrderId newMarketOrderId itr leavesQty = .ok r) :
    ∃ f, r.1.sent =
      b.sent ++ fillResponses clientId clientOrderId tickerId side newMarketOrderId f := by
  refine ⟨⟨(b.node itr).order, min leavesQty (b.node itr).order.qty,
    leavesQty - min leavesQty (b.node itr).order.qty⟩, ?_⟩
  unfold matchOrder at h
  simp only [node_modifyOrder, if_true] at h
  split at h
  · obtain ⟨b', hb', h⟩ := bind_eq_ok.mp h
    cases h
    have hsent : b'.sent = _ := congrArg MatchingEngine.outgoingOgwResponses
      (matchingEngine_of_onBook hb')
    rw [hsent]
    simp [publish, sendMarketUpdate, respond, sent, fillResponses]
  · cases h
    simp [publish, sendMarketUpdate, respond, sent, fillResponses]

/-- The matching loop reports its executions in order. -/
lemma matchLoop_responses {fuel : ℕ} {b : MEOrderBook} {leavesQty : ℕ} {r : MEOrderBook × ℕ}
    (h : matchLoop clientId clientOrderId tickerId side price newMarketOrderId fuel b leavesQty =
      .ok r) :
    ∃ fills : List (Fill MEOrder), r.1.sent = b.sent ++
      fills.flatMap (fillResponses clientId clientOrderId tickerId side newMarketOrderId) := by
  induction fuel generalizing b leavesQty with
  | zero => cases h
  | succ fuel ih =>
    have hstop : r = (b, leavesQty) → ∃ fills : List (Fill MEOrder), r.1.sent = b.sent ++
        fills.flatMap (fillResponses clientId clientOrderId tickerId side newMarketOrderId) := by
      rintro rfl
      exact ⟨[], by simp⟩
    unfold matchLoop at h
    split at h
    · cases h
      exact hstop rfl
    · split at h
      · cases h
        exact hstop rfl
      · obtain ⟨itr, -, h⟩ := bind_eq_ok.mp h
        split at h
        · obtain ⟨⟨b₁, leavesQty₁⟩, hmatch, h⟩ := bind_eq_ok.mp h
          obtain ⟨f, hf⟩ := matchOrder_responses hmatch
          obtain ⟨fills, hfills⟩ := ih h
          refine ⟨f :: fills, ?_⟩
          rw [hfills, hf, List.flatMap_cons, List.append_assoc]
        · cases h
          exact hstop rfl

/-- **The responses of `checkForMatch`**: two FILLED for every execution, in order. -/
theorem checkForMatch_responses {b : MEOrderBook} {qty : ℕ} {r : MEOrderBook × ℕ}
    (h : b.checkForMatch clientId clientOrderId tickerId side price qty newMarketOrderId = .ok r) :
    ∃ fills : List (Fill MEOrder), r.1.sent = b.sent ++ fills.flatMap
      (fillResponses clientId clientOrderId tickerId side (newMarketOrderId % 2 ^ 32)) := by
  unfold checkForMatch at h
  split at h
  · exact matchLoop_responses h
  · cases h
    exact ⟨[], by simp⟩

end Loop

/-- **The responses of `add`**: one ACCEPTED, two FILLED for every execution, and once more the
response that the book sent last. -/
theorem add_responses {exchangeOrder : Ptr → Ptr} {b b' : MEOrderBook}
    {clientId clientOrderId tickerId : ℕ} {side : Side} {price : ℤ} {qty : ℕ}
    (h : b.add exchangeOrder clientId clientOrderId tickerId side price qty = .ok b') :
    ∃ (fills : List (Fill MEOrder)) (last : MEClientResponse),
      b'.sent = b.sent ++
        { type := .accepted, clientId, tickerId, clientOrderId,
          marketOrderId := b.nextMarketOrderId, side, price, execQty := 0, leavesQty := qty } ::
        (fills.flatMap (fillResponses clientId clientOrderId tickerId side
          (b.nextMarketOrderId % 2 ^ 32)) ++ [last]) := by
  unfold add at h
  obtain ⟨⟨b₁, leavesQty⟩, hmatch, h⟩ := bind_eq_ok.mp h
  obtain ⟨fills, hfills⟩ := checkForMatch_responses hmatch
  refine ⟨fills, b'.clientResponse, ?_⟩
  have hlast : b'.sent = b₁.sent ++ [b'.clientResponse] := by
    simp only at h
    split at h
    · cases h
      rfl
    · obtain ⟨⟨b₂, priority, p⟩, hrest, h⟩ := bind_eq_ok.mp h
      obtain ⟨b₃, hremove, h⟩ := bind_eq_ok.mp h
      cases h
      have h₂ := matchingEngine_of_addRemainder hrest
      have h₃ := matchingEngine_of_onBook hremove
      simp only [sent_respond, sent_sendMarketUpdate]
      rw [sent, h₃, ← sent, sent_publish, sent, h₂, ← sent]
      rfl
  rw [hlast, hfills]
  simp [sent, respond]

/-- The responses to a NEW request of a client: one ACCEPTED to the client, and for every
execution one FILLED to the client and one FILLED to the client of the resting order. -/
def ReportedOnce (clientId qty : ℕ) (responses : List MEClientResponse) : Prop :=
  ∃ (accepted : MEClientResponse) (fills : List (MEClientResponse × MEClientResponse)),
    responses = accepted :: fills.flatMap (fun f => [f.1, f.2]) ∧
    accepted.type = .accepted ∧ accepted.clientId = clientId ∧ accepted.execQty = 0 ∧
    accepted.leavesQty = qty ∧
    ∀ f ∈ fills, f.1.type = .filled ∧ f.1.clientId = clientId ∧ f.2.type = .filled

/-- Reporting exactly once takes an odd number of responses. -/
lemma ReportedOnce.length_odd {clientId qty : ℕ} {responses : List MEClientResponse}
    (h : ReportedOnce clientId qty responses) : ∃ n, responses.length = 2 * n + 1 := by
  obtain ⟨accepted, fills, rfl, -⟩ := h
  refine ⟨fills.length, ?_⟩
  simp [Nat.mul_comm]

/-- **`add` never reports exactly once**: it sends an even number of responses. -/
theorem add_never_reportedOnce (exchangeOrder : Ptr → Ptr) (b : MEOrderBook)
    (clientId clientOrderId tickerId : ℕ) (side : Side) (price : ℤ) (qty : ℕ) :
    ¬ ∃ b' responses, b.add exchangeOrder clientId clientOrderId tickerId side price qty = .ok b' ∧
      b'.sent = b.sent ++ responses ∧ ReportedOnce clientId qty responses := by
  rintro ⟨b', responses, hadd, hsent, honce⟩
  obtain ⟨fills, last, hresponses⟩ := add_responses hadd
  obtain ⟨n, hn⟩ := honce.length_odd
  have heq := List.append_cancel_left (hsent.symm.trans hresponses)
  have hlen := congrArg List.length heq
  simp [fillResponses] at hlen
  omega

/-- An order that rests on an empty book is accepted twice. -/
theorem add_accepts_twice :
    ((MEOrderBook.new.add id 1 1 0 .buy 10 5).map MEOrderBook.sent = .ok (List.replicate 2
      { type := .accepted, clientId := 1, tickerId := 0, clientOrderId := 1, marketOrderId := 1,
        side := .buy, price := 10, execQty := 0, leavesQty := 5 })) ∧
    ¬ ∃ b' responses, MEOrderBook.new.add id 1 1 0 .buy 10 5 = .ok b' ∧
      b'.sent = MEOrderBook.new.sent ++ responses ∧ ReportedOnce 1 5 responses := by
  have hrun : (MEOrderBook.new.add id 1 1 0 .buy 10 5).map MEOrderBook.sent =
      .ok (List.replicate 2
        { type := .accepted, clientId := 1, tickerId := 0, clientOrderId := 1, marketOrderId := 1,
          side := .buy, price := 10, execQty := 0, leavesQty := 5 }) := by decide
  refine ⟨hrun, ?_⟩
  rintro ⟨b', responses, hadd, hsent, honce⟩
  obtain ⟨n, hn⟩ := honce.length_odd
  rw [hadd, Except.map, hsent] at hrun
  have hlen := congrArg List.length (Except.ok.inj hrun)
  simp [MEOrderBook.sent, MEOrderBook.new, hn] at hlen

end Exchange

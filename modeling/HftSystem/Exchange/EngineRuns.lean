import HftSystem.Lib.Routing
import HftSystem.Exchange.Reporting

set_option relaxedAutoImplicit false
set_option autoImplicit false

/-!
# The books of the matching engine share two queues

The matching engine has one book for each ticker and two queues that all books write to. A book
neither reads the queues nor names another ticker in what it writes, so the engine is a family of
books with queues of their own: what one ticker's clients and subscribers see does not depend on
the requests for the others.

## Main definitions

* `Exchange.EngineState` — the books and the queues, with `Exchange.EngineState.process`, one pass
  of the loop of `run`, and `Exchange.EngineState.alone`, the book of a ticker with its messages.
* `Exchange.MEOrderBook.addAnnounced` — `add` through line 105.
* `Exchange.Local` — an operation that does not read the queues and writes about one ticker only.

## Main results

* `Exchange.local_add`, `Exchange.local_addAnnounced`, `Exchange.local_cancel` — the operations of
  a book are local.
* `Exchange.EngineState.safe_run` — the invariant rule for the books of the engine.
* `Exchange.engine_separates` — a run of the engine is a run of every book.
-/

namespace Exchange

open Common Fallible MEOrderBook Routing

/-- Lines 87 to 105 of `add`: accept, match, let the remainder rest and announce it. Lines 106 to 109, which
remove an undeclared order and send the last market update and the last response again, are left out. -/
def MEOrderBook.addAnnounced (b : MEOrderBook) (clientId clientOrderId tickerId : ℕ) (side : Side)
    (price : ℤ) (qty : ℕ) : Except Fault MEOrderBook := do
  let (b, newMarketOrderId) := b.accept clientId clientOrderId tickerId side price qty
  let (b, leavesQty) ←
    b.checkForMatch clientId clientOrderId tickerId side price qty newMarketOrderId
  b.rest clientId clientOrderId tickerId newMarketOrderId side price leavesQty

/-- The book with other queues. -/
def MEOrderBook.withQueues (b : MEOrderBook) (e : MatchingEngine) : MEOrderBook :=
  { b with matchingEngine := e }

/-- The last queues count. -/
@[simp] lemma withQueues_withQueues (b : MEOrderBook) (e e' : MatchingEngine) :
    (b.withQueues e).withQueues e' = b.withQueues e' := rfl

/-- The queues that a book has. -/
@[simp] lemma withQueues_self (b : MEOrderBook) : b.withQueues b.matchingEngine = b := rfl

/-! ## The engine -/

/-- `MatchingEngine`: the books, and what was written to the two queues. -/
structure EngineState where
  tickerOrderBook : ℕ → MEOrderBook := fun _ => .new
  queues : MatchingEngine := {}

namespace EngineState

/-- `processClientRequest`: the book of the ticker takes the request and writes to the queues of
the engine. -/
def process (add : MEOrderBook → ℕ → ℕ → ℕ → Side → ℤ → ℕ → Except Fault MEOrderBook)
    (x : EngineState) (request : MEClientRequest) : Except Fault EngineState :=
  if request.tickerId < meMaxTickers then do
    let orderBook ← processClientRequest add
      ((x.tickerOrderBook request.tickerId).withQueues x.queues) request
    return {
      tickerOrderBook := Function.update x.tickerOrderBook request.tickerId orderBook
      queues := orderBook.matchingEngine }
  else .error .overrun

end EngineState

/-- The messages about a ticker. -/
def MatchingEngine.about (e : MatchingEngine) (t : ℕ) : MatchingEngine where
  outgoingOgwResponses := e.outgoingOgwResponses.filter fun r => r.tickerId = t
  outgoingMdUpdates := e.outgoingMdUpdates.filter fun u => u.tickerId = t

/-- **What a ticker has of the engine**: its book, with the messages about it. -/
def EngineState.alone (x : EngineState) (t : ℕ) : MEOrderBook :=
  (x.tickerOrderBook t).withQueues (x.queues.about t)

/-! ## Operations that do not read the queues -/

/-- The queues of the book, behind others. -/
def MEOrderBook.behind (b : MEOrderBook) (e : MatchingEngine) : MEOrderBook :=
  b.withQueues (e.push b.sent b.published)

/-- All messages are about a ticker. -/
structure About (t : ℕ) (b : MEOrderBook) : Prop where
  sent : ∀ r ∈ b.sent, r.tickerId = t
  published : ∀ u ∈ b.published, u.tickerId = t

/-- **A local operation** does the same whatever the queues hold, and writes behind it; and what it
writes is about one ticker. -/
structure Local (t : ℕ) (f : MEOrderBook → Except Fault MEOrderBook) : Prop where
  behind : ∀ b e, f (b.behind e) = (·.behind e) <$> f b
  about : ∀ b, About t b → Safe (fun _ => True) (About t) (f b)

section Behind

variable (b : MEOrderBook) (e : MatchingEngine)

/-- A response is written behind the others. -/
lemma behind_respond (r : MEClientResponse) : (b.behind e).respond r = (b.respond r).behind e := by
  simp [behind, withQueues, respond, MatchingEngine.push, sent, published]

/-- So is the update that the book keeps. -/
lemma behind_sendMarketUpdate : (b.behind e).sendMarketUpdate = b.sendMarketUpdate.behind e := by
  simp [behind, withQueues, sendMarketUpdate, MatchingEngine.push, sent, published]

/-- So is an update. -/
lemma behind_publish (u : MEMarketUpdate) : (b.behind e).publish u = (b.publish u).behind e :=
  behind_sendMarketUpdate { b with marketUpdate := u } e

/-- An operation of the lists does not read the queues. -/
lemma behind_onBook (f : LimitOrderBook MEOrder (ℕ × ℕ) →
    Except Fault (LimitOrderBook MEOrder (ℕ × ℕ))) :
    (b.behind e).onBook f = (·.behind e) <$> b.onBook f := by
  have hbook : (b.behind e).toLimitOrderBook = b.toLimitOrderBook := rfl
  unfold onBook
  rw [hbook]
  cases f b.toLimitOrderBook <;> rfl

end Behind

/-- The lists do not depend on the queues. -/
@[simp] lemma toLimitOrderBook_behind (b : MEOrderBook) (e : MatchingEngine) :
    (b.behind e).toLimitOrderBook = b.toLimitOrderBook := rfl

/-- Other lists under the same queues. -/
lemma behind_withBook (b : MEOrderBook) (e : MatchingEngine)
    (book : LimitOrderBook MEOrder (ℕ × ℕ)) :
    { b.behind e with toLimitOrderBook := book } =
      { b with toLimitOrderBook := book }.behind e := rfl

/-- What a computation returns beside a book stays. -/
def behindFst {α : Type} (e : MatchingEngine) (r : MEOrderBook × α) : MEOrderBook × α :=
  (r.1.behind e, r.2)

section Behind

variable (b : MEOrderBook) (e : MatchingEngine) (clientId clientOrderId tickerId : ℕ) (side : Side)
  (price : ℤ) (newMarketOrderId : ℕ)

/-- An execution does not read the queues. -/
lemma behind_matchOrder (itr : Ptr) (leavesQty : ℕ) :
    (b.behind e).matchOrder tickerId clientId side clientOrderId newMarketOrderId itr leavesQty =
      behindFst e <$>
        b.matchOrder tickerId clientId side clientOrderId newMarketOrderId itr leavesQty := by
  unfold matchOrder
  simp only [toLimitOrderBook_behind, behind_withBook, behind_respond, behind_publish,
    behind_onBook]
  split
  · rw [bind_map_left, map_bind]
    rfl
  · rfl

/-- Neither does the loop over the executions. -/
lemma behind_matchLoop (fuel leavesQty : ℕ) :
    matchLoop clientId clientOrderId tickerId side price newMarketOrderId fuel (b.behind e)
        leavesQty =
      behindFst e <$>
        matchLoop clientId clientOrderId tickerId side price newMarketOrderId fuel b leavesQty := by
  induction fuel generalizing b leavesQty with
  | zero => rfl
  | succ fuel ih =>
    simp only [matchLoop, toLimitOrderBook_behind, behind_matchOrder, bind_map_left]
    split
    · rfl
    cases b.bestOrdersByPrice side.opposite with
    | none => rfl
    | some best =>
      simp only [map_bind]
      congr 1
      funext itr
      split
      · simp only [map_bind, behindFst, ih]
      · rfl

/-- Neither does matching. -/
lemma behind_checkForMatch (qty : ℕ) :
    (b.behind e).checkForMatch clientId clientOrderId tickerId side price qty newMarketOrderId =
      behindFst e <$>
        b.checkForMatch clientId clientOrderId tickerId side price qty newMarketOrderId := by
  unfold checkForMatch
  split
  · exact behind_matchLoop b e clientId clientOrderId tickerId side price _ _ qty
  · rfl

/-- Neither does the part of `add` that lets a remainder rest. -/
lemma behind_addRemainder (leavesQty : ℕ) :
    (b.behind e).addRemainder clientId clientOrderId tickerId newMarketOrderId side price
        leavesQty =
      behindFst e <$>
        b.addRemainder clientId clientOrderId tickerId newMarketOrderId side price leavesQty := by
  have hnext : (b.behind e).getNextPriority price = b.getNextPriority price := rfl
  unfold addRemainder
  simp only [hnext, toLimitOrderBook_behind, map_bind]
  congr 1
  funext priority
  congr 1
  funext r
  rw [behind_withBook, behind_onBook, bind_map_left]
  rfl

/-- Neither does it with the ADD. -/
lemma behind_rest (leavesQty : ℕ) :
    (b.behind e).rest clientId clientOrderId tickerId newMarketOrderId side price leavesQty =
      (·.behind e) <$>
        b.rest clientId clientOrderId tickerId newMarketOrderId side price leavesQty := by
  unfold MEOrderBook.rest
  by_cases hzero : leavesQty = 0
  · rw [if_pos hzero, if_pos hzero]
    rfl
  · rw [if_neg hzero, if_neg hzero]
    simp only [behind_addRemainder, behindFst, bind_map_left, map_bind, behind_publish, map_pure]

/-- Neither does the acceptance of a request. -/
lemma behind_accept (qty : ℕ) :
    (b.behind e).accept clientId clientOrderId tickerId side price qty =
      behindFst e (b.accept clientId clientOrderId tickerId side price qty) :=
  congrArg (·, b.nextMarketOrderId)
    (behind_respond { b with nextMarketOrderId := b.nextMarketOrderId + 1 } e _)

end Behind

/-! ## What is written -/

section About

variable {t : ℕ} {b : MEOrderBook}

/-- One more response about the ticker. -/
lemma About.respond (h : About t b) {r : MEClientResponse} (hr : r.tickerId = t) :
    About t (b.respond r) where
  sent r' hr' := by
    rcases List.mem_append.mp hr' with hr' | hr'
    · exact h.sent r' hr'
    · rw [List.mem_singleton.mp hr', hr]
  published := h.published

/-- One more update about the ticker. -/
lemma About.publish (h : About t b) {u : MEMarketUpdate} (hu : u.tickerId = t) :
    About t (b.publish u) where
  sent := h.sent
  published u' hu' := by
    rcases List.mem_append.mp hu' with hu' | hu'
    · exact h.published u' hu'
    · rw [List.mem_singleton.mp hu', hu]

/-- Every message is about the ticker, and so is the response that the book keeps. -/
structure Telling (t : ℕ) (b : MEOrderBook) : Prop where
  about : About t b
  last : b.clientResponse.tickerId = t

/-- The response that was sent is the one that the book keeps. -/
lemma About.told (h : About t b) {r : MEClientResponse} (hr : r.tickerId = t) :
    Telling t (b.respond r) := ⟨h.respond hr, hr⟩

/-- An update leaves the response alone. -/
lemma Telling.publish (h : Telling t b) {u : MEMarketUpdate} (hu : u.tickerId = t) :
    Telling t (b.publish u) := ⟨h.about.publish hu, h.last⟩

/-- An operation of the shared book tells nobody. -/
lemma Telling.onBook (h : Telling t b) (f : LimitOrderBook MEOrder (ℕ × ℕ) →
    Except Fault (LimitOrderBook MEOrder (ℕ × ℕ))) :
    Safe (fun _ => True) (fun b' => Telling t b' ∧ b'.marketUpdate = b.marketUpdate)
      (b.onBook f) := by
  unfold MEOrderBook.onBook
  cases f b.toLimitOrderBook with
  | error => trivial
  | ok book => exact ⟨⟨⟨h.about.sent, h.about.published⟩, h.last⟩, rfl⟩

/-- **One execution** is about the ticker of the request. -/
lemma Telling.matchOrder (h : Telling t b) (clientId : ℕ) (side : Side)
    (clientOrderId newMarketOrderId : ℕ) (itr : Ptr) (leavesQty : ℕ) :
    Safe (fun _ => True) (fun r => Telling t r.1)
      (b.matchOrder t clientId side clientOrderId newMarketOrderId itr leavesQty) := by
  -- the two responses and the trade
  have htraded : ∀ (book : LimitOrderBook MEOrder (ℕ × ℕ)) (r r' : MEClientResponse)
      (u : MEMarketUpdate), r.tickerId = t → r'.tickerId = t → u.tickerId = t →
      Telling t
        (MEOrderBook.publish (({ b with toLimitOrderBook := book }.respond r).respond r') u) := by
    intro book r r' u hr hr' hu
    have hbook : About t { b with toLimitOrderBook := book } := ⟨h.about.sent, h.about.published⟩
    exact ((hbook.respond hr).told hr').publish hu
  unfold MEOrderBook.matchOrder
  simp only
  split
  · refine (((htraded _ _ _ _ rfl rfl rfl).publish rfl).onBook _).bind ?_
    rintro b' ⟨hb', -⟩
    exact hb'
  · exact (htraded _ _ _ _ rfl rfl rfl).publish rfl

/-- **The body of `add` through line 92** is about the ticker of the request. -/
lemma About.checkForMatch (h : About t b) (clientId clientOrderId : ℕ) (side : Side) (price : ℤ)
    (qty newMarketOrderId : ℕ) :
    Safe (fun _ => True) (fun r => Telling t r.1)
      ((b.accept clientId clientOrderId t side price qty).1.checkForMatch clientId clientOrderId t
        side price qty newMarketOrderId) := by
  have haccepted : Telling t (b.accept clientId clientOrderId t side price qty).1 := by
    have hnext : About t { b with nextMarketOrderId := b.nextMarketOrderId + 1 } :=
      ⟨h.sent, h.published⟩
    exact hnext.told rfl
  exact safe_checkForMatch clientId clientOrderId t side price newMarketOrderId (Telling t)
    (fun b newMarketOrderId _ itr leavesQty hb _ =>
      hb.matchOrder clientId side clientOrderId newMarketOrderId itr leavesQty) haccepted qty

/-- Letting the remainder rest tells nobody. -/
lemma Telling.addRemainder (h : Telling t b) (clientId clientOrderId newMarketOrderId : ℕ)
    (side : Side) (price : ℤ) (leavesQty : ℕ) :
    Safe (fun _ => True) (fun r => Telling t r.1)
      (b.addRemainder clientId clientOrderId t newMarketOrderId side price leavesQty) := by
  unfold MEOrderBook.addRemainder
  cases b.getNextPriority price with
  | error => trivial
  | ok priority =>
    simp only [ok_bind]
    cases b.orderPool.allocate _ with
    | error => trivial
    | ok r =>
      have hpool : Telling t { b with orderPool := r.2 } :=
        ⟨⟨h.about.sent, h.about.published⟩, h.last⟩
      refine (hpool.onBook _).bind ?_
      rintro b' ⟨hb', -⟩
      exact hb'

end About

/-! ## The operations of a book are local -/

section Locality

variable (clientId clientOrderId t : ℕ) (side : Side) (price : ℤ) (qty : ℕ)

/-- **`add` through line 105** is local. -/
theorem local_addAnnounced :
    Local t fun b => b.addAnnounced clientId clientOrderId t side price qty where
  behind b e := by
    unfold MEOrderBook.addAnnounced
    simp only [behind_accept, behindFst, behind_checkForMatch, bind_map_left, map_bind, behind_rest]
  about b h := by
    unfold MEOrderBook.addAnnounced MEOrderBook.rest
    refine (h.checkForMatch clientId clientOrderId side price qty _).bind fun r hr => ?_
    by_cases hzero : r.2 = 0
    · simp only [if_pos hzero]
      exact hr.about
    · simp only [if_neg hzero]
      refine (hr.addRemainder clientId clientOrderId _ side price _).bind fun r' hr' => ?_
      exact (hr'.publish rfl).about

/-- **`add`**, the whole body, is local. -/
theorem local_add (exchangeOrder : Ptr → Ptr) :
    Local t fun b => b.add exchangeOrder clientId clientOrderId t side price qty where
  behind b e := by
    have hlast : ∀ b : MEOrderBook, (b.behind e).clientResponse = b.clientResponse := fun _ => rfl
    unfold MEOrderBook.add
    simp only [behind_accept, behindFst, behind_checkForMatch, bind_map_left, map_bind]
    congr 1
    funext r
    by_cases hzero : r.2 = 0
    · simp only [if_pos hzero, hlast, behind_respond, map_pure]
    · simp only [if_neg hzero, behind_addRemainder, behindFst, bind_map_left, map_bind,
        behind_publish, behind_onBook, behind_sendMarketUpdate, hlast, behind_respond, map_pure]
  about b h := by
    unfold MEOrderBook.add
    refine (h.checkForMatch clientId clientOrderId side price qty _).bind fun r hr => ?_
    by_cases hzero : r.2 = 0
    · simp only [if_pos hzero]
      exact hr.about.respond hr.last
    · simp only [if_neg hzero]
      refine (hr.addRemainder clientId clientOrderId _ side price _).bind fun r' hr' => ?_
      refine ((hr'.publish rfl).onBook _).bind fun b' hb' => ?_
      -- the update is announced once more
      have hagain : Telling t b'.sendMarketUpdate := by
        refine Telling.publish (u := b'.marketUpdate) hb'.1 ?_
        rw [hb'.2]
        rfl
      exact hagain.about.respond hagain.last

/-- **`cancel`** is local.

**Proof sketch.** The function reads the book and writes messages behind those that are there, so old
messages stay in front (`behind`). All that it writes names the ticker that it was called with. -/
theorem local_cancel (orderId : ℕ) : Local t fun b => b.cancel clientId orderId t where
  behind b e := by
    have hfind : (b.behind e).findOrder clientId orderId = b.findOrder clientId orderId := rfl
    have hmessages : ∀ (response : MEClientResponse) (update : MEMarketUpdate),
        ({ toLimitOrderBook := b.toLimitOrderBook, matchingEngine := (b.behind e).matchingEngine,
           clientResponse := response, marketUpdate := update,
           nextMarketOrderId := (b.behind e).nextMarketOrderId } : MEOrderBook) =
          { b with clientResponse := response, marketUpdate := update }.behind e := fun _ _ => rfl
    have hlast : ∀ b : MEOrderBook, (b.behind e).clientResponse = b.clientResponse := fun _ => rfl
    unfold MEOrderBook.cancel
    simp only [hfind, map_bind]
    congr 1
    funext exchangeOrder
    cases exchangeOrder with
    | none => simp only [behind_respond, map_pure]
    | some p =>
      simp only [toLimitOrderBook_behind, hmessages, behind_onBook, bind_map_left, map_bind,
        behind_sendMarketUpdate, hlast, behind_respond, map_pure]
  about b h := by
    unfold MEOrderBook.cancel
    cases b.findOrder clientId orderId with
    | error => trivial
    | ok exchangeOrder =>
      cases exchangeOrder with
      | none => exact h.respond rfl
      | some p =>
        simp only [ok_bind]
        have hmessages : ∀ (response : MEClientResponse) (update : MEMarketUpdate),
            response.tickerId = t →
              Telling t { b with clientResponse := response, marketUpdate := update } :=
          fun _ _ ht => ⟨⟨h.sent, h.published⟩, ht⟩
        refine ((hmessages _ _ rfl).onBook _).bind fun b' hb' => ?_
        have hagain : Telling t b'.sendMarketUpdate := by
          refine Telling.publish (u := b'.marketUpdate) hb'.1 ?_
          rw [hb'.2]
        exact hagain.about.respond hagain.last

/-- **`processClientRequest`** is local when `add` is. -/
theorem local_processClientRequest
    {add : MEOrderBook → ℕ → ℕ → ℕ → Side → ℤ → ℕ → Except Fault MEOrderBook}
    (hadd : ∀ clientId clientOrderId t side price qty,
      Local t fun b => add b clientId clientOrderId t side price qty) (r : MEClientRequest) :
    Local r.tickerId fun b => processClientRequest add b r := by
  unfold processClientRequest
  cases r.type with
  | new => exact hadd r.clientId r.orderId r.tickerId r.side r.price r.qty
  | cancel => exact local_cancel r.clientId r.tickerId r.orderId
  | invalid => exact ⟨fun _ _ => rfl, fun _ _ => trivial⟩

end Locality

/-! ## Runs of the engine -/

section Runs

variable {add : MEOrderBook → ℕ → ℕ → ℕ → Side → ℤ → ℕ → Except Fault MEOrderBook}

/-- What one request does to a book. -/
def Processes (add : MEOrderBook → ℕ → ℕ → ℕ → Side → ℤ → ℕ → Except Fault MEOrderBook)
    (b : MEOrderBook) (r : MEClientRequest) (b' : MEOrderBook) : Prop :=
  processClientRequest add b r = .ok b'

/-- The messages about a ticker among those that are written. -/
lemma about_push (e e' : MatchingEngine) (t : ℕ) :
    (e.push e'.outgoingOgwResponses e'.outgoingMdUpdates).about t =
      (e.about t).push (e'.about t).outgoingOgwResponses (e'.about t).outgoingMdUpdates := by
  simp [MatchingEngine.about, MatchingEngine.push, List.filter_append]

/-- The messages about a ticker, where all are. -/
lemma About.about_self {t : ℕ} {b : MEOrderBook} (h : About t b) :
    b.matchingEngine.about t = b.matchingEngine := by
  have hsent := List.filter_eq_self.mpr fun r hr => decide_eq_true (h.sent r hr)
  have hpublished := List.filter_eq_self.mpr fun u hu => decide_eq_true (h.published u hu)
  exact congrArg₂ MatchingEngine.mk hsent hpublished

/-- The messages about another ticker, where there are none. -/
lemma About.about_of_ne {t t' : ℕ} {b : MEOrderBook} (h : About t b) (hne : t' ≠ t) :
    b.matchingEngine.about t' = {} := by
  have hsent : ∀ r ∈ b.sent, ¬ decide (r.tickerId = t') = true := fun r hr => by
    rw [h.sent r hr]
    simpa using hne.symm
  have hpublished : ∀ u ∈ b.published, ¬ decide (u.tickerId = t') = true := fun u hu => by
    rw [h.published u hu]
    simpa using hne.symm
  exact congrArg₂ MatchingEngine.mk (List.filter_eq_nil_iff.mpr hsent)
    (List.filter_eq_nil_iff.mpr hpublished)

/-- The engine after a request, as a ticker has it. -/
lemma alone_processed {x : EngineState} {t : ℕ} {b : MEOrderBook} (h : About t b) :
    EngineState.alone
        { tickerOrderBook := Function.update x.tickerOrderBook t (b.behind x.queues)
          queues := (b.behind x.queues).matchingEngine } =
      Function.update x.alone t (b.behind (x.queues.about t)) := by
  have hqueues : (b.behind x.queues).matchingEngine =
      x.queues.push b.matchingEngine.outgoingOgwResponses b.matchingEngine.outgoingMdUpdates := rfl
  funext k
  unfold EngineState.alone
  simp only [hqueues, about_push]
  by_cases he : k = t
  · subst he
    simp only [Function.update_self, h.about_self]
    rfl
  · simp only [Function.update_of_ne he, h.about_of_ne he, MatchingEngine.push_nil]

/-- **One request**: the engine takes it as the book of its ticker does on its own, or fails as the
book does. -/
theorem EngineState.process_cases
    (hadd : ∀ clientId clientOrderId t side price qty,
      Local t fun b => add b clientId clientOrderId t side price qty)
    (x : EngineState) {r : MEClientRequest} (hticker : r.tickerId < meMaxTickers) :
    (∃ f, x.process add r = .error f ∧
        processClientRequest add (x.alone r.tickerId) r = .error f) ∨
      ∃ x' b', x.process add r = .ok x' ∧
        processClientRequest add (x.alone r.tickerId) r = .ok b' ∧
        x'.alone = Function.update x.alone r.tickerId b' := by
  -- the book of the ticker, before it gets any queues
  set b := (x.tickerOrderBook r.tickerId).withQueues {} with hb
  have hbehind : ∀ e, (x.tickerOrderBook r.tickerId).withQueues e = b.behind e := fun e => by
    simp [hb, behind, withQueues, MatchingEngine.push, sent, published]
  have hlocal := local_processClientRequest hadd r
  have habout : Safe (fun _ => True) (About r.tickerId) (processClientRequest add b r) :=
    hlocal.about b ⟨fun _ h => absurd h List.not_mem_nil, fun _ h => absurd h List.not_mem_nil⟩
  have hx : x.process add r = (processClientRequest add (b.behind x.queues) r >>= fun orderBook =>
      .ok { tickerOrderBook := Function.update x.tickerOrderBook r.tickerId orderBook
            queues := orderBook.matchingEngine }) := by
    rw [process, if_pos hticker, hbehind]
    rfl
  rw [hx, show x.alone r.tickerId = b.behind (x.queues.about r.tickerId) from hbehind _,
    hlocal.behind b, hlocal.behind b]
  cases hprocess : processClientRequest add b r with
  | error f => exact .inl ⟨f, rfl, rfl⟩
  | ok b' =>
    rw [hprocess] at habout
    exact .inr ⟨_, _, rfl, rfl, alone_processed habout⟩

/-- What a request writes to the queue of responses, the book of its ticker writes. -/
lemma EngineState.exists_sent
    (hadd : ∀ clientId clientOrderId t side price qty,
      Local t fun b => add b clientId clientOrderId t side price qty)
    {x x' : EngineState} {r : MEClientRequest} (h : x.process add r = .ok x') :
    ∃ new, x'.queues.outgoingOgwResponses = x.queues.outgoingOgwResponses ++ new ∧
      (x'.alone r.tickerId).sent = (x.alone r.tickerId).sent ++ new := by
  set b := (x.tickerOrderBook r.tickerId).withQueues {} with hb
  have hbehind : (x.tickerOrderBook r.tickerId).withQueues x.queues = b.behind x.queues := by
    simp [hb, behind, withQueues, MatchingEngine.push, sent, published]
  have hlocal := local_processClientRequest hadd r
  have habout : Safe (fun _ => True) (About r.tickerId) (processClientRequest add b r) :=
    hlocal.about b ⟨fun _ h => absurd h List.not_mem_nil, fun _ h => absurd h List.not_mem_nil⟩
  unfold process at h
  split_ifs at h
  obtain ⟨orderBook, hprocess, hx'⟩ := bind_eq_ok.mp h
  rw [hbehind, hlocal.behind b] at hprocess
  cases hbook : processClientRequest add b r with
  | error f =>
    rw [hbook] at hprocess
    cases hprocess
  | ok b' =>
    rw [hbook] at hprocess habout
    cases hprocess
    cases hx'
    refine ⟨b'.sent, rfl, ?_⟩
    show (x.queues.outgoingOgwResponses ++ b'.sent).filter _ = _
    rw [List.filter_append, List.filter_eq_self.mpr fun r' hr' => decide_eq_true (habout.sent r' hr')]
    rfl

/-- What the book of the ticker does on its own, the engine does. -/
theorem EngineState.safe_process
    (hadd : ∀ clientId clientOrderId t side price qty,
      Local t fun b => add b clientId clientOrderId t side price qty)
    (x : EngineState) {r : MEClientRequest} (hticker : r.tickerId < meMaxTickers)
    {allow : Fault → Prop} {post : MEOrderBook → Prop}
    (h : Safe allow post (processClientRequest add (x.alone r.tickerId) r)) :
    Safe allow
      (fun x' => ∃ b', post b' ∧ x'.alone = Function.update x.alone r.tickerId b')
      (x.process add r) := by
  rcases process_cases hadd x hticker with ⟨f, hx, hb⟩ | ⟨x', b', hx, hb, halone⟩
  · rw [hx]
    rw [hb] at h
    exact h
  · rw [hx]
    rw [hb] at h
    exact ⟨b', h, halone⟩

/-- **The invariant rule for the books of the engine.** What a request keeps of one book, a run
keeps of all. -/
theorem EngineState.safe_run
    (hadd : ∀ clientId clientOrderId t side price qty,
      Local t fun b => add b clientId clientOrderId t side price qty)
    {C : MEOrderBook → MEClientRequest → Prop} {P : MEOrderBook → Prop} {allow : Fault → Prop}
    (hstep : ∀ b r, P b → C b r → Safe allow P (processClientRequest add b r)) (hnew : P .new)
    {requests : List MEClientRequest}
    (h : Meets (process add)
      (fun x r => r.tickerId < meMaxTickers ∧ C (x.alone r.tickerId) r) {} requests) :
    Safe allow (fun x => ∀ t, P (x.alone t)) (requests.foldlM (process add) {}) := by
  refine safe_foldlM ?_ (fun _ => hnew) h
  rintro x r hx ⟨hticker, hr⟩
  refine (safe_process hadd x hticker (hstep _ r (hx r.tickerId) hr)).mono (fun _ hf => hf) ?_
  rintro x' ⟨b', hb', halone⟩ t
  rw [halone]
  by_cases ht : t = r.tickerId
  · subst ht
    rw [Function.update_self]
    exact hb'
  · rw [Function.update_of_ne ht]
    exact hx t

/-- A request, as a routed step of the books. -/
lemma EngineState.process_iff
    (hadd : ∀ clientId clientOrderId t side price qty,
      Local t fun b => add b clientId clientOrderId t side price qty)
    (x : EngineState) (r : MEClientRequest) (parts' : ℕ → MEOrderBook) :
    (∃ x', x.process add r = .ok x' ∧ x'.alone = parts') ↔
      r.tickerId < meMaxTickers ∧
        Routed MEClientRequest.tickerId (Processes add) x.alone r parts' := by
  by_cases hticker : r.tickerId < meMaxTickers
  swap
  · refine iff_of_false ?_ fun h => hticker h.1
    rintro ⟨x', hx', -⟩
    rw [process, if_neg hticker] at hx'
    cases hx'
  rw [and_iff_right hticker]
  unfold Routed Processes
  rcases process_cases hadd x hticker with ⟨f, hx, hb⟩ | ⟨x', b', hx, hb, halone⟩
  · rw [hx, hb]
    refine iff_of_false ?_ ?_
    · rintro ⟨x', hx', -⟩
      cases hx'
    · rintro ⟨s, hs, -⟩
      cases hs
  · rw [hx, hb]
    constructor
    · rintro ⟨x'', hx'', rfl⟩
      cases hx''
      exact ⟨b', rfl, halone⟩
    · rintro ⟨s, hs, rfl⟩
      cases hs
      exact ⟨x', rfl, halone⟩

/-- The engine on a list of requests, and the books on theirs.

**Proof sketch.** By induction on the requests, a run of the engine is a run of the family of the
books, each of which takes the requests of its ticker (`process_iff`). Such a run is a run of every
book on its own requests (`run_routed_iff`). -/
lemma EngineState.foldlM_iff
    (hadd : ∀ clientId clientOrderId t side price qty,
      Local t fun b => add b clientId clientOrderId t side price qty)
    (requests : List MEClientRequest) (x : EngineState) (parts' : ℕ → MEOrderBook) :
    (∃ x', requests.foldlM (process add) x = .ok x' ∧ x'.alone = parts') ↔
      (∀ r ∈ requests, r.tickerId < meMaxTickers) ∧
        ∀ t, (requests.filter fun r => r.tickerId = t).foldlM (processClientRequest add) (x.alone t) =
          .ok (parts' t) := by
  have hrun : (∃ x', requests.foldlM (process add) x = .ok x' ∧ x'.alone = parts') ↔
      (∀ r ∈ requests, r.tickerId < meMaxTickers) ∧
        Run (Routed MEClientRequest.tickerId (Processes add)) x.alone requests parts' := by
    induction requests generalizing x with
    | nil =>
      constructor
      · rintro ⟨x', hx', rfl⟩
        cases hx'
        exact ⟨by simp, rfl⟩
      · rintro ⟨-, hparts⟩
        exact ⟨x, rfl, hparts⟩
    | cons r requests ih =>
      constructor
      · rintro ⟨x', hx', rfl⟩
        rw [List.foldlM_cons] at hx'
        obtain ⟨x₁, hx₁, hrest⟩ := bind_eq_ok.mp hx'
        obtain ⟨hticker, hrouted⟩ := (process_iff hadd x r x₁.alone).mp ⟨x₁, hx₁, rfl⟩
        obtain ⟨htickers, hrun⟩ := (ih x₁).mp ⟨x', hrest, rfl⟩
        exact ⟨List.forall_mem_cons.mpr ⟨hticker, htickers⟩, _, hrouted, hrun⟩
      · rintro ⟨htickers, parts₁, hrouted, hrun⟩
        obtain ⟨hticker, htickers⟩ := List.forall_mem_cons.mp htickers
        obtain ⟨x₁, hx₁, rfl⟩ := (process_iff hadd x r parts₁).mpr ⟨hticker, hrouted⟩
        obtain ⟨x', hx', hparts⟩ := (ih x₁).mpr ⟨htickers, hrun⟩
        refine ⟨x', ?_, hparts⟩
        rw [List.foldlM_cons, hx₁]
        exact hx'
  rw [hrun, run_routed_iff]
  simp only [foldlM_ok_iff_run]
  rfl

end Runs

/-- **The engine is a family of books.** A run of the engine from its start gets through, and
leaves the books and what was written about each ticker as given, exactly when every request names
a ticker that exists and the book of each ticker gets there on its own, with queues of its own.
This holds of `add` through line 105 and of its whole body, whatever it removes at the end. -/
theorem engine_separates (exchangeOrder : Ptr → Ptr) (requests : List MEClientRequest)
    (parts : ℕ → MEOrderBook) :
    ((∃ x, requests.foldlM (EngineState.process addAnnounced) {} = .ok x ∧ x.alone = parts) ↔
      (∀ r ∈ requests, r.tickerId < meMaxTickers) ∧
        ∀ t, (requests.filter fun r => r.tickerId = t).foldlM (processClientRequest addAnnounced)
          .new = .ok (parts t)) ∧
    ((∃ x, requests.foldlM (EngineState.process (add exchangeOrder)) {} = .ok x ∧
        x.alone = parts) ↔
      (∀ r ∈ requests, r.tickerId < meMaxTickers) ∧
        ∀ t, (requests.filter fun r => r.tickerId = t).foldlM
          (processClientRequest (add exchangeOrder)) .new = .ok (parts t)) :=
  ⟨EngineState.foldlM_iff local_addAnnounced requests {} parts,
    EngineState.foldlM_iff
      (fun clientId clientOrderId t side price qty =>
        local_add clientId clientOrderId t side price qty exchangeOrder) requests {} parts⟩

end Exchange

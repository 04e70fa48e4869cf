import HftSystem.Exchange.AnyRequest
import HftSystem.Exchange.FIFOSequencing

set_option relaxedAutoImplicit false
set_option autoImplicit false

/-!
# A request on its way from the wire to the book

A message is read from a socket, checked for its socket and its number, sequenced, and processed by
the book of its ticker. The client id is an index already in `recvCallback`, where nobody looks at
its size.

## Main definitions

* `Exchange.ExchangeState` — the order server and the books, with `Exchange.ExchangeState.receive`,
  the way of the bytes of a read.
* `Exchange.ExchangeState.Quiet` — nothing is under way.
* `Exchange.ExchangeState.Handles` — the message is answered or ignored, and no book is damaged.

## Main results

* `Exchange.ExchangeState.read_frame` — the read of a single message.
* `Exchange.ExchangeState.handles_iff` — the messages that are handled.
-/

namespace Exchange

open Common Fallible LimitOrderBook MEOrderBook

/-- `ticker_order_book_[client_request->ticker_id_]`, and the request processed by that book. -/
def processOnTicker
    (add : MEOrderBook → ℕ → ℕ → ℕ → Side → ℤ → ℕ → Except Fault MEOrderBook)
    (tickerOrderBook : ℕ → MEOrderBook) (request : MEClientRequest) :
    Except Fault (ℕ → MEOrderBook) :=
  if request.tickerId < meMaxTickers then do
    let orderBook ← processClientRequest add (tickerOrderBook request.tickerId) request
    return Function.update tickerOrderBook request.tickerId orderBook
  else .error .overrun

/-- The order server and the books of the matching engine. -/
structure ExchangeState where
  server : OrderServer := {}
  tickerOrderBook : ℕ → MEOrderBook := fun _ => .new

namespace ExchangeState

/-- Some bytes arrive on a socket: `recvCallback`, `recvFinishedCallback`, and the matching engine
processes what was published. -/
def receive (add : MEOrderBook → ℕ → ℕ → ℕ → Side → ℤ → ℕ → Except Fault MEOrderBook)
    (sort : List RecvTimeClientRequest → List RecvTimeClientRequest) (x : ExchangeState)
    (socket : Ptr) (rxTime : ℤ) (bytes : List UInt8) : Except Fault ExchangeState := do
  let server ← x.server.read socket rxTime bytes
  let server := server.recvFinishedCallback sort
  let tickerOrderBook ←
    server.fifoSequencer.incomingRequests.foldlM (processOnTicker add) x.tickerOrderBook
  return {
    server := { server with fifoSequencer := { server.fifoSequencer with incomingRequests := [] } }
    tickerOrderBook }

/-- Nothing is under way: no part of a message waits on the socket, and no request in the sequencer
or in the queue of the matching engine. -/
structure Quiet (x : ExchangeState) (socket : Ptr) : Prop where
  rcvBuffer : (x.server.sockets socket).rcvBuffer = []
  fifoSequencer : x.server.fifoSequencer = {}

/-- **The message is handled.**

* The lists of price levels of every book are sorted.
* If the server does not take the message, no book changes.
* If it does, the book of the ticker processes the request, and no other book changes. -/
structure Handles (x x' : ExchangeState) (socket : Ptr) (request : OMClientRequest) : Prop where
  sorted : ∀ ticker, SortedLists (x'.tickerOrderBook ticker).toLimitOrderBook
  ignored : ¬ x.server.Accepts socket request → x'.tickerOrderBook = x.tickerOrderBook
  processed : x.server.Accepts socket request → ∃ b',
    x'.tickerOrderBook =
      Function.update x.tickerOrderBook request.meClientRequest.tickerId b' ∧
    Processed (x.tickerOrderBook request.meClientRequest.tickerId) b' request.meClientRequest

section Receive

variable {add : MEOrderBook → ℕ → ℕ → ℕ → Side → ℤ → ℕ → Except Fault MEOrderBook}
  {sort : List RecvTimeClientRequest → List RecvTimeClientRequest} {x : ExchangeState} {socket : Ptr}
  {rxTime : ℤ} {frame : List UInt8} {request : OMClientRequest}

/-- A message is one frame. -/
lemma frames_of_length {size : ℕ} (hsize : 0 < size) (h : frame.length = size) :
    Framing.frames size frame = [frame] ∧ Framing.rest size frame = [] := by
  subst h
  unfold Framing.frames Framing.rest
  rw [Nat.div_self hsize, Nat.mul_one]
  exact ⟨by simp [Framing.takeFrames], List.drop_length⟩

/-- The server as `recvCallback` finds it. -/
def received (x : ExchangeState) (socket : Ptr) (frame : List UInt8) : OrderServer :=
  x.server.setSocket socket ((x.server.sockets socket).receive frame)

/-- **The read of a single message** is one turn of the loop of `recvCallback`. -/
lemma read_frame (hquiet : x.Quiet socket) (hframe : frame.length = OMClientRequest.codec.size) :
    x.server.read socket rxTime frame =
      (x.received socket frame).onClientRequest socket rxTime (OMClientRequest.codec.decode frame) >>=
        fun server => .ok (server.setSocket socket { server.sockets socket with rcvBuffer := [] }) := by
  obtain ⟨hframes, hrest⟩ := frames_of_length (by decide) hframe
  rw [OrderServer.read_eq, hquiet.rcvBuffer]
  unfold Framing.feed
  simp only [List.nil_append, hframes, hrest, List.foldlM_cons, List.foldlM_nil]
  unfold received
  cases (x.server.setSocket socket ((x.server.sockets socket).receive frame)).onClientRequest socket
    rxTime (OMClientRequest.codec.decode frame) <;> rfl

/-- **A client id out of range** is an access behind the end of an array. -/
lemma receive_of_outOfRange (hquiet : x.Quiet socket)
    (hframe : frame.length = OMClientRequest.codec.size)
    (hrequest : OMClientRequest.codec.decode frame = request)
    (hclient : ¬ request.meClientRequest.clientId < meMaxNumClients) :
    x.receive add sort socket rxTime frame = .error .overrun := by
  unfold receive
  rw [read_frame hquiet hframe, hrequest]
  unfold OrderServer.onClientRequest
  simp only [if_neg hclient]
  rfl

/-- What the loop body of `recvCallback` made pending is what the matching engine processes. -/
lemma receive_eq (hsort : FIFOSequencer.IsStdSort sort) (hquiet : x.Quiet socket)
    (hframe : frame.length = OMClientRequest.codec.size)
    (hrequest : OMClientRequest.codec.decode frame = request) {server : OrderServer}
    (hserver : (x.received socket frame).onClientRequest socket rxTime
      request = .ok server)
    (hnone : server.fifoSequencer.incomingRequests = []) :
    ∃ server', x.receive add sort socket rxTime frame =
      ((sort server.fifoSequencer.pendingClientRequests).map
        RecvTimeClientRequest.request).foldlM (processOnTicker add) x.tickerOrderBook >>=
          fun tickerOrderBook => .ok { server := server', tickerOrderBook } := by
  unfold receive
  rw [read_frame hquiet hframe, hrequest, hserver]
  simp only [ok_bind]
  set done := server.setSocket socket { server.sockets socket with rcvBuffer := [] }
  have hfifo : (done.recvFinishedCallback sort).fifoSequencer =
      { incomingRequests := (sort server.fifoSequencer.pendingClientRequests).map
          RecvTimeClientRequest.request
        pendingClientRequests := [] } := by
    show server.fifoSequencer.sequenceAndPublish sort = _
    rw [FIFOSequencer.sequenceAndPublish_eq hsort, hnone, List.nil_append]
  rw [hfifo]
  exact ⟨_, rfl⟩

/-- **A message that the server does not take** leaves the books alone. -/
lemma receive_of_not_accepts (hsort : FIFOSequencer.IsStdSort sort) (hquiet : x.Quiet socket)
    (hframe : frame.length = OMClientRequest.codec.size)
    (hrequest : OMClientRequest.codec.decode frame = request)
    (hclient : request.meClientRequest.clientId < meMaxNumClients)
    (haccepts : ¬ x.server.Accepts socket request) :
    ∃ server, x.receive add sort socket rxTime frame =
      .ok { server, tickerOrderBook := x.tickerOrderBook } := by
  have hreject : (x.received socket frame).onClientRequest socket rxTime request =
      .ok ((x.received socket frame).bindClient request.meClientRequest.clientId socket) :=
    OrderServer.onClientRequest_of_not_accepts hclient haccepts
  have hfifo : ((x.received socket frame).bindClient
      request.meClientRequest.clientId socket).fifoSequencer = {} := by
    rw [OrderServer.bindClient_eq]
    exact hquiet.fifoSequencer
  have hnone := congrArg FIFOSequencer.incomingRequests hfifo
  obtain ⟨server, hserver⟩ := receive_eq hsort hquiet hframe hrequest hreject hnone
  refine ⟨server, hserver.trans ?_⟩
  rw [hfifo, (hsort.perm []).eq_nil]
  rfl

/-- **A message that the server takes** is processed by the book of its ticker. -/
lemma receive_of_accepts (hsort : FIFOSequencer.IsStdSort sort) (hquiet : x.Quiet socket)
    (hframe : frame.length = OMClientRequest.codec.size)
    (hrequest : OMClientRequest.codec.decode frame = request)
    (hclient : request.meClientRequest.clientId < meMaxNumClients)
    (haccepts : x.server.Accepts socket request) :
    ∃ server, x.receive add sort socket rxTime frame =
      processOnTicker add x.tickerOrderBook request.meClientRequest >>=
        fun tickerOrderBook => .ok { server, tickerOrderBook } := by
  have hfifo : (x.received socket frame).fifoSequencer = {} := hquiet.fifoSequencer
  have haccepts' : (x.received socket frame).Accepts socket request := haccepts
  obtain ⟨server, hserver, rfl⟩ :=
    (OrderServer.safe_onClientRequest hclient haccepts').exists_ok_of_forall fun _ hf => by
      have hroom := hf.2
      rw [hfifo] at hroom
      exact absurd hroom (by decide)
  have hpending : (OrderServer.accept (x.received socket frame) socket rxTime
      request).fifoSequencer =
        { incomingRequests := []
          pendingClientRequests :=
            [{ recvTime := rxTime
               request := request.meClientRequest }] } := by
    unfold OrderServer.accept
    simp only [hfifo]
    rfl
  have hnone := congrArg FIFOSequencer.incomingRequests hpending
  obtain ⟨server', hserver'⟩ := receive_eq hsort hquiet hframe hrequest hserver hnone
  refine ⟨server', hserver'.trans ?_⟩
  rw [hpending]
  simp only [List.perm_singleton.mp (hsort.perm _), List.map_cons, List.map_nil,
    List.foldlM_cons, List.foldlM_nil]
  cases processOnTicker add x.tickerOrderBook
    request.meClientRequest <;> rfl

/-! ## The messages that are handled -/

/-- The messages that are handled, over the body of `add` in question.

**Proof sketch.** A client id out of range ends the read (`receive_of_outOfRange`). A message that the
server does not take leaves all books alone, so it is handled. A message that it takes is processed by
the book of its ticker and by no other, and what that book asks of the request is `hprocessed`. -/
lemma handles_iff_of_processed {C : MEOrderBook → MEClientRequest → Prop}
    (hprocessed : ∀ b v r, WellFormed b v →
      ((∃ b', processClientRequest add b r = .ok b' ∧ Processed b b' r) ↔ Admits C b r))
    (hsort : FIFOSequencer.IsStdSort sort) (hquiet : x.Quiet socket)
    (hbooks : ∀ ticker, ∃ v, WellFormed (x.tickerOrderBook ticker) v)
    (hframe : frame.length = OMClientRequest.codec.size)
    (hrequest : OMClientRequest.codec.decode frame = request)
    (hticker : request.meClientRequest.tickerId < meMaxTickers) :
    (∃ x', x.receive add sort socket rxTime frame = .ok x' ∧ x.Handles x' socket request) ↔
      request.meClientRequest.clientId < meMaxNumClients ∧
        (x.server.Accepts socket request →
          Admits C (x.tickerOrderBook request.meClientRequest.tickerId) request.meClientRequest) := by
  have hsorted : ∀ ticker, SortedLists (x.tickerOrderBook ticker).toLimitOrderBook := by
    intro ticker
    obtain ⟨v, hv⟩ := hbooks ticker
    exact hv.sortedLists
  by_cases hclient : request.meClientRequest.clientId < meMaxNumClients
  swap
  · refine iff_of_false ?_ fun h => hclient h.1
    rintro ⟨x', hx', -⟩
    rw [receive_of_outOfRange hquiet hframe hrequest hclient] at hx'
    cases hx'
  rw [and_iff_right hclient]
  by_cases haccepts : x.server.Accepts socket request
  · have htaken : ∃ server, x.receive add sort socket rxTime frame =
        processOnTicker add x.tickerOrderBook request.meClientRequest >>=
          fun tickerOrderBook => .ok { server, tickerOrderBook } :=
      receive_of_accepts hsort hquiet hframe hrequest hclient haccepts
    obtain ⟨server, hserver⟩ := htaken
    obtain ⟨v, hv⟩ := hbooks request.meClientRequest.tickerId
    rw [hserver, forall_prop_of_true haccepts, ← hprocessed _ v _ hv]
    unfold processOnTicker
    rw [if_pos hticker]
    constructor
    · rintro ⟨x', hx', hhandles⟩
      obtain ⟨books, hbooks', hx'⟩ := bind_eq_ok.mp hx'
      obtain ⟨b', hb', hupdate⟩ := bind_eq_ok.mp hbooks'
      cases hupdate
      cases hx'
      -- the book that the message is processed by is the one that was written
      obtain ⟨b'', hb'', hdone⟩ := hhandles.processed haccepts
      have hsame := congrFun hb'' request.meClientRequest.tickerId
      simp only [Function.update_self] at hsame
      exact ⟨b', hb', hsame ▸ hdone⟩
    · rintro ⟨b', hb', hdone⟩
      refine ⟨_, bind_eq_ok.mpr ⟨_, bind_eq_ok.mpr ⟨b', hb', rfl⟩, rfl⟩, ?_, ?_, ?_⟩
      · intro ticker
        by_cases ht : ticker = request.meClientRequest.tickerId
        · rw [ht]
          simp only [Function.update_self]
          exact hdone.sorted
        · simp only [Function.update_of_ne ht]
          exact hsorted ticker
      · intro hnot
        exact absurd haccepts hnot
      · intro _
        exact ⟨b', rfl, hdone⟩
  · have hdropped : ∃ server, x.receive add sort socket rxTime frame =
        .ok { server, tickerOrderBook := x.tickerOrderBook } :=
      receive_of_not_accepts hsort hquiet hframe hrequest hclient haccepts
    obtain ⟨server, hserver⟩ := hdropped
    refine iff_of_true ⟨_, hserver, hsorted, fun _ => rfl, fun h => absurd h haccepts⟩ ?_
    intro h
    exact absurd h haccepts

/-- **The messages that are handled.** Their client id is below the number of clients; and if the
server takes the message, a CANCEL names an order id in range, and a remainder of a NEW finds room
and, where it rests, keeps the lists sorted. -/
theorem handles_iff (hsort : FIFOSequencer.IsStdSort sort) (hquiet : x.Quiet socket)
    (hbooks : ∀ ticker, ∃ v, WellFormed (x.tickerOrderBook ticker) v)
    (hframe : frame.length = OMClientRequest.codec.size)
    (hrequest : OMClientRequest.codec.decode frame = request)
    (hticker : request.meClientRequest.tickerId < meMaxTickers) :
    ((∃ x', x.receive matchAndRest sort socket rxTime frame = .ok x' ∧
        x.Handles x' socket request) ↔
      request.meClientRequest.clientId < meMaxNumClients ∧
        (x.server.Accepts socket request →
          Admits (fun b r => RoomFor b r ∧ KeepsSorted b r)
            (x.tickerOrderBook request.meClientRequest.tickerId) request.meClientRequest)) ∧
    ((∃ x', x.receive (MEOrderBook.add id) sort socket rxTime frame = .ok x' ∧
        x.Handles x' socket request) ↔
      request.meClientRequest.clientId < meMaxNumClients ∧
        (x.server.Accepts socket request →
          Admits RoomFor (x.tickerOrderBook request.meClientRequest.tickerId)
            request.meClientRequest)) :=
  ⟨handles_iff_of_processed (fun _ _ r h => processed_iff_of_rests h r) hsort hquiet hbooks hframe
      hrequest hticker,
    handles_iff_of_processed (fun _ _ r h => processed_iff h r) hsort hquiet hbooks hframe hrequest
      hticker⟩

end Receive

/-- A sort that reverses ties. -/
def sampleSort (l : List RecvTimeClientRequest) : List RecvTimeClientRequest :=
  l.reverse.insertionSort fun a b => a.recvTime ≤ b.recvTime

/-- It is one that the standard allows. -/
lemma isStdSort_sampleSort : FIFOSequencer.IsStdSort sampleSort := KeySort.isSort_insertionSort_reverse

/-- The first message of a client, of any type, side and price. -/
def firstMessage (type : ClientRequestType) (clientId orderId : ℕ) (side : Side) (price : ℤ) :
    OMClientRequest where
  seqNum := 1
  meClientRequest := { type, clientId, tickerId := 0, orderId, side, price, qty := 5 }

/-- The next block and the one behind it are free, which can be evaluated. -/
abbrev TwoFree {T : Type} (pool : MemPool T) : Prop :=
  pool.nextFreeIndex + 1 < pool.size ∧ (pool.store pool.nextFreeIndex).isFree = true ∧
    (pool.store (pool.nextFreeIndex + 1)).isFree = true

/-- The one behind is where the search for the next block ends. -/
lemma TwoFree.hasFresh {T : Type} {pool : MemPool T} (h : TwoFree pool) : pool.HasFresh :=
  ⟨Nat.lt_of_succ_lt h.1, h.2.1, _, Nat.lt_succ_self _, h.1, h.2.2⟩

/-- Two asks at 10 and one at 12. -/
def threeAsks : List MEClientRequest :=
  [{ type := .new, clientId := 1, tickerId := 0, orderId := 1, side := .sell, price := 10, qty := 1 },
   { type := .new, clientId := 2, tickerId := 0, orderId := 1, side := .sell, price := 10, qty := 2 },
   { type := .new, clientId := 3, tickerId := 0, orderId := 1, side := .sell, price := 12, qty := 4 }]

/-- The exchange where such a book rests in ticker 0, and nothing in the others. -/
def restingIn (b : MEOrderBook) : ExchangeState where
  tickerOrderBook := Function.update (fun _ => .new) 0 b

/-- A bid of 5 at 11 executes against the two asks at 10, and its remainder of 2 rests.

**Proof sketch.** The three asks and the matching of the bid are evaluated. The rest is `handles_iff`
for both bodies of `add`: the books are well formed, and what is left of the bid has a block for its
order and for its level. -/
theorem handles_new :
    ∃ b, threeAsks.foldlM (processClientRequest matchAndRest) MEOrderBook.new = .ok b ∧
      Safe (fun _ => False) (fun x => x.2 = 2)
        (b.matchRequest (firstMessage .new 4 1 .buy 11).meClientRequest) ∧
      (∃ x', (restingIn b).receive matchAndRest sampleSort 0 7
          (OMClientRequest.codec.encode (firstMessage .new 4 1 .buy 11)) = .ok x' ∧
        (restingIn b).Handles x' 0 (firstMessage .new 4 1 .buy 11)) ∧
      ∃ x', (restingIn b).receive (MEOrderBook.add id) sampleSort 0 7
          (OMClientRequest.codec.encode (firstMessage .new 4 1 .buy 11)) = .ok x' ∧
        (restingIn b).Handles x' 0 (firstMessage .new 4 1 .buy 11) := by
  obtain ⟨b, hb, hmatch⟩ := Safe.exists_ok (by decide +kernel : Safe (fun _ => False)
    (fun b : MEOrderBook => Safe (fun _ => False)
      (fun x => x.2 = 2 ∧ TwoFree x.1.orderPool ∧ TwoFree x.1.ordersAtPricePool)
      (b.matchRequest (firstMessage .new 4 1 .buy 11).meClientRequest))
    (threeAsks.foldlM (processClientRequest matchAndRest) MEOrderBook.new))
  have hbooks : ∀ ticker, ∃ v, WellFormed ((restingIn b).tickerOrderBook ticker) v := by
    intro ticker
    by_cases ht : ticker = 0
    · obtain ⟨v, hv⟩ := exists_bookInvariant_of_run
        (meets_admissible (by decide) (by decide) (by decide)) hb
      exact ⟨v, by simpa [restingIn, ht] using hv.wellFormed⟩
    · exact ⟨{}, by simpa [restingIn, ht] using wellFormed_new⟩
  have hroom : Safe (fun _ => True) (fun x => x.2 = 0 ∨
      RoomFor x.1 (firstMessage .new 4 1 .buy 11).meClientRequest ∧
        KeepsSorted x.1 (firstMessage .new 4 1 .buy 11).meClientRequest)
      (b.matchRequest (firstMessage .new 4 1 .buy 11).meClientRequest) :=
    hmatch.mono (fun _ _ => trivial) fun x hx =>
      .inr ⟨⟨⟨by decide, by decide⟩, hx.2.1.hasFresh, fun _ => hx.2.2.hasFresh⟩, .inl (.inl rfl)⟩
  refine ⟨b, hb, hmatch.mono (fun _ hf => hf) fun x hx => hx.1, ?_, ?_⟩
  · exact (handles_iff isStdSort_sampleSort ⟨rfl, rfl⟩ hbooks (by decide +kernel)
      (by decide +kernel) (by decide)).1.mpr ⟨by decide, fun _ => hroom⟩
  · exact (handles_iff isStdSort_sampleSort ⟨rfl, rfl⟩ hbooks (by decide +kernel)
      (by decide +kernel) (by decide)).2.mpr ⟨by decide, fun _ =>
        hroom.mono (fun _ hf => hf) fun x hx => hx.imp_right And.left⟩

/-- **Three messages that are not handled**, by an exchange where nothing has happened yet or where
an ask at 10 rests: a client id out of range, a CANCEL with an order id out of range, and a side byte
that is neither BUY nor SELL with the price 5.

**Proof sketch.** Each of the three runs is evaluated. The first two end in a fault. The third returns,
but the level at 5 stands behind the ask at 10, so the asks are not sorted. -/
theorem not_handled :
    (¬ ∃ x', receive matchAndRest sampleSort {} 0 7
        (OMClientRequest.codec.encode (firstMessage .new 256 1 .buy 10)) = .ok x' ∧
      Handles {} x' 0 (firstMessage .new 256 1 .buy 10)) ∧
    (¬ ∃ x', receive matchAndRest sampleSort {} 0 7
        (OMClientRequest.codec.encode (firstMessage .cancel 1 (1024 * 1024) .buy 10)) = .ok x' ∧
      Handles {} x' 0 (firstMessage .cancel 1 (1024 * 1024) .buy 10)) ∧
    ∃ x, receive matchAndRest sampleSort {} 0 7
        (OMClientRequest.codec.encode (firstMessage .new 1 1 .sell 10)) = .ok x ∧
      ¬ ∃ x', receive matchAndRest sampleSort x 1 8
          (OMClientRequest.codec.encode (firstMessage .new 2 1 .invalid 5)) = .ok x' ∧
        Handles x x' 1 (firstMessage .new 2 1 .invalid 5) := by
  have hclient : Safe (fun _ => True) (fun _ => False)
      (receive matchAndRest sampleSort {} 0 7
        (OMClientRequest.codec.encode (firstMessage .new 256 1 .buy 10))) := by
    decide +kernel
  have horder : Safe (fun _ => True) (fun _ => False)
      (receive matchAndRest sampleSort {} 0 7
        (OMClientRequest.codec.encode (firstMessage .cancel 1 (1024 * 1024) .buy 10))) := by
    decide +kernel
  have hside : Safe (fun _ => False)
      (fun x => Safe (fun _ => False)
        (fun x' => Safe (fun _ => False) (fun prices => prices = [10, 5])
          ((x'.tickerOrderBook 0).levelPrices .sell))
        (receive matchAndRest sampleSort x 1 8
          (OMClientRequest.codec.encode (firstMessage .new 2 1 .invalid 5))))
      (receive matchAndRest sampleSort {} 0 7
        (OMClientRequest.codec.encode (firstMessage .new 1 1 .sell 10))) := by
    decide +kernel
  refine ⟨fun ⟨_, hx', _⟩ => hclient.of_eq_ok hx', fun ⟨_, hx', _⟩ => horder.of_eq_ok hx', ?_⟩
  obtain ⟨x, hx, hsecond⟩ := hside.exists_ok
  refine ⟨x, hx, ?_⟩
  rintro ⟨x', hx', hhandles⟩
  -- the level at 5 is linked behind the ask at 10, and `isBetter` of the asks prefers 5
  obtain ⟨prices, hprices, rfl⟩ := (hsecond.of_eq_ok hx').exists_ok
  have hsorted : [(10 : ℤ), 5].Pairwise fun p q => isBetter .sell p q = true :=
    (hhandles.sorted 0 .sell (.inr rfl)).of_eq_ok hprices
  revert hsorted
  decide

end ExchangeState

end Exchange

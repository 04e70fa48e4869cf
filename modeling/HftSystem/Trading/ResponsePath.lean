import HftSystem.Lib.Sessions
import HftSystem.Exchange.OrderServer
import HftSystem.Trading.OrderGateway

set_option relaxedAutoImplicit false
set_option autoImplicit false

/-!
# The way of a response

The server drains one queue for all clients and counts the responses of each; the gateway of a
client counts what it hears and ignores a message that does not fit. The two counts agree, however
the responses to the clients are interleaved and the bytes to each of them are cut into pieces.

## Main definitions

* `Trading.responsesOf`, `Trading.responseStream` — the responses of a client and their bytes.
* `Trading.OwnSockets` — the server before it has sent anything, with a socket for each client.
* `Trading.ResponsesHeard` — what the gateway has made of the bytes it received.

## Main results

* `Trading.responsesHeard_of_run` — the server sends all responses, and each gateway delivers those
  of its client.
-/

namespace Trading

open Common Exchange Wire Framing Fallible

variable {packing : Packing}

/-- The responses of a client. -/
def responsesOf (clientId : ℕ) (responses : List MEClientResponse) : List MEClientResponse :=
  responses.filter fun r => r.clientId = clientId

/-- The bytes of responses with the numbers 1, 2, 3, ... as a `size_t` counts them. -/
def responseStream (packing : Packing) (responses : List MEClientResponse) : List UInt8 :=
  countedStream (OMClientResponse.codec packing) (2 ^ 64) OMClientResponse.mk responses

/-- The size of a numbered response. -/
def responseSize (packing : Packing) : ℕ := (OMClientResponse.codec packing).size

/-- A response has bytes. -/
lemma responseSize_pos : 0 < responseSize packing := by cases packing <;> decide

/-- One more response, of the client or of another. -/
lemma responsesOf_concat (clientId : ℕ) (responses : List MEClientResponse) (r : MEClientResponse) :
    responsesOf clientId (responses ++ [r]) =
      if r.clientId = clientId then responsesOf clientId responses ++ [r]
      else responsesOf clientId responses := by
  unfold responsesOf
  rw [Sessions.filter_concat]
  split_ifs
  · rfl
  · exact List.append_nil _

/-! ## The server sends -/

/-- Clients have sockets of their own, on which nothing has been sent. -/
structure OwnSockets (server : OrderServer) : Prop where
  injective : ∀ clientId clientId' socket, server.cidTcpSocket clientId = some socket →
    server.cidTcpSocket clientId' = some socket → clientId = clientId'
  unsent : ∀ clientId socket, server.cidTcpSocket clientId = some socket →
    server.cidNextOutgoingSeqNum clientId = 1 ∧ (server.sockets socket).stream = []

section Send

variable {before server : OrderServer} {responses : List MEClientResponse}

/-- These responses were given to the sockets of their clients. -/
structure ResponsesSent (packing : Packing) (before : OrderServer)
    (responses : List MEClientResponse) (server : OrderServer) : Prop where
  bound : server.cidTcpSocket = before.cidTcpSocket
  stream : ∀ clientId socket, before.cidTcpSocket clientId = some socket →
    (server.sockets socket).stream = responseStream packing (responsesOf clientId responses)
  next : ∀ clientId socket, before.cidTcpSocket clientId = some socket →
    server.cidNextOutgoingSeqNum clientId = ((responsesOf clientId responses).length + 1) % 2 ^ 64

/-- The send buffers hold what these responses need. -/
def Buffered (packing : Packing) (before : OrderServer) (responses : List MEClientResponse)
    (server : OrderServer) : Prop :=
  ∀ clientId socket, before.cidTcpSocket clientId = some socket →
    (server.sockets socket).sendBuffer.length =
      responseSize packing * (responsesOf clientId responses).length

/-- The bytes of a numbered response. -/
lemma length_encode_response (n : ℕ) (r : MEClientResponse) :
    ((unsigned 8).encode n ++ (MEClientResponse.codec packing).encode r).length =
      responseSize packing :=
  (OMClientResponse.codec packing).length_encode { seqNum := n, meClientResponse := r }

/-- **The server sends a response** to the socket of its client, and nothing else changes. -/
lemma safe_sendResponse {r : MEClientResponse} {socket : Ptr}
    (hclient : r.clientId < meMaxNumClients) (hsocket : server.cidTcpSocket r.clientId = some socket) :
    Safe (fun e => e = .overrun ∧
        tcpBufferSize < (server.sockets socket).sendBuffer.length + responseSize packing)
      (fun server' => server' = { server with
        sockets := Function.update server.sockets socket { server.sockets socket with
          sendBuffer := (server.sockets socket).sendBuffer ++ (OMClientResponse.codec packing).encode
            { seqNum := server.cidNextOutgoingSeqNum r.clientId, meClientResponse := r } }
        cidNextOutgoingSeqNum := Function.update server.cidNextOutgoingSeqNum r.clientId
          ((server.cidNextOutgoingSeqNum r.clientId + 1) % 2 ^ 64) })
      (server.sendResponse packing r) := by
  have hsend := (server.sockets socket).safe_send_send
    ((unsigned 8).encode (server.cidNextOutgoingSeqNum r.clientId))
    ((MEClientResponse.codec packing).encode r)
  rw [length_encode_response] at hsend
  unfold OrderServer.sendResponse
  simp only [if_pos hclient, hsocket]
  rw [ASSERT_of_true (by simp), ok_bind, deref_some, ok_bind, ← bind_assoc]
  refine hsend.bind fun s hs => ?_
  rw [hs]
  exact rfl

/-- A response keeps the invariant.

**Proof sketch.** The response goes to the socket of its own client, and no other client owns it. There
the stream, the next number and the length of the buffer grow by one response; everywhere else all
three stay. -/
lemma ResponsesSent.sendResponse (hown : OwnSockets before)
    (h : ResponsesSent packing before responses server) {done : List MEClientResponse}
    (hbuffered : Buffered packing before done server) {r : MEClientResponse}
    (hclient : r.clientId < meMaxNumClients) (hr : before.cidTcpSocket r.clientId ≠ none) :
    Safe (fun e => e = .overrun ∧ tcpBufferSize <
        responseSize packing * (responsesOf r.clientId (done ++ [r])).length)
      (fun server' => ResponsesSent packing before (responses ++ [r]) server' ∧
        Buffered packing before (done ++ [r]) server')
      (server.sendResponse packing r) := by
  obtain ⟨socket, hsocket⟩ := Option.ne_none_iff_exists'.mp hr
  refine (safe_sendResponse hclient (h.bound ▸ hsocket)).mono (fun e he => ⟨he.1, ?_⟩)
    fun server' hserver' => ?_
  · have hfull := he.2
    rw [hbuffered r.clientId socket hsocket] at hfull
    rw [responsesOf_concat, if_pos rfl, List.length_append, List.length_singleton, Nat.mul_succ]
    exact hfull
  subst hserver'
  -- the sockets of other clients are others
  have hother : ∀ clientId s, before.cidTcpSocket clientId = some s → r.clientId ≠ clientId →
      s ≠ socket := by
    rintro clientId s hs hne rfl
    exact hne (hown.injective r.clientId clientId s hsocket hs)
  refine ⟨⟨h.bound, fun clientId s hs => ?_, fun clientId s hs => ?_⟩, fun clientId s hs => ?_⟩
  · show (Function.update server.sockets socket _ s).stream = _
    rw [responsesOf_concat]
    split_ifs with heq
    · subst heq
      obtain rfl : socket = s := Option.some.inj (hsocket.symm.trans hs)
      rw [Function.update_self, responseStream, countedStream_concat, ← responseStream,
        ← h.stream _ _ hs, ← h.next _ _ hs]
      exact (List.append_assoc ..).symm
    · rw [Function.update_of_ne (hother clientId s hs heq)]
      exact h.stream clientId s hs
  · show Function.update server.cidNextOutgoingSeqNum r.clientId _ clientId = _
    rw [responsesOf_concat]
    split_ifs with heq
    · subst heq
      rw [Function.update_self, h.next _ _ hs, Nat.mod_add_mod, List.length_append,
        List.length_singleton]
    · rw [Function.update_of_ne (Ne.symm heq)]
      exact h.next clientId s hs
  · show (Function.update server.sockets socket _ s).sendBuffer.length = _
    rw [responsesOf_concat]
    split_ifs with heq
    · subst heq
      obtain rfl : socket = s := Option.some.inj (hsocket.symm.trans hs)
      rw [Function.update_self, List.length_append, (OMClientResponse.codec packing).length_encode,
        hbuffered _ _ hs, List.length_append, List.length_singleton, Nat.mul_succ]
      rfl
    · rw [Function.update_of_ne (hother clientId s hs heq)]
      exact hbuffered clientId s hs

/-- More responses of a client need more bytes. -/
lemma length_responsesOf_le {pre post : List MEClientResponse} (clientId : ℕ) :
    (responsesOf clientId pre).length ≤ (responsesOf clientId (pre ++ post)).length := by
  unfold responsesOf
  rw [List.filter_append, List.length_append]
  omega

/-- The responses that the server finds in the queue at once do not fit into the send buffer of a
client. -/
def OverfullBatch (packing : Packing) (batch : List MEClientResponse) : Prop :=
  ∃ clientId, tcpBufferSize < responseSize packing * (responsesOf clientId batch).length

/-- The server drains its queue. -/
lemma ResponsesSent.runOnce (hown : OwnSockets before)
    (h : ResponsesSent packing before responses server) {batch : List MEClientResponse}
    (hbatch : ∀ r ∈ batch, r.clientId < meMaxNumClients ∧ before.cidTcpSocket r.clientId ≠ none) :
    Safe (fun e => e = .overrun ∧ OverfullBatch packing batch)
      (ResponsesSent packing before (responses ++ batch)) (server.runOnce packing batch) := by
  unfold OrderServer.runOnce
  refine (safe_foldlM_list (J := fun done server' =>
    ResponsesSent packing before (responses ++ done) server' ∧ Buffered packing before done server')
    (s := { server with sockets := fun socket => (server.sockets socket).transmit })
    ⟨⟨h.bound, ?_, ?_⟩, fun _ _ _ => rfl⟩ ?_).mono (fun _ => id) fun server' hserver' => hserver'.1
  · intro clientId socket hsocket
    rw [List.append_nil, ← h.stream clientId socket hsocket]
    exact TCPSocket.stream_transmit _
  · intro clientId socket hsocket
    rw [List.append_nil]
    exact h.next clientId socket hsocket
  · intro pre r post server' hsplit hserver'
    have hr := hbatch r (by simp [hsplit])
    refine (hserver'.1.sendResponse hown hserver'.2 hr.1 hr.2).mono
      (fun e he => ⟨he.1, r.clientId, ?_⟩) fun server'' hserver'' => ?_
    · refine Nat.lt_of_lt_of_le he.2 (Nat.mul_le_mul_left _ ?_)
      rw [hsplit, List.append_cons pre r post]
      exact length_responsesOf_le r.clientId
    · rwa [List.append_assoc] at hserver''

/-- **The server runs.** It fails only when what it finds in the queue at once does not fit into
the send buffer of a client. -/
theorem responsesSent_of_run (hown : OwnSockets before) {batches : List (List MEClientResponse)}
    (hbatches : ∀ r ∈ batches.flatten,
      r.clientId < meMaxNumClients ∧ before.cidTcpSocket r.clientId ≠ none) :
    Safe (fun e => e = .overrun ∧ ∃ batch ∈ batches, OverfullBatch packing batch)
      (ResponsesSent packing before batches.flatten) (before.run packing batches) := by
  refine safe_foldlM_list (J := fun done server => ResponsesSent packing before done.flatten server)
    ⟨rfl, ?_, ?_⟩ fun pre batch post server hsplit hserver => ?_
  · intro clientId socket hsocket
    exact (hown.unsent clientId socket hsocket).2
  · intro clientId socket hsocket
    exact (hown.unsent clientId socket hsocket).1
  · have hmem : batch ∈ batches := by
      rw [hsplit]
      exact List.mem_append_right _ (List.mem_cons_self ..)
    rw [List.flatten_append, List.flatten_singleton]
    exact (hserver.runOnce hown fun r hr => hbatches r (List.mem_flatten_of_mem hmem hr)).mono
      (fun e he => ⟨he.1, batch, hmem, he.2⟩) fun _ => id

end Send

/-! ## The gateway receives -/

/-- **What the gateway has made of the bytes it received**: it has delivered the responses that are
complete, all of them when the stream is complete, so that no check rejected one, and the buffer of
the socket holds the bytes behind them, which are fewer than a response has. -/
structure ResponsesHeard (packing : Packing) (responses : List MEClientResponse)
    (received : List UInt8) (g : OrderGateway) : Prop where
  delivered : g.incomingResponses = responses.take (received.length / responseSize packing)
  noReject : g.incomingResponses.length = received.length / responseSize packing
  tail : g.tcpSocket.rcvBuffer =
    received.drop (responseSize packing * (received.length / responseSize packing))
  short : g.tcpSocket.rcvBuffer.length < responseSize packing
  complete : received = responseStream packing responses →
    g.incomingResponses = responses ∧ g.tcpSocket.rcvBuffer = []

section Receive

variable {clientId : ℕ} {g : OrderGateway} {responses : List MEClientResponse}

/-- The gateway of the client has delivered these responses. -/
structure Heard (clientId : ℕ) (responses : List MEClientResponse) (g : OrderGateway) : Prop where
  client : g.clientId = clientId
  delivered : g.incomingResponses = responses
  expected : g.nextExpSeqNum = (responses.length + 1) % 2 ^ 64

/-- **The gateway takes the next response.** -/
lemma Heard.onClientResponse (h : Heard clientId responses g) {r : MEClientResponse}
    (hr : r.clientId = clientId) :
    Heard clientId (responses ++ [r])
      (g.onClientResponse { seqNum := (responses.length + 1) % 2 ^ 64, meClientResponse := r }) := by
  unfold OrderGateway.onClientResponse
  rw [if_neg (not_not.mpr (hr.trans h.client.symm)), if_neg (not_not.mpr h.expected.symm)]
  refine ⟨h.client, ?_, ?_⟩
  · show g.incomingResponses ++ [r] = _
    rw [h.delivered]
  · show (g.nextExpSeqNum + 1) % 2 ^ 64 = _
    rw [h.expected, Nat.mod_add_mod, List.length_append, List.length_singleton]

/-- **A read** consumes the messages that it completes and keeps the rest. -/
lemma gatewayRead_eq (packing : Packing) (g : OrderGateway) (bytes : List UInt8) :
    g.read packing bytes =
      (do
        let x ← feed (responseSize packing)
          (fun g frame => .ok (g.onClientResponse ((OMClientResponse.codec packing).decode frame)))
          g.tcpSocket.rcvBuffer { g with tcpSocket := g.tcpSocket.receive bytes } bytes
        return { x.2 with tcpSocket := { x.2.tcpSocket with rcvBuffer := x.1 } }) := by
  unfold OrderGateway.read OrderGateway.recvCallback
  show (recvFrames (responseSize packing) _ (g.tcpSocket.rcvBuffer ++ bytes) _ >>= _) = _
  rw [recvFrames_eq_feed _ responseSize_pos]

/-- **The gateway reads a piece of the stream.** -/
lemma Heard.read
    (hresponses : ∀ r ∈ responses, r.clientId = clientId ∧ (MEClientResponse.codec packing).Fits r)
    {received piece : List UInt8} (hpart : received ++ piece <+: responseStream packing responses)
    (h : Heard clientId (responses.take (received.length / responseSize packing)) g)
    (hbuffer : g.tcpSocket.rcvBuffer = rest (responseSize packing) received) :
    Safe (fun _ => False)
      (fun g' => Heard clientId
          (responses.take ((received ++ piece).length / responseSize packing)) g' ∧
        g'.tcpSocket.rcvBuffer = rest (responseSize packing) (received ++ piece))
      (g.read packing piece) := by
  rw [gatewayRead_eq, hbuffer]
  refine (safe_feed_countedStream (f := fun g r => .ok (OrderGateway.onClientResponse g r))
    (J := fun done g => Heard clientId done g) responseSize_pos hpart ?_ ?_ ?_).bind fun x hx => ?_
  · intro k r hr
    exact OMClientResponse.fits_iff.mpr ⟨Nat.mod_lt _ (by decide), (hresponses r hr).2⟩
  · exact ⟨h.client, h.delivered, h.expected⟩
  · intro done r post g hsplit _ hg
    have hmem : r ∈ responses := by simp [hsplit]
    exact hg.onClientResponse (hresponses r hmem).1
  · exact ⟨⟨hx.2.client, hx.2.delivered, hx.2.expected⟩, hx.1⟩

/-- The gateway reads the stream in pieces. -/
lemma responsesHeard_of_pieces
    (hresponses : ∀ r ∈ responses, r.clientId = clientId ∧ (MEClientResponse.codec packing).Fits r)
    {pieces : List (List UInt8)} (hpieces : pieces.flatten <+: responseStream packing responses) :
    Safe (fun _ => False) (ResponsesHeard packing responses pieces.flatten)
      (pieces.foldlM (OrderGateway.read packing) { clientId }) := by
  refine (safe_foldlM_list (J := fun done g => Heard clientId
      (responses.take (done.flatten.length / responseSize packing)) g ∧
    g.tcpSocket.rcvBuffer = rest (responseSize packing) done.flatten) ?_ ?_).mono (fun _ => id)
    fun g hg => ?_
  · rw [List.flatten_nil, List.length_nil, Nat.zero_div, List.take_zero]
    exact ⟨⟨rfl, rfl, rfl⟩, (rest_of_lt responseSize_pos).symm⟩
  · intro pre piece post g hsplit hg
    rw [List.flatten_append, List.flatten_singleton]
    refine hg.1.read hresponses (List.IsPrefix.trans ?_ hpieces) hg.2
    exact ⟨post.flatten, by rw [hsplit, List.flatten_append, List.flatten_cons, List.append_assoc]⟩
  · obtain ⟨hheard, hbuffer⟩ := hg
    have hlength : pieces.flatten.length / responseSize packing ≤ responses.length :=
      length_div_le_of_part responseSize_pos hpieces
    refine ⟨hheard.delivered, ?_, hbuffer, ?_, fun hall => ⟨?_, ?_⟩⟩
    · rw [hheard.delivered, List.length_take, Nat.min_eq_left hlength]
    · rw [hbuffer]
      exact length_rest_lt responseSize_pos _
    · rw [hheard.delivered, hall, responseStream, responseSize,
        length_countedStream_div responseSize_pos, List.take_length]
    · rw [hbuffer, hall]
      exact rest_countedStream responseSize_pos _

end Receive

/-- **The way of a response.** Whatever the server finds in the queue of the matching engine, it puts
the bytes of all responses to a client, numbered, on the stream of the client's socket. However
they are cut into pieces, the gateway of each client delivers exactly the responses to its client,
each once and in order, as far as they are complete, and no check rejects one. The server fails
only when one drain of the queue exceeds a send buffer.

**Proof sketch.** Clients have sockets of their own, so a response moves the counter and the stream
of its client only, and the stream is the one of `responsesOf` with the numbers 1, 2, 3, .... The
gateway expects the numbers in this order, so each frame that a piece completes passes both
checks. -/
theorem responsesHeard_of_run {server : OrderServer} (hserver : OwnSockets server)
    {batches : List (List MEClientResponse)}
    (hbatches : ∀ r ∈ batches.flatten, r.clientId < meMaxNumClients ∧
      server.cidTcpSocket r.clientId ≠ none ∧ (MEClientResponse.codec packing).Fits r) :
    Safe (fun e => e = .overrun ∧ ∃ batch ∈ batches, OverfullBatch packing batch)
      (fun server' => ∀ clientId socket, server.cidTcpSocket clientId = some socket →
        (server'.sockets socket).stream =
            responseStream packing (responsesOf clientId batches.flatten) ∧
          ∀ pieces : List (List UInt8), pieces.flatten <+: (server'.sockets socket).stream →
            Safe (fun _ => False)
              (ResponsesHeard packing (responsesOf clientId batches.flatten) pieces.flatten)
              (pieces.foldlM (OrderGateway.read packing) { clientId }))
      (server.run packing batches) := by
  refine (responsesSent_of_run hserver fun r hr => ⟨(hbatches r hr).1, (hbatches r hr).2.1⟩).mono
    (fun _ => id) fun server' hsent clientId socket hsocket =>
      ⟨hsent.stream clientId socket hsocket, fun pieces hpieces => ?_⟩
  rw [hsent.stream clientId socket hsocket] at hpieces
  refine responsesHeard_of_pieces (fun r hr => ?_) hpieces
  obtain ⟨hmem, hclient⟩ := List.mem_filter.mp hr
  exact ⟨by simpa using hclient, (hbatches r hmem).2.2⟩

/-- The fill of an order and the orders of the two clients in it. -/
theorem responsesHeard_of_fill :
    let server : OrderServer :=
      { cidTcpSocket := fun c => if c = 3 then some 10 else if c = 4 then some 20 else none }
    let response type clientId : MEClientResponse :=
      { type, clientId, tickerId := 0, clientOrderId := 7, marketOrderId := 1, side := .buy,
        price := -5, execQty := 10, leavesQty := 0 }
    let batches := [[response .accepted 3, response .accepted 4],
      [response .filled 4, response .filled 3]]
    Safe (fun e => e = .overrun ∧ ∃ batch ∈ batches, OverfullBatch .aligned batch)
      (fun server' => ∀ clientId socket, server.cidTcpSocket clientId = some socket →
        (server'.sockets socket).stream =
            responseStream .aligned (responsesOf clientId batches.flatten) ∧
          ∀ pieces : List (List UInt8), pieces.flatten <+: (server'.sockets socket).stream →
            Safe (fun _ => False)
              (ResponsesHeard .aligned (responsesOf clientId batches.flatten) pieces.flatten)
              (pieces.foldlM (OrderGateway.read .aligned) { clientId }))
      (server.run .aligned batches) := by
  intro server response batches
  have hsocket : ∀ c s, server.cidTcpSocket c = some s → c = 3 ∧ s = 10 ∨ c = 4 ∧ s = 20 := by
    intro c s h
    have h' : (if c = 3 then some 10 else if c = 4 then some 20 else none) = some s := h
    split_ifs at h' with h3 h4
    · exact .inl ⟨h3, (Option.some.inj h').symm⟩
    · exact .inr ⟨h4, (Option.some.inj h').symm⟩
  refine responsesHeard_of_run ⟨fun c c' s h h' => ?_, fun _ _ _ => ⟨rfl, rfl⟩⟩ fun r hr => ?_
  · rcases hsocket c s h with ⟨rfl, rfl⟩ | ⟨rfl, rfl⟩
    · rcases hsocket c' _ h' with ⟨rfl, -⟩ | ⟨-, hs⟩
      · rfl
      · exact absurd hs (by decide)
    · rcases hsocket c' _ h' with ⟨-, hs⟩ | ⟨rfl, -⟩
      · exact absurd hs (by decide)
      · rfl
  · have hr' : r = response .accepted 3 ∨ r = response .accepted 4 ∨ r = response .filled 4 ∨
        r = response .filled 3 := by simpa [batches] using hr
    rcases hr' with rfl | rfl | rfl | rfl
    all_goals
      exact ⟨by decide, by simp [server, response], MEClientResponse.fits_iff.mpr (by decide)⟩

end Trading

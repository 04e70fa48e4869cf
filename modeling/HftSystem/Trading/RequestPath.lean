import HftSystem.Exchange.FIFOSequencing
import HftSystem.Trading.OrderGateway

set_option relaxedAutoImplicit false
set_option autoImplicit false

/-!
# The way of a request

The gateway sends a counter and a request in two calls; the server reads both at once as one
`OMClientRequest`. The bytes arrive in pieces that may end anywhere.

## Main definitions

* `Trading.requestStream` — the bytes of numbered requests.
* `Trading.readRound` — a piece arrives, and the sockets have all been read.
* `Trading.RequestsTaken` — what the server has made of the bytes it received, and what it has given
  to the matching engine.

## Main results

* `Trading.requestsTaken_of_run` — the gateway sends all of its requests, and the server passes them
  on.
-/

namespace Trading

open Common Exchange Wire Framing Fallible

/-- The bytes of requests with the numbers 1, 2, 3, ... as a `size_t` counts them. -/
def requestStream (requests : List MEClientRequest) : List UInt8 :=
  countedStream OMClientRequest.codec (2 ^ 64) OMClientRequest.mk requests

/-! ## The gateway sends -/

section Send

variable {requests : List MEClientRequest} {g : OrderGateway}

/-- These requests were given to the socket. -/
structure RequestsSent (requests : List MEClientRequest) (g : OrderGateway) : Prop where
  stream : g.tcpSocket.stream = requestStream requests
  next : g.nextOutgoingSeqNum = (requests.length + 1) % 2 ^ 64

/-- The bytes of a numbered request. -/
lemma length_encode_numbered (n : ℕ) (r : MEClientRequest) :
    ((unsigned 8).encode n ++ MEClientRequest.codec.encode r).length = OMClientRequest.codec.size :=
  OMClientRequest.codec.length_encode { seqNum := n, meClientRequest := r }

/-- **The gateway sends a request.** -/
lemma RequestsSent.sendRequest (h : RequestsSent requests g) (r : MEClientRequest) :
    Safe (fun e => e = .overrun ∧
        tcpBufferSize < g.tcpSocket.sendBuffer.length + OMClientRequest.codec.size)
      (fun g' => RequestsSent (requests ++ [r]) g' ∧
        g'.tcpSocket.sendBuffer.length = g.tcpSocket.sendBuffer.length + OMClientRequest.codec.size)
      (g.sendRequest r) := by
  have hsend := g.tcpSocket.safe_send_send ((unsigned 8).encode g.nextOutgoingSeqNum)
    (MEClientRequest.codec.encode r)
  rw [length_encode_numbered] at hsend
  unfold OrderGateway.sendRequest
  rw [← bind_assoc]
  refine hsend.bind fun s hs => ⟨⟨?_, ?_⟩, ?_⟩
  · show s.sent ++ s.sendBuffer = _
    rw [hs, requestStream, countedStream_concat, ← requestStream, ← h.stream, h.next,
      ← List.append_assoc]
    rfl
  · show (g.nextOutgoingSeqNum + 1) % 2 ^ 64 = _
    rw [h.next, Nat.mod_add_mod, List.length_append, List.length_singleton]
  · show s.sendBuffer.length = _
    rw [hs, List.length_append, length_encode_numbered]

/-- The gateway drains its queue. -/
lemma RequestsSent.runOnce (h : RequestsSent requests g) (batch : List MEClientRequest) :
    Safe (fun e => e = .overrun ∧ tcpBufferSize < OMClientRequest.codec.size * batch.length)
      (RequestsSent (requests ++ batch)) (g.runOnce batch) := by
  have hstart : RequestsSent requests { g with tcpSocket := g.tcpSocket.transmit } :=
    ⟨g.tcpSocket.stream_transmit.trans h.stream, h.next⟩
  unfold OrderGateway.runOnce
  refine (safe_foldlM_list (J := fun done g' => RequestsSent (requests ++ done) g' ∧
    g'.tcpSocket.sendBuffer.length = OMClientRequest.codec.size * done.length)
    ⟨by rwa [List.append_nil], rfl⟩ ?_).mono (fun _ => id) fun g' hg' => hg'.1
  intro pre r post g' hsplit hg'
  refine (hg'.1.sendRequest r).mono (fun e he => ⟨he.1, ?_⟩) fun g'' hg'' => ⟨?_, ?_⟩
  · have := he.2
    rw [hg'.2] at this
    have hle : OMClientRequest.codec.size * (pre.length + 1) ≤
        OMClientRequest.codec.size * batch.length :=
      Nat.mul_le_mul_left _ (by simp [hsplit])
    rw [Nat.mul_succ] at hle
    omega
  · rw [← List.append_assoc]
    exact hg''.1
  · rw [hg''.2, hg'.2, List.length_append, List.length_singleton, Nat.mul_succ]

/-- **The gateway runs.** It fails only when what it finds in the queue at once does not fit into
the send buffer. -/
theorem safe_run (clientId : ℕ) (batches : List (List MEClientRequest)) :
    Safe (fun e => e = .overrun ∧
        ∃ batch ∈ batches, tcpBufferSize < OMClientRequest.codec.size * batch.length)
      (RequestsSent batches.flatten) (OrderGateway.run { clientId } batches) := by
  refine safe_foldlM_list (J := fun done g => RequestsSent done.flatten g) ⟨rfl, rfl⟩
    fun pre batch post g hsplit hg => ?_
  rw [List.flatten_append, List.flatten_singleton]
  refine (hg.runOnce batch).mono (fun e he => ⟨he.1, batch, ?_, he.2⟩) fun _ => id
  rw [hsplit]
  exact List.mem_append_right _ (List.mem_cons_self ..)

end Send

/-! ## The server receives -/

/-- A round of `TCPServer::sendAndRecv` in which one socket has something to read. -/
def readRound (sort : List RecvTimeClientRequest → List RecvTimeClientRequest) (socket : Ptr)
    (server : OrderServer) (piece : ℤ × List UInt8) : Except Fault OrderServer := do
  let server ← server.read socket piece.1 piece.2
  return server.recvFinishedCallback sort

/-- The bytes of all pieces. -/
def bytesOf (pieces : List (ℤ × List UInt8)) : List UInt8 := (pieces.map Prod.snd).flatten

/-- The requests that were passed on to the sequencer. -/
def passed (server : OrderServer) : List MEClientRequest :=
  server.forwarded.map fun m => m.2.meClientRequest

/-- The server has not heard of the client, nothing came from the socket, and nothing is
pending. -/
structure Unheard (server : OrderServer) (clientId : ℕ) (socket : Ptr) : Prop where
  unbound : server.cidTcpSocket clientId = none
  expected : server.cidNextExpSeqNum clientId = 1
  buffer : (server.sockets socket).rcvBuffer = []
  pending : server.fifoSequencer.pendingClientRequests = []

/-- A piece completes more requests than the sequencer has room for. -/
def OverfullPiece (pieces : List (ℤ × List UInt8)) : Prop :=
  ∃ pre piece post, pieces = pre ++ piece :: post ∧
    (bytesOf pre).length / OMClientRequest.codec.size + meMaxPendingRequests <
      (bytesOf (pre ++ [piece])).length / OMClientRequest.codec.size

/-- **What the server has made of the bytes it received**: it has passed on the requests that are
complete, all of them when the stream is complete, and the socket's buffer holds the bytes behind
them, which are fewer than a request has. If the sort is a sort, the sequencer has given exactly
these requests to the matching engine. -/
structure RequestsTaken (sort : List RecvTimeClientRequest → List RecvTimeClientRequest)
    (requests : List MEClientRequest) (socket : Ptr) (before : OrderServer)
    (received : List UInt8) (server : OrderServer) : Prop where
  passed : passed server = passed before ++
    requests.take (received.length / OMClientRequest.codec.size)
  published : FIFOSequencer.IsStdSort sort →
    server.fifoSequencer.incomingRequests.Perm (before.fifoSequencer.incomingRequests ++
      requests.take (received.length / OMClientRequest.codec.size))
  tail : (server.sockets socket).rcvBuffer =
    received.drop (OMClientRequest.codec.size * (received.length / OMClientRequest.codec.size))
  short : (server.sockets socket).rcvBuffer.length < OMClientRequest.codec.size
  complete : received = requestStream requests →
    Trading.passed server = Trading.passed before ++ requests ∧
      (server.sockets socket).rcvBuffer = []

section Receive

variable {clientId : ℕ} {socket : Ptr} {before server : OrderServer}
  {requests : List MEClientRequest} {sort : List RecvTimeClientRequest → List RecvTimeClientRequest}

/-- The server has taken these requests of the client from the socket, and has given them to the
sequencer. -/
structure Counted (sort : List RecvTimeClientRequest → List RecvTimeClientRequest) (clientId : ℕ)
    (socket : Ptr) (before : OrderServer) (requests : List MEClientRequest) (server : OrderServer) :
    Prop where
  bound : server.cidTcpSocket clientId = none ∨ server.cidTcpSocket clientId = some socket
  expected : server.cidNextExpSeqNum clientId = (requests.length + 1) % 2 ^ 64
  passed : passed server = passed before ++ requests
  taken : FIFOSequencer.IsStdSort sort →
    server.fifoSequencer.taken.Perm (before.fifoSequencer.taken ++ requests)

/-- **The server takes the next request.** -/
lemma Counted.onClientRequest (h : Counted sort clientId socket before requests server)
    (hclient : clientId < meMaxNumClients) {r : MEClientRequest} (hr : r.clientId = clientId)
    (rxTime : ℤ) :
    Safe (fun e => e = .assert "Too many penging requests." ∧
        meMaxPendingRequests ≤ server.fifoSequencer.pendingClientRequests.length)
      (fun server' => Counted sort clientId socket before (requests ++ [r]) server' ∧
        server'.fifoSequencer.pendingClientRequests.length =
          server.fifoSequencer.pendingClientRequests.length + 1)
      (server.onClientRequest socket rxTime
        { seqNum := (requests.length + 1) % 2 ^ 64, meClientRequest := r }) := by
  subst hr
  refine (OrderServer.safe_onClientRequest hclient ⟨h.bound, h.expected.symm⟩).mono (fun _ => id)
    fun server' hserver' => ?_
  subst hserver'
  refine ⟨⟨.inr ?_, ?_, ?_, fun hsort => ?_⟩, List.length_append⟩
  · exact OrderServer.bindClient_eq_some_iff.mpr h.bound
  · show Function.update _ _ _ _ = _
    rw [Function.update_self, h.expected, Nat.mod_add_mod, List.length_append,
      List.length_singleton]
  · show (server.forwarded ++ [_]).map _ = _
    rw [List.map_append, ← List.append_assoc, ← h.passed]
    rfl
  · show (server.fifoSequencer.incomingRequests ++ (server.fifoSequencer.pendingClientRequests ++
      [({ recvTime := rxTime, request := r } : RecvTimeClientRequest)]).map _).Perm _
    rw [List.map_append, ← List.append_assoc, ← List.append_assoc]
    exact (h.taken hsort).append_right [r]

/-- **The server reads a piece of the stream.**

**Proof sketch.** The buffer holds the beginning of a message that was cut off, so the piece completes
the messages of the stream one after the other (`safe_feed_countedStream`). Each one is what the server
expects next (`Counted.onClientRequest`) and is one more that is pending, so a batch that is too large
contains more than `ME_MAX_PENDING_REQUESTS` messages. -/
lemma Counted.read (hclient : clientId < meMaxNumClients)
    (hrequests : ∀ r ∈ requests, r.clientId = clientId ∧ MEClientRequest.codec.Fits r)
    {received piece : List UInt8} (hpart : received ++ piece <+: requestStream requests)
    (h : Counted sort clientId socket before
      (requests.take (received.length / OMClientRequest.codec.size)) server)
    (hbuffer : (server.sockets socket).rcvBuffer = rest OMClientRequest.codec.size received)
    (hpending : server.fifoSequencer.pendingClientRequests = []) (rxTime : ℤ) :
    Safe (fun e => e = .assert "Too many penging requests." ∧
        received.length / OMClientRequest.codec.size + meMaxPendingRequests <
          (received ++ piece).length / OMClientRequest.codec.size)
      (fun server' => Counted sort clientId socket before
          (requests.take ((received ++ piece).length / OMClientRequest.codec.size)) server' ∧
        (server'.sockets socket).rcvBuffer = rest OMClientRequest.codec.size (received ++ piece))
      (server.read socket rxTime piece) := by
  have hsize : 0 < OMClientRequest.codec.size := by decide
  rw [OrderServer.read_eq, hbuffer]
  refine (safe_feed_countedStream (f := fun s r => s.onClientRequest socket rxTime r)
    (J := fun done s => Counted sort clientId socket before done s ∧
      s.fifoSequencer.pendingClientRequests.length +
        received.length / OMClientRequest.codec.size = done.length) hsize hpart ?_ ?_ ?_).bind
    fun x hx => ?_
  · intro k r hr
    exact OMClientRequest.fits_iff.mpr ⟨Nat.mod_lt _ (by decide), (hrequests r hr).2⟩
  · refine ⟨⟨h.bound, h.expected, h.passed, h.taken⟩, ?_⟩
    show server.fifoSequencer.pendingClientRequests.length + _ = _
    rw [hpending, List.length_nil, Nat.zero_add, List.length_take, Nat.min_eq_left]
    exact length_div_le_of_part hsize ((List.prefix_append _ _).trans hpart)
  · intro done r post s hsplit hframes hs
    have hmem : r ∈ requests := by simp [hsplit]
    refine (hs.1.onClientRequest hclient (hrequests r hmem).1 rxTime).mono
      (fun e he => ⟨he.1, ?_⟩) fun s' hs' => ⟨hs'.1, ?_⟩
    · have := he.2
      have := hs.2
      omega
    · rw [hs'.2, List.length_append, List.length_singleton]
      have := hs.2
      omega
  · obtain ⟨hrest, hcounted, -⟩ := hx
    refine ⟨⟨hcounted.bound, hcounted.expected, hcounted.passed, hcounted.taken⟩, ?_⟩
    show (Function.update x.2.sockets socket _ socket).rcvBuffer = _
    rw [Function.update_self]
    exact hrest

end Receive

/-- **The way of a request.** Whatever the gateway finds in its queue, it puts the bytes of all of
these requests, numbered, on the stream. However they are cut into pieces, the server passes on to
the sequencer exactly the requests that the gateway took from the queue, each once and in order, as
far as they are complete. The gateway fails only when one drain of its queue exceeds its send
buffer, and the server only when a piece exceeds the sequencer.

**Proof sketch.** The gateway's counter is one more than the number of requests sent, so that the
stream grows by the next frame of `requestStream`. A piece completes some frames; each of them is
the next request of the client with the number that the server expects, and is taken. What is left
of the piece waits in the buffer. -/
theorem requestsTaken_of_run {clientId : ℕ} (hclient : clientId < meMaxNumClients)
    {batches : List (List MEClientRequest)}
    (hrequests : ∀ r ∈ batches.flatten, r.clientId = clientId ∧ MEClientRequest.codec.Fits r)
    {before : OrderServer} {socket : Ptr} (hbefore : Unheard before clientId socket)
    (sort : List RecvTimeClientRequest → List RecvTimeClientRequest) :
    Safe (fun e => e = .overrun ∧
        ∃ batch ∈ batches, tcpBufferSize < OMClientRequest.codec.size * batch.length)
      (fun g => g.tcpSocket.stream = requestStream batches.flatten ∧
        ∀ pieces, bytesOf pieces <+: g.tcpSocket.stream →
          Safe (fun e => e = .assert "Too many penging requests." ∧ OverfullPiece pieces)
            (RequestsTaken sort batches.flatten socket before (bytesOf pieces))
            (pieces.foldlM (readRound sort socket) before))
      (OrderGateway.run { clientId } batches) := by
  refine (safe_run clientId batches).mono (fun _ => id) fun g hg => ⟨hg.stream, fun pieces hpieces => ?_⟩
  rw [hg.stream] at hpieces
  have hsize : 0 < OMClientRequest.codec.size := by decide
  refine (safe_foldlM_list (J := fun done server => Counted sort clientId socket before
      (batches.flatten.take ((bytesOf done).length / OMClientRequest.codec.size)) server ∧
    (server.sockets socket).rcvBuffer = rest OMClientRequest.codec.size (bytesOf done) ∧
    server.fifoSequencer.pendingClientRequests = [])
    ⟨⟨.inl hbefore.unbound, hbefore.expected, (List.append_nil _).symm,
      fun _ => List.Perm.of_eq (List.append_nil _).symm⟩, hbefore.buffer, hbefore.pending⟩ ?_).mono
    (fun _ => id) fun server hserver => ?_
  · intro pre piece post server hsplit hserver
    have hbytes : bytesOf (pre ++ [piece]) = bytesOf pre ++ piece.2 := by
      simp [bytesOf]
    have hpart : bytesOf pre ++ piece.2 <+: requestStream batches.flatten := by
      refine List.IsPrefix.trans ?_ hpieces
      rw [hsplit, ← hbytes]
      exact ⟨bytesOf post, by simp [bytesOf]⟩
    have hread := hserver.1.read hclient hrequests hpart hserver.2.1 hserver.2.2 piece.1
    rw [hbytes]
    refine (hread.mono (fun e he => ⟨he.1, pre, piece, post, hsplit, ?_⟩) fun _ => id).bind
      fun s hs => ⟨⟨hs.1.bound, hs.1.expected, hs.1.passed, fun hsort => ?_⟩, hs.2,
        OrderServer.pending_recvFinishedCallback s sort⟩
    · exact (FIFOSequencer.perm_taken_sequenceAndPublish hsort _).trans (hs.1.taken hsort)
    · rw [hbytes]
      exact he.2
  · obtain ⟨hcounted, hbuffer, hpending⟩ := hserver
    refine ⟨hcounted.passed, fun hsort => ?_, hbuffer, ?_, fun hall => ⟨?_, ?_⟩⟩
    · have htaken := hcounted.taken hsort
      unfold FIFOSequencer.taken at htaken
      rwa [hpending, hbefore.pending, List.map_nil, List.append_nil, List.append_nil] at htaken
    · rw [hbuffer]
      exact length_rest_lt hsize _
    · rw [hcounted.passed, hall, requestStream, length_countedStream_div hsize, List.take_length]
    · rw [hbuffer, hall]
      exact rest_countedStream hsize _

/-- A NEW and a CANCEL that the gateway finds in two iterations. -/
theorem requestsTaken_of_new_and_cancel :
    let sort : List RecvTimeClientRequest → List RecvTimeClientRequest := id
    let request type : MEClientRequest :=
      { type, clientId := 3, tickerId := 0, orderId := 7, side := .sell, price := -5, qty := 10 }
    let batches := [[request .new], [request .cancel]]
    Safe (fun e => e = .overrun ∧
        ∃ batch ∈ batches, tcpBufferSize < OMClientRequest.codec.size * batch.length)
      (fun g => g.tcpSocket.stream = requestStream batches.flatten ∧
        ∀ pieces, bytesOf pieces <+: g.tcpSocket.stream →
          Safe (fun e => e = .assert "Too many penging requests." ∧ OverfullPiece pieces)
            (RequestsTaken sort batches.flatten 10 {} (bytesOf pieces))
            (pieces.foldlM (readRound sort 10) {}))
      (OrderGateway.run { clientId := 3 } batches) := by
  intro sort request batches
  refine requestsTaken_of_run (by decide) (fun r hr => ?_) ⟨rfl, rfl, rfl, rfl⟩ sort
  have hr' : r = request .new ∨ r = request .cancel := by simpa [batches] using hr
  rcases hr' with rfl | rfl
  · exact ⟨rfl, MEClientRequest.fits_iff.mpr (by decide)⟩
  · exact ⟨rfl, MEClientRequest.fits_iff.mpr (by decide)⟩

end Trading

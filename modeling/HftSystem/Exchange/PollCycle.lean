import HftSystem.Exchange.OrderServer

set_option relaxedAutoImplicit false
set_option autoImplicit false

/-!
# A cycle of the TCP server

`utils/tcp_server.cpp`, `TCPServer::sendAndRecv`, with the callbacks of the order server. All sockets are
read before the sequencer publishes anything, so everything that one cycle delivers is pending at once.

## Main definitions

* `Exchange.Delivery` — what a socket has to read in a cycle.
* `Exchange.OrderServer.sendAndRecv` — a cycle.
* `Exchange.CorrectlySequenced` — requests that the server takes one after the other.

## Main results

* `Exchange.OrderServer.safe_sendAndRecv` — a cycle returns, unless it delivers too many requests.
* `Exchange.OrderServer.cycles_return_iff` — the exact condition, over runs of cycles.
-/

namespace Exchange

open Common Wire Framing Fallible

/-- What the kernel has for a socket in a cycle, and the time of its arrival. -/
structure Delivery where
  socket : Ptr
  rxTime : ℤ
  bytes : List UInt8
  deriving DecidableEq

namespace OrderServer

/-- `TCPSocket::sendAndRecv` for a socket of the server: whether it has received something. -/
def socketSendAndRecv (server : OrderServer) (d : Delivery) : Except Fault (OrderServer × Bool) := do
  let bytes := d.bytes.take (tcpBufferSize - (server.sockets d.socket).rcvBuffer.length)
  let server ← if bytes.length > 0 then server.read d.socket d.rxTime bytes else .ok server
  return (server.setSocket d.socket (server.sockets d.socket).transmit, bytes.length > 0)

/-- The body of the loop over `receive_sockets_`. -/
def visit (x : OrderServer × Bool) (d : Delivery) : Except Fault (OrderServer × Bool) := do
  let (server, received) ← x.1.socketSendAndRecv d
  return (server, if received then true else x.2)

/-- `TCPServer::sendAndRecv`, for the deliveries to `receive_sockets_`. The loop over `send_sockets_` is
left out: `epoll_add` does not ask for `EPOLLOUT`, so that vector stays empty. -/
def sendAndRecv (sort : List RecvTimeClientRequest → List RecvTimeClientRequest) (server : OrderServer)
    (deliveries : List Delivery) : Except Fault OrderServer := do
  let (server, recv) ← deliveries.foldlM visit (server, false)
  return if recv then server.recvFinishedCallback sort else server

/-- The number of requests that wait to be published. -/
def pending (server : OrderServer) : ℕ := server.fifoSequencer.pendingClientRequests.length

/-- The requests that a delivery completes. -/
def requestsIn (server : OrderServer) (d : Delivery) : List OMClientRequest :=
  if d.bytes = [] then []
  else (frames OMClientRequest.codec.size ((server.sockets d.socket).rcvBuffer ++ d.bytes)).map
    OMClientRequest.codec.decode

/-- The requests of a cycle, each with its socket. -/
def requestsOf (server : OrderServer) (deliveries : List Delivery) : List (Ptr × OMClientRequest) :=
  deliveries.flatMap fun d => (server.requestsIn d).map (Prod.mk d.socket)

end OrderServer

/-- **Correctly sequenced requests**: each one has the id of a client, comes from the socket of that client
or is the first one from it, and carries the number that is next for that client. -/
def CorrectlySequenced (cidTcpSocket : ℕ → Option Ptr) (cidNextExpSeqNum : ℕ → ℕ) :
    List (Ptr × OMClientRequest) → Prop
  | [] => True
  | (socket, request) :: requests =>
    let clientId := request.meClientRequest.clientId
    clientId < meMaxNumClients ∧
      (cidTcpSocket clientId = none ∨ cidTcpSocket clientId = some socket) ∧
      request.seqNum = cidNextExpSeqNum clientId ∧
      CorrectlySequenced (Function.update cidTcpSocket clientId (some socket))
        (Function.update cidNextExpSeqNum clientId ((cidNextExpSeqNum clientId + 1) % 2 ^ 64)) requests

namespace OrderServer

/-- A server to which correctly sequenced requests come. -/
def Expects (server : OrderServer) (requests : List (Ptr × OMClientRequest)) : Prop :=
  CorrectlySequenced server.cidTcpSocket server.cidNextExpSeqNum requests

/-- **A cycle of well-formed traffic**: the sockets are distinct, no delivery exceeds a receive buffer, and
the requests are correctly sequenced. -/
structure WellFormedCycle (server : OrderServer) (deliveries : List Delivery) : Prop where
  distinct : (deliveries.map Delivery.socket).Nodup
  fits : ∀ d ∈ deliveries, (server.sockets d.socket).rcvBuffer.length + d.bytes.length ≤ tcpBufferSize
  sequenced : server.Expects (server.requestsOf deliveries)

/-- The `FATAL` of `addClientRequest`. -/
def tooManyRequests : Fault := .assert "Too many penging requests."

section Steps

variable {server : OrderServer} {requests : List (Ptr × OMClientRequest)}

/-- **The next request** is taken if there is room for it. -/
lemma Expects.onClientRequest {socket : Ptr} {request : OMClientRequest}
    (h : server.Expects ((socket, request) :: requests)) (rxTime : ℤ) :
    Safe (fun e => e = tooManyRequests ∧ meMaxPendingRequests ≤ server.pending)
      (fun server' => server'.pending = server.pending + 1 ∧ server'.pending ≤ meMaxPendingRequests ∧
        server'.Expects requests ∧ server'.sockets = server.sockets)
      (server.onClientRequest socket rxTime request) := by
  obtain ⟨hclient, hsocket, hseq, hrest⟩ := h
  rw [onClientRequest_of_accepts hclient ⟨hsocket, hseq⟩]
  split_ifs with hfull
  · exact ⟨rfl, hfull⟩
  · have hroom := not_le.mp hfull
    have hpending : (server.accept socket rxTime request).pending = server.pending + 1 :=
      List.length_append
    refine ⟨hpending, by rw [hpending]; exact hroom, ?_, rfl⟩
    -- the client has no other socket than this one
    have hbound : (server.cidTcpSocket request.meClientRequest.clientId).getD socket = socket := by
      rcases hsocket with hnone | hsome
      · rw [hnone]
        rfl
      · rw [hsome]
        rfl
    unfold Expects
    rw [show (server.accept socket rxTime request).cidTcpSocket = _ from cidTcpSocket_bindClient, hbound]
    exact hrest

/-- **The requests of a socket** are taken if there is room for all of them. -/
lemma Expects.foldlM_onClientRequest {socket : Ptr} (rxTime : ℤ) (msgs : List OMClientRequest)
    (hroom : server.pending ≤ meMaxPendingRequests)
    (h : server.Expects (msgs.map (Prod.mk socket) ++ requests)) :
    Safe (fun e => e = tooManyRequests ∧ meMaxPendingRequests < server.pending + msgs.length)
      (fun server' => server'.pending = server.pending + msgs.length ∧
        server'.pending ≤ meMaxPendingRequests ∧ server'.Expects requests ∧
        server'.sockets = server.sockets)
      (msgs.foldlM (fun server m => server.onClientRequest socket rxTime m) server) := by
  induction msgs generalizing server with
  | nil => exact ⟨rfl, hroom, h, rfl⟩
  | cons m msgs ih =>
    rw [List.foldlM_cons, List.length_cons]
    refine ((h.onClientRequest rxTime).mono (fun e he => ⟨he.1, by have := he.2; omega⟩)
      fun _ => id).bind fun s hs => ?_
    obtain ⟨hpending, hroom, hrest, hsockets⟩ := hs
    refine (ih hroom hrest).mono (fun e he => ⟨he.1, by have := he.2; omega⟩) fun s' hs' => ?_
    exact ⟨by rw [hs'.1]; omega, hs'.2.1, hs'.2.2.1, hs'.2.2.2.trans hsockets⟩

/-- **A read** passes the requests that it completes on to the sequencer, if there is room for them. -/
lemma Expects.read (d : Delivery) (hnonempty : d.bytes ≠ []) (hroom : server.pending ≤ meMaxPendingRequests)
    (h : server.Expects ((server.requestsIn d).map (Prod.mk d.socket) ++ requests)) :
    Safe (fun e => e = tooManyRequests ∧
        meMaxPendingRequests < server.pending + (server.requestsIn d).length)
      (fun server' => server'.pending = server.pending + (server.requestsIn d).length ∧
        server'.pending ≤ meMaxPendingRequests ∧ server'.Expects requests ∧
        ∀ socket, socket ≠ d.socket → server'.sockets socket = server.sockets socket)
      (server.read d.socket d.rxTime d.bytes) := by
  -- the bytes are in the buffer when the callback is called
  have hloop := @Expects.foldlM_onClientRequest
    (server.setSocket d.socket ((server.sockets d.socket).receive d.bytes)) requests d.socket d.rxTime
    (server.requestsIn d) hroom h
  unfold requestsIn at hloop ⊢
  rw [if_neg hnonempty, List.foldlM_map] at hloop
  rw [if_neg hnonempty, read_eq, feed, bind_assoc]
  refine hloop.bind ?_
  rintro s ⟨hpending, hroom', hrest, hsockets⟩
  refine ⟨hpending, hroom', hrest, fun socket hne => ?_⟩
  show Function.update s.sockets d.socket _ socket = _
  rw [Function.update_of_ne hne, hsockets]
  exact Function.update_of_ne hne ..

/-- **One socket of a cycle.** -/
lemma Expects.socketSendAndRecv (d : Delivery)
    (hfits : (server.sockets d.socket).rcvBuffer.length + d.bytes.length ≤ tcpBufferSize)
    (hroom : server.pending ≤ meMaxPendingRequests)
    (h : server.Expects ((server.requestsIn d).map (Prod.mk d.socket) ++ requests)) :
    Safe (fun e => e = tooManyRequests ∧
        meMaxPendingRequests < server.pending + (server.requestsIn d).length)
      (fun x => x.1.pending = server.pending + (server.requestsIn d).length ∧
        x.1.pending ≤ meMaxPendingRequests ∧ x.1.Expects requests ∧
        (∀ socket, socket ≠ d.socket → x.1.sockets socket = server.sockets socket) ∧
        (x.2 = true ↔ d.bytes ≠ []))
      (server.socketSendAndRecv d) := by
  have hbytes : d.bytes.take (tcpBufferSize - (server.sockets d.socket).rcvBuffer.length) = d.bytes :=
    List.take_of_length_le (by omega)
  unfold OrderServer.socketSendAndRecv
  simp only [hbytes]
  by_cases hempty : d.bytes = []
  · have hnone : server.requestsIn d = [] := if_pos hempty
    rw [hnone] at h ⊢
    rw [hempty]
    refine ⟨rfl, hroom, h, fun socket hne => Function.update_of_ne hne .., by simp⟩
  · rw [if_pos (List.length_pos_iff.mpr hempty)]
    refine (h.read d hempty hroom).bind ?_
    rintro s ⟨hpending, hroom', hrest, hsockets⟩
    refine ⟨hpending, hroom', hrest, fun socket hne => ?_, ?_⟩
    · rw [← hsockets socket hne]
      exact Function.update_of_ne hne ..
    · simpa using List.length_pos_iff

end Steps

/-! ## Cycles -/

section Cycles

variable {server server' : OrderServer} {deliveries : List Delivery}

/-- What other sockets have to read does not change. -/
lemma requestsIn_congr {d : Delivery} (h : server'.sockets d.socket = server.sockets d.socket) :
    server'.requestsIn d = server.requestsIn d := by
  unfold requestsIn
  rw [h]

/-- Where no socket has anything to read there are no requests. -/
lemma requestsOf_of_quiet (h : ∀ d ∈ deliveries, d.bytes = []) :
    server.requestsOf deliveries = [] := by
  refine List.flatMap_eq_nil_iff.mpr fun d hd => ?_
  rw [requestsIn, if_pos (h d hd), List.map_nil]

/-- **The loop over the sockets** passes all requests on, if there is room for them.

**Proof sketch.** By induction on the deliveries of the cycle. The first socket passes on what its
bytes decode to and leaves the other sockets alone, as no socket is visited twice. So the rest of the
cycle is well formed for the server behind it, and the requests that are pending add up. -/
lemma WellFormedCycle.foldlM_visit (recv : Bool) (hroom : server.pending ≤ meMaxPendingRequests)
    (h : server.WellFormedCycle deliveries) :
    Safe (fun e => e = tooManyRequests ∧
        meMaxPendingRequests < server.pending + (server.requestsOf deliveries).length)
      (fun x => x.1.pending = server.pending + (server.requestsOf deliveries).length ∧
        x.1.pending ≤ meMaxPendingRequests ∧
        (x.2 = true ↔ recv = true ∨ ∃ d ∈ deliveries, d.bytes ≠ []))
      (deliveries.foldlM visit (server, recv)) := by
  induction deliveries generalizing server recv with
  | nil => exact ⟨rfl, hroom, by simp⟩
  | cons d deliveries ih =>
    obtain ⟨hfresh, hdistinct⟩ := List.nodup_cons.mp h.distinct
    have hother : ∀ d' ∈ deliveries, d'.socket ≠ d.socket := fun d' hd' he =>
      hfresh (he ▸ List.mem_map_of_mem hd')
    have hlength : (server.requestsOf (d :: deliveries)).length =
        (server.requestsIn d).length + (server.requestsOf deliveries).length := by
      simp [requestsOf]
    have hsequenced : server.Expects
        ((server.requestsIn d).map (Prod.mk d.socket) ++ server.requestsOf deliveries) := h.sequenced
    have hfirst := hsequenced.socketSendAndRecv d (h.fits d (List.mem_cons_self ..)) hroom
    rw [List.foldlM_cons, hlength, visit, bind_assoc]
    refine (hfirst.mono (fun e he => ⟨he.1, by have := he.2; omega⟩) fun _ => id).bind ?_
    rintro ⟨s, received⟩ ⟨hpending, hroom', hrest, hsockets, hreceived⟩
    simp only at hpending hroom' hrest hsockets hreceived
    -- the other sockets have the same to read as before
    have hsame : s.requestsOf deliveries = server.requestsOf deliveries := by
      unfold requestsOf
      rw [List.flatMap_def, List.flatMap_def]
      refine congrArg _ (List.map_congr_left fun d' hd' => ?_)
      rw [requestsIn_congr (hsockets _ (hother d' hd'))]
    have hcycle : s.WellFormedCycle deliveries := by
      refine ⟨hdistinct, fun d' hd' => ?_, by rwa [hsame]⟩
      rw [hsockets _ (hother d' hd')]
      exact h.fits d' (List.mem_cons_of_mem _ hd')
    have hloop := ih (if received then true else recv) hroom' hcycle
    rw [hsame, hpending] at hloop
    refine hloop.mono (fun e he => ⟨he.1, by have := he.2; omega⟩) fun x hx => ⟨by omega, hx.2.1, ?_⟩
    rw [hx.2.2]
    cases received with
    | true => simp [hreceived.mp rfl]
    | false =>
      have hempty : d.bytes = [] := by simpa using hreceived
      simp [hempty]

/-- **A cycle returns and leaves nothing pending**, unless it delivers too many requests. -/
theorem safe_sendAndRecv (sort : List RecvTimeClientRequest → List RecvTimeClientRequest)
    (hnone : server.pending = 0) (h : server.WellFormedCycle deliveries) :
    Safe (fun e => e = tooManyRequests ∧
        ¬ (server.requestsOf deliveries).length ≤ meMaxPendingRequests)
      (fun server' => server'.pending = 0 ∧
        (server.requestsOf deliveries).length ≤ meMaxPendingRequests)
      (server.sendAndRecv sort deliveries) := by
  have hloop := h.foldlM_visit false (by rw [hnone]; exact Nat.zero_le _)
  rw [hnone, Nat.zero_add] at hloop
  unfold sendAndRecv
  refine (hloop.mono (fun e he => ⟨he.1, not_le.mpr he.2⟩) fun _ => id).bind ?_
  rintro ⟨s, recv⟩ ⟨hpending, hroom, hrecv⟩
  simp only at hpending hroom hrecv
  rw [← hpending]
  cases recv with
  | true => exact ⟨congrArg List.length (s.pending_recvFinishedCallback sort), hroom⟩
  | false =>
    have hquiet : ∀ d ∈ deliveries, d.bytes = [] := by simpa using hrecv
    refine ⟨?_, hroom⟩
    show s.pending = 0
    rw [hpending, requestsOf_of_quiet hquiet]
    rfl

/-- **The cycles in which the sequencer does not overflow.** Runs of cycles of well-formed traffic return
exactly if no cycle delivers more requests than can be pending; otherwise the exchange process ends. -/
theorem cycles_return_iff (sort : List RecvTimeClientRequest → List RecvTimeClientRequest)
    {cycles : List (List Delivery)} (hcycles : Meets (sendAndRecv sort) WellFormedCycle {} cycles) :
    ((∃ server, cycles.foldlM (sendAndRecv sort) {} = .ok server) ↔
        Meets (sendAndRecv sort)
          (fun server deliveries => (server.requestsOf deliveries).length ≤ meMaxPendingRequests)
          {} cycles) ∧
      (cycles.foldlM (sendAndRecv sort) {} = .error tooManyRequests ↔
        ¬ Meets (sendAndRecv sort)
          (fun server deliveries => (server.requestsOf deliveries).length ≤ meMaxPendingRequests)
          {} cycles) := by
  have hrun := safe_foldlM_iff_meets (fun (s : OrderServer) a (hs : s.pending = 0) ha =>
    safe_sendAndRecv sort hs ha) rfl hcycles
  exact hrun.exact fun _ hs => hs.2

/-! ## The stream of a client -/

/-- The requests of a delivery that is a stream of messages. -/
lemma requestsIn_stream {socket : Ptr} (hbuffer : (server.sockets socket).rcvBuffer = []) (rxTime : ℤ)
    {messages : List OMClientRequest} (hfits : ∀ m ∈ messages, OMClientRequest.codec.Fits m) :
    server.requestsIn ⟨socket, rxTime, messages.flatMap OMClientRequest.codec.encode⟩ = messages := by
  have hsize : 0 < OMClientRequest.codec.size := by decide
  unfold requestsIn
  split_ifs with hempty
  · have hlength := congrArg List.length hempty
    rw [OMClientRequest.codec.length_flatMap_encode, List.length_nil, Nat.mul_eq_zero] at hlength
    exact (List.length_eq_zero_iff.mp (hlength.resolve_left hsize.ne')).symm
  · rw [hbuffer, List.nil_append, frames_eq_map _ (List.prefix_refl _),
      OMClientRequest.codec.length_flatMap_encode, Nat.mul_div_cancel_left _ hsize, List.take_length,
      List.map_map]
    refine (List.map_congr_left fun m hm => ?_).trans (List.map_id messages)
    exact OMClientRequest.codec.decode_encode m (hfits m hm)

/-- Requests with the numbers that follow `n`. -/
def numbered (n : ℕ) (requests : List MEClientRequest) : List OMClientRequest :=
  requests.mapIdx fun i r => { seqNum := (n + i) % 2 ^ 64, meClientRequest := r }

/-- **Numbered requests of a client are correctly sequenced.** -/
lemma correctlySequenced_numbered {clientId : ℕ} (hclient : clientId < meMaxNumClients) {socket : Ptr}
    {requests : List MEClientRequest} (hrequests : ∀ r ∈ requests, r.clientId = clientId) {n : ℕ}
    {cidTcpSocket : ℕ → Option Ptr} {cidNextExpSeqNum : ℕ → ℕ}
    (hsocket : cidTcpSocket clientId = none ∨ cidTcpSocket clientId = some socket)
    (hnext : cidNextExpSeqNum clientId = n % 2 ^ 64) :
    CorrectlySequenced cidTcpSocket cidNextExpSeqNum ((numbered n requests).map (Prod.mk socket)) := by
  induction requests generalizing n cidTcpSocket cidNextExpSeqNum with
  | nil => trivial
  | cons r requests ih =>
    obtain rfl := hrequests r (List.mem_cons_self ..)
    have htail : numbered n (r :: requests) =
        { seqNum := n % 2 ^ 64, meClientRequest := r } :: numbered (n + 1) requests := by
      simp [numbered, List.mapIdx_cons, Nat.add_assoc, Nat.add_comm 1]
    rw [htail]
    refine ⟨hclient, hsocket, hnext.symm, ?_⟩
    refine ih (fun r' hr' => hrequests r' (List.mem_cons_of_mem _ hr')) (.inr ?_) ?_
    · exact Function.update_self ..
    · rw [Function.update_self, hnext, Nat.mod_add_mod]

end Cycles

/-- A request of client 3. -/
def sampleRequest : MEClientRequest :=
  { type := .new, clientId := 3, tickerId := 0, orderId := 7, side := .sell, price := -5, qty := 10 }

/-- What one socket delivers when client 3 has sent its request `n` times. -/
def burst (n : ℕ) : List Delivery :=
  [⟨10, 0, (numbered 1 (List.replicate n sampleRequest)).flatMap OMClientRequest.codec.encode⟩]

/-- The requests of a burst are well formed and correctly sequenced. -/
lemma requestsOf_burst (n : ℕ) : ({} : OrderServer).requestsOf (burst n) =
    (numbered 1 (List.replicate n sampleRequest)).map (Prod.mk 10) := by
  have hsample : MEClientRequest.codec.Fits sampleRequest := MEClientRequest.fits_iff.mpr (by decide)
  have hfits : ∀ m ∈ numbered 1 (List.replicate n sampleRequest), OMClientRequest.codec.Fits m := by
    intro m hm
    obtain ⟨i, hi, rfl⟩ := List.mem_mapIdx.mp hm
    rw [List.getElem_replicate]
    exact OMClientRequest.fits_iff.mpr ⟨Nat.mod_lt _ (by decide), hsample⟩
  rw [requestsOf, burst, List.flatMap_singleton, requestsIn_stream rfl 0 hfits]

/-- A burst that fits into the receive buffer is well-formed traffic. -/
lemma wellFormedCycle_burst {n : ℕ} (hsize : OMClientRequest.codec.size * n ≤ tcpBufferSize) :
    ({} : OrderServer).WellFormedCycle (burst n) := by
  refine ⟨List.nodup_cons.mpr ⟨List.not_mem_nil, List.nodup_nil⟩, fun d hd => ?_, ?_⟩
  · obtain rfl := List.mem_singleton.mp hd
    show 0 + List.length (List.flatMap _ _) ≤ _
    rw [OMClientRequest.codec.length_flatMap_encode, numbered, List.length_mapIdx, List.length_replicate,
      Nat.zero_add]
    exact hsize
  · rw [requestsOf_burst]
    refine correctlySequenced_numbered (by decide : 3 < meMaxNumClients) (fun r hr => ?_) (.inl rfl) rfl
    rw [List.eq_of_mem_replicate hr]
    rfl

/-- The number of requests in a burst. -/
lemma length_requestsOf_burst (n : ℕ) : (({} : OrderServer).requestsOf (burst n)).length = n := by
  rw [requestsOf_burst, List.length_map, numbered, List.length_mapIdx, List.length_replicate]

/-- A burst of 1024 requests fits. -/
theorem cycles_return_burst : ∃ server, [burst 1024].foldlM (sendAndRecv id) {} = .ok server := by
  have hcycles : Meets (sendAndRecv id) WellFormedCycle {} [burst 1024] :=
    ⟨wellFormedCycle_burst (by decide +kernel), fun _ _ => trivial⟩
  refine (cycles_return_iff id hcycles).1.mpr ⟨?_, fun _ _ => trivial⟩
  exact (length_requestsOf_burst 1024).le

/-- A burst with more requests than there is room for ends the process. -/
lemma sendAndRecv_burst {n : ℕ} (hsize : OMClientRequest.codec.size * n ≤ tcpBufferSize)
    (hroom : meMaxPendingRequests < n) :
    ({} : OrderServer).sendAndRecv id (burst n) = .error tooManyRequests := by
  have hrun := safe_sendAndRecv id rfl (wellFormedCycle_burst hsize)
  rw [length_requestsOf_burst] at hrun
  cases hresult : ({} : OrderServer).sendAndRecv id (burst n) with
  | error e =>
    rw [hresult] at hrun
    rw [hrun.1]
  | ok server =>
    rw [hresult] at hrun
    exact absurd hrun.2 (not_le.mpr hroom)

/-- **A burst of 1025 requests ends the process**, although it takes a small part of the receive buffer. -/
theorem burst_too_many : ({} : OrderServer).WellFormedCycle (burst 1025) ∧
    ({} : OrderServer).sendAndRecv id (burst 1025) = .error tooManyRequests :=
  have hsize : OMClientRequest.codec.size * 1025 ≤ tcpBufferSize := by decide +kernel
  ⟨wellFormedCycle_burst hsize, sendAndRecv_burst hsize (by decide +kernel)⟩

end OrderServer

end Exchange

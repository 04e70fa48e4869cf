import HftSystem.Common.TCPSocket
import HftSystem.Exchange.MessageLayout
import Mathlib.Logic.Function.Basic

set_option relaxedAutoImplicit false
set_option autoImplicit false

/-!
# The order server

`exchange/order_server/order_server.{h,cpp}` and `fifo_sequencer.h`. The sockets that the TCP
server has accepted are named by their addresses. `std::sort` is a parameter of
`sequenceAndPublish`. The server keeps a record, `forwarded`, of the messages whose requests it
gave to the sequencer, and of the sockets that they came from; nothing reads it.

## Main definitions

* `Exchange.FIFOSequencer` — with `addClientRequest` and `sequenceAndPublish`.
* `Exchange.OrderServer` — the server, with `Exchange.OrderServer.onClientRequest`, the loop body
  of `recvCallback`, `Exchange.OrderServer.recvCallback` and
  `Exchange.OrderServer.recvFinishedCallback`.
* `Exchange.OrderServer.sendResponse`, `Exchange.OrderServer.runOnce` — the other direction.
-/

namespace Exchange

open Common Wire Fallible

/-! ## The sequencer -/

/-- `ME_MAX_PENDING_REQUESTS`. -/
def meMaxPendingRequests : ℕ := 1024

/-- `RecvTimeClientRequest`. -/
structure RecvTimeClientRequest where
  recvTime : ℤ := 0
  request : MEClientRequest := {}
  deriving DecidableEq, Repr

/-- `FIFOSequencer`: the requests written to the queue of the matching engine, and the first
`pending_size_` entries of the array. -/
structure FIFOSequencer where
  incomingRequests : List MEClientRequest := []
  pendingClientRequests : List RecvTimeClientRequest := []
  deriving DecidableEq, Repr

namespace FIFOSequencer

/-- `addClientRequest`. -/
def addClientRequest (s : FIFOSequencer) (rxTime : ℤ) (request : MEClientRequest) :
    Except Fault FIFOSequencer :=
  if s.pendingClientRequests.length ≥ meMaxPendingRequests then
    .error (.assert "Too many penging requests.")
  else .ok
    { s with pendingClientRequests := s.pendingClientRequests ++ [{ recvTime := rxTime, request }] }

/-- `sequenceAndPublish`. -/
def sequenceAndPublish (sort : List RecvTimeClientRequest → List RecvTimeClientRequest)
    (s : FIFOSequencer) : FIFOSequencer :=
  if s.pendingClientRequests = [] then s
  else
    { incomingRequests := s.incomingRequests ++
        (sort s.pendingClientRequests).map RecvTimeClientRequest.request
      pendingClientRequests := [] }

end FIFOSequencer

/-! ## The server -/

/-- `OrderServer`. -/
structure OrderServer where
  cidNextOutgoingSeqNum : ℕ → ℕ := fun _ => 1
  cidNextExpSeqNum : ℕ → ℕ := fun _ => 1
  cidTcpSocket : ℕ → Option Ptr := fun _ => none
  sockets : Ptr → TCPSocket := fun _ => {}
  fifoSequencer : FIFOSequencer := {}
  forwarded : List (Ptr × OMClientRequest) := []

namespace OrderServer

/-- `*socket = s`. -/
def setSocket (server : OrderServer) (socket : Ptr) (s : TCPSocket) : OrderServer :=
  { server with sockets := Function.update server.sockets socket s }

/-- The first message from a client binds it to the socket. -/
def bindClient (server : OrderServer) (clientId : ℕ) (socket : Ptr) : OrderServer :=
  if server.cidTcpSocket clientId = none then
    { server with cidTcpSocket := Function.update server.cidTcpSocket clientId (some socket) }
  else server

/-- The body of the loop of `recvCallback`: what the server does with a message. A client id is
an index of two arrays, and nobody looks at its size. -/
def onClientRequest (server : OrderServer) (socket : Ptr) (rxTime : ℤ) (request : OMClientRequest) :
    Except Fault OrderServer :=
  let clientId := request.meClientRequest.clientId
  if clientId < meMaxNumClients then
    let server := server.bindClient clientId socket
    if server.cidTcpSocket clientId ≠ some socket then .ok server
    else if request.seqNum ≠ server.cidNextExpSeqNum clientId then .ok server
    else do
      let server := { server with
        cidNextExpSeqNum := Function.update server.cidNextExpSeqNum clientId
          ((server.cidNextExpSeqNum clientId + 1) % 2 ^ 64) }
      let fifoSequencer ← server.fifoSequencer.addClientRequest rxTime request.meClientRequest
      return { server with fifoSequencer, forwarded := server.forwarded ++ [(socket, request)] }
  else .error .overrun

/-- `recvCallback`. -/
def recvCallback (server : OrderServer) (socket : Ptr) (rxTime : ℤ) : Except Fault OrderServer := do
  let (rcvBuffer, server) ← recvFrames OMClientRequest.codec.size
    (fun server frame => server.onClientRequest socket rxTime (OMClientRequest.codec.decode frame))
    (server.sockets socket).rcvBuffer server
  return server.setSocket socket { server.sockets socket with rcvBuffer }

/-- `recvFinishedCallback`. -/
def recvFinishedCallback (sort : List RecvTimeClientRequest → List RecvTimeClientRequest)
    (server : OrderServer) : OrderServer :=
  { server with fifoSequencer := server.fifoSequencer.sequenceAndPublish sort }

/-- At the end of a round of reads nothing is pending. -/
lemma pending_recvFinishedCallback (server : OrderServer)
    (sort : List RecvTimeClientRequest → List RecvTimeClientRequest) :
    (server.recvFinishedCallback sort).fifoSequencer.pendingClientRequests = [] := by
  show (server.fifoSequencer.sequenceAndPublish sort).pendingClientRequests = []
  unfold FIFOSequencer.sequenceAndPublish
  split_ifs with hnone
  · exact hnone
  · rfl

/-- One of the reads of `TCPServer::sendAndRecv`, up to the end of its callback. -/
def read (server : OrderServer) (socket : Ptr) (rxTime : ℤ) (bytes : List UInt8) :
    Except Fault OrderServer :=
  (server.setSocket socket ((server.sockets socket).receive bytes)).recvCallback socket rxTime

/-- The body of the `for` loop of `run`: what the server does with a response. -/
def sendResponse (packing : Packing) (server : OrderServer) (response : MEClientResponse) :
    Except Fault OrderServer :=
  let clientId := response.clientId
  if clientId < meMaxNumClients then do
    ASSERT (server.cidTcpSocket clientId ≠ none)
      ("Dont have a TCPSocket for ClientId:" ++ toString clientId)
    let socket ← deref (server.cidTcpSocket clientId)
    let s ← (server.sockets socket).send ((unsigned 8).encode (server.cidNextOutgoingSeqNum clientId))
    let s ← s.send ((MEClientResponse.codec packing).encode response)
    let server := server.setSocket socket s
    return { server with
      cidNextOutgoingSeqNum := Function.update server.cidNextOutgoingSeqNum clientId
        ((server.cidNextOutgoingSeqNum clientId + 1) % 2 ^ 64) }
  else .error .overrun

/-- One iteration of `run`: the sockets hand over what they have to send, and the queue of the
matching engine, in which there are these responses, is drained. -/
def runOnce (packing : Packing) (server : OrderServer) (responses : List MEClientResponse) :
    Except Fault OrderServer :=
  responses.foldlM (sendResponse packing)
    { server with sockets := fun socket => (server.sockets socket).transmit }

/-- `run`, for what its iterations find in the queue. -/
def run (packing : Packing) (server : OrderServer) (batches : List (List MEClientResponse)) :
    Except Fault OrderServer :=
  batches.foldlM (runOnce packing) server

/-! ## What the server does with a message -/

/-- The server takes the message: its client has no socket yet or this one, and the number is the
expected one. -/
def Accepts (server : OrderServer) (socket : Ptr) (request : OMClientRequest) : Prop :=
  (server.cidTcpSocket request.meClientRequest.clientId = none ∨
    server.cidTcpSocket request.meClientRequest.clientId = some socket) ∧
  request.seqNum = server.cidNextExpSeqNum request.meClientRequest.clientId

/-- The server behind a message that it takes. -/
def accept (server : OrderServer) (socket : Ptr) (rxTime : ℤ) (request : OMClientRequest) :
    OrderServer :=
  let clientId := request.meClientRequest.clientId
  { server with
    cidTcpSocket := (server.bindClient clientId socket).cidTcpSocket
    cidNextExpSeqNum := Function.update server.cidNextExpSeqNum clientId
      ((server.cidNextExpSeqNum clientId + 1) % 2 ^ 64)
    fifoSequencer := { server.fifoSequencer with
      pendingClientRequests := server.fifoSequencer.pendingClientRequests ++
        [{ recvTime := rxTime, request := request.meClientRequest }] }
    forwarded := server.forwarded ++ [(socket, request)] }

/-- **A read** consumes the messages that it completes and keeps the rest. -/
lemma read_eq (server : OrderServer) (socket : Ptr) (rxTime : ℤ) (bytes : List UInt8) :
    server.read socket rxTime bytes =
      (do
        let x ← Framing.feed OMClientRequest.codec.size
          (fun server frame =>
            server.onClientRequest socket rxTime (OMClientRequest.codec.decode frame))
          (server.sockets socket).rcvBuffer
          (server.setSocket socket ((server.sockets socket).receive bytes)) bytes
        return x.2.setSocket socket { x.2.sockets socket with rcvBuffer := x.1 }) := by
  have hbuffer : ((server.setSocket socket ((server.sockets socket).receive bytes)).sockets
      socket).rcvBuffer = (server.sockets socket).rcvBuffer ++ bytes := by
    show (Function.update server.sockets socket _ socket).rcvBuffer = _
    rw [Function.update_self]
    rfl
  unfold read recvCallback
  rw [hbuffer, recvFrames_eq_feed _ (by decide)]

section OnClientRequest

variable {server : OrderServer} {clientId : ℕ} {socket : Ptr} {rxTime : ℤ}
  {request : OMClientRequest}

/-- The socket of a client after a message from it on some socket. -/
lemma cidTcpSocket_bindClient :
    (server.bindClient clientId socket).cidTcpSocket =
      Function.update server.cidTcpSocket clientId
        (some ((server.cidTcpSocket clientId).getD socket)) := by
  unfold bindClient
  split_ifs with hnone
  · simp [hnone]
  · obtain ⟨s, hs⟩ := Option.ne_none_iff_exists'.mp hnone
    funext c
    by_cases hc : c = clientId <;> simp [hc, hs]

/-- Binding a client changes nothing else. -/
lemma bindClient_eq : server.bindClient clientId socket =
    { server with cidTcpSocket := (server.bindClient clientId socket).cidTcpSocket } := by
  unfold bindClient
  split_ifs <;> rfl

/-- Behind the binding the test of the socket passes exactly when it should. -/
lemma bindClient_eq_some_iff :
    (server.bindClient clientId socket).cidTcpSocket clientId = some socket ↔
      server.cidTcpSocket clientId = none ∨ server.cidTcpSocket clientId = some socket := by
  rw [cidTcpSocket_bindClient, Function.update_self]
  cases server.cidTcpSocket clientId <;> simp

/-- **A rejected message** binds its client at most. -/
lemma onClientRequest_of_not_accepts (hclient : request.meClientRequest.clientId < meMaxNumClients)
    (h : ¬ server.Accepts socket request) :
    server.onClientRequest socket rxTime request =
      .ok (server.bindClient request.meClientRequest.clientId socket) := by
  unfold onClientRequest
  simp only [if_pos hclient, ne_eq, bindClient_eq_some_iff]
  by_cases hsocket : server.cidTcpSocket request.meClientRequest.clientId = none ∨
      server.cidTcpSocket request.meClientRequest.clientId = some socket
  · have hseq : ¬ request.seqNum = (server.bindClient request.meClientRequest.clientId
        socket).cidNextExpSeqNum request.meClientRequest.clientId := by
      rw [bindClient_eq]
      exact fun hseq => h ⟨hsocket, hseq⟩
    rw [if_neg (not_not.mpr hsocket), if_pos hseq]
  · rw [if_pos hsocket]

/-- **A message that the server takes** goes to the sequencer. -/
lemma onClientRequest_of_accepts (hclient : request.meClientRequest.clientId < meMaxNumClients)
    (h : server.Accepts socket request) :
    server.onClientRequest socket rxTime request =
      if meMaxPendingRequests ≤ server.fifoSequencer.pendingClientRequests.length then
        .error (.assert "Too many penging requests.")
      else .ok (server.accept socket rxTime request) := by
  have hseq : request.seqNum = (server.bindClient request.meClientRequest.clientId
      socket).cidNextExpSeqNum request.meClientRequest.clientId := by
    rw [bindClient_eq]
    exact h.2
  unfold onClientRequest
  simp only [if_pos hclient, if_neg (not_not.mpr (bindClient_eq_some_iff.mpr h.1)),
    if_neg (not_not.mpr hseq), FIFOSequencer.addClientRequest]
  rw [bindClient_eq]
  split_ifs
  · rfl
  · rfl

/-- The sequencer must have room for it. -/
lemma safe_onClientRequest (hclient : request.meClientRequest.clientId < meMaxNumClients)
    (h : server.Accepts socket request) :
    Safe (fun e => e = .assert "Too many penging requests." ∧
        meMaxPendingRequests ≤ server.fifoSequencer.pendingClientRequests.length)
      (fun server' => server' = server.accept socket rxTime request)
      (server.onClientRequest socket rxTime request) := by
  rw [onClientRequest_of_accepts hclient h]
  split_ifs with hfull
  · exact ⟨rfl, hfull⟩
  · exact rfl

end OnClientRequest

end OrderServer

end Exchange

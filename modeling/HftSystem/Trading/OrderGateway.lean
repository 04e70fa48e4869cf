import HftSystem.Common.TCPSocket
import HftSystem.Exchange.MessageLayout

set_option relaxedAutoImplicit false
set_option autoImplicit false

/-!
# The order gateway

`trading/order_gw/order_gateway.{h,cpp}`. The queue of the trade engine's requests is given to
`run` as the list of what it finds there; the queue of the responses is the list of what was
written.

## Main definitions

* `Trading.OrderGateway` — with `Trading.OrderGateway.sendRequest` and
  `Trading.OrderGateway.runOnce`, the sending side, and `Trading.OrderGateway.onClientResponse`
  and `Trading.OrderGateway.recvCallback`, the receiving side.
-/

namespace Trading

open Common Exchange Wire

/-- `OrderGateway`. -/
structure OrderGateway where
  clientId : ℕ
  incomingResponses : List MEClientResponse := []
  nextOutgoingSeqNum : ℕ := 1
  nextExpSeqNum : ℕ := 1
  tcpSocket : TCPSocket := {}

namespace OrderGateway

/-- The body of the `for` loop of `run`: what the gateway does with a request. -/
def sendRequest (g : OrderGateway) (request : MEClientRequest) : Except Fault OrderGateway := do
  let s ← g.tcpSocket.send ((unsigned 8).encode g.nextOutgoingSeqNum)
  let s ← s.send (MEClientRequest.codec.encode request)
  return { g with tcpSocket := s, nextOutgoingSeqNum := (g.nextOutgoingSeqNum + 1) % 2 ^ 64 }

/-- One iteration of `run`: the socket hands over what it has to send, and the queue, in which
there are these requests, is drained. -/
def runOnce (g : OrderGateway) (requests : List MEClientRequest) : Except Fault OrderGateway :=
  requests.foldlM sendRequest { g with tcpSocket := g.tcpSocket.transmit }

/-- `run`, for what its iterations find in the queue. -/
def run (g : OrderGateway) (batches : List (List MEClientRequest)) : Except Fault OrderGateway :=
  batches.foldlM runOnce g

/-- The body of the loop of `recvCallback`: what the gateway does with a message. -/
def onClientResponse (g : OrderGateway) (response : OMClientResponse) : OrderGateway :=
  if response.meClientResponse.clientId ≠ g.clientId then g
  else if response.seqNum ≠ g.nextExpSeqNum then g
  else
    { g with
      nextExpSeqNum := (g.nextExpSeqNum + 1) % 2 ^ 64
      incomingResponses := g.incomingResponses ++ [response.meClientResponse] }

/-- `recvCallback`. -/
def recvCallback (packing : Packing) (g : OrderGateway) : Except Fault OrderGateway := do
  let (rcvBuffer, g) ← recvFrames (OMClientResponse.codec packing).size
    (fun g frame => .ok (g.onClientResponse ((OMClientResponse.codec packing).decode frame)))
    g.tcpSocket.rcvBuffer g
  return { g with tcpSocket := { g.tcpSocket with rcvBuffer } }

/-- A read of the socket, up to the end of its callback. -/
def read (packing : Packing) (g : OrderGateway) (bytes : List UInt8) : Except Fault OrderGateway :=
  recvCallback packing { g with tcpSocket := g.tcpSocket.receive bytes }

end OrderGateway

end Trading

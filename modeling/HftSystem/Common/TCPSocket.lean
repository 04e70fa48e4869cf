import HftSystem.Common.Types
import HftSystem.Lib.Framing

set_option relaxedAutoImplicit false
set_option autoImplicit false

/-!
# TCP sockets

`utils/tcp_socket.{h,cpp}`, and the loop over the receive buffer that the callbacks of the order
server and of the order gateway have in common. A buffer is the list of its valid bytes, so that
`next_rcv_valid_index_` and `next_send_valid_index_` are lengths. The network is lossless: the
kernel takes the whole send buffer, as the `ASSERT` in `sendAndRecv` demands, and reads give the
bytes in the order in which they were sent.

## Main definitions

* `Common.TCPSocket` — a socket, with `Common.TCPSocket.send` and the two halves of
  `sendAndRecv`.
* `Common.recvFrames` — what the callbacks do with the receive buffer.

## Main results

* `Common.recvFrames_eq_feed` — the callbacks consume the complete frames and keep the rest.
-/

namespace Common

open Fallible Framing

/-- `TCPBufferSize`. -/
def tcpBufferSize : ℕ := 64 * 1024 * 1024

/-- `TCPSocket`: the valid parts of its two buffers, and the bytes that the kernel has taken. -/
structure TCPSocket where
  sendBuffer : List UInt8 := []
  rcvBuffer : List UInt8 := []
  sent : List UInt8 := []
  deriving DecidableEq, Repr

namespace TCPSocket

/-- `send`, which does not look at the size of the buffer. -/
def send (socket : TCPSocket) (data : List UInt8) : Except Fault TCPSocket :=
  if data.length > 0 then
    if socket.sendBuffer.length + data.length ≤ tcpBufferSize then
      .ok { socket with sendBuffer := socket.sendBuffer ++ data }
    else .error .overrun
  else .ok socket

/-- The half of `sendAndRecv` that hands the send buffer to the kernel. -/
def transmit (socket : TCPSocket) : TCPSocket :=
  { socket with sendBuffer := [], sent := socket.sent ++ socket.sendBuffer }

/-- The half of `sendAndRecv` that takes bytes from the kernel, before the callback is called. -/
def receive (socket : TCPSocket) (bytes : List UInt8) : TCPSocket :=
  { socket with rcvBuffer := socket.rcvBuffer ++ bytes }

/-- Everything that was given to `send` so far. -/
def stream (socket : TCPSocket) : List UInt8 := socket.sent ++ socket.sendBuffer

/-- What the kernel takes stays in the stream. -/
@[simp] lemma stream_transmit (socket : TCPSocket) : socket.transmit.stream = socket.stream := by
  simp [stream, transmit]

/-- **What `send` does**, as long as the buffer has room. -/
lemma safe_send (socket : TCPSocket) (data : List UInt8) :
    Safe (fun e => e = .overrun ∧ tcpBufferSize < socket.sendBuffer.length + data.length)
      (fun s => s = { socket with sendBuffer := socket.sendBuffer ++ data })
      (socket.send data) := by
  unfold send
  split_ifs with hlength hroom
  · rfl
  · exact ⟨rfl, by omega⟩
  · rw [List.length_eq_zero_iff.mp (by omega : data.length = 0), List.append_nil]
    rfl

/-- Two calls of `send` in a row. -/
lemma safe_send_send (socket : TCPSocket) (data data' : List UInt8) :
    Safe (fun e => e = .overrun ∧ tcpBufferSize < socket.sendBuffer.length + (data ++ data').length)
      (fun s => s = { socket with sendBuffer := socket.sendBuffer ++ (data ++ data') })
      (socket.send data >>= fun s => s.send data') := by
  rw [List.length_append]
  refine ((socket.safe_send data).mono (fun e he => ⟨he.1, by have := he.2; omega⟩)
    fun _ => id).bind fun s hs => ?_
  rw [hs]
  refine (safe_send _ data').mono (fun e he => ⟨he.1, ?_⟩) fun s' hs' => by
    rw [hs', List.append_assoc]
  have := he.2
  rw [List.length_append] at this
  omega

end TCPSocket

/-- The `memcpy` of both callbacks: the valid bytes from `i` on go to the front of the buffer.
`memcpy` may not be given regions that overlap. -/
def memcpyToFront (buffer : List UInt8) (i : ℕ) : Except Fault (List UInt8) :=
  let len := buffer.length - i
  if 0 < len ∧ i < len then .error .overlap else .ok (buffer.drop i)

variable {σ : Type} (size : ℕ) (body : σ → List UInt8 → Except Fault σ)

/-- `for (; i + sizeof(..) <= next_rcv_valid_index_; i += sizeof(..))`, bounded by `fuel`. Returns
`i`. -/
def recvLoop (buffer : List UInt8) : ℕ → ℕ → σ → Except Fault (ℕ × σ)
  | 0, _, _ => .error .diverges
  | fuel + 1, i, s =>
    if i + size ≤ buffer.length then do
      let s ← body s ((buffer.drop i).take size)
      recvLoop buffer fuel (i + size) s
    else .ok (i, s)

/-- What the callbacks do with the receive buffer, where `body` is the body of the loop. -/
def recvFrames (buffer : List UInt8) (s : σ) : Except Fault (List UInt8 × σ) :=
  if buffer.length ≥ size then do
    let (i, s) ← recvLoop size body buffer (buffer.length + 1) 0 s
    let buffer ← memcpyToFront buffer i
    return (buffer, s)
  else .ok (buffer, s)

section Loop

variable {size}

/-- The loop from the `k`-th frame on, with `n` complete frames to go.

**Proof sketch.** By induction on `n`. The test holds exactly when there is another frame, since
`k + n` is the number of complete frames in the buffer. -/
lemma recvLoop_eq (hsize : 0 < size) (buffer : List UInt8) :
    ∀ n k fuel (s : σ), k + n = buffer.length / size → n < fuel →
      recvLoop size body buffer fuel (size * k) s =
        (do
          let s ← (takeFrames size n (buffer.drop (size * k))).foldlM body s
          return (size * (k + n), s)) := by
  have hdiv := Nat.div_add_mod buffer.length size
  have hmod := Nat.mod_lt buffer.length hsize
  intro n
  induction n with
  | zero =>
    intro k fuel s hk hfuel
    obtain ⟨fuel, rfl⟩ := Nat.exists_eq_add_of_lt hfuel
    rw [← hk, Nat.add_zero] at hdiv
    rw [recvLoop, if_neg (by omega), Nat.add_zero]
    rfl
  | succ n ih =>
    intro k fuel s hk hfuel
    obtain ⟨fuel, rfl⟩ : ∃ m, fuel = m + 1 := ⟨fuel - 1, by omega⟩
    have hnext : size * k + size = size * (k + 1) := by ring
    have hle : size * (k + 1) ≤ size * (buffer.length / size) :=
      Nat.mul_le_mul_left size (by omega)
    rw [recvLoop, if_pos (by omega), takeFrames, List.foldlM_cons, List.drop_drop, hnext]
    cases body s ((buffer.drop (size * k)).take size) with
    | error e => rfl
    | ok s' =>
      rw [ok_bind, ok_bind, ih (k + 1) fuel s' (by omega) (by omega),
        show k + 1 + n = k + (n + 1) by omega]

/-- **The callbacks consume the complete frames and keep the rest.** The bytes that `memcpy` moves
are fewer than one frame, and at least one frame lies in front of them. -/
theorem recvFrames_eq_feed (hsize : 0 < size) (buffer piece : List UInt8) (s : σ) :
    recvFrames size body (buffer ++ piece) s = feed size body buffer s piece := by
  unfold recvFrames feed
  split_ifs with hlength
  · have hloop := recvLoop_eq body hsize (buffer ++ piece) _ 0 ((buffer ++ piece).length + 1) s
      (Nat.zero_add _) (Nat.lt_succ_of_le (Nat.div_le_self _ _))
    rw [Nat.mul_zero, List.drop_zero, Nat.zero_add] at hloop
    rw [hloop, bind_assoc]
    refine congrArg _ (funext fun s' => ?_)
    have hdiv := Nat.div_add_mod (buffer ++ piece).length size
    have hmod := Nat.mod_lt (buffer ++ piece).length hsize
    have hone : size * 1 ≤ size * ((buffer ++ piece).length / size) :=
      Nat.mul_le_mul_left size ((Nat.one_le_div_iff hsize).mpr hlength)
    show (memcpyToFront _ _ >>= _) = _
    rw [memcpyToFront, if_neg (by omega)]
    rfl
  · rw [frames_of_lt (by omega), rest_of_lt (by omega)]
    rfl

end Loop

end Common

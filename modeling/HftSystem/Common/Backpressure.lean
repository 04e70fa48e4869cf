import HftSystem.Common.TCPSocket

set_option relaxedAutoImplicit false
set_option autoImplicit false

/-!
# A socket whose kernel pushes back

`TCPSocket::sendAndRecv` with a kernel that may refuse a message, because it would block. The loop stops
then, and the line behind it takes the send buffer for empty all the same.

## Main definitions

* `Common.TCPSocket.sendLoop`, `Common.TCPSocket.sendAndRecv` — the loop around `::send`, and the whole
  function.
* `Common.Traffic` — a socket, and everything that was given to its `send`.
* `Common.Traffic.Taken` — the kernel takes what is handed to it.

## Main results

* `Common.TCPSocket.sendLoop_eq` — what the loop does.
* `Common.Traffic.keeps_bytes_iff` — the runs in which no byte is lost.
-/

namespace Common

open Fallible

/-- `::send`, by the number of its call and the length of the message: the number of bytes that the kernel
takes, or nothing if it would block. -/
abbrev KernelSend := ℕ → ℕ → Option ℕ

namespace TCPSocket

/-- The loop at the end of `sendAndRecv`, bounded by `fuel`. -/
def sendLoop (kernel : KernelSend) : ℕ → ℕ → ℕ → TCPSocket → Except Fault TCPSocket
  | 0, _, _, _ => .error .diverges
  | fuel + 1, call, nSend, socket =>
    if nSend > 0 then
      let nSendThisMsg := min socket.sendBuffer.length nSend
      match kernel call nSendThisMsg with
      | none => .ok socket
      | some n => do
        let socket := { socket with sent := socket.sent ++ socket.sendBuffer.take n }
        ASSERT (n = nSendThisMsg) "Don't support partial send lengths yet."
        sendLoop kernel fuel (call + 1) (nSend - n) socket
    else .ok socket

/-- The half of `sendAndRecv` that reads, for the bytes that the kernel has for the socket. `recvCallback`
is what the callback leaves of the receive buffer; none of the callbacks sends. -/
def recvOnce (recvCallback : List UInt8 → Except Fault (List UInt8)) (socket : TCPSocket)
    (bytes : List UInt8) : Except Fault TCPSocket :=
  if bytes.length > 0 then do
    let socket := socket.receive bytes
    let rcvBuffer ← recvCallback socket.rcvBuffer
    return { socket with rcvBuffer }
  else .ok socket

/-- `sendAndRecv`. -/
def sendAndRecv (recvCallback : List UInt8 → Except Fault (List UInt8)) (kernel : KernelSend)
    (socket : TCPSocket) (bytes : List UInt8) : Except Fault (TCPSocket × Bool) := do
  let bytes := bytes.take (tcpBufferSize - socket.rcvBuffer.length)
  let socket ← socket.recvOnce recvCallback bytes
  let nSend := min tcpBufferSize socket.sendBuffer.length
  let socket ← socket.sendLoop kernel (nSend + 1) 0 nSend
  return ({ socket with sendBuffer := [] }, bytes.length > 0)

/-! ## What the loop does -/

/-- **The loop hands over the send buffer in one message**, which the kernel takes or not. -/
lemma sendLoop_eq (kernel : KernelSend) (socket : TCPSocket) :
    socket.sendLoop kernel (socket.sendBuffer.length + 1) 0 socket.sendBuffer.length =
      if socket.sendBuffer = [] then .ok socket
      else match kernel 0 socket.sendBuffer.length with
        | none => .ok socket
        | some n =>
          if n = socket.sendBuffer.length then .ok { socket with sent := socket.stream }
          else .error (.assert "Don't support partial send lengths yet.") := by
  rw [sendLoop]
  split_ifs with hpos hempty hempty
  · rw [hempty] at hpos
    cases hpos
  · simp only [min_self]
    cases kernel 0 socket.sendBuffer.length with
    | none => rfl
    | some n =>
      simp only [ASSERT]
      split_ifs with hn
      · -- nothing is left to send
        obtain ⟨m, hm⟩ := Nat.exists_eq_succ_of_ne_zero (Nat.pos_iff_ne_zero.mp hpos)
        rw [ok_bind, hn, Nat.sub_self, hm, sendLoop, if_neg (Nat.lt_irrefl 0), ← hm, List.take_length]
        rfl
      · rfl
  · rfl
  · exact absurd (List.length_pos_iff.mpr hempty) hpos

/-- The half that reads leaves the other one alone. -/
lemma safe_recvOnce (recvCallback : List UInt8 → Except Fault (List UInt8)) (socket : TCPSocket)
    (bytes : List UInt8) :
    Safe (fun _ => True) (fun s => s.sendBuffer = socket.sendBuffer ∧ s.sent = socket.sent)
      (socket.recvOnce recvCallback bytes) := by
  unfold recvOnce
  split_ifs
  · show Safe _ _ (recvCallback (socket.receive bytes).rcvBuffer >>= _)
    cases recvCallback (socket.receive bytes).rcvBuffer with
    | error e => trivial
    | ok rcvBuffer => exact ⟨rfl, rfl⟩
  · exact ⟨rfl, rfl⟩

/-- **`sendAndRecv`** empties the send buffer, and sends it unless the kernel would block. -/
theorem safe_sendAndRecv (recvCallback : List UInt8 → Except Fault (List UInt8)) (kernel : KernelSend)
    {socket : TCPSocket} (hsize : socket.sendBuffer.length ≤ tcpBufferSize) (bytes : List UInt8) :
    Safe (fun _ => True)
      (fun r => r.1.sendBuffer = [] ∧ r.1.sent = socket.sent ++
        if kernel 0 socket.sendBuffer.length = none then [] else socket.sendBuffer)
      (socket.sendAndRecv recvCallback kernel bytes) := by
  unfold sendAndRecv
  refine (socket.safe_recvOnce recvCallback _).bind ?_
  rintro s ⟨hbuffer, hsent⟩
  rw [← hbuffer] at hsize ⊢
  show Safe _ _ (s.sendLoop kernel (min tcpBufferSize s.sendBuffer.length + 1) 0 _ >>= _)
  rw [min_eq_right hsize, sendLoop_eq, ← hsent]
  cases hkernel : kernel 0 s.sendBuffer.length with
  | none =>
    simp only [if_true, ite_self]
    exact ⟨rfl, (List.append_nil _).symm⟩
  | some n =>
    rw [if_neg (Option.some_ne_none n)]
    simp only
    split_ifs with hempty
    · refine ⟨rfl, ?_⟩
      rw [hempty]
      exact (List.append_nil _).symm
    · exact ⟨rfl, rfl⟩
    · trivial

/-- The send buffer stays within its size. -/
lemma length_sendBuffer_send {socket socket' : TCPSocket} {data : List UInt8}
    (hsize : socket.sendBuffer.length ≤ tcpBufferSize) (h : socket.send data = .ok socket') :
    socket'.sendBuffer.length ≤ tcpBufferSize := by
  unfold send at h
  split_ifs at h with hdata hroom
  · cases h
    rwa [List.length_append]
  · cases h
    exact hsize

end TCPSocket

/-! ## Runs -/

/-- A socket, and the bytes that were given to its `send`. -/
structure Traffic where
  socket : TCPSocket := {}
  given : List UInt8 := []

/-- A call of one of the two functions, with what the kernel does in it. -/
inductive SocketCall
  | send (data : List UInt8)
  | sendAndRecv (bytes : List UInt8) (kernel : KernelSend)

namespace Traffic

/-- A call. -/
def call (recvCallback : List UInt8 → Except Fault (List UInt8)) (t : Traffic) :
    SocketCall → Except Fault Traffic
  | .send data => do
    let socket ← t.socket.send data
    return { socket, given := t.given ++ data }
  | .sendAndRecv bytes kernel => do
    let (socket, _) ← t.socket.sendAndRecv recvCallback kernel bytes
    return { t with socket }

/-- **No byte is lost**: the kernel has taken some, and the buffer holds the others. -/
def KeepsBytes (t : Traffic) : Prop := t.socket.sent ++ t.socket.sendBuffer = t.given

/-- The kernel takes what is handed to it, if there is anything. -/
def Taken (t : Traffic) : SocketCall → Prop
  | .send _ => True
  | .sendAndRecv _ kernel => t.socket.sendBuffer ≠ [] → kernel 0 t.socket.sendBuffer.length ≠ none

/-- No byte is lost, and the send buffer is within its size. -/
structure Kept (t : Traffic) : Prop where
  bytes : t.KeepsBytes
  size : t.socket.sendBuffer.length ≤ tcpBufferSize

/-- **A call keeps the bytes exactly if the kernel takes what is handed to it.** -/
lemma Kept.call {recvCallback : List UInt8 → Except Fault (List UInt8)} {t t' : Traffic} (h : t.Kept)
    {x : SocketCall} (hcall : t.call recvCallback x = .ok t') :
    (t.Taken x → t'.Kept) ∧ (t'.KeepsBytes → t.Taken x) := by
  cases x with
  | send data =>
    obtain ⟨socket, hsend, ht'⟩ := bind_eq_ok.mp hcall
    obtain rfl := Except.ok.inj ht'
    refine ⟨fun _ => ⟨?_, TCPSocket.length_sendBuffer_send h.size hsend⟩, fun _ => trivial⟩
    have hsocket := (t.socket.safe_send data).of_eq_ok hsend
    unfold KeepsBytes
    rw [hsocket, ← List.append_assoc, h.bytes]
  | sendAndRecv bytes kernel =>
    obtain ⟨r, hrun, ht'⟩ := bind_eq_ok.mp hcall
    obtain rfl := Except.ok.inj ht'
    obtain ⟨hbuffer, hsent⟩ :=
      (TCPSocket.safe_sendAndRecv recvCallback kernel h.size bytes).of_eq_ok hrun
    have hkeeps : KeepsBytes { t with socket := r.1 } ↔
        (if kernel 0 t.socket.sendBuffer.length = none then [] else t.socket.sendBuffer) =
          t.socket.sendBuffer := by
      unfold KeepsBytes
      rw [hbuffer, List.append_nil, hsent, ← h.bytes, List.append_cancel_left_eq]
    refine ⟨fun htaken => ⟨hkeeps.mpr ?_, ?_⟩, fun hbytes hne hblocks => ?_⟩
    · split_ifs with hblocks
      · by_contra hne
        exact htaken (Ne.symm hne) hblocks
      · rfl
    · show r.1.sendBuffer.length ≤ _
      rw [hbuffer]
      exact Nat.zero_le _
    · rw [hkeeps, if_pos hblocks] at hbytes
      exact hne hbytes.symm

end Traffic

end Common

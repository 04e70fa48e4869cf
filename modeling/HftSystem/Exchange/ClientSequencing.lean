import HftSystem.Lib.Sessions
import HftSystem.Exchange.OrderServer

set_option relaxedAutoImplicit false
set_option autoImplicit false

/-!
# The sequence of each client's requests

Messages of many clients may share a socket, and many sockets may claim one client. The server
binds a client to the socket that presents its id first and counts the messages it takes from it,
so that the requests it forwards for a client are those of one socket, numbered consecutively.

## Main definitions

* `Exchange.OrderServer.Event`, `Exchange.OrderServer.step` — what happens to the receiving side.
* `Exchange.OrderServer.firstSocket` — the socket that presents an id first.
* `Exchange.OrderServer.Sequenced` — what the server guarantees about the requests it forwards.

## Main results

* `Exchange.OrderServer.sequenced_of_run` — the guarantee, for every run.
-/

namespace Exchange

open Common Fallible

namespace OrderServer

/-- A message is decoded on a socket, or the sockets have all been read. -/
inductive Event
  | message (socket : Ptr) (rxTime : ℤ) (request : OMClientRequest)
  | recvFinished
  deriving DecidableEq, Repr

/-- The claimed client id is the index of a client. -/
def Event.InRange : Event → Prop
  | .message _ _ request => request.meClientRequest.clientId < meMaxNumClients
  | .recvFinished => True

/-- The socket on which a message from the client arrives. -/
def Event.presents (clientId : ℕ) : Event → Option Ptr
  | .message socket _ request =>
    if request.meClientRequest.clientId = clientId then some socket else none
  | .recvFinished => none

/-- What the server does with an event. -/
def step (sort : List RecvTimeClientRequest → List RecvTimeClientRequest) (server : OrderServer) :
    Event → Except Fault OrderServer
  | .message socket rxTime request => server.onClientRequest socket rxTime request
  | .recvFinished => .ok (server.recvFinishedCallback sort)

/-- The socket that presents a client's id first. -/
def firstSocket (clientId : ℕ) (events : List Event) : Option Ptr :=
  events.findSome? (Event.presents clientId)

/-- What was forwarded for a client. -/
def forwardedOf (server : OrderServer) (clientId : ℕ) : List (Ptr × OMClientRequest) :=
  server.forwarded.filter fun m => m.2.meClientRequest.clientId = clientId

/-- The sequence numbers 1, 2, 3, ... as a `size_t` counts them. -/
def seqNums (n : ℕ) : List ℕ := (List.range n).map fun i => (i + 1) % 2 ^ 64

/-- One more number behind the others. -/
@[simp] lemma seqNums_succ (n : ℕ) : seqNums (n + 1) = seqNums n ++ [(n + 1) % 2 ^ 64] := by
  simp [seqNums, List.range_succ]

/-- More events than the sequencer has room for, none of which ends a round of reads. -/
def Overfull (events : List Event) : Prop :=
  ∃ pre batch post, events = pre ++ batch ++ post ∧ .recvFinished ∉ batch ∧
    meMaxPendingRequests < batch.length

/-- **What the server guarantees**, after these events, about the requests it forwards: those of a
client come from the socket that presented its id first and carry the numbers 1, 2, 3, ..., and a
message is either forwarded, which puts its request behind those that the sequencer holds, or
changes neither the expected number nor the requests of any client nor the sequencer. -/
structure Sequenced (events : List Event) (server : OrderServer) : Prop where
  socket : ∀ m ∈ server.forwarded, firstSocket m.2.meClientRequest.clientId events = some m.1
  numbers : ∀ clientId, (server.forwardedOf clientId).map (fun m => m.2.seqNum) =
    seqNums (server.forwardedOf clientId).length
  rejected : ∀ socket rxTime request server',
    server.onClientRequest socket rxTime request = .ok server' →
      server'.forwarded = server.forwarded ++ [(socket, request)] ∧
        server'.fifoSequencer = { server.fifoSequencer with
          pendingClientRequests := server.fifoSequencer.pendingClientRequests ++
            [{ recvTime := rxTime, request := request.meClientRequest }] } ∨
      server'.cidNextExpSeqNum = server.cidNextExpSeqNum ∧ server'.forwarded = server.forwarded ∧
        server'.fifoSequencer = server.fifoSequencer

/-- The invariant of the receiving side. -/
structure Counting (events : List Event) (server : OrderServer) : Prop where
  bound : ∀ clientId, server.cidTcpSocket clientId = firstSocket clientId events
  expected : ∀ clientId,
    server.cidNextExpSeqNum clientId = ((server.forwardedOf clientId).length + 1) % 2 ^ 64
  socket : ∀ m ∈ server.forwarded, firstSocket m.2.meClientRequest.clientId events = some m.1
  numbers : ∀ clientId, (server.forwardedOf clientId).map (fun m => m.2.seqNum) =
    seqNums (server.forwardedOf clientId).length
  pending : ∃ pre batch, events = pre ++ batch ∧ .recvFinished ∉ batch ∧
    server.fifoSequencer.pendingClientRequests.length ≤ batch.length

section Step

variable {events : List Event} {server : OrderServer}

/-- The first socket after one more message. -/
lemma firstSocket_message (clientId : ℕ) (socket : Ptr) (rxTime : ℤ) (request : OMClientRequest) :
    firstSocket clientId (events ++ [.message socket rxTime request]) =
      if request.meClientRequest.clientId = clientId then
        some ((firstSocket clientId events).getD socket)
      else firstSocket clientId events := by
  unfold firstSocket
  rw [List.findSome?_append, List.findSome?_singleton, Event.presents]
  split_ifs
  · cases events.findSome? (Event.presents clientId) <;> rfl
  · rw [Option.or_none]

/-- The end of a round of reads presents nobody. -/
lemma firstSocket_recvFinished (clientId : ℕ) :
    firstSocket clientId (events ++ [.recvFinished]) = firstSocket clientId events := by
  unfold firstSocket
  rw [List.findSome?_append, List.findSome?_singleton]
  exact Option.or_none

/-- A socket that was first stays so. -/
lemma firstSocket_append {clientId : ℕ} {socket : Ptr} (h : firstSocket clientId events = some socket)
    (events' : List Event) : firstSocket clientId (events ++ events') = some socket := by
  unfold firstSocket at h ⊢
  rw [List.findSome?_append, h]
  rfl

/-- A message that is not a round's end makes its batch longer. -/
lemma Counting.pending_message (h : Counting events server) (e : Event) (he : e ≠ .recvFinished) :
    ∃ pre batch, events ++ [e] = pre ++ batch ∧ .recvFinished ∉ batch ∧
      server.fifoSequencer.pendingClientRequests.length + 1 ≤ batch.length := by
  obtain ⟨pre, batch, rfl, hbatch, hlength⟩ := h.pending
  refine ⟨pre, batch ++ [e], by simp, ?_, by simpa using hlength⟩
  rw [List.mem_append, List.mem_singleton]
  rintro (hmem | rfl)
  · exact hbatch hmem
  · exact he rfl

/-- A rejected message keeps the invariant. -/
lemma Counting.reject (h : Counting events server) (socket : Ptr) (rxTime : ℤ)
    (request : OMClientRequest) :
    Counting (events ++ [.message socket rxTime request])
      (server.bindClient request.meClientRequest.clientId socket) := by
  have hbound : ∀ clientId,
      (server.bindClient request.meClientRequest.clientId socket).cidTcpSocket clientId =
        firstSocket clientId (events ++ [.message socket rxTime request]) := by
    intro clientId
    rw [cidTcpSocket_bindClient, firstSocket_message, ← h.bound clientId]
    by_cases hclient : clientId = request.meClientRequest.clientId
    · subst hclient
      rw [Function.update_self, if_pos rfl]
    · rw [Function.update_of_ne hclient, if_neg fun heq => hclient heq.symm]
  obtain ⟨pre, batch, hsplit, hbatch, hlength⟩ :=
    h.pending_message (.message socket rxTime request) (by simp)
  rw [bindClient_eq]
  exact
    { bound := hbound
      expected := h.expected
      socket := fun m hm => firstSocket_append (h.socket m hm) _
      numbers := h.numbers
      pending := ⟨pre, batch, hsplit, hbatch, Nat.le_of_succ_le hlength⟩ }

/-- A message that the server takes keeps the invariant.

**Proof sketch.** The message is bound to its socket as one that is rejected would be. Its client has
one more message that was passed on, with the number that was expected, and the number that is expected
next grows by one; the other clients are as before. -/
lemma Counting.accept (h : Counting events server) {socket : Ptr} (rxTime : ℤ)
    {request : OMClientRequest} (haccepts : server.Accepts socket request) :
    Counting (events ++ [.message socket rxTime request])
      (server.accept socket rxTime request) := by
  have hreject := h.reject socket rxTime request
  have hof : ∀ clientId, (server.accept socket rxTime request).forwardedOf clientId =
      server.forwardedOf clientId ++
        if request.meClientRequest.clientId = clientId then [(socket, request)] else [] :=
    fun clientId => Sessions.filter_concat
      (fun m : Ptr × OMClientRequest => m.2.meClientRequest.clientId = clientId) _ _
  have hexpected : request.seqNum =
      ((server.forwardedOf request.meClientRequest.clientId).length + 1) % 2 ^ 64 := by
    rw [haccepts.2, h.expected]
  refine ⟨hreject.bound, fun clientId => ?_, fun m hm => ?_, fun clientId => ?_, ?_⟩
  · rw [hof]
    show Function.update server.cidNextExpSeqNum _ _ clientId = _
    by_cases hclient : clientId = request.meClientRequest.clientId
    · subst hclient
      rw [Function.update_self, if_pos rfl, h.expected, List.length_append, List.length_singleton,
        Nat.mod_add_mod]
    · rw [Function.update_of_ne hclient, if_neg fun heq => hclient heq.symm, List.append_nil,
        h.expected]
  · rcases List.mem_append.mp hm with hm | hm
    · exact firstSocket_append (h.socket m hm) _
    · rw [List.mem_singleton.mp hm, ← hreject.bound, bindClient_eq_some_iff]
      exact haccepts.1
  · rw [hof]
    split_ifs with hclient
    · subst hclient
      rw [List.map_append, h.numbers, List.length_append, List.length_singleton, seqNums_succ,
        ← hexpected]
      rfl
    · rw [List.append_nil, h.numbers]
  · obtain ⟨pre, batch, hsplit, hbatch, hlength⟩ :=
      h.pending_message (.message socket rxTime request) (by simp)
    refine ⟨pre, batch, hsplit, hbatch, ?_⟩
    show (server.fifoSequencer.pendingClientRequests ++ [_]).length ≤ _
    rwa [List.length_append, List.length_singleton]

/-- The end of a round of reads keeps the invariant. -/
lemma Counting.recvFinished (h : Counting events server)
    (sort : List RecvTimeClientRequest → List RecvTimeClientRequest) :
    Counting (events ++ [.recvFinished]) (server.recvFinishedCallback sort) where
  bound clientId := (h.bound clientId).trans (firstSocket_recvFinished clientId).symm
  expected := h.expected
  socket m hm := firstSocket_append (h.socket m hm) _
  numbers := h.numbers
  pending := by
    refine ⟨events ++ [.recvFinished], [], (List.append_nil _).symm, List.not_mem_nil, ?_⟩
    rw [server.pending_recvFinishedCallback sort]
    exact Nat.le_refl 0

/-- How the receiving side can fail: a claimed client id is out of range, or the sequencer has no
room. -/
def CanFail (events : List Event) (e : Fault) : Prop :=
  e = .overrun ∧ (∃ event ∈ events, ¬ event.InRange) ∨
  e = .assert "Too many penging requests." ∧ Overfull events

/-- **An event keeps the invariant.** -/
theorem Counting.step (h : Counting events server)
    (sort : List RecvTimeClientRequest → List RecvTimeClientRequest) (event : Event) :
    Safe (CanFail (events ++ [event])) (Counting (events ++ [event])) (server.step sort event) := by
  cases event with
  | recvFinished => exact h.recvFinished sort
  | message socket rxTime request =>
    show Safe _ _ (server.onClientRequest socket rxTime request)
    by_cases hclient : request.meClientRequest.clientId < meMaxNumClients
    · by_cases haccepts : server.Accepts socket request
      · refine (safe_onClientRequest hclient haccepts).mono (fun e he => .inr ⟨he.1, ?_⟩)
          fun server' hserver' => hserver' ▸ h.accept rxTime haccepts
        obtain ⟨pre, batch, hsplit, hbatch, hlength⟩ :=
          h.pending_message (.message socket rxTime request) (by simp)
        have := he.2
        exact ⟨pre, batch, [], by rw [hsplit, List.append_nil], hbatch, by omega⟩
      · rw [onClientRequest_of_not_accepts hclient haccepts]
        exact h.reject socket rxTime request
    · unfold onClientRequest
      simp only [if_neg hclient]
      exact .inl ⟨rfl, _, List.mem_append_right _ (List.mem_singleton_self _), hclient⟩

/-- The invariant gives the guarantee. -/
lemma Counting.sequenced (h : Counting events server) : Sequenced events server where
  socket := h.socket
  numbers := h.numbers
  rejected socket rxTime request server' hserver' := by
    have hclient : request.meClientRequest.clientId < meMaxNumClients := by
      by_contra hclient
      unfold onClientRequest at hserver'
      simp only [if_neg hclient] at hserver'
      cases hserver'
    by_cases haccepts : server.Accepts socket request
    · left
      rw [(safe_onClientRequest hclient haccepts).of_eq_ok hserver']
      exact ⟨rfl, rfl⟩
    · right
      rw [onClientRequest_of_not_accepts hclient haccepts, Except.ok.injEq] at hserver'
      rw [← hserver', bindClient_eq]
      exact ⟨rfl, rfl, rfl⟩

end Step

/-- More events do not take a failure back. -/
lemma CanFail.mono {events : List Event} {e : Fault} (h : CanFail events e) (events' : List Event) :
    CanFail (events ++ events') e := by
  rcases h with ⟨he, event, hmem, hrange⟩ | ⟨he, pre, batch, post, hsplit, hfull⟩
  · exact .inl ⟨he, event, List.mem_append_left _ hmem, hrange⟩
  · exact .inr ⟨he, pre, batch, post ++ events', by rw [hsplit, List.append_assoc], hfull⟩

/-- **The requests of each client are forwarded in sequence**, in every run of messages with any client
ids and numbers on any sockets: they come from the socket that presented the client's id first, and they
carry the numbers 1, 2, 3, .... What is forwarded is what `addClientRequest` adds to the requests that the
sequencer holds, and nothing else is added. The server fails only when a claimed client id is out of range
or when the sequencer has no room for a round of reads. -/
theorem sequenced_of_run (sort : List RecvTimeClientRequest → List RecvTimeClientRequest)
    (events : List Event) :
    Safe (CanFail events) (Sequenced events) (events.foldlM (step sort) {}) := by
  have hstart : Counting [] {} :=
    { bound := fun _ => rfl
      expected := fun _ => rfl
      socket := by simp
      numbers := fun _ => rfl
      pending := ⟨[], [], rfl, List.not_mem_nil, Nat.le_refl 0⟩ }
  have hrun : Safe (CanFail events) (Counting events) (events.foldlM (step sort) {}) := by
    refine safe_foldlM_list hstart fun pre event post server hsplit h => ?_
    refine (h.step sort event).mono (fun e he => ?_) fun _ => id
    have := he.mono post
    rwa [List.append_assoc, List.singleton_append, ← hsplit] at this
  exact hrun.mono (fun _ => id) fun _ => Counting.sequenced

/-- Two sockets claim one client, and one of the messages skips a number. -/
example :
    let request n : OMClientRequest :=
      { seqNum := n, meClientRequest := { type := .new, clientId := 3 } }
    ([Event.message 10 0 (request 1), .message 20 0 (request 2), .message 10 0 (request 3),
        .message 10 0 (request 2), .recvFinished].foldlM (step id) {}).map
        (fun server => server.forwarded) =
      .ok [(10, request 1), (10, request 2)] := by
  rfl

end OrderServer

end Exchange

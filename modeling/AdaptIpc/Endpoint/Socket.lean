import AdaptIpc.Endpoint.Truncation
import AdaptIpc.Library.Fifo

/-!
# The datagram socket

`uds_send`, `uds_recv` and `uds_recv_timeout` around one bound socket, one step
per system call. Each repeats its calls behind interruptions, and `uds_send`
also behind a full queue of the peer, so a message is handed to the kernel more
than once; the kernel takes a datagram whole or not at all. Every call that
returns 0 has queued its message once, every failed one not at all, and a
receive takes one datagram or none.
-/

namespace AdaptIpc.Endpoint

open AdaptIpc.Policy AdaptIpc.Library.Transition AdaptIpc.Library.Fifo

set_option autoImplicit false

def Errno.enobufs : Errno := ⟨105, by decide, by decide⟩

/-- Those behind which `uds_send` backs off before it tries again. -/
def congested (code : Errno) : Bool :=
  code = Errno.enobufs || code = .etimedout

/-- The condition of its loop. -/
def transient (code : Errno) : Bool :=
  code = .eintr || congested code

inductive UdsSendPc where
  | idle
  | sendto (data : List UInt8)
  | nanosleep (data : List UInt8) (code : Errno)

inductive UdsRecvPc where
  | idle
  | poll (maxSize : Nat)
  | recvfrom (maxSize : Nat)

structure UdsReceipt where
  maxSize : Nat
  taken : Option (List UInt8)
  result : Except Errno (List UInt8)

/-- `sends` and `receipts` record what the calls returned. -/
structure SocketState where
  queue : List (List UInt8)
  sender : UdsSendPc
  receiver : UdsRecvPc
  sends : List (List UInt8 × Status)
  receipts : List UdsReceipt

inductive SocketAction where
  | callSend (data : Option (List UInt8))
  | sendto (answer : Except Errno Nat)
  | nanosleep (interrupted : Bool)
  | callRecv (buffer : Option Nat)
  | callRecvTimeout (buffer : Option Nat) (timeoutMs : Int)
  | poll (answer : Except Errno Bool)
  | recvfrom (failure : Option Errno)

def SocketState.returnSend (state : SocketState) (data : List UInt8) (rc : Status) :
    SocketState :=
  { state with sender := .idle, sends := state.sends ++ [(data, rc)] }

def callUdsSend (state : SocketState) (data : Option (List UInt8)) : SocketState :=
  match data with
  | none => state.returnSend [] (.error .einval)
  | some data =>
      if data.length = 0 then state.returnSend data (.error .einval)
      else if udsMaxDgram.toNat < data.length then state.returnSend data (.error .emsgsize)
      else { state with sender := .sendto data }

/-- What `sendto` answers; the kernel accepts a datagram with all its bytes. -/
def udsSendto (state : SocketState) (data : List UInt8) (answer : Except Errno Nat) :
    Option SocketState :=
  match answer with
  | .ok n =>
      if n = data.length then
        some ({ state with queue := state.queue ++ [data] }.returnSend data
          (if n ≠ data.length then .error .eio else .ok ()))
      else none
  | .error code =>
      some (if congested code then { state with sender := .nanosleep data code }
        else if transient code then { state with sender := .sendto data }
        else state.returnSend data (.error code))

/-- An interrupted sleep leaves its own `errno` for the condition of the loop. -/
def udsBackoff (state : SocketState) (data : List UInt8) (code : Errno) (interrupted : Bool) :
    SocketState :=
  let errno := if interrupted then .eintr else code
  if transient errno then { state with sender := .sendto data }
  else state.returnSend data (.error errno)

def SocketState.returnRecv (state : SocketState) (maxSize : Nat) (taken : Option (List UInt8))
    (result : Except Errno (List UInt8)) : SocketState :=
  { state with
    receiver := .idle
    receipts := state.receipts ++ [{ maxSize := maxSize, taken := taken, result := result }] }

def callUdsRecv (state : SocketState) (buffer : Option Nat) : SocketState :=
  match buffer with
  | none => state.returnRecv 0 none (.error .einval)
  | some maxSize =>
      if maxSize = 0 then state.returnRecv maxSize none (.error .einval)
      else { state with receiver := .recvfrom maxSize }

def callUdsRecvTimeout (state : SocketState) (buffer : Option Nat) (timeoutMs : Int) :
    SocketState :=
  match buffer with
  | none => state.returnRecv 0 none (.error .einval)
  | some maxSize =>
      if maxSize = 0 then state.returnRecv maxSize none (.error .einval)
      else if 0 < timeoutMs then { state with receiver := .poll maxSize }
      else { state with receiver := .recvfrom maxSize }

def udsPoll (state : SocketState) (maxSize : Nat) : Except Errno Bool → SocketState
  | .error code =>
      if code = .eintr then { state with receiver := .poll maxSize }
      else state.returnRecv maxSize none (.error code)
  | .ok false => state.returnRecv maxSize none (.error .eagain)
  | .ok true => { state with receiver := .recvfrom maxSize }

/-- Without a failure `recvfrom` takes the first datagram, or blocks. -/
def udsRecvfrom (state : SocketState) (maxSize : Nat) (failure : Option Errno) :
    Option SocketState :=
  match failure, state.queue with
  | some code, _ =>
      some (if code = .eintr then { state with receiver := .recvfrom maxSize }
        else state.returnRecv maxSize none (.error code))
  | none, [] => none
  | none, datagram :: rest =>
      let bytes := datagram.take maxSize
      some ({ state with queue := rest }.returnRecv maxSize (some datagram)
        (if bytes = [] then .error .econnreset else .ok bytes))

def socketStep (state : SocketState) : SocketAction → Option SocketState
  | .callSend data =>
      match state.sender with
      | .idle => some (callUdsSend state data)
      | _ => none
  | .sendto answer =>
      match state.sender with
      | .sendto data => udsSendto state data answer
      | _ => none
  | .nanosleep interrupted =>
      match state.sender with
      | .nanosleep data code => some (udsBackoff state data code interrupted)
      | _ => none
  | .callRecv buffer =>
      match state.receiver with
      | .idle => some (callUdsRecv state buffer)
      | _ => none
  | .callRecvTimeout buffer timeoutMs =>
      match state.receiver with
      | .idle => some (callUdsRecvTimeout state buffer timeoutMs)
      | _ => none
  | .poll answer =>
      match state.receiver with
      | .poll maxSize => some (udsPoll state maxSize answer)
      | _ => none
  | .recvfrom failure =>
      match state.receiver with
      | .recvfrom maxSize => udsRecvfrom state maxSize failure
      | _ => none

def boundSocket : SocketState where
  queue := []
  sender := .idle
  receiver := .idle
  sends := []
  receipts := []

/-- All interleavings of a sender and a receiver, and all answers of the system. -/
def socketMachine : Machine SocketState SocketAction where
  initial state := state = boundSocket
  step := socketStep

def sendAccepted (call : List UInt8 × Status) : Option (List UInt8) :=
  if call.2 = .ok () then some call.1 else none

def SocketState.accepted (state : SocketState) : List (List UInt8) :=
  state.sends.filterMap sendAccepted

def SocketState.taken (state : SocketState) : List (List UInt8) :=
  state.receipts.filterMap UdsReceipt.taken

def Sendable (data : List UInt8) : Prop :=
  0 < data.length ∧ data.length ≤ udsMaxDgram.toNat

/-- A return code of `uds_send` the caller can see. -/
def SendLawful (call : List UInt8 × Status) : Prop :=
  match call.2 with
  | .ok _ => Sendable call.1
  | .error code => transient code = false

def ReceiptLawful (receipt : UdsReceipt) : Prop :=
  match receipt.result with
  | .ok bytes => ∃ datagram, receipt.taken = some datagram ∧ Sendable datagram ∧ bytes ≠ [] ∧
      bytes = datagram.take receipt.maxSize
  | .error code => receipt.taken = none ∧ code ≠ .eintr

/-- The system calls on the socket: whether a datagram enters or leaves it, and what the
call in progress returns. -/
inductive SocketMove (state : SocketState) : SocketState → Prop where
  | sends (sender : UdsSendPc)
      (checked : ∀ data, (sender = .sendto data ∨ ∃ code, sender = .nanosleep data code) →
        Sendable data) :
      SocketMove state { state with sender := sender }
  | sendReturned (data : List UInt8) (code : Errno) (final : transient code = false) :
      SocketMove state (state.returnSend data (.error code))
  | accepted (data : List UInt8) (place : state.sender = .sendto data) :
      SocketMove state ({ state with queue := state.queue ++ [data] }.returnSend data (.ok ()))
  | receives (receiver : UdsRecvPc) (room : ∀ maxSize,
      (receiver = .poll maxSize ∨ receiver = .recvfrom maxSize) → 0 < maxSize) :
      SocketMove state { state with receiver := receiver }
  | recvReturned (maxSize : Nat) (code : Errno) (final : code ≠ .eintr)
      (nothing : maxSize = 0 → code = .einval) :
      SocketMove state (state.returnRecv maxSize none (.error code))
  | took (maxSize : Nat) (datagram : List UInt8) (rest : List (List UInt8))
      (place : state.receiver = .recvfrom maxSize) (front : state.queue = datagram :: rest) :
      SocketMove state ({ state with queue := rest }.returnRecv maxSize (some datagram)
        (if datagram.take maxSize = [] then .error .econnreset
          else .ok (datagram.take maxSize)))

structure SocketInv (state : SocketState) : Prop where
  sendable : ∀ data,
    (state.sender = .sendto data ∨ ∃ code, state.sender = .nanosleep data code) → Sendable data
  room : ∀ maxSize,
    (state.receiver = .poll maxSize ∨ state.receiver = .recvfrom maxSize) → 0 < maxSize
  queued : ∀ datagram ∈ state.queue, Sendable datagram
  sends : ∀ call ∈ state.sends, SendLawful call
  receipts : ∀ receipt ∈ state.receipts, ReceiptLawful receipt

section Steps

variable {state next : SocketState} {action : SocketAction}

theorem call_uds_send_move (data : Option (List UInt8)) :
    SocketMove state (callUdsSend state data) := by
  unfold callUdsSend
  split
  · exact .sendReturned [] .einval (by decide)
  · next data =>
    split
    · exact .sendReturned data .einval (by decide)
    · next nonempty =>
      split
      · exact .sendReturned data .emsgsize (by decide)
      · next short =>
        apply SocketMove.sends
        rintro other (same | ⟨code, same⟩)
        · cases same
          exact ⟨Nat.pos_of_ne_zero nonempty, Nat.not_lt.mp short⟩
        · cases same

theorem sendto_move (inv : SocketInv state) {data : List UInt8} {answer : Except Errno Nat}
    (place : state.sender = .sendto data) (answered : udsSendto state data answer = some next) :
    SocketMove state next := by
  have checked := inv.sendable data (Or.inl place)
  unfold udsSendto at answered
  split at answered
  · next n =>
    split at answered
    · next whole =>
      simp only [whole, ne_eq, not_true_eq_false, if_false, Option.some.injEq] at answered
      rw [← answered]
      exact .accepted data place
    · cases answered
  · next code =>
    simp only [Option.some.injEq] at answered
    rw [← answered]
    split
    · apply SocketMove.sends
      rintro other (same | ⟨last, same⟩) <;> cases same
      exact checked
    · split
      · apply SocketMove.sends
        rintro other (same | ⟨last, same⟩) <;> cases same
        exact checked
      · next final => exact .sendReturned data code (Bool.eq_false_iff.mpr final)

theorem backoff_move (inv : SocketInv state) {data : List UInt8} {code : Errno}
    (place : state.sender = .nanosleep data code) (interrupted : Bool) :
    SocketMove state (udsBackoff state data code interrupted) := by
  have checked := inv.sendable data (Or.inr ⟨code, place⟩)
  simp only [udsBackoff]
  cases again : transient (if interrupted = true then .eintr else code) with
  | true =>
      rw [if_pos rfl]
      apply SocketMove.sends
      rintro other (same | ⟨last, same⟩) <;> cases same
      exact checked
  | false => exact .sendReturned data _ again

theorem call_uds_recv_move (buffer : Option Nat) : SocketMove state (callUdsRecv state buffer) := by
  unfold callUdsRecv
  split
  · exact .recvReturned 0 .einval (by decide) fun _ => rfl
  · next maxSize =>
    split
    · exact .recvReturned maxSize .einval (by decide) fun _ => rfl
    · next nonzero =>
      apply SocketMove.receives
      rintro other (same | same) <;> cases same
      exact Nat.pos_of_ne_zero nonzero

theorem call_uds_recv_timeout_move (buffer : Option Nat) (timeoutMs : Int) :
    SocketMove state (callUdsRecvTimeout state buffer timeoutMs) := by
  unfold callUdsRecvTimeout
  split
  · exact .recvReturned 0 .einval (by decide) fun _ => rfl
  · next maxSize =>
    split
    · exact .recvReturned maxSize .einval (by decide) fun _ => rfl
    · next nonzero =>
      split
      · apply SocketMove.receives
        rintro other (same | same) <;> cases same
        exact Nat.pos_of_ne_zero nonzero
      · apply SocketMove.receives
        rintro other (same | same) <;> cases same
        exact Nat.pos_of_ne_zero nonzero

theorem poll_move (inv : SocketInv state) {maxSize : Nat} (place : state.receiver = .poll maxSize)
    (answer : Except Errno Bool) : SocketMove state (udsPoll state maxSize answer) := by
  have room := inv.room maxSize (Or.inl place)
  unfold udsPoll
  split
  · next code =>
    split
    · apply SocketMove.receives
      rintro other (same | same) <;> cases same
      exact room
    · next final =>
      exact .recvReturned maxSize code final fun zero => absurd zero (Nat.ne_of_gt room)
  · exact .recvReturned maxSize .eagain (by decide) fun zero => absurd zero (Nat.ne_of_gt room)
  · apply SocketMove.receives
    rintro other (same | same) <;> cases same
    exact room

theorem recvfrom_move (inv : SocketInv state) {maxSize : Nat} {failure : Option Errno}
    (place : state.receiver = .recvfrom maxSize)
    (answered : udsRecvfrom state maxSize failure = some next) : SocketMove state next := by
  have room := inv.room maxSize (Or.inr place)
  unfold udsRecvfrom at answered
  split at answered
  · next code =>
    simp only [Option.some.injEq] at answered
    rw [← answered]
    split
    · apply SocketMove.receives
      rintro other (same | same) <;> cases same
      exact room
    · next final =>
      exact .recvReturned maxSize code final fun zero => absurd zero (Nat.ne_of_gt room)
  · cases answered
  · next datagram rest front =>
    simp only [Option.some.injEq] at answered
    rw [← answered]
    exact .took maxSize datagram rest place front

theorem socket_step_move (inv : SocketInv state) (stepped : socketStep state action = some next) :
    SocketMove state next := by
  cases action with
  | callSend data =>
      simp only [socketStep] at stepped
      split at stepped <;> cases stepped
      exact call_uds_send_move data
  | sendto answer =>
      simp only [socketStep] at stepped
      split at stepped
      · next data place => exact sendto_move inv place stepped
      · cases stepped
  | nanosleep interrupted =>
      simp only [socketStep] at stepped
      split at stepped <;> cases stepped
      next data code place => exact backoff_move inv place interrupted
  | callRecv buffer =>
      simp only [socketStep] at stepped
      split at stepped <;> cases stepped
      exact call_uds_recv_move buffer
  | callRecvTimeout buffer timeoutMs =>
      simp only [socketStep] at stepped
      split at stepped <;> cases stepped
      exact call_uds_recv_timeout_move buffer timeoutMs
  | poll answer =>
      simp only [socketStep] at stepped
      split at stepped <;> cases stepped
      next maxSize place => exact poll_move inv place answer
  | recvfrom failure =>
      simp only [socketStep] at stepped
      split at stepped
      · next maxSize place => exact recvfrom_move inv place stepped
      · cases stepped

end Steps

def socketQueue (state : SocketState) : Queue (List UInt8) where
  pending := state.queue
  sent := state.accepted
  received := state.taken

section Runs

variable {state next : SocketState} {action : SocketAction}

theorem accepted_return (data : List UInt8) (rc : Status) :
    (state.returnSend data rc).accepted =
      state.accepted ++ (if rc = .ok () then [data] else []) := by
  simp only [SocketState.accepted, SocketState.returnSend, List.filterMap_append]
  by_cases zero : rc = .ok () <;> simp [sendAccepted, zero]

theorem taken_return (maxSize : Nat) (taken : Option (List UInt8))
    (result : Except Errno (List UInt8)) :
    (state.returnRecv maxSize taken result).taken = state.taken ++ taken.toList := by
  simp only [SocketState.taken, SocketState.returnRecv, List.filterMap_append]
  cases taken <;> rfl

/-- A datagram enters or leaves the queue in one step of the FIFO, else nothing does. -/
theorem socket_moves_queue (moved : SocketMove state next) :
    (fifo (List UInt8)).ReachableFrom (socketQueue state) (socketQueue next) := by
  cases moved with
  | sends sender checked => exact Relation.ReflTransGen.refl
  | receives receiver room => exact Relation.ReflTransGen.refl
  | sendReturned data code final =>
      have same : socketQueue (state.returnSend data (.error code)) = socketQueue state := by
        simp only [socketQueue, accepted_return, reduceCtorEq, if_false, List.append_nil]
        rfl
      rw [same]
      exact Relation.ReflTransGen.refl
  | recvReturned maxSize code final nothing =>
      have same : socketQueue (state.returnRecv maxSize none (.error code)) =
          socketQueue state := by
        simp only [socketQueue, taken_return, Option.toList_none, List.append_nil]
        rfl
      rw [same]
      exact Relation.ReflTransGen.refl
  | accepted data place =>
      have grown : socketQueue ({ state with queue := state.queue ++ [data] }.returnSend data
          (.ok ())) = { socketQueue state with
            pending := state.queue ++ [data]
            sent := state.accepted ++ [data] } := by
        simp only [socketQueue, accepted_return, if_true]
        rfl
      rw [grown]
      exact enqueue_reaches (socketQueue state) data
  | took maxSize datagram rest place front =>
      have less : socketQueue ({ state with queue := rest }.returnRecv maxSize (some datagram)
          (if datagram.take maxSize = [] then .error .econnreset
            else .ok (datagram.take maxSize))) = { socketQueue state with
              pending := rest
              received := state.taken ++ [datagram] } := by
        simp only [socketQueue, taken_return, Option.toList_some]
        rfl
      rw [less]
      exact dequeue_reaches (socketQueue state) datagram rest front

theorem socket_move_inv (inv : SocketInv state) (moved : SocketMove state next) :
    SocketInv next := by
  obtain ⟨sendable, room, queued, sends, receipts⟩ := inv
  cases moved with
  | sends sender checked => exact ⟨checked, room, queued, sends, receipts⟩
  | receives receiver enough => exact ⟨sendable, enough, queued, sends, receipts⟩
  | sendReturned data code final =>
      refine ⟨?_, room, queued, ?_, receipts⟩
      · rintro other (same | ⟨last, same⟩) <;> cases same
      · intro call member
        rcases List.mem_append.mp member with earlier | last
        · exact sends call earlier
        · rw [List.mem_singleton.mp last]
          exact final
  | accepted data place =>
      have checked := sendable data (Or.inl place)
      refine ⟨?_, room, ?_, ?_, receipts⟩
      · rintro other (same | ⟨last, same⟩) <;> cases same
      · intro datagram member
        rcases List.mem_append.mp member with earlier | last
        · exact queued datagram earlier
        · rw [List.mem_singleton.mp last]
          exact checked
      · intro call member
        rcases List.mem_append.mp member with earlier | last
        · exact sends call earlier
        · rw [List.mem_singleton.mp last]
          exact checked
  | recvReturned maxSize code final nothing =>
      refine ⟨sendable, ?_, queued, sends, ?_⟩
      · rintro other (same | same) <;> cases same
      · intro receipt member
        rcases List.mem_append.mp member with earlier | last
        · exact receipts receipt earlier
        · rw [List.mem_singleton.mp last]
          exact ⟨rfl, final⟩
  | took maxSize datagram rest place front =>
      have enough := room maxSize (Or.inr place)
      have checked : Sendable datagram := queued datagram (by rw [front]; exact List.mem_cons_self)
      have some_bytes : datagram.take maxSize ≠ [] := by
        intro nothing
        have lengths := congrArg List.length nothing
        have positive := checked.1
        simp only [List.length_take, List.length_nil] at lengths
        omega
      refine ⟨sendable, ?_, ?_, sends, ?_⟩
      · rintro other (same | same) <;> cases same
      · intro other member
        exact queued other (by rw [front]; exact List.mem_cons_of_mem datagram member)
      · intro receipt member
        rcases List.mem_append.mp member with earlier | last
        · exact receipts receipt earlier
        · rw [List.mem_singleton.mp last]
          simp only [ReceiptLawful, if_neg some_bytes]
          exact ⟨datagram, rfl, checked, some_bytes, rfl⟩

theorem socket_simulates_fifo :
    Simulation socketMachine (fifo (List UInt8))
      (fun state queue => SocketInv state ∧ queue = socketQueue state) where
  starts := by
    rintro state rfl
    refine ⟨Queue.empty, rfl, ⟨?_, ?_, ?_, ?_, ?_⟩, rfl⟩
    · rintro data (same | ⟨code, same⟩) <;> cases same
    · rintro maxSize (same | same) <;> cases same
    · exact fun datagram member => absurd member List.not_mem_nil
    · exact fun call member => absurd member List.not_mem_nil
    · exact fun receipt member => absurd member List.not_mem_nil
  steps := by
    rintro state action next _ ⟨inv, rfl⟩ stepped
    have moved := socket_step_move inv stepped
    exact ⟨socketQueue next, socket_moves_queue moved, socket_move_inv inv moved, rfl⟩

/-- The messages whose send returned 0 are those received and those still queued, in
order and each once, however often the calls were repeated. -/
theorem socket_exactly_once (reached : socketMachine.Reachable state) :
    state.accepted = state.taken ++ state.queue ∧
      (∀ call ∈ state.sends, SendLawful call) ∧
      ∀ receipt ∈ state.receipts, ReceiptLawful receipt ∧
        (udsMaxDgram.toNat ≤ receipt.maxSize → ∀ bytes, receipt.result = .ok bytes →
          receipt.taken = some bytes) := by
  obtain ⟨queue, abstractly, inv, rfl⟩ := socket_simulates_fifo.reachable reached
  refine ⟨sent_is_received_then_pending abstractly, inv.sends, ?_⟩
  intro receipt member
  have lawful := inv.receipts receipt member
  refine ⟨lawful, fun roomy bytes returned => ?_⟩
  simp only [ReceiptLawful, returned] at lawful
  obtain ⟨datagram, taken, checked, _, cut⟩ := lawful
  rw [taken, cut, List.take_of_length_le (Nat.le_trans checked.2 roomy)]

theorem socket_reachable_inv (reached : socketMachine.Reachable state) : SocketInv state := by
  obtain ⟨_, _, inv, _⟩ := socket_simulates_fifo.reachable reached
  exact inv

/-- Where a call of `uds_send` returns, the queue has grown by what the endpoint's model
hands to the kernel for this return code. -/
theorem send_return_modelled {call : List UInt8 × Status} (moved : SocketMove state next)
    (returned : next.sends = state.sends ++ [call]) :
    next.queue = state.queue ++ (if call.2 = .ok () then [call.1] else []) := by
  have unchanged : ∀ {sends : List (List UInt8 × Status)}, sends ≠ sends ++ [call] := by
    intro sends same
    have lengths := congrArg List.length same
    simp at lengths
  cases moved with
  | sends sender checked => exact absurd returned unchanged
  | receives receiver room => exact absurd returned unchanged
  | recvReturned maxSize code final nothing => exact absurd returned unchanged
  | took maxSize datagram rest place front => exact absurd returned unchanged
  | sendReturned data code final =>
      have same := List.append_cancel_left returned
      rw [← List.singleton_inj.mp same]
      simp [SocketState.returnSend]
  | accepted data place =>
      have same := List.append_cancel_left returned
      rw [← List.singleton_inj.mp same]
      simp [SocketState.returnSend]

/-- Where a receive returns, the endpoint's one-step receive on the same queue returns the
same and leaves the same. -/
theorem recv_return_modelled {receipt : UdsReceipt} {receiver : Receiver}
    (inv : SocketInv state) (moved : SocketMove state next)
    (returned : next.receipts = state.receipts ++ [receipt])
    (inbox : receiver.inbox = state.queue) (env : RecvEnv) :
    ∃ failure after, receiver.udsRecvTimeout { env with failure := failure } receipt.maxSize =
      some (receipt.result, after) ∧ after.inbox = next.queue := by
  have unchanged : ∀ {receipts : List UdsReceipt}, receipts ≠ receipts ++ [receipt] := by
    intro receipts same
    have lengths := congrArg List.length same
    simp at lengths
  cases moved with
  | sends sender checked => exact absurd returned unchanged
  | receives receiver room => exact absurd returned unchanged
  | sendReturned data code final => exact absurd returned unchanged
  | accepted data place => exact absurd returned unchanged
  | recvReturned maxSize code final nothing =>
      have same := List.append_cancel_left returned
      rw [← List.singleton_inj.mp same]
      refine ⟨some code, receiver, ?_, inbox⟩
      by_cases zero : maxSize = 0
      · simp [Receiver.udsRecvTimeout, zero, nothing zero]
      · simp [Receiver.udsRecvTimeout, zero]
  | took maxSize datagram rest place front =>
      have same := List.append_cancel_left returned
      have nonzero := Nat.ne_of_gt (inv.room maxSize (Or.inr place))
      rw [← List.singleton_inj.mp same]
      refine ⟨none, { receiver with inbox := rest }.note .uds datagram, ?_, rfl⟩
      simp only [Receiver.udsRecvTimeout, nonzero, if_false, inbox, front]

/-- The calls with their loops are the one-step calls of the endpoints. -/
theorem socket_calls_refine_endpoint (reached : socketMachine.Reachable state)
    (stepped : socketStep state action = some next) :
    (∀ call, next.sends = state.sends ++ [call] →
        next.queue = state.queue ++ (if call.2 = .ok () then [call.1] else [])) ∧
      ∀ receipt, next.receipts = state.receipts ++ [receipt] →
        ∀ (receiver : Receiver) (env : RecvEnv), receiver.inbox = state.queue →
          ∃ failure after, receiver.udsRecvTimeout { env with failure := failure }
            receipt.maxSize = some (receipt.result, after) ∧ after.inbox = next.queue := by
  have inv := socket_reachable_inv reached
  have moved := socket_step_move inv stepped
  exact ⟨fun call returned => send_return_modelled moved returned,
    fun receipt returned receiver env inbox =>
      recv_return_modelled inv moved returned inbox env⟩

/-- A send that meets a full queue, a signal in its sleep and one in its call, and a
receive that meets two. -/
def repeatedSend : List SocketAction :=
  [.callSend (some (udsFrame [1, 2, 3])), .sendto (.error Errno.enobufs), .nanosleep true,
    .sendto (.error .eintr), .sendto (.ok 4), .callRecvTimeout (some 4096) 2,
    .poll (.error .eintr), .poll (.ok true), .recvfrom (some .eintr)]

theorem socket_exactly_once_repeated : ∃ state,
    socketMachine.run boundSocket repeatedSend = some state ∧
      state.queue = [udsFrame [1, 2, 3]] ∧ state.accepted = state.taken ++ state.queue := by
  obtain ⟨state, ran, queue⟩ : ∃ state, socketMachine.run boundSocket repeatedSend = some state ∧
      state.queue = [udsFrame [1, 2, 3]] := ⟨_, rfl, rfl⟩
  have reached := Machine.reachable_run socketMachine rfl ran
  exact ⟨state, ran, queue, (socket_exactly_once reached).1⟩

theorem socket_calls_refine_endpoint_repeated : ∃ state next,
    socketMachine.run boundSocket repeatedSend = some state ∧
      socketStep state (.recvfrom none) = some next ∧
      ∃ failure after, threeBytesWaiting.udsRecvTimeout { quietRecv with failure := failure } 4096 =
        some (.ok (udsFrame [1, 2, 3]), after) ∧ after.inbox = next.queue := by
  obtain ⟨state, next, ran, stepped, queue, returned⟩ : ∃ state next,
      socketMachine.run boundSocket repeatedSend = some state ∧
        socketStep state (.recvfrom none) = some next ∧
        threeBytesWaiting.inbox = state.queue ∧
        next.receipts = state.receipts ++
          [{ maxSize := 4096, taken := some (udsFrame [1, 2, 3]),
             result := .ok (udsFrame [1, 2, 3]) }] := ⟨_, _, rfl, rfl, rfl, rfl⟩
  have reached := Machine.reachable_run socketMachine rfl ran
  exact ⟨state, next, ran, stepped,
    (socket_calls_refine_endpoint reached stepped).2 _ returned threeBytesWaiting quietRecv queue⟩

end Runs

end AdaptIpc.Endpoint

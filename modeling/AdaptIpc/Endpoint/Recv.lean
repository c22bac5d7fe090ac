import AdaptIpc.Endpoint.Control
import AdaptIpc.Ring.Machine
import Mathlib.Data.Int.Basic
import Mathlib.Tactic.NormNum

/-!
# `adapt_recv` over both transports

The consumer endpoint as a machine: each step of `adapt_recv` is one call on the
socket or the return of the `shm_ring_pop` it is in, whose own steps interleave
with the producer's. `adapt_recv_uds_timeout` polls the socket only and receives
straight into the caller's buffer. A datagram is the list of its bytes and
`recvfrom` keeps as many as fit. `receipts` only records what calls took off the
transports and returned.
-/

namespace AdaptIpc.Endpoint

open AdaptIpc.Ring AdaptIpc.Policy AdaptIpc.Library.Transition

set_option autoImplicit false

inductive RecvEntry where
  | recv
  | recvUds
  deriving DecidableEq

/-- One completed or running call: the size of its buffer, the records and whole
datagrams it took off the transports, the frames it gave to `handle_control`, and the
payload or code it returned. -/
structure Receipt where
  entry : RecvEntry
  maxSize : Nat
  met : List (AdaptRoute × List UInt8)
  handled : List (List UInt8)
  result : Except Int (List UInt8)
  deriving DecidableEq

/-- `tmoInMsg` counts the poll timeouts of the running call. -/
inductive RecvPc where
  | idle (result : Option (Except Int (List UInt8)))
  | popping (tmoInMsg : Nat)
  | polling (tmoInMsg : Nat)
  | pollingUds

/-- `inbox` holds the datagrams queued on the socket, `outbox` the ones the kernel has
accepted for the peer. `draft` is the call in progress. -/
structure Receiver where
  ring : RingState
  ctx : AdaptCtx
  inbox : List (List UInt8)
  outbox : List (List UInt8)
  pc : RecvPc
  draft : Receipt
  receipts : List Receipt

/-- What the calls of one step answer: the failure of `poll` or `recvfrom`, with
`-EAGAIN` for a timeout, and the answers inside `handle_control`. -/
structure RecvEnv where
  failure : Option Errno
  control : ControlEnv
  ackSent : Bool

/-- The conversion of a length to `int`. -/
def intOf (length : Nat) : Int := Int.bmod length (2 ^ 32)

def intCode (code : Errno) : Int := -code.code

/-- The `int` a transport call returns. -/
def intResult : Except Errno (List UInt8) → Int
  | .ok bytes => intOf bytes.length
  | .error code => intCode code

theorem int_of_short {length : Nat} (short : length < 2 ^ 31) : intOf length = length := by
  apply Int.bmod_eq_of_le_mul_two
  · push_cast
    omega
  · push_cast
    omega

theorem int_code_negative (code : Errno) : intCode code < 0 := by
  have positive := code.positive
  simp only [intCode]
  omega

theorem error_not_positive (code : Errno) : ¬0 < intResult (.error code) :=
  Int.not_lt.mpr (Int.le_of_lt (int_code_negative code))

/-- The bytes it left in the buffer. -/
def bufferBytes : Except Errno (List UInt8) → List UInt8
  | .ok bytes => bytes
  | .error _ => []

def openReceipt (entry : RecvEntry) (maxSize : Nat) : Receipt where
  entry := entry
  maxSize := maxSize
  met := []
  handled := []
  result := .ok []

def Receiver.closed (receiver : Receiver) (result : Except Int (List UInt8)) : Receipt :=
  { receiver.draft with result := result }

def Receiver.finish (receiver : Receiver) (result : Except Int (List UInt8)) : Receiver :=
  { receiver with
    pc := .idle (some result)
    receipts := receiver.receipts ++ [receiver.closed result] }

def Receiver.note (receiver : Receiver) (route : AdaptRoute) (frame : List UInt8) : Receiver :=
  { receiver with
    draft := { receiver.draft with met := receiver.draft.met ++ [(route, frame)] } }

/-- The top of the loop of `adapt_recv`: a mapped ring is polled first. -/
def Receiver.loop (receiver : Receiver) (tmoInMsg : Nat) : Option Receiver :=
  let counted := { receiver with
    ctx := receiver.ctx.count fun st => { st with recvLoopIters := st.recvLoopIters + 1 } }
  if receiver.ctx.ring.isSome then
    (callPop receiver.ring receiver.ctx.rxbufCap.toNat).map fun ring =>
      { counted with ring := ring, pc := .popping tmoInMsg }
  else some { counted with pc := .polling tmoInMsg }

def countShm (tmoInMsg : Nat) (st : AdaptStats) : AdaptStats :=
  if 0 < tmoInMsg then { st with recvMsgs := st.recvMsgs + 1, rxShmLater := st.rxShmLater + 1 }
  else { st with recvMsgs := st.recvMsgs + 1, rxShmFirst := st.rxShmFirst + 1 }

def countUds (tmoInMsg : Nat) (st : AdaptStats) : AdaptStats :=
  if 0 < tmoInMsg then { st with recvMsgs := st.recvMsgs + 1, rxUdsLater := st.rxUdsLater + 1 }
  else { st with recvMsgs := st.recvMsgs + 1, rxUdsPrompt := st.rxUdsPrompt + 1 }

/-- The caller's size is checked and the payload behind the tag of `tmp` copied out. -/
def Receiver.deliver (receiver : Receiver) (n : Int) (tmp : List UInt8)
    (counter : AdaptStats → AdaptStats) : Receiver :=
  if receiver.draft.maxSize < n.toNat - 1 then
    receiver.finish (.error (intCode .emsgsize))
  else
    { receiver with ctx := receiver.ctx.count counter }.finish
      (.ok ((tmp.drop 1).take (n.toNat - 1)))

/-- None where nothing is queued and the wait goes on. -/
def Receiver.udsRecvTimeout (receiver : Receiver) (env : RecvEnv) (maxSize : Nat) :
    Option (Except Errno (List UInt8) × Receiver) :=
  if maxSize = 0 then some (.error .einval, receiver)
  else
    match env.failure, receiver.inbox with
    | some code, _ => some (.error code, receiver)
    | none, [] => none
    | none, datagram :: rest =>
        let bytes := datagram.take maxSize
        some (if bytes = [] then .error .econnreset else .ok bytes,
          { receiver with inbox := rest }.note .uds datagram)

/-- The ring object as `ring_map` hands it to the consumer. -/
def attachConsumerRing (ring : RingState) (handle : RingHandle) : RingState :=
  { ring with consumerCapacity := .ofSize handle.capacity, consumer := .idle none }

/-- The ring object after `handle_control`, which may just have mapped it. -/
def servedRing (ring : RingState) (before after : Option RingHandle) : RingState :=
  match before, after with
  | none, some handle => attachConsumerRing ring handle
  | _, _ => ring

/-- `handle_control` with its effects on the ring and the peer's socket. -/
def Receiver.serve (receiver : Receiver) (env : RecvEnv) (frame : List UInt8) :
    Option Receiver :=
  (handleControl env.control receiver.ctx frame).map fun (ctx, ack) =>
    { receiver with
      ring := servedRing receiver.ring receiver.ctx.ring ctx.ring
      ctx := ctx
      outbox := receiver.outbox ++ (if env.ackSent then ack.toList else [])
      draft := { receiver.draft with handled := receiver.draft.handled ++ [frame] } }

def isControl (frame : List UInt8) : Bool := decide (frame.head? = some adaptWireTagCtrl)

/-- The argument checks of `adapt_recv`; no buffer is a null pointer. -/
def checkBuffer (ctx : AdaptCtx) (buffer : Option Nat) : Except Errno Nat :=
  match buffer with
  | none => .error .einval
  | some maxSize =>
      if maxSize = 0 then .error .einval
      else if ctx.role ≠ .consumer then .error .eperm
      else if maxSize < 2 then .error .emsgsize
      else .ok maxSize

/-- Those of `adapt_recv_uds_timeout`. -/
def checkBufferUds (buffer : Option Nat) : Except Errno Nat :=
  match buffer with
  | none => .error .einval
  | some maxSize => if maxSize = 0 then .error .einval else .ok maxSize

def Receiver.opened (receiver : Receiver) (entry : RecvEntry) (buffer : Option Nat) : Receiver :=
  { receiver with draft := openReceipt entry (buffer.getD 0) }

def Receiver.call (receiver : Receiver) (entry : RecvEntry) (buffer : Option Nat) :
    Option Receiver :=
  match receiver.pc with
  | .idle _ =>
      let opened := receiver.opened entry buffer
      match entry with
      | .recv =>
          match checkBuffer receiver.ctx buffer with
          | .error code => some (opened.finish (.error (intCode code)))
          | .ok _ => opened.loop 0
      | .recvUds =>
          match checkBufferUds buffer with
          | .error code => some (opened.finish (.error (intCode code)))
          | .ok _ => some { opened with pc := .pollingUds }
  | _ => none

def popResult (ring : RingState) : Option (Except Errno (List UInt8)) :=
  match ring.consumer with
  | .idle (some result) => some result
  | _ => none

def Receiver.notePopped (receiver : Receiver) : Except Errno (List UInt8) → Receiver
  | .ok frame => receiver.note .shm frame
  | .error _ => receiver

def Receiver.step (receiver : Receiver) (env : RecvEnv) : Option Receiver :=
  match receiver.pc with
  | .idle _ => none
  | .popping tmoInMsg =>
      match popResult receiver.ring with
      | none => none
      | some result =>
          let n := intResult result
          let noted := receiver.notePopped result
          if 0 < n then some (noted.deliver n (bufferBytes result) (countShm tmoInMsg))
          else if n ≠ intCode .eagain then some (noted.finish (.error n))
          else some { noted with pc := .polling tmoInMsg }
  | .polling tmoInMsg =>
      match receiver.udsRecvTimeout env receiver.ctx.rxbufCap.toNat with
      | none => none
      | some (result, received) =>
          let n := intResult result
          let tmp := bufferBytes result
          let polled := { received with
            ctx := received.ctx.count fun st => { st with pollCalls := st.pollCalls + 1 } }
          if 1 < n then
            if isControl tmp then (polled.serve env tmp).bind fun served => served.loop 0
            else some (polled.deliver n tmp (countUds tmoInMsg))
          else if n ≤ 0 ∧ n ≠ intCode .eagain then some (polled.finish (.error n))
          else
            { polled with
              ctx := polled.ctx.count fun st => { st with pollTimeouts := st.pollTimeouts + 1 }
              }.loop (if polled.ctx.statsOn then tmoInMsg + 1 else tmoInMsg)
  | .pollingUds =>
      match receiver.udsRecvTimeout env receiver.draft.maxSize with
      | none => none
      | some (result, received) =>
          let n := intResult result
          let ub := bufferBytes result
          if n ≤ 0 then some (received.finish (.error n))
          else if isControl ub then received.serve env ub
          else if received.draft.maxSize < n.toNat - 1 then
            some (received.finish (.error (intCode .emsgsize)))
          else some (received.finish (.ok ((ub.drop 1).take (n.toNat - 1))))

inductive RecvAction where
  | call (entry : RecvEntry) (buffer : Option Nat)
  | step (env : RecvEnv)
  | ring (action : RingAction)
  | arrive (datagram : List UInt8)

def recvStep (receiver : Receiver) : RecvAction → Option Receiver
  | .call entry buffer => receiver.call entry buffer
  | .step env => receiver.step env
  | .ring action =>
      if action.entersConsumer then none
      else (ringStep receiver.ring action).map fun ring => { receiver with ring := ring }
  | .arrive datagram => some { receiver with inbox := receiver.inbox ++ [datagram] }

end AdaptIpc.Endpoint

import AdaptIpc.Endpoint.RecvRing
import AdaptIpc.Ring.Pop

/-!
# What later receive calls return

Calls of `adapt_recv` that nothing else interrupts return the pending messages one
after the other: the records of the mapped ring first, then the data frames of the
socket, as long as every pending record fits the scratch buffer and an `int`.
-/

namespace AdaptIpc.Endpoint

open AdaptIpc.Ring AdaptIpc.Policy AdaptIpc.Library.Bytes AdaptIpc.Library.Cursor
open AdaptIpc.Library.Transition

set_option autoImplicit false

/-- A call of `adapt_recv` in progress has passed its checks. -/
def CallAt (ctx : AdaptCtx) (draft : Receipt) : RecvPc → Prop
  | .idle _ => True
  | .pollingUds => draft.entry = .recvUds
  | _ => draft.entry = .recv ∧ 2 ≤ draft.maxSize ∧ ctx.role = .consumer

def RecvHolds (origin : List (List UInt8)) (receiver : Receiver) : Prop :=
  CallAt receiver.ctx receiver.draft receiver.pc ∧ ∃ head tail slots,
    RecvRing origin receiver head tail slots ∧
      receiver.ring.pushed = receiver.ring.taken ++ payloads slots

section Steps

variable {origin : List (List UInt8)} {receiver next : Receiver} {head tail : Nat}
variable {slots : List Slot}

theorem looped_call_at {ready : Receiver} (looped : Looped ready next)
    (entry : ready.draft.entry = .recv) (room : 2 ≤ ready.draft.maxSize)
    (role : ready.ctx.role = .consumer) : CallAt next.ctx next.draft next.pc := by
  have kept : (ready.ctx.count countLoop).role = .consumer :=
    (count_scratch ready.ctx countLoop).2.2.trans role
  cases looped with
  | polls tmoInMsg ring mapped called => exact ⟨entry, room, kept⟩
  | waits tmoInMsg unmapped => exact ⟨entry, room, kept⟩

theorem check_buffer_ok {ctx : AdaptCtx} {buffer : Option Nat} {maxSize : Nat}
    (good : checkBuffer ctx buffer = .ok maxSize) :
    buffer = some maxSize ∧ ctx.role = .consumer ∧ 2 ≤ maxSize := by
  cases buffer with
  | none => cases good
  | some size =>
      simp only [checkBuffer] at good
      split_ifs at good with empty role small
      cases good
      exact ⟨rfl, not_not.mp role, Nat.not_lt.mp small⟩

theorem serve_role {env : RecvEnv} {frame : List UInt8} {served : Receiver}
    (handled : receiver.serve env frame = some served) : served.ctx.role = receiver.ctx.role := by
  obtain ⟨⟨ctx, ack⟩, control, rfl⟩ := Option.map_eq_some_iff.mp handled
  cases handle_control_effect control with
  | unmapped ring rxbufCap role => exact role
  | mapped cap32 name capacity vacant read rounded ring rxbufCap role => exact role

end Steps

def Receiver.pendingRecords (receiver : Receiver) : List (List UInt8) :=
  if receiver.ctx.ring.isSome then receiver.ring.pushed.drop receiver.ring.taken.length else []

def Receiver.pendingData (receiver : Receiver) : List (List UInt8) :=
  receiver.inbox.filter fun frame => !isControl frame

def Receiver.pending (receiver : Receiver) : List (List UInt8) :=
  receiver.pendingRecords ++ receiver.pendingData

structure SameEnds (before after : Receiver) : Prop where
  ring : after.ctx.ring = before.ctx.ring
  rxbufCap : after.ctx.rxbufCap = before.ctx.rxbufCap
  role : after.ctx.role = before.ctx.role

theorem SameEnds.trans {first second third : Receiver} (early : SameEnds first second)
    (late : SameEnds second third) : SameEnds first third where
  ring := late.ring.trans early.ring
  rxbufCap := late.rxbufCap.trans early.rxbufCap
  role := late.role.trans early.role

theorem counted_ends (receiver : Receiver) (counter : AdaptStats → AdaptStats) :
    SameEnds receiver (receiver.counted counter) := by
  obtain ⟨ring, rxbufCap, role⟩ := count_scratch receiver.ctx counter
  exact ⟨ring, rxbufCap, role⟩

/-- Calls in which nothing fails but `shm_open`. -/
def refusedRecv : RecvEnv where
  failure := none
  control := { map := { MapEnv.succeeding with shmOpen := .error .eio }, realloc := true }
  ackSent := true

section Calls

variable {origin : List (List UInt8)} {receiver next : Receiver} {maxSize : Nat}

theorem delivers_whole {tmp : List UInt8} (counter : AdaptStats → AdaptStats)
    (short : tmp.length < 2 ^ 31) (large : tmp.length ≤ receiver.draft.maxSize + 1) :
    SameEnds receiver (receiver.deliver (intOf tmp.length) tmp counter) ∧
      (receiver.deliver (intOf tmp.length) tmp counter).receipts =
        receiver.receipts ++ [receiver.closed (.ok (tmp.drop 1))] ∧
      (receiver.deliver (intOf tmp.length) tmp counter).pc = .idle (some (.ok (tmp.drop 1))) ∧
      (receiver.deliver (intOf tmp.length) tmp counter).inbox = receiver.inbox ∧
      (receiver.deliver (intOf tmp.length) tmp counter).ring = receiver.ring := by
  have value := int_of_short short
  have fits : ¬receiver.draft.maxSize < (intOf tmp.length).toNat - 1 := by
    rw [value]
    omega
  have whole : (tmp.drop 1).take ((intOf tmp.length).toNat - 1) = tmp.drop 1 := by
    apply List.take_of_length_le
    rw [value, List.length_drop]
    omega
  have counted := counted_ends receiver counter
  simp only [Receiver.deliver, fits, if_false, whole]
  exact ⟨⟨counted.ring, counted.rxbufCap, counted.role⟩, rfl, rfl, rfl, rfl⟩

theorem positive_length {frame : List UInt8} (nonempty : frame ≠ [])
    (short : frame.length < 2 ^ 31) : 0 < intOf frame.length := by
  have length := List.length_pos_iff.mpr nonempty
  rw [int_of_short short]
  omega

def Receiver.polls (receiver : Receiver) (tmoInMsg : Nat) : Receiver :=
  { receiver.counted countLoop with
    ring := { receiver.ring with consumer := .loadTail receiver.ctx.rxbufCap.toNat }
    pc := .popping tmoInMsg }

theorem mapped_rests {ctx : AdaptCtx} {consumer : ConsumerPc} (attached : Attached ctx consumer)
    (mapped : ctx.ring.isSome = true) : ∃ result, consumer = .idle result := by
  rcases attached with ⟨_, rest⟩ | ⟨unmapped, _⟩
  · exact rest
  · rw [unmapped] at mapped
    cases mapped

theorem RecvHolds.rests {before : Option (Except Int (List UInt8))}
    (held : RecvHolds origin receiver) (idle : receiver.pc = .idle before)
    (mapped : receiver.ctx.ring.isSome = true) :
    ∃ result, receiver.ring.consumer = .idle result := by
  obtain ⟨_, _, _, _, ring, _⟩ := held
  have place := ring.place
  rw [idle] at place
  exact mapped_rests place.1 mapped

structure Waiting (origin : List (List UInt8)) (maxSize : Nat) (receiver : Receiver) : Prop where
  held : RecvHolds origin receiver
  polling : ∃ tmoInMsg, receiver.pc = .polling tmoInMsg
  size : receiver.draft.maxSize = maxSize
  empty : receiver.pendingRecords = []

theorem Waiting.takes {frame : List UInt8} {queue : List (List UInt8)}
    (waiting : Waiting origin maxSize receiver) (queued : receiver.inbox = frame :: queue) :
    PeerDatagram frame ∧ receiver.udsRecvTimeout refusedRecv receiver.ctx.rxbufCap.toNat =
      some (.ok frame, { receiver with inbox := queue }.note .uds frame) := by
  obtain ⟨_, _, _, _, ring, _⟩ := waiting.held
  have peer := (ring.inbox frame (by rw [queued]; exact List.mem_cons_self)).1
  have scratch := UInt64.le_iff_toNat_le.mp ring.scratch
  have most : udsMaxDgram.toNat = 4096 := rfl
  have whole : frame.take receiver.ctx.rxbufCap.toNat = frame :=
    List.take_of_length_le (by have small := peer.2.1; omega)
  have nonempty : frame ≠ [] := by
    have large := peer.1
    rintro rfl
    simp at large
  refine ⟨peer, ?_⟩
  have room : receiver.ctx.rxbufCap.toNat ≠ 0 := by omega
  have quiet : refusedRecv.failure = none := rfl
  simp only [Receiver.udsRecvTimeout, room, quiet, queued, whole, nonempty, if_false]

end Calls

end AdaptIpc.Endpoint

import AdaptIpc.Endpoint.Redelivery
import Mathlib.Algebra.Order.BigOperators.Group.List

/-!
# Receiving into a short buffer

`shm_ring_pop` leaves a record that does not fit where it is. `adapt_recv` pops into
its scratch buffer and looks at the caller's size afterwards: a message too long for
the caller is gone by then. A call that answers `-EMSGSIZE` has kept everything only
where it refused the buffer before looking at a transport, and what is pending can
be received afterwards only if the records fit the scratch buffer.
-/

namespace AdaptIpc.Endpoint

open AdaptIpc.Ring AdaptIpc.Policy AdaptIpc.Library.Bytes AdaptIpc.Library.Transition

set_option autoImplicit false

section Bounds

variable {origin : List (List UInt8)} {receiver next : Receiver} {head tail : Nat}
variable {slots : List Slot}

theorem SameEnds.mapping {before after : Receiver} (ends : SameEnds before after)
    (mapped : before.ctx.ring.isSome = true) : after.ctx.ring.isSome = true := by
  rw [ends.ring]
  exact mapped

end Bounds

def NothingTaken (receipt : Receipt) : Prop :=
  ∀ message ∈ receipt.met, message.1 = .uds ∧ isControl message.2 = true

inductive Refused (before after : Receiver) (receipt : Receipt) : Prop where
  | atOnce (small : receipt.maxSize < 2) (untouched : receipt.met = [])
      (idle : ∃ result, after.pc = .idle result) (role : after.ctx.role = .consumer)
      (ends : SameEnds before after) (ring : after.ring = before.ring)
  | lost (large : 2 ≤ receipt.maxSize) (taken : ¬NothingTaken receipt)
  | stuck (large : 2 ≤ receipt.maxSize) (frame : List UInt8)
      (pending : frame ∈ after.pendingRecords)
      (exceeds : after.ctx.rxbufCap.toNat < frame.length)

section Refusals

variable {origin : List (List UInt8)} {before after : Receiver} {receipt : Receipt}

end Refusals

end AdaptIpc.Endpoint

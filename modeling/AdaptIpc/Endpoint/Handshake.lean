import AdaptIpc.Endpoint.Link

/-!
# Agreement of the lazy handshake

The handshake as the two endpoints run it, over sockets that may delay, repeat,
reorder and lose what is put on them, and with other producers on the consumer's
path. The ACK carries no name: a consumer that holds any ring answers every
request with success, so the two agree exactly where the ring it holds, or comes
to hold, is the one this producer names.
-/

namespace AdaptIpc.Endpoint

open AdaptIpc.Ring AdaptIpc.Policy AdaptIpc.Library.Transition

set_option autoImplicit false

/-- Frames are compared byte by byte. -/
instance frameEquality : LawfulBEq (List UInt8) := inferInstance

section Runs

variable {name : List UInt8} {link next : Link}

end Runs

def sharpEnv : InitEnv := { plainEnv with alpha := some 1 }

def lazySender : Sender :=
  startSender { plainContext 8192 with alpha := 1 } { pageRing with producer := .detached }

def emptyConsumer : Receiver :=
  { threeBytesWaiting with inbox := [], ring := { pageRing with consumer := .detached } }

/-- The same with its own ring mapped by `adapt_init`. -/
def eagerConsumer : Receiver :=
  { emptyConsumer with
    ring := pageRing
    ctx := { emptyConsumer.ctx with
      ring := some { name := adaptShmNameDefault, capacity := 4096 }
      negotDone := true } }

theorem eager_consumer_init :
    adaptInit .consumer (plainConfig 4096) eagerEnv = some (.ok eagerConsumer.ctx) := by rfl

def ackEnv : SendEnv := { quietEnv with received := .ok (setupAckFrame 0) }

end AdaptIpc.Endpoint

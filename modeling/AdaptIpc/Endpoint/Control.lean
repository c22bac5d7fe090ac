import AdaptIpc.Endpoint.Context
import AdaptIpc.Library.Bytes
import Mathlib.Data.Nat.Digits.Defs

/-!
# Control frames

The `SHM_SETUP_REQ` / `SHM_SETUP_ACK` frames as the two sides build and read
them: `generate_shm_name`, the sending and waiting halves of
`producer_ensure_shm`, and `handle_control`. A frame is the list of its bytes;
what `ring_map` and `realloc` answer is a parameter.
-/

namespace AdaptIpc.Endpoint

open AdaptIpc.Ring AdaptIpc.Policy AdaptIpc.Library.Bytes

set_option autoImplicit false

def adaptWireTagCtrl : UInt8 := 0
def adaptCtrlShmSetupReq : UInt8 := 1
def adaptCtrlShmSetupAck : UInt8 := 2
def adaptNegotDeadlineNs : UInt64 := 250000000
def adaptNegotResendNs : UInt64 := 100000000

/-- `%ld` and `%u` of a non-negative value. -/
def decimal (value : Nat) : List UInt8 :=
  if value = 0 then [48] else (Nat.digits 10 value).reverse.map fun digit => 48 + UInt8.ofNat digit

def shmNamePrefix : List UInt8 := [47, 97, 100, 97, 112, 116, 105, 112, 99, 95, 115, 104, 109, 95]

/-- `snprintf` of `/adaptipc_shm_<pid>_<counter>` into 64 bytes, without the NUL.
The counter is the one before its increment. -/
def generateShmName (pid : Nat) (negCounter : UInt32) : List UInt8 :=
  (shmNamePrefix ++ decimal pid ++ [95] ++ decimal (negCounter + 1).toNat).take 63

/-- The frame of `SHM_SETUP_REQ`; the capacity is narrowed to 32 bits. -/
def setupReqFrame (shmCapacity : UInt64) (name : List UInt8) : List UInt8 :=
  [adaptWireTagCtrl, adaptCtrlShmSetupReq] ++ leBytes 4 shmCapacity.toUInt32.toNat ++ name ++ [0]

def requestDue (ctx : AdaptCtx) (nowNs : UInt64) : Bool :=
  decide (adaptNegotResendNs < nowNs - ctx.lastReqNs)

def nameRing (ctx : AdaptCtx) (pid : Nat) (negCounter : UInt32) : AdaptCtx :=
  if ctx.negName = [] then { ctx with negName := generateShmName pid negCounter } else ctx

def requestSent (ctx : AdaptCtx) (nowNs : UInt64) : AdaptCtx :=
  { ctx.count (fun st => { st with shmSetupReqs := st.shmSetupReqs + 1 }) with
    lastReqNs := nowNs }

def isSetupAck (frame : List UInt8) : Bool :=
  match frame with
  | tag :: type :: status :: _ =>
      decide (tag = adaptWireTagCtrl ∧ type = adaptCtrlShmSetupAck ∧ status = 0)
  | _ => false

def ackReceived (ctx : AdaptCtx) : AdaptCtx :=
  ctx.count fun st => { st with shmSetupAcks := st.shmSetupAcks + 1 }

/-- `ring_map` of the negotiated name by the producer, before its header stores. -/
def mapNegotiated (env : MapEnv) (ctx : AdaptCtx) : Option (Except Errno AdaptCtx) :=
  match ringMap env ctx.negName ctx.shmCapacity with
  | none => none
  | some (.error code) => some (.error code)
  | some (.ok capacity) =>
      some (.ok { ctx with ring := some { name := ctx.negName, capacity := capacity } })

/-- The end of `producer_map_ring` and of a successful `producer_ensure_shm`; a
failed `realloc` closes the ring again. -/
def finishMapping (realloc : Bool) (ctx : AdaptCtx) : Status × AdaptCtx :=
  match growRxbuf realloc ctx ctx.shmCapacity with
  | none => (.error .enomem, { ctx with ring := none })
  | some grown => (.ok (), { grown with negotDone := true })

/-- A `SHM_SETUP_REQ` as `handle_control` reads it: the capacity word and the
NUL-terminated name. -/
def parseSetupReq (frame : List UInt8) : Option (UInt32 × List UInt8) :=
  if frame.length < 2 then none
  else if frame[1]? ≠ some adaptCtrlShmSetupReq then none
  else if frame.length < 7 then none
  else
    let cap32 := leValue ((frame.drop 2).take 4)
    let name := frame.drop 6
    if cap32 = 0 ∨ 2 ^ 30 < cap32 then none
    else if 0 ∉ name then none
    else some (UInt32.ofNat cap32, name.takeWhile (· ≠ 0))

/-- What the calls inside `handle_control` answer. -/
structure ControlEnv where
  map : MapEnv
  realloc : Bool

/-- The mapping `handle_control` makes if none exists, with the status byte:
`(uint8_t)(-rc)`, and `(uint8_t)-ENOMEM` where the buffer does not grow. -/
def attachNamed (env : ControlEnv) (ctx : AdaptCtx) (cap32 : UInt32) (name : List UInt8) :
    Option (AdaptCtx × UInt8) :=
  match ctx.ring with
  | some _ => some (ctx, 0)
  | none =>
      match ringMap env.map name cap32.toUInt64 with
      | none => none
      | some (.error code) => some (ctx, UInt8.ofNat code.code)
      | some (.ok capacity) =>
          match growRxbuf env.realloc { ctx with ring := some { name, capacity } }
              cap32.toUInt64 with
          | none => some (ctx, 0 - UInt8.ofNat Errno.enomem.code)
          | some grown => some (grown, 0)

def setupAckFrame (status : UInt8) : List UInt8 := [adaptWireTagCtrl, adaptCtrlShmSetupAck, status]

/-- The new context and the ACK to send; the result of sending it is ignored. None
where `ring_map` does not return. -/
def handleControl (env : ControlEnv) (ctx : AdaptCtx) (frame : List UInt8) :
    Option (AdaptCtx × Option (List UInt8)) :=
  match parseSetupReq frame with
  | none => some (ctx, none)
  | some (cap32, name) =>
      match attachNamed env ctx cap32 name with
      | none => none
      | some (ctx, status) =>
          some (if status = 0 then
              ctx.count fun st => { st with shmSetupAcks := st.shmSetupAcks + 1 }
            else ctx, some (setupAckFrame status))

end AdaptIpc.Endpoint

import AdaptIpc.Errno
import AdaptIpc.Library.Bytes
import AdaptIpc.Library.Cursor

/-!
# The shared-memory ring: layout and single calls

The header and data region of `shm_ringbuffer.c`, with the arithmetic of
`shm_ring_push`, `shm_ring_push_scatter` and `shm_ring_pop` on 64-bit words as
the source computes it. A push is split into its argument check, its space
check and the list of byte stores it makes, so that the interleaved machine and
the uninterrupted call run the same code.
-/

namespace AdaptIpc.Ring

open AdaptIpc.Library.Bytes AdaptIpc.Library.Cursor

set_option autoImplicit false

/-- A capacity `round_pow2` can return: a power of two of at least a page. -/
structure RingCapacity where
  log : Nat
  page : 12 ≤ log
  word : log ≤ 63
  deriving DecidableEq

def RingCapacity.bytes (capacity : RingCapacity) : Nat := 2 ^ capacity.log

/-- The `size_t` stored in the handle. -/
def RingCapacity.size (capacity : RingCapacity) : UInt64 := cursor capacity.bytes

def shmRingMsgHdrSize : UInt64 := 4
def shmHwPct : UInt64 := 80
def shmLwPct : UInt64 := 20
def wrapSentinelLen : Nat := 0

/-- `capacity * SHM_HW_PCT / 100` in 64-bit arithmetic. -/
def hwBytes (capacity : RingCapacity) : UInt64 := capacity.size * shmHwPct / 100

def lwBytes (capacity : RingCapacity) : UInt64 := capacity.size * shmLwPct / 100

/-- `shm_ring_header` followed by the data region. Addresses of `data` from the
capacity on are the scratch bytes a sentinel may touch. -/
structure ShmObject where
  head : UInt64
  tail : UInt64
  parks : UInt64
  capacity : UInt64
  magic : UInt32
  initialized : UInt32
  flowFlag : Int
  data : Memory

/-- `shm_segment_t`: a null base with its length, or the bytes it points at. -/
inductive ShmSegment where
  | null (len : UInt64)
  | bytes (content : List UInt8)
  deriving DecidableEq

def ShmSegment.len : ShmSegment → UInt64
  | .null len => len
  | .bytes content => UInt64.ofNat content.length

def ShmSegment.content : ShmSegment → List UInt8
  | .null _ => []
  | .bytes content => content

def ShmSegment.isNull : ShmSegment → Bool
  | .null _ => true
  | .bytes _ => false

/-- The checks of `shm_ring_push`; the result is `need`, the record with its header. -/
def shmRingPushNeed (capacity : RingCapacity) : Option (List UInt8) → Except Errno UInt64
  | none => .error .einval
  | some data =>
      let size := UInt64.ofNat data.length
      if size = 0 then .error .einval
      else if size > capacity.size - shmRingMsgHdrSize then .error .emsgsize
      else .ok (size + shmRingMsgHdrSize)

def segmentsBody : UInt64 → List ShmSegment → Except Errno UInt64
  | body, [] => .ok body
  | body, seg :: rest =>
      if seg.isNull ∧ seg.len ≠ 0 then .error .einval
      else segmentsBody (body + seg.len) rest

/-- The checks of `shm_ring_push_scatter`. Its limit on `need` is four bytes
below the one of `shm_ring_push`. -/
def shmRingPushScatterNeed (capacity : RingCapacity) (segs : List ShmSegment) :
    Except Errno UInt64 :=
  match segs with
  | [] => .error .einval
  | seg :: rest =>
      match segmentsBody 0 (seg :: rest) with
      | .error code => .error code
      | .ok body =>
          let need := body + shmRingMsgHdrSize
          if body = 0 ∨ need > capacity.size - shmRingMsgHdrSize then .error .emsgsize
          else .ok need

structure Reservation where
  pos : UInt64
  contiguous : UInt64
  wrap : Bool
  required : UInt64
  deriving DecidableEq

def reserve (capacity : RingCapacity) (head tail need : UInt64) : Except Errno Reservation :=
  let used := head - tail
  let pos := head &&& (capacity.size - 1)
  let contiguous := capacity.size - pos
  let wrap := decide (contiguous < need)
  let required := if wrap then contiguous + need else need
  if capacity.size - used < required then .error .eagain
  else .ok { pos, contiguous, wrap, required }

/-- The stores and the new head of `shm_ring_push`. -/
def shmRingPushPlan (capacity : RingCapacity) (head need : UInt64) (slot : Reservation)
    (data : List UInt8) : List Store × UInt64 :=
  let len32 := leBytes 4 data.length
  if slot.wrap then
    (blockStores slot.pos.toNat (leBytes 4 wrapSentinelLen) ++ blockStores 0 len32 ++
        blockStores shmRingMsgHdrSize.toNat data,
      (head &&& ~~~(capacity.size - 1)) + capacity.size + need)
  else
    (blockStores slot.pos.toNat len32 ++
        blockStores (slot.pos.toNat + shmRingMsgHdrSize.toNat) data,
      head + need)

/-- The inner `while (len > 0)` loop of the scatter copy from position `p`; the
fuel is the segment length, and every round copies at least one byte. -/
def scatterSegment (capacity : Nat) : Nat → Nat → List UInt8 → List Store × Nat
  | 0, p, _ => ([], p)
  | fuel + 1, p, bytes =>
      if bytes.length = 0 then ([], p)
      else
        let chunk := min (capacity - p) bytes.length
        let rest := scatterSegment capacity fuel ((p + chunk) % capacity) (bytes.drop chunk)
        (blockStores p (bytes.take chunk) ++ rest.1, rest.2)

def scatterSegments (capacity : Nat) : Nat → List ShmSegment → List Store
  | _, [] => []
  | p, seg :: rest =>
      let copied := scatterSegment capacity seg.content.length p seg.content
      copied.1 ++ scatterSegments capacity copied.2 rest

/-- The stores and the new head of `shm_ring_push_scatter`. -/
def shmRingPushScatterPlan (capacity : RingCapacity) (head need : UInt64) (slot : Reservation)
    (segs : List ShmSegment) : List Store × UInt64 :=
  let len32 := leBytes 4 (need - shmRingMsgHdrSize).toNat
  let p := if slot.wrap then 0 else slot.pos.toNat
  ((if slot.wrap then blockStores slot.pos.toNat (leBytes 4 wrapSentinelLen) else []) ++
      blockStores p len32 ++
      scatterSegments capacity.bytes ((p + 4) % capacity.bytes) segs,
    head + (if slot.wrap then slot.required else need))

inductive PushCall where
  | push (data : Option (List UInt8))
  | scatter (segs : List ShmSegment)

def PushCall.need (capacity : RingCapacity) : PushCall → Except Errno UInt64
  | .push data => shmRingPushNeed capacity data
  | .scatter segs => shmRingPushScatterNeed capacity segs

def PushCall.record : PushCall → List UInt8
  | .push data => data.getD []
  | .scatter segs => (segs.map ShmSegment.content).flatten

def PushCall.plan (capacity : RingCapacity) (head need : UInt64) (slot : Reservation) :
    PushCall → List Store × UInt64
  | .push data => shmRingPushPlan capacity head need slot (data.getD [])
  | .scatter segs => shmRingPushScatterPlan capacity head need slot segs

def runPush (capacity : RingCapacity) (call : PushCall) (object : ShmObject) :
    Status × ShmObject :=
  match call.need capacity with
  | .error code => (.error code, object)
  | .ok need =>
      match reserve capacity object.head object.tail need with
      | .error code => (.error code, object)
      | .ok slot =>
          let planned := call.plan capacity object.head need slot
          (.ok (), { object with data := applyStores object.data planned.1, head := planned.2 })

def shmRingPush (capacity : RingCapacity) (data : Option (List UInt8)) (object : ShmObject) :
    Status × ShmObject :=
  runPush capacity (.push data) object

def shmRingPushScatter (capacity : RingCapacity) (segs : List ShmSegment) (object : ShmObject) :
    Status × ShmObject :=
  runPush capacity (.scatter segs) object

end AdaptIpc.Ring

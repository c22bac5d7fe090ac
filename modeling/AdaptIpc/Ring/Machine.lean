import AdaptIpc.Ring.Buffer
import AdaptIpc.Library.Transition

/-!
# The ring as an interleaved machine

One producer thread and one consumer thread over one shared object, one step
per atomic operation and one per copied byte. The producer thread runs the
header initialisation of `ring_map`, the two pushes, `shm_ring_wait_writable`
and `shm_ring_push_scatter_blocking`; the consumer thread runs `shm_ring_pop`
with `flow_wake`. Code between two shared accesses belongs to the access before
it. `pushed`, `popped` and `lastFootprint` only record what calls returned.
-/

namespace AdaptIpc.Ring

open AdaptIpc.Library.Bytes AdaptIpc.Library.Transition

set_option autoImplicit false

/-- The header stores `ring_map` makes for the producer role, in order. -/
inductive HeaderField where
  | head
  | tail
  | parks
  | flowFlag
  | capacity
  | magic
  | initialized
  deriving DecidableEq

def headerInit : List HeaderField :=
  [.head, .tail, .parks, .flowFlag, .capacity, .magic, .initialized]

def shmRingMagic : UInt32 := 0x52494752

def HeaderField.store (capacity : RingCapacity) (object : ShmObject) : HeaderField → ShmObject
  | .head => { object with head := 0 }
  | .tail => { object with tail := 0 }
  | .parks => { object with parks := 0 }
  | .flowFlag => { object with flowFlag := 0 }
  | .capacity => { object with capacity := capacity.size }
  | .magic => { object with magic := shmRingMagic }
  | .initialized => { object with initialized := 1 }

/-- Who is pushing: a direct call, or `shm_ring_push_scatter_blocking`. -/
inductive PushJob where
  | direct (call : PushCall)
  | blocking (segs : List ShmSegment)

def PushJob.call : PushJob → PushCall
  | .direct call => call
  | .blocking segs => .scatter segs

/-- Who is waiting: a direct call, or one of the two waits of
`shm_ring_push_scatter_blocking`. -/
inductive WaitJob where
  | direct
  | throttle (segs : List ShmSegment)
  | full (segs : List ShmSegment)
  deriving DecidableEq

inductive ProducerPc where
  | detached
  | initHeader (todo : List HeaderField)
  | idle (result : Option Status)
  | loadHead (job : PushJob) (need : UInt64)
  | loadTail (job : PushJob) (need head : UInt64)
  | copy (job : PushJob) (todo : List Store) (newHead : UInt64)
  | waitHead (job : WaitJob)
  | waitTail (job : WaitJob) (head : UInt64)
  | waitArm (job : WaitJob) (head : UInt64)
  | waitRecheck (job : WaitJob) (head : UInt64)
  | waitDisarm (job : WaitJob)
  | waitPark (job : WaitJob)
  | waitEnter (job : WaitJob)
  | asleep (job : WaitJob)

def ProducerPc.sleeper : ProducerPc → Option WaitJob
  | .asleep job => some job
  | _ => none

theorem ProducerPc.asleep_of_sleeper {pc : ProducerPc} {job : WaitJob}
    (sleeps : pc.sleeper = some job) : pc = .asleep job := by
  cases pc with
  | asleep own =>
      cases sleeps
      rfl
  | _ => cases sleeps

inductive ConsumerPc where
  | detached
  | idle (result : Option (Except Errno (List UInt8)))
  | loadTail (maxSize : Nat)
  | loadHead (maxSize : Nat) (tail : UInt64)
  | readHeader (maxSize : Nat) (tail head : UInt64) (got : List UInt8)
  | skipPadding (maxSize : Nat) (tail : UInt64)
  | readBody (tail head : UInt64) (len : Nat) (got : List UInt8)
  | storeTail (tail head : UInt64) (payload : List UInt8)
  | wakeExchange (payload : List UInt8)
  | wakeFutex (payload : List UInt8)

/-- `flagPending` is a store of 1 to the flow flag that the producer has made
and the consumer cannot see yet. -/
structure RingState where
  object : ShmObject
  producerCapacity : RingCapacity
  consumerCapacity : RingCapacity
  producer : ProducerPc
  flagPending : Bool
  consumer : ConsumerPc
  pushed : List (List UInt8)
  popped : List (List UInt8)
  lastFootprint : UInt64

def afterPush (job : PushJob) (rc : Status) : ProducerPc :=
  match job with
  | .direct _ => .idle (some rc)
  | .blocking segs => if rc = .error .eagain then .waitHead (.full segs) else .idle (some rc)

def startPush (capacity : RingCapacity) (job : PushJob) : ProducerPc :=
  match job.call.need capacity with
  | .error code => afterPush job (.error code)
  | .ok need => .loadHead job need

/-- What a completed `shm_ring_wait_writable` does next. The first wait of the
blocking push goes on to push on `-EINVAL`, its later ones do not. -/
def afterWait (capacity : RingCapacity) (job : WaitJob) (rc : Status) : ProducerPc :=
  match job with
  | .direct => .idle (some rc)
  | .throttle segs =>
      if rc ≠ .ok () ∧ rc ≠ .error .einval then .idle (some rc)
      else startPush capacity (.blocking segs)
  | .full segs => if rc ≠ .ok () then .idle (some rc) else startPush capacity (.blocking segs)

/-- The space check of both push functions, made right after the tail load. -/
def checkSpace (state : RingState) (job : PushJob) (need head tail : UInt64) : ProducerPc :=
  match reserve state.producerCapacity head tail need with
  | .error code => afterPush job (.error code)
  | .ok slot =>
      let planned := job.call.plan state.producerCapacity head need slot
      .copy job planned.1 planned.2

def producerStep (state : RingState) : Option RingState :=
  let object := state.object
  match state.producer with
  | .detached => none
  | .idle _ => none
  | .asleep _ => none
  | .initHeader [] => none
  | .initHeader (field :: rest) =>
      some { state with
        object := field.store state.producerCapacity object
        producer := if rest = [] then .idle none else .initHeader rest }
  | .loadHead job need => some { state with producer := .loadTail job need object.head }
  | .loadTail job need head =>
      some { state with producer := checkSpace state job need head object.tail }
  | .copy job (write :: rest) newHead =>
      some { state with
        object := { object with data := store object.data write }
        producer := .copy job rest newHead }
  | .copy job [] newHead =>
      some { state with
        object := { object with head := newHead }
        producer := afterPush job (.ok ())
        pushed := state.pushed ++ [job.call.record]
        lastFootprint := newHead - object.head }
  | .waitHead job => some { state with producer := .waitTail job object.head }
  | .waitTail job head =>
      some { state with
        producer :=
          if head - object.tail < hwBytes state.producerCapacity then
            afterWait state.producerCapacity job (.ok ())
          else .waitArm job head }
  | .waitArm job head =>
      some { state with flagPending := true, producer := .waitRecheck job head }
  | .waitRecheck job head =>
      some { state with
        producer :=
          if head - object.tail < hwBytes state.producerCapacity then .waitDisarm job
          else .waitPark job }
  | .waitDisarm job =>
      some { state with
        object := { object with flowFlag := 0 }
        flagPending := false
        producer := afterWait state.producerCapacity job (.ok ()) }
  | .waitPark job =>
      some { state with
        object := { object with parks := object.parks + 1 }
        producer := .waitEnter job }
  | .waitEnter job =>
      -- The kernel entry orders the pending store before the compare.
      let flag := if state.flagPending then 1 else object.flowFlag
      some { state with
        object := { object with flowFlag := flag }
        flagPending := false
        producer := if flag = 1 then .asleep job else .waitHead job }

/-- The delayed flow-flag store becomes visible. -/
def flushFlag (state : RingState) : Option RingState :=
  if state.flagPending then
    some { state with
      object := { state.object with flowFlag := 1 }
      flagPending := false }
  else none

/-- A signal ends the futex wait with `-EINTR`. -/
def interruptWait (state : RingState) : Option RingState :=
  match state.producer with
  | .asleep job =>
      some { state with producer := afterWait state.producerCapacity job (.error .eintr) }
  | _ => none

/-- The futex wait returns 0 without a wake; the caller loops and re-verifies. -/
def wakeSpuriously (state : RingState) : Option RingState :=
  match state.producer with
  | .asleep job => some { state with producer := .waitHead job }
  | _ => none

inductive ProducerCall where
  | push (call : PushCall)
  | waitWritable
  | pushScatterBlocking (segs : List ShmSegment)

def ProducerCall.start (capacity : RingCapacity) : ProducerCall → ProducerPc
  | .push call => startPush capacity (.direct call)
  | .waitWritable => .waitHead .direct
  | .pushScatterBlocking segs => .waitHead (.throttle segs)

def callProducer (state : RingState) (call : ProducerCall) : Option RingState :=
  match state.producer with
  | .idle _ => some { state with producer := call.start state.producerCapacity }
  | _ => none

/-- The decision `shm_ring_pop` makes once it has the length word. -/
def checkLength (maxSize : Nat) (tail head : UInt64) (len32 : Nat) : ConsumerPc :=
  if len32 = wrapSentinelLen then .skipPadding maxSize tail
  else if maxSize < len32 then .idle (some (.error .emsgsize))
  else .readBody tail head len32 []

/-- The return of `shm_ring_pop` with a payload. -/
def deliver (state : RingState) (payload : List UInt8) : RingState :=
  { state with consumer := .idle (some (.ok payload)), popped := state.popped ++ [payload] }

/-- `FUTEX_WAKE` on the flow word. -/
def wakeProducer (producer : ProducerPc) : ProducerPc :=
  match producer with
  | .asleep job => .waitHead job
  | pc => pc

def consumerStep (state : RingState) : Option RingState :=
  let object := state.object
  let capacity := state.consumerCapacity
  match state.consumer with
  | .detached => none
  | .idle _ => none
  | .loadTail maxSize => some { state with consumer := .loadHead maxSize object.tail }
  | .loadHead maxSize tail =>
      some { state with
        consumer :=
          if object.head = tail then .idle (some (.error .eagain))
          else .readHeader maxSize tail object.head [] }
  | .readHeader maxSize tail head got =>
      let pos := tail &&& (capacity.size - 1)
      let read := got ++ [object.data (pos.toNat + got.length)]
      some { state with
        consumer :=
          if read.length < 4 then .readHeader maxSize tail head read
          else checkLength maxSize tail head (leValue read) }
  | .skipPadding maxSize tail =>
      some { state with
        object := { object with
          tail := (tail &&& ~~~(capacity.size - 1)) + capacity.size }
        consumer := .loadTail maxSize }
  | .readBody tail head len got =>
      let pos := tail &&& (capacity.size - 1)
      let read := got ++ [object.data (pos.toNat + shmRingMsgHdrSize.toNat + got.length)]
      some { state with
        consumer :=
          if read.length < len then .readBody tail head len read
          else .storeTail tail head read }
  | .storeTail tail head payload =>
      let newTail := tail + UInt64.ofNat payload.length + shmRingMsgHdrSize
      let stored := { state with object := { object with tail := newTail } }
      some (if head - newTail < lwBytes capacity then
        { stored with consumer := .wakeExchange payload }
      else deliver stored payload)
  | .wakeExchange payload =>
      let cleared := { state with object := { object with flowFlag := 0 } }
      some (if object.flowFlag = 0 then deliver cleared payload
      else { cleared with consumer := .wakeFutex payload })
  | .wakeFutex payload =>
      some (deliver { state with producer := wakeProducer state.producer } payload)

def callPop (state : RingState) (maxSize : Nat) : Option RingState :=
  match state.consumer with
  | .idle _ => some { state with consumer := .loadTail maxSize }
  | _ => none

inductive RingAction where
  | attachProducer
  | attachConsumer
  | callProducer (call : ProducerCall)
  | producer
  | flushFlag
  | interrupt
  | spuriousWake
  | callPop (maxSize : Nat)
  | consumer

/-- The actions by which the producer's program maps or calls the ring. -/
def RingAction.entersProducer : RingAction → Bool
  | .attachProducer => true
  | .callProducer _ => true
  | _ => false

def RingAction.entersConsumer : RingAction → Bool
  | .attachConsumer => true
  | .callPop _ => true
  | _ => false

def ringStep (state : RingState) : RingAction → Option RingState
  | .attachProducer =>
      match state.producer with
      | .detached => some { state with producer := .initHeader headerInit }
      | _ => none
  | .attachConsumer =>
      match state.consumer with
      | .detached => some { state with consumer := .idle none }
      | _ => none
  | .callProducer call => callProducer state call
  | .producer => producerStep state
  | .flushFlag => flushFlag state
  | .interrupt => interruptWait state
  | .spuriousWake => wakeSpuriously state
  | .callPop maxSize => callPop state maxSize
  | .consumer => consumerStep state

theorem same_capacity_step {state next : RingState} {action : RingAction}
    (stepped : ringStep state action = some next) :
    next.producerCapacity = state.producerCapacity ∧
      next.consumerCapacity = state.consumerCapacity := by
  cases action with
  | producer =>
      simp only [ringStep, producerStep] at stepped
      split at stepped <;> cases stepped <;> exact ⟨rfl, rfl⟩
  | consumer =>
      simp only [ringStep, consumerStep] at stepped
      split at stepped <;> (try split at stepped) <;> cases stepped <;> exact ⟨rfl, rfl⟩
  | _ =>
      simp only [ringStep, callProducer, flushFlag, interruptWait, wakeSpuriously,
        callPop] at stepped
      split at stepped <;> cases stepped
      exact ⟨rfl, rfl⟩

/-- The object right after the producer's header initialisation; the data region
is not cleared. -/
def freshObject (capacity : RingCapacity) (data : Memory) : ShmObject where
  head := 0
  tail := 0
  parks := 0
  capacity := capacity.size
  magic := shmRingMagic
  initialized := 1
  flowFlag := 0
  data := data

def freshRing (capacity : RingCapacity) (data : Memory) : RingState where
  object := freshObject capacity data
  producerCapacity := capacity
  consumerCapacity := capacity
  producer := .idle none
  flagPending := false
  consumer := .idle none
  pushed := []
  popped := []
  lastFootprint := 0

def page : RingCapacity := ⟨12, by decide, by decide⟩

/-- All interleavings of one producer and one consumer on a freshly initialised ring. -/
def ringMachine (capacity : RingCapacity) : Machine RingState RingAction where
  initial state := ∃ data, state = freshRing capacity data
  step := ringStep

end AdaptIpc.Ring

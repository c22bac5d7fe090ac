import AdaptIpc.Ring.Wakeup

/-!
# The emulated futex

Where there is no futex, the flow flag is backed by a process-shared mutex and
condition variable. The waiter re-reads the flag under the mutex before it
waits, the waker exchanges the flag before it takes the mutex and broadcasts
under it. The invariant: the mutex has one holder, and behind a flag that is
gone the waiter has a waker that has not broadcast yet. Failures of the pthread
calls are not modelled.
-/

namespace AdaptIpc.Ring

open AdaptIpc.Library.Bytes AdaptIpc.Library.Transition

set_option autoImplicit false

inductive EmuThread where
  | producer
  | consumer
  deriving DecidableEq

/-- Where the producer stands in `futex_compat_emu_wait`. -/
inductive EmuWaitPc where
  | outside
  | locking
  | checking
  | parking
  | waiting
  | relocking
  | unlocking (rc : Status)
  deriving DecidableEq

/-- Where the consumer stands in `futex_compat_emu_wake`. -/
inductive EmuWakePc where
  | outside
  | exchanging
  | locking
  | broadcasting
  | unlocking
  deriving DecidableEq

/-- The producer of `ring` stays at its kernel entry while it is in the emulated
wait, the consumer at its two wake steps while it is in the emulated wake. -/
structure EmuRing where
  ring : RingState
  ready : Bool
  owner : Option EmuThread
  wait : EmuWaitPc
  wake : EmuWakePc

/-- What `shm_ring_wait_writable` does with the result of `flow_wait`. -/
def afterFlowWait (capacity : RingCapacity) (job : WaitJob) : Status → ProducerPc
  | .ok () => .waitHead job
  | .error .eagain => .waitHead job
  | .error code => afterWait capacity job (.error code)

/-- A release by the producer makes its flag store visible first. -/
def RingState.released (state : RingState) : RingState :=
  { state with
    object := { state.object with
      flowFlag := if state.flagPending then 1 else state.object.flowFlag }
    flagPending := false }

/-- `futex_compat_emu_wait(f, 1)`; the wait on the condition variable releases
the mutex and takes it again before it returns. -/
def emuWaitStep (state : EmuRing) (job : WaitJob) : Option EmuRing :=
  match state.wait with
  | .outside =>
      some (if state.ready then { state with wait := .locking }
      else { state with ring := { state.ring with
        producer := afterFlowWait state.ring.producerCapacity job (.error .einval) } })
  | .locking =>
      if state.owner = none then
        some { state with owner := some .producer, wait := .checking }
      else none
  | .checking =>
      -- The producer reads its own store, visible or not.
      let flag := if state.ring.flagPending then 1 else state.ring.object.flowFlag
      some { state with wait := if flag = 1 then .parking else .unlocking (.error .eagain) }
  | .parking => some { state with ring := state.ring.released, owner := none, wait := .waiting }
  | .waiting => none
  | .relocking =>
      if state.owner = none then
        some { state with owner := some .producer, wait := .unlocking (.ok ()) }
      else none
  | .unlocking rc =>
      some { state with
        ring := { state.ring.released with
          producer := afterFlowWait state.ring.producerCapacity job rc }
        owner := none
        wait := .outside }

def EmuWaitPc.broadcast : EmuWaitPc → EmuWaitPc
  | .waiting => .relocking
  | pc => pc

/-- `futex_compat_emu_wake(f)`, after which the pop returns `payload`. -/
def emuWakeStep (state : EmuRing) (payload : List UInt8) : Option EmuRing :=
  match state.wake with
  | .outside =>
      some (if state.ready then { state with wake := .exchanging }
      else { state with ring := deliver state.ring payload })
  | .exchanging =>
      let cleared := { state.ring with object := { state.ring.object with flowFlag := 0 } }
      some (if state.ring.object.flowFlag = 0 then
        { state with ring := deliver cleared payload, wake := .outside }
      else { state with ring := { cleared with consumer := .wakeFutex payload }, wake := .locking })
  | .locking =>
      if state.owner = none then
        some { state with owner := some .consumer, wake := .broadcasting }
      else none
  | .broadcasting => some { state with wait := state.wait.broadcast, wake := .unlocking }
  | .unlocking =>
      some { state with ring := deliver state.ring payload, owner := none, wake := .outside }

def emuProducerStep (state : EmuRing) : Option EmuRing :=
  match state.ring.producer with
  | .waitEnter job => emuWaitStep state job
  | _ => (producerStep state.ring).map fun ring => { state with ring }

def emuConsumerStep (state : EmuRing) : Option EmuRing :=
  match state.ring.consumer with
  | .wakeExchange payload => emuWakeStep state payload
  | .wakeFutex payload => emuWakeStep state payload
  | _ => (consumerStep state.ring).map fun ring => { state with ring }

/-- A condition variable may wake its waiter unasked. -/
def emuWakeSpuriously (state : EmuRing) : Option EmuRing :=
  match state.wait with
  | .waiting => some { state with wait := .relocking }
  | _ => none

/-- Both ends are mapped, and no signal ends a wait on a condition variable. -/
def emuStep (state : EmuRing) : RingAction → Option EmuRing
  | .attachProducer => none
  | .attachConsumer => none
  | .callProducer call => (callProducer state.ring call).map fun ring => { state with ring }
  | .producer => emuProducerStep state
  | .flushFlag => (flushFlag state.ring).map fun ring => { state with ring }
  | .interrupt => none
  | .spuriousWake => emuWakeSpuriously state
  | .callPop maxSize => (callPop state.ring maxSize).map fun ring => { state with ring }
  | .consumer => emuConsumerStep state

def freshEmu (capacity : RingCapacity) (data : Memory) : EmuRing where
  ring := freshRing capacity data
  ready := true
  owner := none
  wait := .outside
  wake := .outside

def emuMachine (capacity : RingCapacity) : Machine EmuRing RingAction where
  initial state := ∃ data, state = freshEmu capacity data
  step := emuStep

/-- The steps of `futex_compat_emu_wait`. -/
inductive EmuWaitMove (state : EmuRing) (job : WaitJob) : EmuRing → Prop where
  | refuse (place : state.wait = .outside) (unready : state.ready = false) :
      EmuWaitMove state job { state with ring := { state.ring with
        producer := afterFlowWait state.ring.producerCapacity job (.error .einval) } }
  | enter (place : state.wait = .outside) (ready : state.ready = true) :
      EmuWaitMove state job { state with wait := .locking }
  | lock (place : state.wait = .locking) (free : state.owner = none) :
      EmuWaitMove state job { state with owner := some .producer, wait := .checking }
  | armed (place : state.wait = .checking)
      (flag : (if state.ring.flagPending then 1 else state.ring.object.flowFlag) = 1) :
      EmuWaitMove state job { state with wait := .parking }
  | changed (place : state.wait = .checking)
      (flag : ¬ (if state.ring.flagPending then 1 else state.ring.object.flowFlag) = 1) :
      EmuWaitMove state job { state with wait := .unlocking (.error .eagain) }
  | park (place : state.wait = .parking) :
      EmuWaitMove state job
        { state with ring := state.ring.released, owner := none, wait := .waiting }
  | relock (place : state.wait = .relocking) (free : state.owner = none) :
      EmuWaitMove state job { state with owner := some .producer, wait := .unlocking (.ok ()) }
  | leave (rc : Status) (place : state.wait = .unlocking rc) :
      EmuWaitMove state job { state with
        ring := { state.ring.released with
          producer := afterFlowWait state.ring.producerCapacity job rc }
        owner := none
        wait := .outside }

/-- The steps of `futex_compat_emu_wake`. -/
inductive EmuWakeMove (state : EmuRing) (payload : List UInt8) : EmuRing → Prop where
  | refuse (place : state.wake = .outside) (unready : state.ready = false) :
      EmuWakeMove state payload { state with ring := deliver state.ring payload }
  | enter (place : state.wake = .outside) (ready : state.ready = true) :
      EmuWakeMove state payload { state with wake := .exchanging }
  | nobody (place : state.wake = .exchanging) (clear : state.ring.object.flowFlag = 0) :
      EmuWakeMove state payload { state with
        ring := deliver { state.ring with object := { state.ring.object with flowFlag := 0 } }
          payload
        wake := .outside }
  | take (place : state.wake = .exchanging) (set : state.ring.object.flowFlag ≠ 0) :
      EmuWakeMove state payload { state with
        ring := { state.ring with
          object := { state.ring.object with flowFlag := 0 }
          consumer := .wakeFutex payload }
        wake := .locking }
  | lock (place : state.wake = .locking) (free : state.owner = none) :
      EmuWakeMove state payload { state with owner := some .consumer, wake := .broadcasting }
  | broadcast (place : state.wake = .broadcasting) :
      EmuWakeMove state payload { state with wait := state.wait.broadcast, wake := .unlocking }
  | leave (place : state.wake = .unlocking) :
      EmuWakeMove state payload { state with
        ring := deliver state.ring payload, owner := none, wake := .outside }

/-- The consumer stands at `payload`'s wake. -/
def ConsumerPc.wakesFor (pc : ConsumerPc) (payload : List UInt8) : Prop :=
  pc = .wakeExchange payload ∨ pc = .wakeFutex payload

inductive EmuMove (state : EmuRing) : RingAction → EmuRing → Prop where
  | callProducer (call : ProducerCall) (result : Option Status)
      (place : state.ring.producer = .idle result) :
      EmuMove state (.callProducer call) { state with ring := { state.ring with
        producer := call.start state.ring.producerCapacity } }
  | producer (ring : RingState) (elsewhere : ∀ job, state.ring.producer ≠ .waitEnter job)
      (moved : producerStep state.ring = some ring) :
      EmuMove state .producer { state with ring }
  | wait (job : WaitJob) (next : EmuRing) (place : state.ring.producer = .waitEnter job)
      (moved : EmuWaitMove state job next) :
      EmuMove state .producer next
  | flushFlag (pending : state.ring.flagPending = true) :
      EmuMove state .flushFlag { state with ring := { state.ring with
        object := { state.ring.object with flowFlag := 1 }
        flagPending := false } }
  | spuriousWake (place : state.wait = .waiting) :
      EmuMove state .spuriousWake { state with wait := .relocking }
  | callPop (maxSize : Nat) (result : Option (Except Errno (List UInt8)))
      (place : state.ring.consumer = .idle result) :
      EmuMove state (.callPop maxSize)
        { state with ring := { state.ring with consumer := .loadTail maxSize } }
  | consumer (ring : RingState) (elsewhere : ∀ payload, ¬ state.ring.consumer.wakesFor payload)
      (moved : consumerStep state.ring = some ring) :
      EmuMove state .consumer { state with ring }
  | wake (payload : List UInt8) (next : EmuRing) (place : state.ring.consumer.wakesFor payload)
      (moved : EmuWakeMove state payload next) :
      EmuMove state .consumer next

section Inversion

variable {state next : EmuRing} {action : RingAction}

theorem emu_wait_cases {job : WaitJob} (stepped : emuWaitStep state job = some next) :
    EmuWaitMove state job next := by
  unfold emuWaitStep at stepped
  split at stepped
  · next place =>
      cases stepped
      by_cases ready : state.ready = true
      · rw [if_pos ready]
        exact .enter place ready
      · rw [if_neg ready]
        exact .refuse place (by simpa using ready)
  · next place =>
      split at stepped <;> cases stepped
      next free => exact .lock place free
  · next place =>
      cases stepped
      by_cases flag : (if state.ring.flagPending then 1 else state.ring.object.flowFlag) = 1
      · rw [if_pos flag]
        exact .armed place flag
      · rw [if_neg flag]
        exact .changed place flag
  · next place =>
      cases stepped
      exact .park place
  · cases stepped
  · next place =>
      split at stepped <;> cases stepped
      next free => exact .relock place free
  · next rc place =>
      cases stepped
      exact .leave rc place

theorem emu_wake_cases {payload : List UInt8} (stepped : emuWakeStep state payload = some next) :
    EmuWakeMove state payload next := by
  unfold emuWakeStep at stepped
  split at stepped
  · next place =>
      cases stepped
      by_cases ready : state.ready = true
      · rw [if_pos ready]
        exact .enter place ready
      · rw [if_neg ready]
        exact .refuse place (by simpa using ready)
  · next place =>
      cases stepped
      by_cases clear : state.ring.object.flowFlag = 0
      · rw [if_pos clear]
        exact .nobody place clear
      · rw [if_neg clear]
        exact .take place clear
  · next place =>
      split at stepped <;> cases stepped
      next free => exact .lock place free
  · next place =>
      cases stepped
      exact .broadcast place
  · next place =>
      cases stepped
      exact .leave place

theorem emu_step_cases (stepped : emuStep state action = some next) :
    EmuMove state action next := by
  cases action with
  | attachProducer => cases stepped
  | attachConsumer => cases stepped
  | interrupt => cases stepped
  | producer =>
      simp only [emuStep, emuProducerStep] at stepped
      split at stepped
      · next job place => exact .wait job next place (emu_wait_cases stepped)
      · next elsewhere =>
          obtain ⟨ring, moved, rfl⟩ := Option.map_eq_some_iff.mp stepped
          exact .producer ring elsewhere moved
  | consumer =>
      simp only [emuStep, emuConsumerStep] at stepped
      split at stepped
      · next payload place => exact .wake payload next (Or.inl place) (emu_wake_cases stepped)
      · next payload place => exact .wake payload next (Or.inr place) (emu_wake_cases stepped)
      · next exchanges wakes =>
          obtain ⟨ring, moved, rfl⟩ := Option.map_eq_some_iff.mp stepped
          refine .consumer ring ?_ moved
          rintro payload (place | place)
          · exact exchanges payload place
          · exact wakes payload place
  | callProducer call =>
      obtain ⟨ring, called, rfl⟩ := Option.map_eq_some_iff.mp stepped
      simp only [AdaptIpc.Ring.callProducer] at called
      split at called <;> cases called
      next result place => exact .callProducer call result place
  | flushFlag =>
      obtain ⟨ring, flushed, rfl⟩ := Option.map_eq_some_iff.mp stepped
      simp only [AdaptIpc.Ring.flushFlag] at flushed
      split at flushed <;> cases flushed
      next pending => exact .flushFlag pending
  | spuriousWake =>
      simp only [emuStep, emuWakeSpuriously] at stepped
      split at stepped <;> cases stepped
      next place => exact .spuriousWake place
  | callPop maxSize =>
      obtain ⟨ring, called, rfl⟩ := Option.map_eq_some_iff.mp stepped
      simp only [AdaptIpc.Ring.callPop] at called
      split at called <;> cases called
      next result place => exact .callPop maxSize result place

end Inversion

def EmuWaitPc.holdsMutex : EmuWaitPc → Bool
  | .checking => true
  | .parking => true
  | .unlocking _ => true
  | _ => false

def EmuWakePc.holdsMutex : EmuWakePc → Bool
  | .broadcasting => true
  | .unlocking => true
  | _ => false

/-- The producer's flag store is behind a release it has made. -/
def EmuWaitPc.released : EmuWaitPc → Bool
  | .waiting => true
  | .relocking => true
  | .unlocking _ => true
  | _ => false

def WakePlace (consumer : ConsumerPc) : EmuWakePc → Prop
  | .outside => ∀ payload, consumer ≠ .wakeFutex payload
  | .exchanging => ∃ payload, consumer = .wakeExchange payload
  | _ => ∃ payload, consumer = .wakeFutex payload

/-- The waiter has found the flag set and not been woken since. -/
def EmuRing.committed (state : EmuRing) : Prop :=
  state.wait = .waiting ∨ state.wait = .parking ∧ state.ring.flagPending = false

structure EmuInv (state : EmuRing) : Prop where
  ready : state.ready = true
  awake : ∀ job, state.ring.producer ≠ .asleep job
  waitPlace : state.wait ≠ .outside → ∃ job, state.ring.producer = .waitEnter job
  wakePlace : WakePlace state.ring.consumer state.wake
  producerOwns : state.owner = some .producer ↔ state.wait.holdsMutex = true
  consumerOwns : state.owner = some .consumer ↔ state.wake.holdsMutex = true
  visible : state.wait.released = true → state.ring.flagPending = false
  verdict : ∀ rc, state.wait = .unlocking rc → rc = .ok () ∨ rc = .error .eagain
  woken : state.wake = .unlocking → state.wait ≠ .waiting
  watched : state.committed → state.ring.object.flowFlag = 0 →
    state.wake = .locking ∨ state.wake = .broadcasting

theorem fresh_emu_inv (capacity : RingCapacity) (data : Memory) :
    EmuInv (freshEmu capacity data) := by
  constructor <;> simp [freshEmu, freshRing, WakePlace, EmuWaitPc.holdsMutex,
    EmuWakePc.holdsMutex, EmuWaitPc.released, EmuRing.committed]

section Invariant

variable {state next : EmuRing} {action : RingAction}

theorem after_flow_wait_awake {capacity : RingCapacity} {job : WaitJob} {rc : Status}
    (sleeper : WaitJob) : afterFlowWait capacity job rc ≠ .asleep sleeper := by
  intro asleep
  unfold afterFlowWait at asleep
  split at asleep
  · cases asleep
  · cases asleep
  · have parked : (ProducerPc.asleep sleeper).parked := trivial
    rw [← asleep] at parked
    exact after_wait_not_parked _ _ _ parked

theorem EmuInv.exclusive (inv : EmuInv state) (held : state.wait.holdsMutex = true) :
    state.wake.holdsMutex = false := by
  have owner := inv.producerOwns.mpr held
  by_contra waker
  have other := inv.consumerOwns.mpr (by simpa using waker)
  simp [owner] at other

theorem EmuInv.free_of_producer (inv : EmuInv state) (loose : state.wait.holdsMutex = false) :
    state.owner ≠ some .producer := by
  intro owns
  have held := inv.producerOwns.mp owns
  rw [loose] at held
  cases held

theorem EmuInv.free_of_consumer (inv : EmuInv state) (loose : state.wake.holdsMutex = false) :
    state.owner ≠ some .consumer := by
  intro owns
  have held := inv.consumerOwns.mp owns
  rw [loose] at held
  cases held

theorem EmuInv.waker_loose (inv : EmuInv state) (free : state.owner ≠ some .consumer) :
    state.wake.holdsMutex = false := by
  by_contra held
  exact free (inv.consumerOwns.mpr (by simpa using held))

theorem EmuInv.waiter_loose (inv : EmuInv state) (free : state.owner ≠ some .producer) :
    state.wait.holdsMutex = false := by
  by_contra held
  exact free (inv.producerOwns.mpr (by simpa using held))

theorem emu_wait_inv {job : WaitJob} (inv : EmuInv state)
    (place : state.ring.producer = .waitEnter job) (moved : EmuWaitMove state job next) :
    EmuInv next := by
  have inside : ∃ job, state.ring.producer = .waitEnter job := ⟨job, place⟩
  cases moved with
  | refuse outside unready => simp [inv.ready] at unready
  | enter outside ready =>
      have free := inv.free_of_producer (by rw [outside]; rfl)
      exact { inv with
        waitPlace := fun _ => inside
        producerOwns := by simp [free, EmuWaitPc.holdsMutex]
        visible := by simp [EmuWaitPc.released]
        verdict := by simp
        woken := by simp
        watched := by simp [EmuRing.committed] }
  | lock locking free =>
      have waker := inv.waker_loose (by simp [free])
      exact { inv with
        waitPlace := fun _ => inside
        producerOwns := by simp [EmuWaitPc.holdsMutex]
        consumerOwns := by simp [waker]
        visible := by simp [EmuWaitPc.released]
        verdict := by simp
        woken := by simp
        watched := by simp [EmuRing.committed] }
  | armed checking flag =>
      have owner := inv.producerOwns.mpr (by rw [checking]; rfl)
      exact { inv with
        waitPlace := fun _ => inside
        producerOwns := by simp [owner, EmuWaitPc.holdsMutex]
        visible := by simp [EmuWaitPc.released]
        verdict := by simp
        woken := by simp
        watched := by
          rintro (waiting | ⟨_, pending⟩) clear
          · cases waiting
          · dsimp only at pending clear
            simp [pending, clear] at flag }
  | changed checking flag =>
      have owner := inv.producerOwns.mpr (by rw [checking]; rfl)
      have visible : state.ring.flagPending = false := by
        by_contra pending
        simp [pending] at flag
      exact { inv with
        waitPlace := fun _ => inside
        producerOwns := by simp [owner, EmuWaitPc.holdsMutex]
        visible := fun _ => visible
        verdict := by simp
        woken := by simp
        watched := by simp [EmuRing.committed] }
  | park parking =>
      -- The waker holds no mutex here, so it has not broadcast yet.
      have waker := inv.exclusive (by rw [parking]; rfl)
      exact { inv with
        waitPlace := fun _ => inside
        producerOwns := by simp [EmuWaitPc.holdsMutex]
        consumerOwns := by simp [waker]
        visible := fun _ => rfl
        verdict := by simp
        woken := by
          intro unlocking
          dsimp only at unlocking
          simp [unlocking, EmuWakePc.holdsMutex] at waker
        watched := by
          intro _ clear
          cases pending : state.ring.flagPending with
          | true => simp [RingState.released, pending] at clear
          | false =>
              apply inv.watched (Or.inr ⟨parking, pending⟩)
              simpa [RingState.released, pending] using clear }
  | relock relocking free =>
      have waker := inv.waker_loose (by simp [free])
      have visible := inv.visible (by rw [relocking]; rfl)
      exact { inv with
        waitPlace := fun _ => inside
        producerOwns := by simp [EmuWaitPc.holdsMutex]
        consumerOwns := by simp [waker]
        visible := fun _ => visible
        verdict := by simp
        woken := by simp
        watched := by simp [EmuRing.committed] }
  | leave rc unlocking =>
      have waker := inv.exclusive (by rw [unlocking]; rfl)
      exact { inv with
        awake := after_flow_wait_awake
        waitPlace := fun inside => absurd rfl inside
        producerOwns := by simp [EmuWaitPc.holdsMutex]
        consumerOwns := by simp [waker]
        visible := by simp [EmuWaitPc.released]
        verdict := by simp
        woken := by simp
        watched := by simp [EmuRing.committed] }

theorem emu_wake_inv {payload : List UInt8} (inv : EmuInv state)
    (place : state.ring.consumer.wakesFor payload) (moved : EmuWakeMove state payload next) :
    EmuInv next := by
  have held := inv.wakePlace
  cases moved with
  | refuse outside unready => simp [inv.ready] at unready
  | enter outside ready =>
      rw [outside] at held
      have free := inv.free_of_consumer (by rw [outside]; rfl)
      have flag := inv.watched
      simp only [outside] at flag
      exact { inv with
        wakePlace := ⟨payload, place.resolve_right (held payload)⟩
        consumerOwns := by simp [free, EmuWakePc.holdsMutex]
        woken := by simp
        watched := fun committed clear => by simpa using flag committed clear }
  | nobody exchanging clear =>
      have free := inv.free_of_consumer (by rw [exchanging]; rfl)
      have flag := inv.watched
      simp only [exchanging] at flag
      exact { inv with
        wakePlace := by simp [WakePlace, deliver]
        consumerOwns := by simp [free, EmuWakePc.holdsMutex]
        woken := by simp
        watched := fun committed _ => by simpa using flag committed clear }
  | take exchanging set =>
      have free := inv.free_of_consumer (by rw [exchanging]; rfl)
      exact { inv with
        wakePlace := ⟨payload, rfl⟩
        consumerOwns := by simp [free, EmuWakePc.holdsMutex]
        woken := by simp
        watched := fun _ _ => Or.inl rfl }
  | lock locking free =>
      have waiter := inv.waiter_loose (by simp [free])
      rw [locking] at held
      exact { inv with
        wakePlace := held
        producerOwns := by simp [waiter]
        consumerOwns := by simp [EmuWakePc.holdsMutex]
        woken := by simp
        watched := fun _ _ => Or.inr rfl }
  | broadcast broadcasting =>
      have owner := inv.consumerOwns.mpr (by rw [broadcasting]; rfl)
      -- The waiter holds no mutex here: it is blocked, or not yet past its check.
      have waiter := inv.waiter_loose (by simp [owner])
      rw [broadcasting] at held
      have outside : state.wait.broadcast ≠ .outside → state.wait ≠ .outside := by
        intro left outside
        rw [outside] at left
        exact left rfl
      have released : state.wait.broadcast.released = state.wait.released := by
        cases state.wait <;> rfl
      have holds : state.wait.broadcast.holdsMutex = state.wait.holdsMutex := by
        cases state.wait <;> rfl
      exact { inv with
        waitPlace := fun inside => inv.waitPlace (outside inside)
        wakePlace := held
        producerOwns := by simp [owner, holds, waiter]
        consumerOwns := by simp [owner, EmuWakePc.holdsMutex]
        visible := fun gone => inv.visible (by rwa [released] at gone)
        verdict := fun rc unlocking => inv.verdict rc (by
          cases phase : state.wait <;> simp_all [EmuWaitPc.broadcast])
        woken := fun _ => by cases state.wait <;> simp [EmuWaitPc.broadcast]
        watched := by
          rintro (waiting | ⟨parking, _⟩) _ <;> cases phase : state.wait <;>
            simp_all [EmuWaitPc.broadcast, EmuWaitPc.holdsMutex] }
  | leave unlocking =>
      have owner := inv.consumerOwns.mpr (by rw [unlocking]; rfl)
      have waiter := inv.waiter_loose (by simp [owner])
      exact { inv with
        wakePlace := by simp [WakePlace, deliver]
        producerOwns := by simp [waiter]
        consumerOwns := by simp [EmuWakePc.holdsMutex]
        woken := by simp
        watched := by
          rintro (waiting | ⟨parking, _⟩) _
          · exact absurd waiting (inv.woken unlocking)
          · have parks : state.wait = .parking := parking
            simp [parks, EmuWaitPc.holdsMutex] at waiter }

/-- A step of the pop that is not one of its wake. -/
structure PopFrame (state next : RingState) : Prop where
  producer : next.producer = state.producer
  pending : next.flagPending = state.flagPending
  flag : next.object.flowFlag = state.object.flowFlag
  place : ∀ payload, next.consumer ≠ .wakeFutex payload

theorem check_length_not_waking (maxSize : Nat) (tail head : UInt64) (len : Nat)
    (payload : List UInt8) : checkLength maxSize tail head len ≠ .wakeFutex payload := by
  unfold checkLength
  split
  · simp
  · split <;> simp

theorem pop_frame {ring after : RingState} (elsewhere : ∀ payload, ¬ ring.consumer.wakesFor payload)
    (stepped : consumerStep ring = some after) : PopFrame ring after := by
  cases place : ring.consumer <;> simp only [consumerStep, place] at stepped
  case detached => cases stepped
  case idle => cases stepped
  case wakeExchange payload => exact absurd (Or.inl place) (elsewhere payload)
  case wakeFutex payload => exact absurd (Or.inr place) (elsewhere payload)
  case storeTail =>
    split at stepped <;> cases stepped <;> exact ⟨rfl, rfl, rfl, by simp [deliver]⟩
  case readHeader =>
    cases stepped
    refine ⟨rfl, rfl, rfl, fun payload => ?_⟩
    dsimp only
    split
    · simp
    · exact check_length_not_waking _ _ _ _ payload
  all_goals
    cases stepped
    refine ⟨rfl, rfl, rfl, fun payload => ?_⟩
    dsimp only
    try split
    all_goals simp

theorem producer_stays_awake {ring after : RingState}
    (elsewhere : ∀ job, ring.producer ≠ .waitEnter job) (moved : ProducerMove ring after)
    (job : WaitJob) : after.producer ≠ .asleep job := by
  intro asleep
  have parked : after.producer.parked := by
    rw [asleep]
    trivial
  cases moved with
  | sleep sleeper place armed => exact elsewhere sleeper place
  | loadTail call need head place => exact check_space_not_parked _ _ _ _ _ parked
  | publish call newHead place => exact after_push_not_parked _ _ parked
  | writable waiter head place below => exact after_wait_not_parked _ _ _ parked
  | disarm waiter place => exact after_wait_not_parked _ _ _ parked
  | _ => cases asleep

theorem start_not_asleep (capacity : RingCapacity) (call : ProducerCall) (job : WaitJob) :
    call.start capacity ≠ .asleep job := by
  intro asleep
  cases call with
  | push call =>
      have parked : (startPush capacity (.direct call)).parked := by
        rw [show startPush capacity (.direct call) = .asleep job from asleep]
        trivial
      exact start_push_not_parked _ _ parked
  | waitWritable => cases asleep
  | pushScatterBlocking segs => cases asleep

theorem EmuInv.wait_outside (inv : EmuInv state)
    (elsewhere : ∀ job, state.ring.producer ≠ .waitEnter job) : state.wait = .outside := by
  by_contra inside
  obtain ⟨job, place⟩ := inv.waitPlace inside
  exact elsewhere job place

theorem EmuInv.wake_outside (inv : EmuInv state)
    (elsewhere : ∀ payload, ¬ state.ring.consumer.wakesFor payload) : state.wake = .outside := by
  have held := inv.wakePlace
  cases phase : state.wake <;> simp only [phase, WakePlace] at held
  case outside => rfl
  case exchanging =>
    obtain ⟨payload, place⟩ := held
    exact absurd (Or.inl place) (elsewhere payload)
  all_goals
    obtain ⟨payload, place⟩ := held
    exact absurd (Or.inr place) (elsewhere payload)

theorem EmuInv.producer_moves {ring : RingState} (inv : EmuInv state)
    (outside : state.wait = .outside) (awake : ∀ job, ring.producer ≠ .asleep job)
    (consumer : ring.consumer = state.ring.consumer) : EmuInv { state with ring } := by
  constructor
  · exact inv.ready
  · exact awake
  · exact fun inside => absurd outside inside
  · simpa [consumer] using inv.wakePlace
  · exact inv.producerOwns
  · exact inv.consumerOwns
  · simp [outside, EmuWaitPc.released]
  · exact inv.verdict
  · exact inv.woken
  · simp [EmuRing.committed, outside]

theorem EmuInv.consumer_moves {ring : RingState} (inv : EmuInv state)
    (outside : state.wake = .outside) (frame : PopFrame state.ring ring) :
    EmuInv { state with ring } := by
  obtain ⟨producer, pending, flag, place⟩ := frame
  constructor
  · exact inv.ready
  · simpa [producer] using inv.awake
  · simpa [producer] using inv.waitPlace
  · simpa [WakePlace, outside] using place
  · exact inv.producerOwns
  · exact inv.consumerOwns
  · simpa [pending] using inv.visible
  · exact inv.verdict
  · exact inv.woken
  · simpa [EmuRing.committed, pending, flag] using inv.watched

theorem idle_wakes_nobody {result : Option (Except Errno (List UInt8))} (payload : List UInt8) :
    ¬ (ConsumerPc.idle result).wakesFor payload := by
  rintro (place | place) <;> cases place

theorem emu_step_inv (inv : EmuInv state) (stepped : emuStep state action = some next) :
    EmuInv next := by
  cases emu_step_cases stepped with
  | callProducer call result place =>
      have outside := inv.wait_outside (by simp [place])
      exact inv.producer_moves outside (start_not_asleep _ call) rfl
  | producer ring elsewhere moved =>
      have outside := inv.wait_outside elsewhere
      have move := producer_step_cases moved
      exact inv.producer_moves outside (producer_stays_awake elsewhere move)
        (by cases move <;> rfl)
  | wait job next place moved => exact emu_wait_inv inv place moved
  | flushFlag pending =>
      exact { inv with
        visible := fun _ => rfl
        watched := by simp }
  | spuriousWake place =>
      have free := inv.free_of_producer (by rw [place]; rfl)
      have visible := inv.visible (by rw [place]; rfl)
      exact { inv with
        waitPlace := fun _ => inv.waitPlace (by simp [place])
        producerOwns := by simp [free, EmuWaitPc.holdsMutex]
        visible := fun _ => visible
        verdict := by simp
        woken := by simp
        watched := by simp [EmuRing.committed] }
  | callPop maxSize result place =>
      have outside := inv.wake_outside (by rw [place]; exact idle_wakes_nobody)
      exact inv.consumer_moves outside ⟨rfl, rfl, rfl, by simp⟩
  | consumer ring elsewhere moved =>
      exact inv.consumer_moves (inv.wake_outside elsewhere) (pop_frame elsewhere moved)
  | wake payload next place moved => exact emu_wake_inv inv place moved

theorem reachable_emu_inv {capacity : RingCapacity}
    (reached : (emuMachine capacity).Reachable state) : EmuInv state := by
  apply Machine.invariant_of_reachable (emuMachine capacity) EmuInv _ _ reached
  · rintro start ⟨data, rfl⟩
    exact fresh_emu_inv capacity data
  · intro before action after inv stepped
    exact emu_step_inv inv stepped

end Invariant

end AdaptIpc.Ring

import AdaptIpc.Ring.Machine

/-!
# The steps of the ring, one by one

For each step of the producer's code, and for each action of the machine, the place it
leaves, what it has tested there and the state it leads to. Apart from its own program,
the producer is only ever moved out of its sleep.
-/

namespace AdaptIpc.Ring

open AdaptIpc.Library.Bytes AdaptIpc.Library.Cursor

set_option autoImplicit false

inductive ProducerMove (state : RingState) : RingState → Prop where
  | field (field following : HeaderField) (rest : List HeaderField)
      (place : state.producer = .initHeader (field :: following :: rest)) :
      ProducerMove state { state with
        object := field.store state.producerCapacity state.object
        producer := .initHeader (following :: rest) }
  | lastField (field : HeaderField) (place : state.producer = .initHeader [field]) :
      ProducerMove state { state with
        object := field.store state.producerCapacity state.object
        producer := .idle none }
  | loadHead (job : PushJob) (need : UInt64) (place : state.producer = .loadHead job need) :
      ProducerMove state { state with producer := .loadTail job need state.object.head }
  | loadTail (job : PushJob) (need head : UInt64)
      (place : state.producer = .loadTail job need head) :
      ProducerMove state { state with
        producer := checkSpace state job need head state.object.tail }
  | store (job : PushJob) (write : Store) (rest : List Store) (newHead : UInt64)
      (place : state.producer = .copy job (write :: rest) newHead) :
      ProducerMove state { state with
        object := { state.object with data := store state.object.data write }
        producer := .copy job rest newHead }
  | publish (job : PushJob) (newHead : UInt64) (place : state.producer = .copy job [] newHead) :
      ProducerMove state { state with
        object := { state.object with head := newHead }
        producer := afterPush job (.ok ())
        pushed := state.pushed ++ [job.call.record]
        lastFootprint := newHead - state.object.head }
  | waitHead (job : WaitJob) (place : state.producer = .waitHead job) :
      ProducerMove state { state with producer := .waitTail job state.object.head }
  | writable (job : WaitJob) (head : UInt64) (place : state.producer = .waitTail job head)
      (below : head - state.object.tail < hwBytes state.producerCapacity) :
      ProducerMove state { state with
        producer := afterWait state.producerCapacity job (.ok ()) }
  | congested (job : WaitJob) (head : UInt64) (place : state.producer = .waitTail job head)
      (above : ¬ head - state.object.tail < hwBytes state.producerCapacity) :
      ProducerMove state { state with producer := .waitArm job head }
  | arm (job : WaitJob) (head : UInt64) (place : state.producer = .waitArm job head) :
      ProducerMove state { state with flagPending := true, producer := .waitRecheck job head }
  | relieved (job : WaitJob) (head : UInt64) (place : state.producer = .waitRecheck job head)
      (below : head - state.object.tail < hwBytes state.producerCapacity) :
      ProducerMove state { state with producer := .waitDisarm job }
  | stillCongested (job : WaitJob) (head : UInt64)
      (place : state.producer = .waitRecheck job head)
      (above : ¬ head - state.object.tail < hwBytes state.producerCapacity) :
      ProducerMove state { state with producer := .waitPark job }
  | disarm (job : WaitJob) (place : state.producer = .waitDisarm job) :
      ProducerMove state { state with
        object := { state.object with flowFlag := 0 }
        flagPending := false
        producer := afterWait state.producerCapacity job (.ok ()) }
  | park (job : WaitJob) (place : state.producer = .waitPark job) :
      ProducerMove state { state with
        object := { state.object with parks := state.object.parks + 1 }
        producer := .waitEnter job }
  | sleep (job : WaitJob) (place : state.producer = .waitEnter job)
      (armed : (if state.flagPending then 1 else state.object.flowFlag) = 1) :
      ProducerMove state { state with
        object := { state.object with flowFlag := 1 }
        flagPending := false
        producer := .asleep job }
  | missed (job : WaitJob) (place : state.producer = .waitEnter job)
      (cleared : ¬ (if state.flagPending then 1 else state.object.flowFlag) = 1) :
      ProducerMove state { state with
        object := { state.object with
          flowFlag := if state.flagPending then 1 else state.object.flowFlag }
        flagPending := false
        producer := .waitHead job }

/-- The actions of the machine. -/
inductive RingMove (state : RingState) : RingAction → RingState → Prop where
  | attachProducer (place : state.producer = .detached) :
      RingMove state .attachProducer { state with producer := .initHeader headerInit }
  | attachConsumer (place : state.consumer = .detached) :
      RingMove state .attachConsumer { state with consumer := .idle none }
  | callProducer (call : ProducerCall) (result : Option Status)
      (place : state.producer = .idle result) :
      RingMove state (.callProducer call)
        { state with producer := call.start state.producerCapacity }
  | producer (next : RingState) (moved : ProducerMove state next) :
      RingMove state .producer next
  | flushFlag (pending : state.flagPending = true) :
      RingMove state .flushFlag { state with
        object := { state.object with flowFlag := 1 }
        flagPending := false }
  | interrupt (job : WaitJob) (place : state.producer = .asleep job) :
      RingMove state .interrupt { state with
        producer := afterWait state.producerCapacity job (.error .eintr) }
  | spuriousWake (job : WaitJob) (place : state.producer = .asleep job) :
      RingMove state .spuriousWake { state with producer := .waitHead job }
  | callPop (maxSize : Nat) (result : Option (Except Errno (List UInt8)))
      (place : state.consumer = .idle result) :
      RingMove state (.callPop maxSize) { state with consumer := .loadTail maxSize }
  | consumer (next : RingState) (stepped : consumerStep state = some next) :
      RingMove state .consumer next

section Inversion

variable {state next : RingState} {action : RingAction}

theorem producer_step_cases (stepped : producerStep state = some next) : ProducerMove state next := by
  cases place : state.producer with
  | detached => simp [producerStep, place] at stepped
  | idle result => simp [producerStep, place] at stepped
  | asleep job => simp [producerStep, place] at stepped
  | initHeader todo =>
      cases todo with
      | nil => simp [producerStep, place] at stepped
      | cons field rest =>
          simp only [producerStep, place, Option.some.injEq] at stepped
          subst stepped
          cases rest with
          | nil => exact .lastField field place
          | cons following rest => exact .field field following rest place
  | copy job todo newHead =>
      cases todo with
      | nil =>
          simp only [producerStep, place, Option.some.injEq] at stepped
          subst stepped
          exact .publish job newHead place
      | cons write rest =>
          simp only [producerStep, place, Option.some.injEq] at stepped
          subst stepped
          exact .store job write rest newHead place
  | waitTail job head =>
      simp only [producerStep, place, Option.some.injEq] at stepped
      subst stepped
      split
      · next below => exact .writable job head place below
      · next above => exact .congested job head place above
  | waitRecheck job head =>
      simp only [producerStep, place, Option.some.injEq] at stepped
      subst stepped
      split
      · next below => exact .relieved job head place below
      · next above => exact .stillCongested job head place above
  | waitEnter job =>
      simp only [producerStep, place, Option.some.injEq] at stepped
      subst stepped
      by_cases armed : (if state.flagPending then 1 else state.object.flowFlag) = 1
      · simp only [armed, if_true]
        exact .sleep job place armed
      · rw [if_neg armed]
        exact .missed job place armed
  | loadHead job need =>
      simp only [producerStep, place, Option.some.injEq] at stepped
      subst stepped
      exact .loadHead job need place
  | loadTail job need head =>
      simp only [producerStep, place, Option.some.injEq] at stepped
      subst stepped
      exact .loadTail job need head place
  | waitHead job =>
      simp only [producerStep, place, Option.some.injEq] at stepped
      subst stepped
      exact .waitHead job place
  | waitArm job head =>
      simp only [producerStep, place, Option.some.injEq] at stepped
      subst stepped
      exact .arm job head place
  | waitDisarm job =>
      simp only [producerStep, place, Option.some.injEq] at stepped
      subst stepped
      exact .disarm job place
  | waitPark job =>
      simp only [producerStep, place, Option.some.injEq] at stepped
      subst stepped
      exact .park job place

theorem ring_step_cases (stepped : ringStep state action = some next) :
    RingMove state action next := by
  cases action with
  | producer => exact .producer next (producer_step_cases stepped)
  | consumer => exact .consumer next stepped
  | attachProducer =>
      simp only [ringStep] at stepped
      split at stepped <;> cases stepped
      next place => exact .attachProducer place
  | attachConsumer =>
      simp only [ringStep] at stepped
      split at stepped <;> cases stepped
      next place => exact .attachConsumer place
  | callProducer call =>
      simp only [ringStep, callProducer] at stepped
      split at stepped <;> cases stepped
      next result place => exact .callProducer call result place
  | flushFlag =>
      simp only [ringStep, flushFlag] at stepped
      split at stepped <;> cases stepped
      next pending => exact .flushFlag pending
  | interrupt =>
      simp only [ringStep, interruptWait] at stepped
      split at stepped <;> cases stepped
      next job place => exact .interrupt job place
  | spuriousWake =>
      simp only [ringStep, wakeSpuriously] at stepped
      split at stepped <;> cases stepped
      next job place => exact .spuriousWake job place
  | callPop maxSize =>
      simp only [ringStep, callPop] at stepped
      split at stepped <;> cases stepped
      next result place => exact .callPop maxSize result place

end Inversion

section Frames

variable {state next : RingState} {action : RingAction}

structure ConsumerFrame (state next : RingState) : Prop where
  producer : next.producer = state.producer ∨ next.producer = wakeProducer state.producer
  pushed : next.pushed = state.pushed
  head : next.object.head = state.object.head
  lastFootprint : next.lastFootprint = state.lastFootprint

theorem consumer_frame (stepped : consumerStep state = some next) : ConsumerFrame state next := by
  simp only [consumerStep] at stepped
  split at stepped <;> (try split at stepped) <;> cases stepped
  case h_10 payload place => exact ⟨Or.inr rfl, rfl, rfl, rfl⟩
  all_goals exact ⟨Or.inl rfl, rfl, rfl, rfl⟩

inductive ProducerTouch (state next : RingState) : Prop where
  | untouched (same : next.producer = state.producer)
  | woken (job : WaitJob) (asleep : state.producer = .asleep job)
      (resumed : next.producer = .waitHead job)
  | interrupted (job : WaitJob) (asleep : state.producer = .asleep job)
      (ended : next.producer = afterWait state.producerCapacity job (.error .eintr))

structure OutsideStep (state next : RingState) : Prop where
  touch : ProducerTouch state next
  pushed : next.pushed = state.pushed
  head : next.object.head = state.object.head
  lastFootprint : next.lastFootprint = state.lastFootprint

theorem ConsumerFrame.touch (frame : ConsumerFrame state next) : ProducerTouch state next := by
  rcases frame.producer with same | woken
  · exact .untouched same
  · cases place : state.producer with
    | asleep job =>
        rw [place] at woken
        exact .woken job place woken
    | _ =>
        rw [place] at woken
        exact .untouched (woken.trans place.symm)

theorem outside_step (foreign : action.entersProducer = false) (other : action ≠ .producer)
    (stepped : ringStep state action = some next) : OutsideStep state next := by
  cases ring_step_cases stepped with
  | attachProducer place => cases foreign
  | callProducer call result place => cases foreign
  | producer next moved => exact absurd rfl other
  | consumer next stepped =>
      have frame := consumer_frame stepped
      exact ⟨frame.touch, frame.pushed, frame.head, frame.lastFootprint⟩
  | interrupt job place => exact ⟨.interrupted job place rfl, rfl, rfl, rfl⟩
  | spuriousWake job place => exact ⟨.woken job place rfl, rfl, rfl, rfl⟩
  | attachConsumer place => exact ⟨.untouched rfl, rfl, rfl, rfl⟩
  | flushFlag pending => exact ⟨.untouched rfl, rfl, rfl, rfl⟩
  | callPop maxSize result place => exact ⟨.untouched rfl, rfl, rfl, rfl⟩

theorem published_from_copy (stepped : ringStep state action = some next) :
    next.pushed = state.pushed ∨ ∃ job newHead, action = .producer ∧
      state.producer = .copy job [] newHead ∧ next.producer = afterPush job (.ok ()) ∧
      next.pushed = state.pushed ++ [job.call.record] := by
  cases ring_step_cases stepped with
  | producer next moved =>
      cases moved with
      | publish job newHead place => exact Or.inr ⟨job, newHead, rfl, place, rfl, rfl⟩
      | _ => exact Or.inl rfl
  | consumer next stepped => exact Or.inl (consumer_frame stepped).pushed
  | _ => exact Or.inl rfl

theorem keeps_consumer (foreign : action.entersConsumer = false) (other : action ≠ .consumer)
    (stepped : ringStep state action = some next) :
    next.consumer = state.consumer ∧ next.popped = state.popped := by
  cases ring_step_cases stepped with
  | attachConsumer place => cases foreign
  | callPop maxSize result place => cases foreign
  | consumer next stepped => exact absurd rfl other
  | producer next moved => cases moved <;> exact ⟨rfl, rfl⟩
  | _ => exact ⟨rfl, rfl⟩

end Frames

end AdaptIpc.Ring

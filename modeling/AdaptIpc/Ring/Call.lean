import AdaptIpc.Ring.Invariant

/-!
# A push call in progress

What the ring's threads do to a producer that is inside a push call: the call
goes on with the same record, returns 0 having enqueued it, or returns an error
having enqueued nothing. A producer outside a call is not moved by anyone.
-/

namespace AdaptIpc.Ring

open AdaptIpc.Library.Cursor

set_option autoImplicit false

def WaitJob.pushes : WaitJob → Bool
  | .direct => false
  | _ => true

def ProducerPc.serving : ProducerPc → Bool
  | .loadHead _ _ => true
  | .loadTail _ _ _ => true
  | .copy _ _ _ => true
  | .waitHead job => job.pushes
  | .waitTail job _ => job.pushes
  | .waitArm job _ => job.pushes
  | .waitRecheck job _ => job.pushes
  | .waitDisarm job => job.pushes
  | .waitPark job => job.pushes
  | .waitEnter job => job.pushes
  | .asleep job => job.pushes
  | _ => false

def Continues (record : List UInt8) (pc : ProducerPc) : Prop :=
  (pc.serving = true ∧ pc.candidate = record) ∨ ∃ code, pc = .idle (some (.error code))

theorem after_push_continues (job : PushJob) (code : Errno) :
    Continues job.call.record (afterPush job (.error code)) := by
  cases job with
  | direct call => exact Or.inr ⟨code, rfl⟩
  | blocking segs =>
      simp only [afterPush]
      split
      · exact Or.inl ⟨rfl, rfl⟩
      · exact Or.inr ⟨code, rfl⟩

theorem start_push_continues (capacity : RingCapacity) (job : PushJob) :
    Continues job.call.record (startPush capacity job) := by
  unfold startPush
  split
  · exact after_push_continues job _
  · exact Or.inl ⟨rfl, rfl⟩

theorem after_wait_continues (capacity : RingCapacity) {job : WaitJob}
    (pushes : job.pushes = true) (rc : Status) :
    Continues (PushCall.scatter job.segments).record (afterWait capacity job rc) := by
  have failed : ∀ {status : Status}, status ≠ .ok () →
      Continues (PushCall.scatter job.segments).record (.idle (some status)) := by
    intro status other
    cases status with
    | ok done => exact absurd rfl other
    | error code => exact Or.inr ⟨code, rfl⟩
  unfold afterWait
  split
  · cases pushes
  · split
    · next other => exact failed other.1
    · exact start_push_continues capacity _
  · split
    · next other => exact failed other
    · exact start_push_continues capacity _

theorem check_space_continues (state : RingState) (job : PushJob) (need head tail : UInt64) :
    Continues job.call.record (checkSpace state job need head tail) := by
  unfold checkSpace
  split
  · exact after_push_continues job _
  · exact Or.inl ⟨rfl, rfl⟩

inductive CallStep (state next : RingState) : Prop where
  | continued (place : Continues state.producer.candidate next.producer)
      (pushed : next.pushed = state.pushed) (head : next.object.head = state.object.head)
  | returned (place : next.producer = .idle (some (.ok ())))
      (pushed : next.pushed = state.pushed ++ [state.producer.candidate])

theorem CallStep.stays {state next : RingState} {pc : ProducerPc} (reached : next.producer = pc)
    (serving : pc.serving = true) (record : pc.candidate = state.producer.candidate)
    (pushed : next.pushed = state.pushed) (head : next.object.head = state.object.head) :
    CallStep state next :=
  .continued (Or.inl ⟨reached ▸ serving, reached ▸ record⟩) pushed head

/-- The producer's own step. -/
theorem serving_producer_step {state next : RingState} (serving : state.producer.serving = true)
    (stepped : producerStep state = some next) : CallStep state next := by
  cases producer_step_cases stepped with
  | field field following rest place =>
      rw [place] at serving
      cases serving
  | lastField field place =>
      rw [place] at serving
      cases serving
  | loadHead job need place => exact .stays rfl rfl (by rw [place]; rfl) rfl rfl
  | loadTail job need head place =>
      refine .continued ?_ rfl rfl
      rw [place]
      exact check_space_continues state job need head state.object.tail
  | store job write rest newHead place => exact .stays rfl rfl (by rw [place]; rfl) rfl rfl
  | publish job newHead place =>
      apply CallStep.returned
      · cases job <;> rfl
      · rw [place]
        rfl
  | waitHead job place =>
      rw [place] at serving
      exact .stays rfl serving (by rw [place]; rfl) rfl rfl
  | writable job head place below =>
      rw [place] at serving
      refine .continued ?_ rfl rfl
      rw [place]
      exact after_wait_continues state.producerCapacity serving _
  | congested job head place above =>
      rw [place] at serving
      exact .stays rfl serving (by rw [place]; rfl) rfl rfl
  | arm job head place =>
      rw [place] at serving
      exact .stays rfl serving (by rw [place]; rfl) rfl rfl
  | relieved job head place below =>
      rw [place] at serving
      exact .stays rfl serving (by rw [place]; rfl) rfl rfl
  | stillCongested job head place above =>
      rw [place] at serving
      exact .stays rfl serving (by rw [place]; rfl) rfl rfl
  | disarm job place =>
      rw [place] at serving
      refine .continued ?_ rfl rfl
      rw [place]
      exact after_wait_continues state.producerCapacity serving _
  | park job place =>
      rw [place] at serving
      exact .stays rfl serving (by rw [place]; rfl) rfl rfl
  | sleep job place armed =>
      rw [place] at serving
      exact .stays rfl serving (by rw [place]; rfl) rfl rfl
  | missed job place cleared =>
      rw [place] at serving
      exact .stays rfl serving (by rw [place]; rfl) rfl rfl

theorem serving_step {state next : RingState} {action : RingAction}
    (serving : state.producer.serving = true) (foreign : action.entersProducer = false)
    (stepped : ringStep state action = some next) : CallStep state next := by
  by_cases own : action = .producer
  · subst own
    exact serving_producer_step serving stepped
  · obtain ⟨touch, pushed, head, _⟩ := outside_step foreign own stepped
    cases touch with
    | untouched same => exact .stays same serving rfl pushed head
    | woken job asleep resumed =>
        rw [asleep] at serving
        exact .stays resumed serving (by rw [asleep]; rfl) pushed head
    | interrupted job asleep ended =>
        rw [asleep] at serving
        refine .continued ?_ pushed head
        rw [asleep, ended]
        exact after_wait_continues state.producerCapacity serving _

theorem header_step {state next : RingState} {action : RingAction} {todo : List HeaderField}
    (place : state.producer = .initHeader todo) (foreign : action.entersProducer = false)
    (stepped : ringStep state action = some next) :
    ((∃ rest, next.producer = .initHeader rest) ∨ next.producer = .idle none) ∧
      next.pushed = state.pushed := by
  by_cases own : action = .producer
  · subst own
    cases producer_step_cases stepped with
    | field field following rest initial => exact ⟨Or.inl ⟨_, rfl⟩, rfl⟩
    | lastField field initial => exact ⟨Or.inr rfl, rfl⟩
    | _ => simp_all
  · obtain ⟨touch, pushed, _, _⟩ := outside_step foreign own stepped
    refine ⟨Or.inl ⟨todo, ?_⟩, pushed⟩
    cases touch with
    | untouched same => exact same.trans place
    | woken job asleep resumed => simp [place] at asleep
    | interrupted job asleep ended => simp [place] at asleep

def ProducerPc.resting : ProducerPc → Bool
  | .detached => true
  | .idle _ => true
  | _ => false

theorem resting_step {state next : RingState} {action : RingAction}
    (resting : state.producer.resting = true) (foreign : action.entersProducer = false)
    (stepped : ringStep state action = some next) :
    next.producer = state.producer ∧ next.pushed = state.pushed ∧
      next.object.head = state.object.head := by
  by_cases own : action = .producer
  · subst own
    cases producer_step_cases stepped <;> simp_all [ProducerPc.resting]
  · obtain ⟨touch, pushed, head, _⟩ := outside_step foreign own stepped
    refine ⟨?_, pushed, head⟩
    cases touch with
    | untouched same => exact same
    | woken job asleep resumed => simp [asleep, ProducerPc.resting] at resting
    | interrupted job asleep ended => simp [asleep, ProducerPc.resting] at resting

theorem RingEffect.head_same {state next : RingState} {head tail head' tail' : Nat}
    {slots slots' : List Slot}
    (effect : RingEffect state next head tail slots head' tail' slots')
    (same : next.pushed = state.pushed) : head' = head := by
  cases effect with
  | quiet pushed taken footprint => rfl
  | enqueue more payload single pushed taken span spans shape footprint =>
      rw [same] at pushed
      exact absurd (congrArg List.length pushed) (by simp)
  | discard pushed taken footprint span => rfl
  | dequeue payload pushed taken footprint span => rfl

theorem RingEffect.moved {state next : RingState} {head tail head' tail' : Nat}
    {slots slots' : List Slot}
    (effect : RingEffect state next head tail slots head' tail' slots') :
    tail ≤ tail' ∧ ((next.pushed = state.pushed ∧ head' = head ∧
        next.lastFootprint = state.lastFootprint) ∨
      ∃ payload, next.pushed = state.pushed ++ [payload] ∧ Spans payload head head' ∧
        next.lastFootprint = cursor (head' - head)) := by
  have positive := state.producerCapacity.bytes_positive
  cases effect with
  | quiet pushed taken footprint => exact ⟨Nat.le_refl _, Or.inl ⟨pushed, rfl, footprint⟩⟩
  | enqueue more payload single pushed taken span spans shape footprint =>
      exact ⟨Nat.le_refl _, Or.inr ⟨payload, pushed, spans, footprint⟩⟩
  | discard pushed taken footprint span =>
      have further := slot_end_gt tail .padding positive
      exact ⟨by omega, Or.inl ⟨pushed, rfl, footprint⟩⟩
  | dequeue payload pushed taken footprint span =>
      have further := slot_end_gt tail (.record payload) positive
      exact ⟨by omega, Or.inl ⟨pushed, rfl, footprint⟩⟩

end AdaptIpc.Ring

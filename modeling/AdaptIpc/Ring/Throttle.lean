import AdaptIpc.Ring.Call

/-!
# The throttle of the blocking push

`shm_ring_push_scatter_blocking` waits until less than the high-watermark bytes are
in use before it pushes; only the producer adds bytes, so the record it then stores
ends at most its own footprint above the mark. A direct push does not wait, and
keeps the bound only where it finds at most the high-watermark bytes in use.
-/

namespace AdaptIpc.Ring

open AdaptIpc.Library.Bytes AdaptIpc.Library.Cursor

set_option autoImplicit false

/-- A blocking push past its throttle has less than `limit` bytes in front of it. -/
def Throttled (limit used : Nat) : ProducerPc → Prop
  | .loadHead (.blocking _) _ => used < limit
  | .loadTail (.blocking _) _ _ => used < limit
  | .copy (.blocking _) _ _ => used < limit
  | .waitDisarm _ => used < limit
  | _ => True

structure Backlog (state : RingState) (head tail : Nat) : Prop where
  throttled : Throttled (hwBytes state.producerCapacity).toNat (head - tail) state.producer
  bounded : head - tail ≤ (hwBytes state.producerCapacity).toNat + state.lastFootprint.toNat

section Throttle

variable {limit used : Nat}

theorem Throttled.less {fewer : Nat} {pc : ProducerPc} (throttled : Throttled limit used pc)
    (less : fewer ≤ used) : Throttled limit fewer pc := by
  cases pc with
  | loadHead job need =>
      cases job with
      | direct call => trivial
      | blocking segs => exact Nat.lt_of_le_of_lt less throttled
  | loadTail job need head =>
      cases job with
      | direct call => trivial
      | blocking segs => exact Nat.lt_of_le_of_lt less throttled
  | copy job todo newHead =>
      cases job with
      | direct call => trivial
      | blocking segs => exact Nat.lt_of_le_of_lt less throttled
  | waitDisarm job => exact Nat.lt_of_le_of_lt less throttled
  | _ => trivial

theorem after_push_throttled (job : PushJob) (rc : Status) :
    Throttled limit used (afterPush job rc) := by
  cases job with
  | direct call => trivial
  | blocking segs =>
      simp only [afterPush]
      split <;> trivial

theorem start_push_throttled (capacity : RingCapacity) {job : PushJob}
    (below : ∀ segs, job = .blocking segs → used < limit) :
    Throttled limit used (startPush capacity job) := by
  unfold startPush
  split
  · exact after_push_throttled job _
  · cases job with
    | direct call => trivial
    | blocking segs => exact below segs rfl

/-- A wait that ends well has seen less than the limit; one that a signal ends does not
go on to push. -/
theorem after_wait_throttled (capacity : RingCapacity) (job : WaitJob) {rc : Status}
    (ended : rc = .ok () ∧ used < limit ∨ rc = .error .eintr) :
    Throttled limit used (afterWait capacity job rc) := by
  unfold afterWait
  rcases ended with ⟨rfl, below⟩ | rfl
  · split
    · trivial
    · split
      · trivial
      · exact start_push_throttled capacity fun _ _ => below
    · split
      · trivial
      · exact start_push_throttled capacity fun _ _ => below
  · split
    · trivial
    · split
      · trivial
      · next other => exact absurd ⟨by simp, by decide⟩ other
    · split
      · trivial
      · next other => exact absurd (by simp) other

theorem call_start_throttled (capacity : RingCapacity) (call : ProducerCall) :
    Throttled limit used (call.start capacity) := by
  cases call with
  | push call => exact start_push_throttled capacity (by rintro segs ⟨⟩)
  | waitWritable => trivial
  | pushScatterBlocking segs => trivial

theorem check_space_throttled {state : RingState} {job : PushJob} (need head tail : UInt64)
    (below : ∀ segs, job = .blocking segs → used < limit) :
    Throttled limit used (checkSpace state job need head tail) := by
  unfold checkSpace
  split
  · exact after_push_throttled job _
  · cases job with
    | direct call => trivial
    | blocking segs => exact below segs rfl

end Throttle

section Steps

variable {state next : RingState} {head tail : Nat} {slots : List Slot}

theorem producer_step_throttled (inv : RingInv state head tail slots)
    (throttled : Throttled (hwBytes state.producerCapacity).toNat (head - tail) state.producer)
    (stepped : producerStep state = some next) :
    Throttled (hwBytes state.producerCapacity).toNat (head - tail) next.producer := by
  have own := inv.producer
  have used : ∀ loaded, loaded = cursor head →
      loaded - state.object.tail < hwBytes state.producerCapacity →
      head - tail < (hwBytes state.producerCapacity).toNat := by
    intro loaded word below
    rw [word, ← inv.headWord, UInt64.lt_iff_toNat_lt, inv.used_toNat] at below
    exact below
  cases producer_step_cases stepped with
  | field field following rest place => trivial
  | lastField field place => trivial
  | loadHead job need place =>
      rw [place] at throttled
      cases job <;> exact throttled
  | loadTail job need loaded place =>
      rw [place] at throttled
      apply check_space_throttled
      rintro segs rfl
      exact throttled
  | store job write rest newHead place =>
      rw [place] at throttled
      cases job <;> exact throttled
  | publish job newHead place => exact after_push_throttled job _
  | waitHead job place => trivial
  | writable job loaded place below =>
      rw [place] at own
      exact after_wait_throttled _ job (Or.inl ⟨rfl, used loaded own below⟩)
  | congested job loaded place above => trivial
  | arm job loaded place => trivial
  | relieved job loaded place below =>
      rw [place] at own
      exact used loaded own below
  | stillCongested job loaded place above => trivial
  | disarm job place =>
      rw [place] at throttled
      exact after_wait_throttled _ job (Or.inl ⟨rfl, throttled⟩)
  | park job place => trivial
  | sleep job place armed => trivial
  | missed job place cleared => trivial

theorem touch_throttled {limit used : Nat} (throttled : Throttled limit used state.producer)
    (touch : ProducerTouch state next) : Throttled limit used next.producer := by
  cases touch with
  | untouched same =>
      rw [same]
      exact throttled
  | woken job asleep resumed =>
      rw [resumed]
      trivial
  | interrupted job asleep ended =>
      rw [ended]
      exact after_wait_throttled _ job (Or.inr rfl)

theorem ring_step_throttled {action : RingAction} (inv : RingInv state head tail slots)
    (throttled : Throttled (hwBytes state.producerCapacity).toNat (head - tail) state.producer)
    (stepped : ringStep state action = some next) :
    Throttled (hwBytes state.producerCapacity).toNat (head - tail) next.producer := by
  by_cases foreign : action.entersProducer = false ∧ action ≠ .producer
  · exact touch_throttled throttled (outside_step foreign.1 foreign.2 stepped).touch
  · cases ring_step_cases stepped with
    | producer next moved => exact producer_step_throttled inv throttled stepped
    | callProducer call result place => exact call_start_throttled state.producerCapacity call
    | attachProducer place => trivial
    | _ => exact absurd ⟨rfl, by simp⟩ foreign

/-- A push that nothing throttles is under way. -/
def ProducerPc.direct : ProducerPc → Bool
  | .loadHead (.direct _) _ => true
  | .loadTail (.direct _) _ _ => true
  | .copy (.direct _) _ _ => true
  | _ => false

theorem after_push_not_direct (job : PushJob) (rc : Status) :
    (afterPush job rc).direct = false := by
  cases job with
  | direct call => rfl
  | blocking segs =>
      simp only [afterPush]
      split <;> rfl

theorem start_blocking_not_direct (capacity : RingCapacity) (segs : List ShmSegment) :
    (startPush capacity (.blocking segs)).direct = false := by
  unfold startPush
  split
  · exact after_push_not_direct _ _
  · rfl

theorem after_wait_not_direct (capacity : RingCapacity) (job : WaitJob) (rc : Status) :
    (afterWait capacity job rc).direct = false := by
  unfold afterWait
  split
  · rfl
  · split
    · rfl
    · exact start_blocking_not_direct capacity _
  · split
    · rfl
    · exact start_blocking_not_direct capacity _

theorem producer_step_direct (stepped : producerStep state = some next)
    (direct : next.producer.direct = true) : state.producer.direct = true := by
  cases producer_step_cases stepped with
  | loadHead job need place =>
      rw [place]
      cases job with
      | direct call => rfl
      | blocking segs => cases direct
  | loadTail job need loaded place =>
      rw [place]
      cases job with
      | direct call => rfl
      | blocking segs =>
          simp only [checkSpace] at direct
          split at direct
          · rw [after_push_not_direct] at direct
            cases direct
          · cases direct
  | store job write rest newHead place =>
      rw [place]
      cases job with
      | direct call => rfl
      | blocking segs => cases direct
  | publish job newHead place => exact absurd direct (by simp [after_push_not_direct])
  | writable job loaded place below => exact absurd direct (by simp [after_wait_not_direct])
  | disarm job place => exact absurd direct (by simp [after_wait_not_direct])
  | _ => cases direct

theorem foreign_step_direct {action : RingAction} (foreign : action.entersProducer = false)
    (stepped : ringStep state action = some next) (direct : next.producer.direct = true) :
    state.producer.direct = true := by
  by_cases own : action = .producer
  · subst own
    exact producer_step_direct stepped direct
  · cases (outside_step foreign own stepped).touch with
    | untouched same =>
        rw [← same]
        exact direct
    | woken job asleep resumed =>
        rw [resumed] at direct
        cases direct
    | interrupted job asleep ended =>
        rw [ended, after_wait_not_direct] at direct
        cases direct

/-- A direct push stores its head with at most the high-watermark bytes in use. -/
def CalmPush (state : RingState) (action : RingAction) : Prop :=
  ∀ call newHead, action = .producer → state.producer = .copy (.direct call) [] newHead →
    state.object.head - state.object.tail ≤ hwBytes state.producerCapacity

theorem footprint_used {payload : List UInt8} {head' : Nat} {slots' : List Slot}
    (inv : RingInv state head tail slots) (kept : RingInv next head' tail slots')
    (spans : Spans payload head head') (footprint : next.lastFootprint = cursor (head' - head)) :
    head' - tail = head - tail + next.lastFootprint.toNat := by
  have room := kept.room
  have small := next.producerCapacity.bytes_le
  have ordered := inv.ordered
  have length := spans.1
  rw [footprint, cursor_toNat _ (by omega)]
  omega

/-- A step keeps the bound unless it is the head store of a direct push above the mark. -/
theorem ring_step_backlog {action : RingAction} {head' tail' : Nat} {slots' : List Slot}
    (inv : RingInv state head tail slots) (backlog : Backlog state head tail)
    (calm : CalmPush state action) (stepped : ringStep state action = some next)
    (kept : RingInv next head' tail' slots')
    (effect : RingEffect state next head tail slots head' tail' slots') :
    Backlog next head' tail' := by
  have capacity := (same_capacity_step stepped).1
  have throttled := ring_step_throttled inv backlog.throttled stepped
  have positive := state.producerCapacity.bytes_positive
  have freed : ∀ further, tail ≤ further → next.lastFootprint = state.lastFootprint →
      Backlog next head further := by
    intro further advanced footprint
    constructor
    · rw [capacity]
      exact throttled.less (by omega)
    · have bounded := backlog.bounded
      rw [capacity, footprint]
      omega
  cases effect with
  | quiet pushed taken footprint => exact freed tail (Nat.le_refl _) footprint
  | discard pushed taken footprint span =>
      have advanced := slot_end_gt tail .padding positive
      exact freed _ (by omega) footprint
  | dequeue payload pushed taken footprint span =>
      have advanced := slot_end_gt tail (.record payload) positive
      exact freed _ (by omega) footprint
  | enqueue more payload single pushed taken span spans shape footprint =>
      rcases published_from_copy stepped with quiet | ⟨job, newHead, rfl, place, returned, _⟩
      · rw [quiet] at pushed
        exact absurd (congrArg List.length pushed) (by simp)
      · constructor
        · rw [returned]
          exact after_push_throttled job _
        · have below : head - tail ≤ (hwBytes state.producerCapacity).toNat := by
            cases job with
            | direct call =>
                have calm := calm call newHead rfl place
                rw [UInt64.le_iff_toNat_le, inv.used_toNat] at calm
                exact calm
            | blocking segs =>
                have held := backlog.throttled
                rw [place] at held
                exact Nat.le_of_lt held
          have used := footprint_used inv kept spans footprint
          have ordered := inv.ordered
          rw [capacity]
          omega

theorem direct_push_exceeds {call : PushCall} {newHead : UInt64} {head' tail' : Nat}
    {slots' : List Slot} (inv : RingInv state head tail slots)
    (place : state.producer = .copy (.direct call) [] newHead)
    (above : hwBytes state.producerCapacity < state.object.head - state.object.tail)
    (stepped : producerStep state = some next) (kept : RingInv next head' tail' slots')
    (effect : RingEffect state next head tail slots head' tail' slots') :
    (hwBytes next.producerCapacity).toNat + next.lastFootprint.toNat < head' - tail' := by
  have capacity : next.producerCapacity = state.producerCapacity := by
    have same := @same_capacity_step state next .producer stepped
    exact same.1
  simp only [producerStep, place, Option.some.injEq] at stepped
  have pushed : next.pushed = state.pushed ++ [call.record] := by
    rw [← stepped]
    rfl
  rw [UInt64.lt_iff_toNat_lt, inv.used_toNat] at above
  have grown : next.pushed ≠ state.pushed := by
    rw [pushed]
    simp
  cases effect with
  | quiet same taken footprint => exact absurd same grown
  | discard same taken footprint span => exact absurd same grown
  | dequeue payload same taken footprint span => exact absurd same grown
  | enqueue more payload single same taken span spans shape footprint =>
      have used := footprint_used inv kept spans footprint
      rw [capacity]
      omega

end Steps

end AdaptIpc.Ring

import AdaptIpc.Ring.Call
import AdaptIpc.Ring.Scatter

/-!
# The size check of a push call

A scatter push checks the size of its record before it looks at the cursors, and
the blocking push does so each time it retries. So a call either never answers
`-EMSGSIZE`, or answers nothing else but an interrupted wait.
-/

namespace AdaptIpc.Ring

open AdaptIpc.Library.Cursor

set_option autoImplicit false

section Verdict

variable {capacity : RingCapacity} {segs : List ShmSegment}

def Admits (capacity : RingCapacity) (segs : List ShmSegment) : Prop :=
  ∃ need, (PushCall.scatter segs).need capacity = .ok need

/-- The size check has no other answer than `-EMSGSIZE`. -/
def Checked (capacity : RingCapacity) (segs : List ShmSegment) : Prop :=
  Admits capacity segs ∨ (PushCall.scatter segs).need capacity = .error .emsgsize

/-- The answer of a call against its size check. -/
structure Answers (capacity : RingCapacity) (segs : List ShmSegment) (rc : Status) : Prop where
  admitted : Admits capacity segs → rc ≠ .error .emsgsize
  refused : ¬Admits capacity segs → rc = .error .emsgsize ∨ rc = .error .eintr

def Sized (capacity : RingCapacity) (segs : List ShmSegment) : ProducerPc → Prop
  | .idle (some rc) => Answers capacity segs rc
  | .loadHead job _ => job.call = .scatter segs ∧ Admits capacity segs
  | .loadTail job _ _ => job.call = .scatter segs ∧ Admits capacity segs
  | .copy job _ _ => job.call = .scatter segs ∧ Admits capacity segs
  | .waitHead job => job.pushes = true ∧ job.segments = segs
  | .waitTail job _ => job.pushes = true ∧ job.segments = segs
  | .waitArm job _ => job.pushes = true ∧ job.segments = segs
  | .waitRecheck job _ => job.pushes = true ∧ job.segments = segs
  | .waitDisarm job => job.pushes = true ∧ job.segments = segs
  | .waitPark job => job.pushes = true ∧ job.segments = segs
  | .waitEnter job => job.pushes = true ∧ job.segments = segs
  | .asleep job => job.pushes = true ∧ job.segments = segs
  | _ => False

theorem after_push_sized {job : PushJob} {rc : Status} (call : job.call = .scatter segs)
    (answers : Answers capacity segs rc) : Sized capacity segs (afterPush job rc) := by
  cases job with
  | direct pushed => exact answers
  | blocking held =>
      cases call
      simp only [afterPush]
      split
      · exact ⟨rfl, rfl⟩
      · exact answers

theorem start_push_sized (checked : Checked capacity segs) {job : PushJob}
    (call : job.call = .scatter segs) : Sized capacity segs (startPush capacity job) := by
  simp only [startPush, call]
  rcases checked with ⟨need, accepted⟩ | refused
  · rw [accepted]
    exact ⟨call, need, accepted⟩
  · rw [refused]
    apply after_push_sized call
    constructor
    · rintro ⟨need, accepted⟩
      rw [refused] at accepted
      cases accepted
    · exact fun _ => Or.inl rfl

theorem check_space_sized {state : RingState} {job : PushJob} (need head tail : UInt64)
    (call : job.call = .scatter segs) (admits : Admits capacity segs) :
    Sized capacity segs (checkSpace state job need head tail) := by
  simp only [checkSpace]
  split
  · next code refused =>
    apply after_push_sized call
    constructor
    · rw [reserve_refuses refused]
      intro _ same
      cases same
    · exact fun refuses => absurd admits refuses
  · exact ⟨call, admits⟩

theorem after_wait_sized (checked : Checked capacity segs) {job : WaitJob} {rc : Status}
    (pushes : job.pushes = true) (held : job.segments = segs)
    (wakes : rc = .ok () ∨ rc = .error .eintr) :
    Sized capacity segs (afterWait capacity job rc) := by
  have again : Sized capacity segs (startPush capacity (.blocking segs)) :=
    start_push_sized checked rfl
  have interrupted : Answers capacity segs (.error .eintr) := by
    constructor
    · intro _ same
      cases same
    · exact fun _ => Or.inr rfl
  cases job with
  | direct => cases pushes
  | throttle kept =>
      cases held
      rcases wakes with rfl | rfl
      · exact again
      · exact interrupted
  | full kept =>
      cases held
      rcases wakes with rfl | rfl
      · exact again
      · exact interrupted

theorem producer_step_sized {state next : RingState}
    (checked : Checked state.producerCapacity segs)
    (sized : Sized state.producerCapacity segs state.producer)
    (stepped : producerStep state = some next) :
    Sized state.producerCapacity segs next.producer := by
  cases producer_step_cases stepped with
  | field field following rest place =>
      rw [place] at sized
      exact absurd sized id
  | lastField field place =>
      rw [place] at sized
      exact absurd sized id
  | loadHead job need place =>
      rw [place] at sized
      exact sized
  | loadTail job need head place =>
      rw [place] at sized
      exact check_space_sized need head _ sized.1 sized.2
  | store job write rest newHead place =>
      rw [place] at sized
      exact sized
  | publish job newHead place =>
      rw [place] at sized
      apply after_push_sized sized.1
      constructor
      · intro _ same
        cases same
      · exact fun refuses => absurd sized.2 refuses
  | writable job head place below =>
      rw [place] at sized
      exact after_wait_sized checked sized.1 sized.2 (Or.inl rfl)
  | disarm job place =>
      rw [place] at sized
      exact after_wait_sized checked sized.1 sized.2 (Or.inl rfl)
  | waitHead job place =>
      rw [place] at sized
      exact sized
  | congested job head place above =>
      rw [place] at sized
      exact sized
  | arm job head place =>
      rw [place] at sized
      exact sized
  | relieved job head place below =>
      rw [place] at sized
      exact sized
  | stillCongested job head place above =>
      rw [place] at sized
      exact sized
  | park job place =>
      rw [place] at sized
      exact sized
  | sleep job place armed =>
      rw [place] at sized
      exact sized
  | missed job place cleared =>
      rw [place] at sized
      exact sized

theorem ring_step_sized {state next : RingState} {action : RingAction}
    (checked : Checked state.producerCapacity segs)
    (sized : Sized state.producerCapacity segs state.producer)
    (foreign : action.entersProducer = false) (stepped : ringStep state action = some next) :
    Sized next.producerCapacity segs next.producer := by
  rw [(same_capacity_step stepped).1]
  by_cases own : action = .producer
  · subst own
    exact producer_step_sized checked sized stepped
  · cases (outside_step foreign own stepped).touch with
    | untouched same =>
        rw [same]
        exact sized
    | woken job asleep resumed =>
        rw [asleep] at sized
        rw [resumed]
        exact sized
    | interrupted job asleep ended =>
        rw [asleep] at sized
        rw [ended]
        exact after_wait_sized checked sized.1 sized.2 (Or.inr rfl)

theorem call_sized (checked : Checked capacity segs) :
    Sized capacity segs ((ProducerCall.push (.scatter segs)).start capacity) ∧
      Sized capacity segs ((ProducerCall.pushScatterBlocking segs).start capacity) :=
  ⟨start_push_sized checked rfl, rfl, rfl⟩

theorem admits_iff (based : ∀ seg ∈ segs, seg.isNull = false) (nonempty : concatenation segs ≠ [])
    (short : (concatenation segs).length ≤ 2 ^ 63) :
    Checked capacity segs ∧
      (Admits capacity segs ↔ (concatenation segs).length + 8 ≤ capacity.bytes) := by
  have checks : (PushCall.scatter segs).need capacity = _ := scatter_need_eq based nonempty short
  by_cases exceeds : capacity.bytes < (concatenation segs).length + 8
  · rw [if_pos exceeds] at checks
    refine ⟨Or.inr checks, iff_of_false ?_ (Nat.not_le.mpr exceeds)⟩
    rintro ⟨need, accepted⟩
    rw [checks] at accepted
    cases accepted
  · rw [if_neg exceeds] at checks
    exact ⟨Or.inl ⟨_, checks⟩, iff_of_true ⟨_, checks⟩ (Nat.not_lt.mp exceeds)⟩

end Verdict

end AdaptIpc.Ring

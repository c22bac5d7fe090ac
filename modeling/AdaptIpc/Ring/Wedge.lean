import AdaptIpc.Ring.Refinement

/-!
# Pushing into an empty ring

The size check accepts records up to the capacity, but a record that does not
fit before the end of the buffer is charged the padding on top. On an empty
ring a push therefore succeeds exactly when the record fits before the end of
the buffer or below the cursor; in every other position it returns `-EAGAIN`
however long the consumer keeps the ring empty, and the blocking push retries
without end.
-/

namespace AdaptIpc.Ring

open AdaptIpc.Library.Bytes AdaptIpc.Library.Cursor AdaptIpc.Library.Transition

set_option autoImplicit false

/-- The framed record fits before the end of the buffer, or in front of the cursor. -/
def FitsEmpty (capacity : RingCapacity) (head need : UInt64) : Prop :=
  need.toNat ≤ capacity.bytes - head.toNat % capacity.bytes ∨
    need.toNat ≤ head.toNat % capacity.bytes

instance (capacity : RingCapacity) (head need : UInt64) :
    Decidable (FitsEmpty capacity head need) :=
  inferInstanceAs (Decidable (_ ∨ _))

theorem need_within_capacity {capacity : RingCapacity} {call : PushCall} {need : UInt64}
    (accepted : call.need capacity = .ok need) : need.toNat ≤ capacity.bytes := by
  have small := capacity.bytes_le
  cases call with
  | push data =>
      obtain ⟨bytes, _, _, fits, rfl⟩ := push_need_accepts accepted
      have header : shmRingMsgHdrSize.toNat = 4 := rfl
      rw [UInt64.toNat_add, header]
      omega
  | scatter segs =>
      obtain ⟨_, _, _, _, fits⟩ := scatter_need_accepts accepted
      omega

theorem cursor_of_toNat (word : UInt64) : cursor word.toNat = word := by
  simp [cursor]

theorem reserve_empty {capacity : RingCapacity} {need : UInt64} (head : UInt64)
    (within : need.toNat ≤ capacity.bytes) :
    (FitsEmpty capacity head need → ∃ slot, reserve capacity head head need = .ok slot) ∧
      (¬FitsEmpty capacity head need → reserve capacity head head need = .error .eagain) := by
  have spec := reserve_spec capacity (Nat.le_refl head.toNat)
    (Nat.le_add_right head.toNat capacity.bytes) within
  rw [cursor_of_toNat, cursor_of_toNat, Nat.sub_self, Nat.sub_zero] at spec
  have remainder := Nat.mod_lt head.toNat capacity.bytes_positive
  rw [spec]
  unfold FitsEmpty
  by_cases crosses : Wraps capacity.bytes head.toNat need.toNat
  · simp only [requiredBytes, crosses, if_true]
    unfold Wraps at crosses
    constructor
    · intro fits
      rw [if_neg (by omega)]
      exact ⟨_, rfl⟩
    · intro unfit
      rw [if_pos (by omega)]
  · simp only [requiredBytes, crosses, if_false]
    unfold Wraps at crosses
    constructor
    · intro fits
      rw [if_neg (by omega)]
      exact ⟨_, rfl⟩
    · intro unfit
      omega

theorem run_push_empty {capacity : RingCapacity} {call : PushCall} {need : UInt64}
    {object : ShmObject} (empty : object.head = object.tail)
    (accepted : call.need capacity = .ok need) :
    (runPush capacity call object).1 =
      if FitsEmpty capacity object.head need then .ok () else .error .eagain := by
  obtain ⟨succeeds, fails⟩ := reserve_empty object.head (need_within_capacity accepted)
  simp only [runPush, accepted, ← empty]
  by_cases fits : FitsEmpty capacity object.head need
  · obtain ⟨slot, reserved⟩ := succeeds fits
    rw [if_pos fits, reserved]
  · rw [if_neg fits, fails fits]

def Drained (state : RingState) : Prop :=
  match state.consumer with
  | .loadHead _ tail => tail = state.object.tail
  | .readHeader _ _ _ _ => False
  | .skipPadding _ _ => False
  | .readBody _ _ _ _ => False
  | .storeTail _ _ _ => False
  | _ => True

/-- Where a blocking push can be while it only ever sees an empty ring. -/
inductive RetryPlace (segs : List ShmSegment) (need head : UInt64) : ProducerPc → Prop where
  | throttleHead : RetryPlace segs need head (.waitHead (.throttle segs))
  | throttleTail : RetryPlace segs need head (.waitTail (.throttle segs) head)
  | fullHead : RetryPlace segs need head (.waitHead (.full segs))
  | fullTail : RetryPlace segs need head (.waitTail (.full segs) head)
  | loadHead : RetryPlace segs need head (.loadHead (.blocking segs) need)
  | loadTail : RetryPlace segs need head (.loadTail (.blocking segs) need head)

structure Retrying (segs : List ShmSegment) (need head : UInt64) (state : RingState) : Prop where
  headWord : state.object.head = head
  tailWord : state.object.tail = head
  drained : Drained state
  place : RetryPlace segs need head state.producer

/-- A reachable empty ring is drained: a consumer past its head load has seen a record. -/
theorem reachable_empty_drained {capacity : RingCapacity} {state : RingState}
    (reached : (boundedRing capacity).Reachable state)
    (empty : state.object.head = state.object.tail) : Drained state := by
  obtain ⟨head, tail, slots, inv, _⟩ := reachable_ring_inv reached
  have positive := state.producerCapacity.bytes_positive
  have small := state.producerCapacity.bytes_le
  have room := inv.room
  have same : tail = head := by
    apply cursor_inj_of_near inv.ordered (by omega)
    rw [← inv.headWord, ← inv.tailWord, empty]
  have noSlot : ∀ slot rest, slots ≠ slot :: rest := by
    rintro slot rest rfl
    have advanced := slot_end_gt tail slot positive
    have remaining := parses_le positive inv.parsed.2
    omega
  have own := inv.consumer
  unfold Drained
  cases place : state.consumer with
  | loadHead maxSize loaded =>
      rw [place] at own
      exact own.trans inv.tailWord.symm
  | readHeader maxSize loaded seen got =>
      rw [place] at own
      obtain ⟨_, _, _, slot, rest, front, _⟩ := own
      exact noSlot slot rest front
  | skipPadding maxSize loaded =>
      rw [place] at own
      obtain ⟨_, rest, front⟩ := own
      exact noSlot _ rest front
  | readBody loaded seen len got =>
      rw [place] at own
      obtain ⟨_, _, _, payload, rest, front, _⟩ := own
      exact noSlot _ rest front
  | storeTail loaded seen payload =>
      rw [place] at own
      obtain ⟨_, _, rest, front⟩ := own
      exact noSlot _ rest front
  | _ => trivial

theorem start_blocking {capacity : RingCapacity} {segs : List ShmSegment} {need : UInt64}
    (accepted : (PushCall.scatter segs).need capacity = .ok need) :
    startPush capacity (.blocking segs) = .loadHead (.blocking segs) need := by
  simp [startPush, PushJob.call, accepted]

/-- No step of either thread leaves the retry loop while the record does not fit. -/
theorem retrying_step {segs : List ShmSegment} {need head : UInt64} {state next : RingState}
    {action : RingAction}
    (accepted : (PushCall.scatter segs).need state.producerCapacity = .ok need)
    (throttles : 0 < hwBytes state.producerCapacity)
    (unfit : ¬FitsEmpty state.producerCapacity head need)
    (retrying : Retrying segs need head state) (stepped : ringStep state action = some next) :
    Retrying segs need head next := by
  obtain ⟨headWord, tailWord, drained, place⟩ := retrying
  have belowWatermark : head - head < hwBytes state.producerCapacity := by simpa using throttles
  cases ring_step_cases stepped with
  | producer next moved =>
      generalize pcEq : state.producer = pc at place
      have stepped : producerStep state = some next := stepped
      simp only [producerStep, pcEq] at stepped
      cases place with
      | throttleHead =>
          cases stepped
          exact ⟨headWord, tailWord, drained, headWord ▸ .throttleTail⟩
      | fullHead =>
          cases stepped
          exact ⟨headWord, tailWord, drained, headWord ▸ .fullTail⟩
      | throttleTail =>
          dsimp only at stepped
          rw [tailWord, if_pos belowWatermark] at stepped
          cases stepped
          refine ⟨headWord, tailWord, drained, ?_⟩
          simp only [afterWait, ne_eq, not_true_eq_false, false_and, if_false]
          rw [start_blocking accepted]
          exact .loadHead
      | fullTail =>
          dsimp only at stepped
          rw [tailWord, if_pos belowWatermark] at stepped
          cases stepped
          refine ⟨headWord, tailWord, drained, ?_⟩
          simp only [afterWait, ne_eq, not_true_eq_false, if_false]
          rw [start_blocking accepted]
          exact .loadHead
      | loadHead =>
          cases stepped
          exact ⟨headWord, tailWord, drained, headWord ▸ .loadTail⟩
      | loadTail =>
          cases stepped
          refine ⟨headWord, tailWord, drained, ?_⟩
          have refused := (reserve_empty head (need_within_capacity accepted)).2 unfit
          simp only [checkSpace, tailWord, refused, afterPush, if_true]
          exact .fullHead
  | consumer next stepped =>
      have kept : RetryPlace segs need head (wakeProducer state.producer) := by
        generalize state.producer = pc at place
        cases place <;> constructor
      cases reading : state.consumer <;>
        simp only [Drained, reading] at drained <;>
        simp only [consumerStep, reading] at stepped
      case detached => cases stepped
      case idle => cases stepped
      case loadTail =>
        cases stepped
        exact ⟨headWord, tailWord, rfl, place⟩
      case loadHead =>
        rw [headWord, drained, tailWord, if_pos rfl] at stepped
        cases stepped
        exact ⟨headWord, tailWord, trivial, place⟩
      case wakeExchange =>
        split at stepped <;> cases stepped
        · exact ⟨headWord, tailWord, trivial, place⟩
        · exact ⟨headWord, tailWord, trivial, place⟩
      case wakeFutex =>
        cases stepped
        exact ⟨headWord, tailWord, trivial, kept⟩
  | flushFlag pending => exact ⟨headWord, tailWord, drained, place⟩
  | callPop maxSize result reading => exact ⟨headWord, tailWord, trivial, place⟩
  | attachConsumer reading => exact ⟨headWord, tailWord, trivial, place⟩
  | attachProducer detached =>
      rw [detached] at place
      cases place
  | callProducer call result idle =>
      rw [idle] at place
      cases place
  | interrupt job asleep =>
      rw [asleep] at place
      cases place
  | spuriousWake job asleep =>
      rw [asleep] at place
      cases place

/-- The states a blocking push called in `start` can pass through, whatever the
consumer does meanwhile. -/
def BlockingReaches (start : RingState) (segs : List ShmSegment) (final : RingState) : Prop :=
  ∃ entered, ringStep start (.callProducer (.pushScatterBlocking segs)) = some entered ∧
    ((ringMachine start.producerCapacity).guarded fun state _ =>
      !state.producer.isIdle).ReachableFrom entered final

theorem retry_place_busy {segs : List ShmSegment} {need head : UInt64} {pc : ProducerPc}
    (place : RetryPlace segs need head pc) : pc.isIdle = false := by
  cases place <;> rfl

theorem unfit_retries_forever {segs : List ShmSegment} {need : UInt64} {start final : RingState}
    (empty : start.object.head = start.object.tail) (drained : Drained start)
    (accepted : (PushCall.scatter segs).need start.producerCapacity = .ok need)
    (throttles : 0 < hwBytes start.producerCapacity)
    (unfit : ¬FitsEmpty start.producerCapacity start.object.head need)
    (reaches : BlockingReaches start segs final) : final.producer.isIdle = false := by
  obtain ⟨entered, called, path⟩ := reaches
  have first : Retrying segs need start.object.head entered ∧
      entered.producerCapacity = start.producerCapacity := by
    simp only [ringStep, callProducer] at called
    split at called <;> cases called
    exact ⟨⟨rfl, empty.symm, drained, .throttleHead⟩, rfl⟩
  have held : Retrying segs need start.object.head final ∧
      final.producerCapacity = start.producerCapacity := by
    induction path with
    | refl => exact first
    | tail _ stepped ih =>
        obtain ⟨retrying, same⟩ := ih
        obtain ⟨action, stepped⟩ := stepped
        obtain ⟨_, stepped⟩ := Machine.guarded_step stepped
        refine ⟨retrying_step ?_ ?_ ?_ retrying stepped,
          (same_capacity_step stepped).1.trans same⟩
        · rwa [same]
        · rwa [same]
        · rwa [same]
  exact retry_place_busy held.1.place

/-- The machine in which only the producer moves until its call returns. -/
abbrev busyRing (capacity : RingCapacity) : Machine RingState RingAction :=
  (ringMachine capacity).guarded fun state _ => !state.producer.isIdle

def ProducerPc.pushing : ProducerPc → Bool
  | .loadHead _ _ => true
  | .loadTail _ _ _ => true
  | .copy _ _ _ => true
  | _ => false

def RingAction.ofProducer : RingAction → Bool
  | .producer => true
  | _ => false

/-- The machine in which only a push in progress moves. -/
abbrev pushRing (capacity : RingCapacity) : Machine RingState RingAction :=
  (ringMachine capacity).guarded fun state action => action.ofProducer && state.producer.pushing

theorem push_ring_step (capacity : RingCapacity) (state next : RingState)
    (pushing : state.producer.pushing = true) (stepped : producerStep state = some next) :
    (pushRing capacity).ReachableFrom state next := by
  apply Relation.ReflTransGen.single
  refine ⟨.producer, ?_⟩
  simp only [Machine.guarded, RingAction.ofProducer, pushing, Bool.and_self, if_true]
  exact stepped

theorem pushing_busy {pc : ProducerPc} (pushing : pc.pushing = true) : pc.isIdle = false := by
  cases pc <;> first | rfl | cases pushing

theorem push_path_busy {capacity : RingCapacity} {start state : RingState}
    (path : (pushRing capacity).ReachableFrom start state) :
    (busyRing capacity).ReachableFrom start state := by
  apply Machine.reachable_from_mono _ path
  intro before action after stepped
  obtain ⟨allowed, stepped⟩ := Machine.guarded_step stepped
  rw [Bool.and_eq_true] at allowed
  simp only [Machine.guarded, pushing_busy allowed.2, Bool.not_false, if_true]
  exact stepped

theorem busy_producer_step (capacity : RingCapacity) (state next : RingState)
    (busy : state.producer.isIdle = false) (stepped : producerStep state = some next) :
    (busyRing capacity).ReachableFrom state next := by
  apply Relation.ReflTransGen.single
  refine ⟨.producer, ?_⟩
  simp only [Machine.guarded, busy, Bool.not_false, if_true]
  exact stepped

theorem copy_completes (capacity : RingCapacity) (state : RingState) (job : PushJob)
    (todo : List Store) (newHead : UInt64) :
    (pushRing capacity).ReachableFrom { state with producer := .copy job todo newHead }
      { state with
        object := { state.object with data := applyStores state.object.data todo }
        producer := .copy job [] newHead } := by
  induction todo generalizing state with
  | nil => exact Relation.ReflTransGen.refl
  | cons write rest ih =>
      have first := push_ring_step capacity
        { state with producer := .copy job (write :: rest) newHead } _ rfl rfl
      exact first.trans (ih { state with
        object := { state.object with data := store state.object.data write } })

/-- Once past the argument check, an undisturbed push with room ends as the
uninterrupted call does. -/
theorem undisturbed_push (capacity : RingCapacity) (state : RingState) {job : PushJob}
    {need : UInt64} {slot : Reservation} (place : state.producer = .loadHead job need)
    (accepted : job.call.need state.producerCapacity = .ok need)
    (reserved : reserve state.producerCapacity state.object.head state.object.tail need =
      .ok slot) :
    ∃ final, (pushRing capacity).ReachableFrom state final ∧
      final.producer = afterPush job (.ok ()) ∧
      final.object = (runPush state.producerCapacity job.call state.object).2 ∧
      final.consumer = state.consumer ∧ final.flagPending = state.flagPending := by
  let planned := job.call.plan state.producerCapacity state.object.head need slot
  have loaded := push_ring_step capacity state
    { state with producer := .loadTail job need state.object.head }
    (by rw [place]; rfl) (by simp [producerStep, place])
  have checked := push_ring_step capacity
    { state with producer := .loadTail job need state.object.head }
    { state with producer := .copy job planned.1 planned.2 } rfl
    (by simp [producerStep, checkSpace, reserved, planned])
  have copied := copy_completes capacity state job planned.1 planned.2
  have stored := push_ring_step capacity
    { state with
      object := { state.object with data := applyStores state.object.data planned.1 }
      producer := .copy job [] planned.2 } _ rfl rfl
  refine ⟨_, ((loaded.trans checked).trans copied).trans stored, rfl, ?_, rfl, rfl⟩
  simp [runPush, accepted, reserved, planned]

theorem fitting_blocking_returns {segs : List ShmSegment} {need : UInt64} {start : RingState}
    {result : Option Status} (empty : start.object.head = start.object.tail)
    (idle : start.producer = .idle result)
    (accepted : (PushCall.scatter segs).need start.producerCapacity = .ok need)
    (throttles : 0 < hwBytes start.producerCapacity)
    (fits : FitsEmpty start.producerCapacity start.object.head need) :
    ∃ final, BlockingReaches start segs final ∧ final.producer = .idle (some (.ok ())) := by
  obtain ⟨slot, reserved⟩ := (reserve_empty start.object.head (need_within_capacity accepted)).1 fits
  have waited := busy_producer_step start.producerCapacity
    { start with producer := .waitHead (.throttle segs) }
    { start with producer := .waitTail (.throttle segs) start.object.head } rfl rfl
  have passed := busy_producer_step start.producerCapacity
    { start with producer := .waitTail (.throttle segs) start.object.head }
    { start with producer := .loadHead (.blocking segs) need } rfl (by
      have belowWatermark : start.object.head - start.object.tail <
          hwBytes start.producerCapacity := by
        rw [← empty]
        simpa using throttles
      simp only [producerStep, belowWatermark, if_true, afterWait, ne_eq, not_true_eq_false,
        false_and, if_false, start_blocking accepted])
  obtain ⟨final, path, returned, _⟩ := undisturbed_push start.producerCapacity
    { start with producer := .loadHead (.blocking segs) need } rfl accepted
    (by rw [← empty]; exact reserved)
  refine ⟨final, ⟨{ start with producer := .waitHead (.throttle segs) }, ?_,
    (waited.trans passed).trans (push_path_busy path)⟩, ?_⟩
  · simp [ringStep, callProducer, idle, ProducerCall.start]
  · rw [returned]
    rfl

theorem empty_ring_push_iff {state : RingState}
    (empty : state.object.head = state.object.tail) :
    (∀ call need, call.need state.producerCapacity = .ok need →
      ((runPush state.producerCapacity call state.object).1 = .ok () ↔
        FitsEmpty state.producerCapacity state.object.head need)) ∧
    (∀ segs need result, (PushCall.scatter segs).need state.producerCapacity = .ok need →
      0 < hwBytes state.producerCapacity → Drained state → state.producer = .idle result →
        ((∃ final, BlockingReaches state segs final ∧ final.producer = .idle (some (.ok ()))) ↔
          FitsEmpty state.producerCapacity state.object.head need) ∧
        (¬FitsEmpty state.producerCapacity state.object.head need →
          ∀ final, BlockingReaches state segs final → final.producer.isIdle = false)) := by
  constructor
  · intro call need accepted
    rw [run_push_empty empty accepted]
    by_cases fits : FitsEmpty state.producerCapacity state.object.head need
    · simp [fits]
    · simp [fits]
  · intro segs need result accepted throttles drained idle
    have stuck : ¬FitsEmpty state.producerCapacity state.object.head need →
        ∀ final, BlockingReaches state segs final → final.producer.isIdle = false :=
      fun unfit final reaches =>
        unfit_retries_forever empty drained accepted throttles unfit reaches
    refine ⟨⟨?_, fitting_blocking_returns empty idle accepted throttles⟩, stuck⟩
    rintro ⟨final, reaches, returned⟩
    by_contra unfit
    have running := stuck unfit final reaches
    rw [returned] at running
    cases running

theorem page_after_one_byte :
    ∃ state, (boundedRing page).Reachable state ∧ state.object.head = 5 ∧
      state.object.tail = 5 ∧ state.producer.isIdle = true := by
  have settled : ((boundedRing page).run (freshRing page fun _ => 255) pushPopSchedule).map
      (fun state => (state.object.head, state.object.tail, state.producer.isIdle)) =
        some (5, 5, true) := by decide
  obtain ⟨state, ran, values⟩ := Option.map_eq_some_iff.mp settled
  have reached := Machine.reachable_run (boundedRing page) ⟨_, rfl⟩ ran
  simp only [Prod.mk.injEq] at values
  exact ⟨state, reached, values.1, values.2.1, values.2.2⟩

theorem largest_push_need :
    (PushCall.push (some (List.replicate 4092 0))).need page = .ok 4096 := by
  simp only [PushCall.need, shmRingPushNeed, List.length_replicate]
  decide

theorem largest_scatter_need :
    (PushCall.scatter [.bytes (List.replicate 4088 0)]).need page = .ok 4092 := by
  simp only [PushCall.need, shmRingPushScatterNeed, segmentsBody, ShmSegment.len,
    List.length_replicate]
  decide

/-- Behind one byte the empty ring takes another, blocking or not, and never the largest
records that the size checks accept. -/
theorem empty_ring_push_iff_one_byte_in :
    ∃ state, (boundedRing page).Reachable state ∧ state.object.head = 5 ∧
      state.object.tail = 5 ∧ (runPush page (.push (some [7])) state.object).1 = .ok () ∧
      (runPush page (.push (some (List.replicate 4092 0))) state.object).1 ≠ .ok () ∧
      (∃ final, BlockingReaches state [.bytes [7]] final ∧
        final.producer = .idle (some (.ok ()))) ∧
      ∀ final, BlockingReaches state [.bytes (List.replicate 4088 0)] final →
        final.producer.isIdle = false := by
  obtain ⟨state, reached, headWord, tailWord, resting⟩ := page_after_one_byte
  have empty : state.object.head = state.object.tail := headWord.trans tailWord.symm
  have same := bounded_ring_capacity reached
  have drained := reachable_empty_drained reached empty
  obtain ⟨result, idle⟩ : ∃ result, state.producer = .idle result := by
    cases place : state.producer <;> simp [place, ProducerPc.isIdle] at resting ⊢
  have throttles : 0 < hwBytes state.producerCapacity := by
    rw [same]
    decide
  obtain ⟨once, blocking⟩ := empty_ring_push_iff empty
  rw [same] at once
  have short := blocking [.bytes [7]] 5 result (by rw [same]; decide) throttles drained idle
  have long := blocking [.bytes (List.replicate 4088 0)] 4092 result
    (by rw [same]; exact largest_scatter_need) throttles drained idle
  rw [same, headWord] at short long
  refine ⟨state, reached, headWord, tailWord, ?_, ?_, short.1.mpr (by decide),
    long.2 (by decide)⟩
  · apply (once (.push (some [7])) 5 (by decide)).mpr
    rw [headWord]
    decide
  · intro taken
    have fits := (once _ 4096 largest_push_need).mp taken
    rw [headWord] at fits
    exact absurd fits (by decide)

/-- The largest records both size checks accept are refused by the empty ring at
cell 5, and the blocking push of the second never returns. -/
theorem accepted_record_wedges_empty_ring :
    ∃ state, (boundedRing page).Reachable state ∧ state.object.head = state.object.tail ∧
      (PushCall.push (some (List.replicate 4092 0))).need page = .ok 4096 ∧
      (shmRingPush page (some (List.replicate 4092 0)) state.object).1 = .error .eagain ∧
      (PushCall.scatter [.bytes (List.replicate 4088 0)]).need page = .ok 4092 ∧
      (shmRingPushScatter page [.bytes (List.replicate 4088 0)] state.object).1 =
        .error .eagain ∧
      ∀ final, BlockingReaches state [.bytes (List.replicate 4088 0)] final →
        final.producer.isIdle = false := by
  obtain ⟨state, reached, headWord, tailWord, _⟩ := page_after_one_byte
  have empty : state.object.head = state.object.tail := headWord.trans tailWord.symm
  have same := bounded_ring_capacity reached
  have tooLong : ¬FitsEmpty page state.object.head 4096 := by
    rw [headWord]
    decide
  have scatterTooLong : ¬FitsEmpty page state.object.head 4092 := by
    rw [headWord]
    decide
  refine ⟨state, reached, empty, largest_push_need, ?_, largest_scatter_need, ?_, ?_⟩
  · rw [shmRingPush, run_push_empty empty largest_push_need, if_neg tooLong]
  · rw [shmRingPushScatter, run_push_empty empty largest_scatter_need, if_neg scatterTooLong]
  · intro final reaches
    have accepted : (PushCall.scatter [.bytes (List.replicate 4088 0)]).need
        state.producerCapacity = .ok 4092 := by rw [same, largest_scatter_need]
    have throttles : 0 < hwBytes state.producerCapacity := by
      rw [same]
      decide
    have unfit : ¬FitsEmpty state.producerCapacity state.object.head 4092 := by
      rwa [same]
    exact unfit_retries_forever empty (reachable_empty_drained reached empty) accepted throttles
      unfit reaches

end AdaptIpc.Ring

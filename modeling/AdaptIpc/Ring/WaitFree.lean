import AdaptIpc.Ring.Refinement
import AdaptIpc.Ring.Wedge
import AdaptIpc.Ring.Pop
import AdaptIpc.Library.Progress

/-!
# Pushes and pops are wait-free

A direct push makes two loads, copies its record behind at most one wrap
sentinel and stores the head; nothing the consumer does sends it back. A pop
may take its loop once more, behind padding, and there it finds a record: the
second round is the last. So each returns within a number of its own steps that
its argument bounds, and neither is ever blocked.
-/

namespace AdaptIpc.Ring

open AdaptIpc.Library.Bytes AdaptIpc.Library.Cursor AdaptIpc.Library.Transition

set_option autoImplicit false

theorem scatter_segment_length (capacity fuel p : Nat) (bytes : List UInt8) :
    (scatterSegment capacity fuel p bytes).1.length ≤ bytes.length := by
  induction fuel generalizing p bytes with
  | zero => simp [scatterSegment]
  | succ fuel ih =>
      unfold scatterSegment
      split
      · simp
      · next nonempty =>
        have rest := ih ((p + min (capacity - p) bytes.length) % capacity)
          (bytes.drop (min (capacity - p) bytes.length))
        simp only [List.length_append, block_stores_length, List.length_take,
          List.length_drop] at rest ⊢
        omega

theorem scatter_segments_length (capacity p : Nat) (segs : List ShmSegment) :
    (scatterSegments capacity p segs).length ≤
      (segs.map ShmSegment.content).flatten.length := by
  induction segs generalizing p with
  | nil => simp [scatterSegments]
  | cons seg rest ih =>
      have first := scatter_segment_length capacity seg.content.length p seg.content
      have others := ih (scatterSegment capacity seg.content.length p seg.content).2
      simp only [scatterSegments, List.map_cons, List.flatten_cons, List.length_append] at others ⊢
      omega

theorem plan_length (capacity : RingCapacity) (head need : UInt64) (slot : Reservation)
    (call : PushCall) : (call.plan capacity head need slot).1.length ≤ call.record.length + 8 := by
  cases call with
  | push data =>
      simp only [PushCall.plan, shmRingPushPlan, PushCall.record]
      split
      · simp only [List.length_append, block_stores_length, le_bytes_length]
        omega
      · simp only [List.length_append, block_stores_length, le_bytes_length]
        omega
  | scatter segs =>
      simp only [PushCall.plan, shmRingPushScatterPlan, PushCall.record, List.length_append,
        block_stores_length, le_bytes_length]
      cases slot.wrap with
      | true =>
          have copied := scatter_segments_length capacity.bytes ((0 + 4) % capacity.bytes) segs
          simp only [if_true, block_stores_length, le_bytes_length]
          omega
      | false =>
          have copied := scatter_segments_length capacity.bytes
            ((slot.pos.toNat + 4) % capacity.bytes) segs
          simp only [Bool.false_eq_true, if_false, List.length_nil]
          omega

/-- The steps a direct push in progress still makes are at most `budget`. -/
def PushWithin (budget : Nat) : ProducerPc → Prop
  | .loadHead (.direct call) _ => call.record.length + 11 ≤ budget
  | .loadTail (.direct call) _ _ => call.record.length + 10 ≤ budget
  | .copy (.direct _) todo _ => todo.length + 1 ≤ budget
  | _ => False

def PushReturned (state : RingState) : Prop :=
  ∃ rc, state.producer = .idle (some rc)

section Push

variable {state next : RingState} {action : RingAction} {budget : Nat}

theorem check_space_within (call : PushCall) (need head tail : UInt64) :
    (∃ rc, checkSpace state (.direct call) need head tail = .idle (some rc)) ∨
      PushWithin (call.record.length + 9) (checkSpace state (.direct call) need head tail) := by
  unfold checkSpace
  split
  · next code refused => exact Or.inl ⟨.error code, rfl⟩
  · next slot reserved =>
      have planned := plan_length state.producerCapacity head need slot call
      exact Or.inr (by
        simp only [PushWithin, PushJob.call]
        omega)

theorem start_push_within (capacity : RingCapacity) (call : PushCall) :
    (∃ rc, startPush capacity (.direct call) = .idle (some rc)) ∨
      PushWithin (call.record.length + 11) (startPush capacity (.direct call)) := by
  unfold startPush
  split
  · next code refused => exact Or.inl ⟨.error code, rfl⟩
  · exact Or.inr (Nat.le_refl _)

theorem push_step_within (within : PushWithin budget state.producer)
    (moved : ProducerMove state next) :
    PushReturned next ∨ ∃ rest, PushWithin rest next.producer ∧ rest + 1 ≤ budget := by
  cases moved with
  | loadHead job need place =>
      rw [place] at within
      cases job with
      | blocking segs => exact within.elim
      | direct call => exact Or.inr ⟨call.record.length + 10, Nat.le_refl _, within⟩
  | loadTail job need head place =>
      rw [place] at within
      cases job with
      | blocking segs => exact within.elim
      | direct call =>
          rcases @check_space_within state call need head state.object.tail with returned | copying
          · exact Or.inl returned
          · exact Or.inr ⟨call.record.length + 9, copying, within⟩
  | store job write rest newHead place =>
      rw [place] at within
      cases job with
      | blocking segs => exact within.elim
      | direct call => exact Or.inr ⟨rest.length + 1, Nat.le_refl _, within⟩
  | publish job newHead place =>
      rw [place] at within
      cases job with
      | blocking segs => exact within.elim
      | direct call => exact Or.inl ⟨.ok (), rfl⟩
  | _ => simp_all [PushWithin]

theorem push_budgeted (capacity : RingCapacity) :
    (ringMachine capacity).Budgeted RingAction.ofProducer
      (fun state budget => PushWithin budget state.producer) PushReturned where
  unspent := by
    intro state within
    unfold PushWithin at within
    split at within <;> simp at within
  spends := by
    intro state budget action next within stepped
    cases ring_step_cases stepped with
    | producer next moved => exact push_step_within within moved
    | attachProducer place =>
        rw [place] at within
        exact within.elim
    | callProducer call result place =>
        rw [place] at within
        exact within.elim
    | interrupt job place =>
        rw [place] at within
        exact within.elim
    | spuriousWake job place =>
        rw [place] at within
        exact within.elim
    | consumer next popped =>
        right
        have kept : next.producer = state.producer := by
          cases (consumer_frame popped).touch with
          | untouched same => exact same
          | woken job asleep resumed =>
              rw [asleep] at within
              exact within.elim
          | interrupted job asleep ended =>
              rw [asleep] at within
              exact within.elim
        exact ⟨budget, by rwa [kept], Nat.le_refl _⟩
    | _ => exact Or.inr ⟨budget, within, Nat.le_refl _⟩

theorem push_enabled (within : PushWithin budget state.producer) :
    ∃ next, producerStep state = some next := by
  cases place : state.producer with
  | copy job todo newHead => cases todo <;> simp [producerStep, place]
  | loadHead job need => simp [producerStep, place]
  | loadTail job need head => simp [producerStep, place]
  | _ => simp [place, PushWithin] at within

/-- Whatever the consumer does, a push or scatter push has returned, or the producer has
made fewer than eleven steps more than the record has bytes and can make the next. -/
theorem direct_push_wait_free {capacity : RingCapacity} {state entered final : RingState}
    {call : PushCall} {schedule : List RingAction}
    (called : ringStep state (.callProducer (.push call)) = some entered)
    (ran : (ringMachine capacity).run entered schedule = some final) :
    (ringMachine capacity).Passes PushReturned entered schedule ∨
      schedule.countP RingAction.ofProducer < call.record.length + 11 ∧
        ∃ next, producerStep final = some next := by
  cases ring_step_cases called with
  | callProducer call result place =>
      rcases start_push_within state.producerCapacity call with returned | within
      · exact Or.inl (Machine.passes_now (ringMachine capacity) schedule returned)
      · rcases (push_budgeted capacity).progress within ran with passed | ⟨few, left, still⟩
        · exact Or.inl passed
        · exact Or.inr ⟨few, push_enabled still⟩

end Push

def contendedPush : List RingAction :=
  [.producer, .callPop 4, .consumer, .producer, .consumer] ++ List.replicate 6 .producer

theorem direct_push_wait_free_one_byte :
    ∃ entered final,
      ringStep (freshRing page fun _ => 255) (.callProducer (.push (.push (some [7])))) =
        some entered ∧
      (ringMachine page).run entered contendedPush = some final ∧
      (ringMachine page).Passes PushReturned entered contendedPush := by
  obtain ⟨entered, called⟩ : ∃ entered, ringStep (freshRing page fun _ => 255)
      (.callProducer (.push (.push (some [7])))) = some entered := ⟨_, rfl⟩
  have returned : ((ringMachine page).run (freshRing page fun _ => 255)
      ([.callProducer (.push (.push (some [7])))] ++ contendedPush)).map
        (fun state => (producerStep state).isSome) = some false := by decide +kernel
  obtain ⟨final, ran, stopped⟩ := Option.map_eq_some_iff.mp returned
  have entering : (ringMachine page).run (freshRing page fun _ => 255)
      [.callProducer (.push (.push (some [7])))] = some entered := by
    simp [Machine.run, ringMachine, called]
  rw [Machine.run_append, entering, Option.bind_some] at ran
  rcases direct_push_wait_free called ran with passed | ⟨_, next, stepped⟩
  · exact ⟨entered, final, called, ran, passed⟩
  · simp [stepped] at stopped

/-- What padding in front of the consumer, or the chance of it, costs a pop: four header
bytes, the tail store and the two loads of the next round. -/
def detour : List Slot → Nat
  | .record _ :: _ => 0
  | _ => 7

/-- The steps a pop in progress still makes. -/
def popBudget (slots : List Slot) : ConsumerPc → Nat
  | .detached => 0
  | .idle _ => 0
  | .loadTail maxSize => maxSize + 9 + detour slots
  | .loadHead maxSize _ => maxSize + 8 + detour slots
  | .readHeader maxSize _ _ got => maxSize + 3 + (4 - got.length) + detour slots
  | .skipPadding maxSize _ => maxSize + 10
  | .readBody _ _ len got => len - got.length + 3
  | .storeTail _ _ _ => 3
  | .wakeExchange _ => 2
  | .wakeFutex _ => 1

def PopReturned (state : RingState) : Prop :=
  ∃ answer, state.consumer = .idle (some answer)

/-- The steps a pop in progress still makes are at most `budget`. -/
def PopWithin (state : RingState) (budget : Nat) : Prop :=
  ∃ head tail slots, RingInv state head tail slots ∧
    0 < popBudget slots state.consumer ∧ popBudget slots state.consumer ≤ budget

section Pop

variable {state next : RingState} {action : RingAction}
variable {head tail head' tail' : Nat} {slots slots' : List Slot}

theorem detour_le (slots : List Slot) : detour slots ≤ 7 := by
  unfold detour
  split <;> omega

theorem detour_append (more : List Slot) : detour (slots ++ more) ≤ detour slots := by
  cases slots with
  | nil => exact detour_le more
  | cons slot rest => cases slot <;> exact Nat.le_refl _

theorem pop_budget_mono (fewer : detour slots' ≤ detour slots) (pc : ConsumerPc) :
    popBudget slots' pc ≤ popBudget slots pc ∧
      (0 < popBudget slots pc → 0 < popBudget slots' pc) := by
  cases pc <;> simp only [popBudget] <;> omega

theorem foreign_detour (effect : RingEffect state next head tail slots head' tail' slots')
    (taken : next.taken = state.taken) : detour slots' ≤ detour slots := by
  cases effect with
  | quiet pushed taken footprint => exact Nat.le_refl _
  | enqueue more payload single pushed taken span spans shape footprint => exact detour_append more
  | discard pushed taken footprint span => exact detour_le slots'
  | dequeue payload pushed grown footprint span =>
      rw [taken] at grown
      have lengths := congrArg List.length grown
      simp at lengths

theorem check_length_budget {slot : Slot} {rest : List Slot} {loaded seen : UInt64}
    (maxSize : Nat) {size : Nat} (fits : SlotFits size tail slot) :
    (∃ answer, checkLength maxSize loaded seen slot.lengthWord = .idle (some answer)) ∨
      0 < popBudget (slot :: rest) (checkLength maxSize loaded seen slot.lengthWord) ∧
      popBudget (slot :: rest) (checkLength maxSize loaded seen slot.lengthWord) + 1 ≤
        maxSize + 4 + detour (slot :: rest) := by
  unfold checkLength
  cases slot with
  | padding =>
      right
      simp [Slot.lengthWord, popBudget, detour]
  | record payload =>
      have nonempty : payload.length ≠ wrapSentinelLen :=
        fun zero => fits.1 (List.length_eq_zero_iff.mp zero)
      simp only [Slot.lengthWord, nonempty, if_false]
      by_cases large : maxSize < payload.length
      · simp only [large, if_true]
        exact Or.inl ⟨_, rfl⟩
      · right
        simp only [large, if_false, popBudget, List.length_nil]
        omega

theorem pop_goes_on (inv : RingInv state head tail slots)
    (stepped : consumerStep state = some next) (taken : next.taken = state.taken)
    (busy : 0 < popBudget slots next.consumer)
    (cheaper : popBudget slots next.consumer + 1 ≤ popBudget slots state.consumer) :
    ∃ rest, PopWithin next rest ∧ rest + 1 ≤ popBudget slots state.consumer := by
  obtain ⟨tail', slots', kept, effect⟩ := consumer_step_inv inv stepped
  obtain ⟨fewer, still⟩ := pop_budget_mono (foreign_detour effect taken) next.consumer
  exact ⟨popBudget slots' next.consumer,
    ⟨head, tail', slots', kept, still busy, Nat.le_refl _⟩, by omega⟩

theorem pop_finishes (inv : RingInv state head tail slots)
    (stepped : consumerStep state = some next) (left : Nat) (positive : 0 < left)
    (fixed : ∀ slots, popBudget slots next.consumer = left)
    (cheaper : left + 1 ≤ popBudget slots state.consumer) :
    ∃ rest, PopWithin next rest ∧ rest + 1 ≤ popBudget slots state.consumer := by
  obtain ⟨tail', slots', kept, _⟩ := consumer_step_inv inv stepped
  have spent := fixed slots'
  exact ⟨left, ⟨head, tail', slots', kept, by omega, by omega⟩, cheaper⟩

/-- Each step of the pop itself spends one. -/
theorem pop_step_within (inv : RingInv state head tail slots)
    (stepped : consumerStep state = some next) :
    PopReturned next ∨
      ∃ rest, PopWithin next rest ∧ rest + 1 ≤ popBudget slots state.consumer := by
  cases consumer_step_cases inv stepped with
  | foundEmpty maxSize place empty => exact Or.inl ⟨.error .eagain, rfl⟩
  | takeHigh seen place saw above => exact Or.inl ⟨.ok _, rfl⟩
  | flagClear payload place clear => exact Or.inl ⟨.ok payload, rfl⟩
  | wake payload place => exact Or.inl ⟨.ok payload, rfl⟩
  | loadTail maxSize place =>
      right
      apply pop_goes_on inv stepped
      · simp [RingState.taken, place, ConsumerPc.inFlight]
      · simp only [popBudget]
        omega
      · simp only [place, popBudget]
        omega
  | foundSlot maxSize place saw =>
      right
      apply pop_goes_on inv stepped
      · simp [RingState.taken, place, ConsumerPc.inFlight]
      · simp only [popBudget]
        omega
      · simp only [place, popBudget, List.length_nil]
        omega
  | @headerByte slot rest maxSize seen got place saw more =>
      right
      have header := slot_header_length slot
      apply pop_goes_on inv stepped
      · simp [RingState.taken, place, ConsumerPc.inFlight]
      · simp only [popBudget]
        omega
      · simp only [place, popBudget, List.length_take]
        omega
  | @headerRead slot rest maxSize seen got place saw =>
      have own := inv.consumer
      rw [place] at own
      have reading : got.length < 4 := own.2.2.1
      rcases @check_length_budget _ slot rest (cursor tail) seen maxSize _ inv.parsed.1.1 with
        returned | ⟨busy, cheaper⟩
      · exact Or.inl returned
      · right
        apply pop_goes_on inv stepped
        · simp only [RingState.taken, place, check_length_in_flight]
          rfl
        · exact busy
        · simp only [place, popBudget] at cheaper ⊢
          omega
  | @skipPadding rest maxSize place =>
      -- Behind padding stands a record, so the next round of the loop is the last.
      obtain ⟨payload, more, rfl⟩ := inv.closed.1
      have kept : RingInv { state with
          object := { state.object with
            tail := cursor (slotEnd state.producerCapacity.bytes tail .padding) }
          consumer := .loadTail maxSize } head
          (slotEnd state.producerCapacity.bytes tail .padding) (.record payload :: more) :=
        past_slot_inv inv rfl rfl rfl rfl rfl (Or.inl rfl) trivial
      refine Or.inr ⟨maxSize + 9, ⟨head, _, _, kept, ?_, ?_⟩, ?_⟩
      · simp only [popBudget]
        omega
      · simp [popBudget, detour]
      · simp only [place, popBudget]
        omega
  | @bodyByte payload rest seen got place saw more =>
      right
      apply pop_goes_on inv stepped
      · simp [RingState.taken, place, ConsumerPc.inFlight]
      · simp only [popBudget]
        omega
      · simp only [place, popBudget, List.length_take]
        omega
  | bodyRead seen got place saw =>
      have own := inv.consumer
      rw [place] at own
      have reading := own.2.2.1
      right
      apply pop_finishes inv stepped 3 (by omega) (fun _ => rfl)
      simp only [place, popBudget]
      omega
  | takeLow seen place =>
      right
      exact pop_finishes inv stepped 2 (by omega) (fun _ => rfl)
        (by simp [place, popBudget])
  | flagSet payload place =>
      right
      exact pop_finishes inv stepped 1 (by omega) (fun _ => rfl)
        (by simp [place, popBudget])

theorem pop_enabled (busy : 0 < popBudget slots state.consumer) :
    ∃ next, consumerStep state = some next := by
  cases place : state.consumer <;> simp [consumerStep, place, popBudget] at busy ⊢

theorem pop_budgeted (capacity : RingCapacity) :
    (boundedRing capacity).Budgeted RingAction.ofPop PopWithin PopReturned where
  unspent := by
    rintro state ⟨head, tail, slots, inv, positive, spent⟩
    omega
  spends := by
    rintro state budget action next ⟨head, tail, slots, inv, positive, within⟩ stepped
    obtain ⟨below, stepped⟩ := Machine.guarded_step stepped
    by_cases own : action = .consumer
    · subst own
      rcases pop_step_within inv stepped with returned | ⟨rest, still, spent⟩
      · exact Or.inl returned
      · exact Or.inr ⟨rest, still, Nat.le_trans spent within⟩
    · have busy : action.entersConsumer = false := by
        cases ring_step_cases stepped with
        | attachConsumer place => simp [place, popBudget] at positive
        | callPop maxSize result place => simp [place, popBudget] at positive
        | _ => rfl
      obtain ⟨consumer, popped⟩ := keeps_consumer busy own stepped
      obtain ⟨head', tail', slots', kept, effect⟩ :=
        ring_step_inv inv (below_header_word below) stepped
      have taken : next.taken = state.taken := by rw [RingState.taken, RingState.taken, consumer, popped]
      obtain ⟨fewer, still⟩ := pop_budget_mono (foreign_detour effect taken) state.consumer
      have foreign : action.ofPop = false := by cases action <;> simp_all [RingAction.ofPop]
      refine Or.inr ⟨budget, ⟨head', tail', slots', kept, ?_, ?_⟩, by simp [foreign]⟩
      · rw [consumer]
        exact still positive
      · rw [consumer]
        omega

/-- Whatever the producer does, a pop has returned, or the consumer has made fewer than
sixteen steps more than the buffer has bytes and can make the next. -/
theorem pop_wait_free {capacity : RingCapacity} {state entered final : RingState}
    {maxSize : Nat} {schedule : List RingAction} (reached : (boundedRing capacity).Reachable state)
    (called : ringStep state (.callPop maxSize) = some entered)
    (ran : (boundedRing capacity).run entered schedule = some final) :
    (boundedRing capacity).Passes PopReturned entered schedule ∨
      schedule.countP RingAction.ofPop < maxSize + 16 ∧
        ∃ next, consumerStep final = some next := by
  obtain ⟨head, tail, slots, inv, _⟩ := reachable_ring_inv reached
  have within : PopWithin entered (maxSize + 16) := by
    cases ring_step_cases called with
    | callPop maxSize result place =>
        have fewer := detour_le slots
        refine ⟨head, tail, slots, { inv with consumer := trivial }, ?_, ?_⟩
        · simp only [popBudget]
          omega
        · simp only [popBudget]
          omega
  rcases (pop_budgeted capacity).progress within ran with
    passed | ⟨few, left, _, _, _, _, busy, _⟩
  · exact Or.inl passed
  · exact Or.inr ⟨few, pop_enabled busy⟩

end Pop

def contendedPop : List RingAction :=
  .consumer :: .callProducer (.push (.push (some [1, 2]))) :: .producer ::
    List.replicate 8 .consumer

theorem pop_wait_free_one_byte :
    ∃ state entered final, (boundedRing page).Reachable state ∧
      ringStep state (.callPop 16) = some entered ∧
      (boundedRing page).run entered contendedPop = some final ∧
      (boundedRing page).Passes PopReturned entered contendedPop := by
  let start := freshRing page fun _ => 255
  let pushes : List RingAction :=
    .callProducer (.push (.push (some [7]))) :: List.replicate 8 .producer
  have pushed : ((boundedRing page).run start pushes).isSome = true := by decide +kernel
  obtain ⟨state, ran⟩ := Option.isSome_iff_exists.mp pushed
  have called : ((boundedRing page).run start (pushes ++ [.callPop 16])).isSome = true := by
    decide +kernel
  obtain ⟨entered, entering⟩ := Option.isSome_iff_exists.mp called
  have returned : ((boundedRing page).run start
      ((pushes ++ [.callPop 16]) ++ contendedPop)).map
        (fun state => (consumerStep state).isSome) = some false := by decide +kernel
  obtain ⟨final, whole, stopped⟩ := Option.map_eq_some_iff.mp returned
  rw [Machine.run_append, entering, Option.bind_some] at whole
  rw [Machine.run_append, ran, Option.bind_some] at entering
  have stepped : ringStep state (.callPop 16) = some entered := by
    simp only [Machine.run] at entering
    split at entering
    · next next stepped =>
      cases entering
      exact (Machine.guarded_step stepped).2
    · cases entering
  have reached := Machine.reachable_run (boundedRing page) ⟨_, rfl⟩ ran
  rcases pop_wait_free reached stepped whole with passed | ⟨_, next, further⟩
  · exact ⟨state, entered, final, reached, stepped, whole, passed⟩
  · simp [further] at stopped

end AdaptIpc.Ring

import AdaptIpc.Ring.WaitFree
import AdaptIpc.Ring.Wakeup
import AdaptIpc.Library.Fairness

/-!
# Blocking pushes return under fairness

`shm_ring_push_scatter_blocking` parks at the high watermark and tries again as
long as the ring has no room. While it does not return the head stands still, so
a consumer that goes on popping drains the ring; on the empty ring no stale load
and no sleep keeps the producer from its copy. With fair threads, and with an
arming store that becomes visible, the call therefore returns whenever the record
fits the empty ring at the head it started from, and it returns 0 unless a signal
ended its wait.
-/

namespace AdaptIpc.Ring

open AdaptIpc.Library.Bytes AdaptIpc.Library.Cursor AdaptIpc.Library.Transition

set_option autoImplicit false

def takesAnyRecord (capacity : RingCapacity) : RingAction → Bool
  | .callPop maxSize => decide (capacity.bytes ≤ maxSize)
  | _ => true

def attendedRing (capacity : RingCapacity) : Machine RingState RingAction :=
  (wakefulRing capacity).guarded fun _ action => takesAnyRecord capacity action

inductive RingParty where
  | producer
  | consumer
  | memory
  deriving DecidableEq

def RingParty.owns : RingParty → RingAction → Bool
  | .producer, .producer => true
  | .consumer, .consumer => true
  | .consumer, .callPop _ => true
  | .memory, .flushFlag => true
  | _, _ => false

theorem attended_step {capacity : RingCapacity} {state next : RingState} {action : RingAction}
    (stepped : (attendedRing capacity).step state action = some next) :
    takesAnyRecord capacity action = true ∧ action.recordsBelow (2 ^ 32) = true ∧
      wakefulStep state action = true ∧ ringStep state action = some next := by
  obtain ⟨roomy, stepped⟩ := Machine.guarded_step stepped
  obtain ⟨allowed, stepped⟩ := Machine.guarded_step stepped
  rw [Bool.and_eq_true] at allowed
  exact ⟨roomy, allowed.1, allowed.2, stepped⟩

theorem attended_takes {capacity : RingCapacity} {state next : RingState} {action : RingAction}
    (roomy : takesAnyRecord capacity action = true)
    (short : action.recordsBelow (2 ^ 32) = true) (wakeful : wakefulStep state action = true)
    (stepped : ringStep state action = some next) :
    (attendedRing capacity).step state action = some next := by
  simp only [attendedRing, wakefulRing, Machine.guarded, roomy, short, wakeful, Bool.and_self,
    if_true]
  exact stepped

/-- The pop in progress takes any record. -/
def TakesAny (capacity : RingCapacity) : ConsumerPc → Prop
  | .detached => False
  | .loadTail maxSize => capacity.bytes ≤ maxSize
  | .loadHead maxSize _ => capacity.bytes ≤ maxSize
  | .readHeader maxSize _ _ _ => capacity.bytes ≤ maxSize
  | .skipPadding maxSize _ => capacity.bytes ≤ maxSize
  | _ => True

/-- What the slots cost a consumer that pops them one by one. -/
def slotsCost (slots : List Slot) : Nat :=
  (slots.map fun slot => slot.bytes.length + 6).sum

def drainCost (slots : List Slot) : ConsumerPc → Nat
  | .detached => slotsCost slots + 3
  | .idle _ => slotsCost slots + 3
  | .loadTail _ => slotsCost slots + 2
  | .loadHead _ _ => slotsCost slots + 1
  | .readHeader _ _ _ got => slotsCost slots - got.length
  | .skipPadding _ _ => slotsCost slots - 4
  | .readBody _ _ _ got => slotsCost slots - 4 - got.length
  | .storeTail _ _ payload => slotsCost slots - 4 - payload.length
  | .wakeExchange _ => slotsCost slots + 5
  | .wakeFutex _ => slotsCost slots + 4

section Drain

variable {state next : RingState} {action : RingAction}
variable {head tail head' tail' : Nat} {slots slots' : List Slot}

theorem slots_cost_cons (slot : Slot) (rest : List Slot) :
    slotsCost (slot :: rest) = slot.bytes.length + 6 + slotsCost rest := by
  simp [slotsCost]

theorem drain_cost_mono (fewer : slotsCost slots' ≤ slotsCost slots) (pc : ConsumerPc) :
    drainCost slots' pc ≤ drainCost slots pc := by
  cases pc <;> simp only [drainCost] <;> omega

theorem effect_cost (effect : RingEffect state next head tail slots head' tail' slots')
    (pushed : next.pushed = state.pushed) : slotsCost slots' ≤ slotsCost slots := by
  cases effect with
  | quiet same taken footprint => exact Nat.le_refl _
  | enqueue more payload single grown taken span spans shape footprint =>
      rw [pushed] at grown
      have lengths := congrArg List.length grown
      simp at lengths
  | discard same taken footprint span =>
      rw [slots_cost_cons]
      omega
  | dequeue payload same taken footprint span =>
      rw [slots_cost_cons]
      omega

theorem filled_apart (inv : RingInv state head tail slots) (filled : slots ≠ []) :
    state.object.head ≠ state.object.tail := by
  intro empty
  have room := inv.room
  have small := state.producerCapacity.bytes_le
  rw [inv.headWord, inv.tailWord] at empty
  have same := cursor_inj_of_near inv.ordered (by omega) empty.symm
  cases slots with
  | nil => exact filled rfl
  | cons slot rest =>
      have advanced := slot_end_gt tail slot state.producerCapacity.bytes_positive
      have remaining := parses_le state.producerCapacity.bytes_positive inv.parsed.2
      omega

theorem front_record_fits {payload : List UInt8} {rest : List Slot}
    (inv : RingInv state head tail (.record payload :: rest)) :
    payload.length ≤ state.producerCapacity.bytes := by
  have remaining := parses_le state.producerCapacity.bytes_positive inv.parsed.2
  have room := inv.room
  simp only [slotEnd] at remaining
  omega

theorem padding_front_length {rest : List Slot}
    (inv : RingInv state head tail (.padding :: rest)) :
    leValue (readBytes state.object.data 0 4) ≤ state.producerCapacity.bytes := by
  obtain ⟨payload, more, rfl⟩ := inv.closed.1
  let skipped : RingState := { state with
    object := { state.object with
      tail := cursor (slotEnd state.producerCapacity.bytes tail .padding) }
    consumer := .idle none }
  have kept : RingInv skipped head (slotEnd state.producerCapacity.bytes tail .padding)
      (.record payload :: more) :=
    past_slot_inv inv rfl rfl rfl rfl rfl (Or.inl rfl) trivial
  have fits := front_record_fits kept
  have word := front_length kept
  have start : frontLength state.consumerCapacity state.object.data
      (cursor (slotEnd state.producerCapacity.bytes tail .padding)) =
        leValue (readBytes state.object.data 0 4) := by
    rw [frontLength, inv.capacities, state.producerCapacity.masked]
    simp only [slotEnd, boundary_mod]
    rfl
  rw [← start]
  exact word.trans_le fits

theorem drain_enabled (inv : RingInv state head tail slots)
    (roomy : TakesAny state.producerCapacity state.consumer) :
    ∃ action next, RingParty.consumer.owns action = true ∧
      (attendedRing state.producerCapacity).step state action = some next := by
  cases place : state.consumer with
  | detached =>
      rw [place] at roomy
      exact roomy.elim
  | idle result =>
      refine ⟨.callPop state.producerCapacity.bytes,
        { state with consumer := .loadTail state.producerCapacity.bytes }, rfl,
        attended_takes (decide_eq_true (Nat.le_refl _)) rfl rfl ?_⟩
      simp only [ringStep, callPop, place]
  | skipPadding maxSize loaded =>
      have own := inv.consumer
      rw [place] at own roomy
      obtain ⟨_, rest, rfl⟩ := own
      have short : leValue (readBytes state.object.data 0 4) ≤ maxSize :=
        Nat.le_trans (padding_front_length inv) roomy
      obtain ⟨next, stepped⟩ : ∃ next, consumerStep state = some next := by
        simp only [consumerStep, place, Option.some.injEq, exists_eq']
      refine ⟨.consumer, next, rfl, attended_takes rfl rfl ?_ stepped⟩
      simp only [wakefulStep, place, short, decide_true, Bool.true_or]
  | _ =>
      obtain ⟨next, stepped⟩ : ∃ next, consumerStep state = some next := by
        simp only [consumerStep, place, Option.some.injEq, exists_eq']
      refine ⟨.consumer, next, rfl, attended_takes rfl rfl ?_ stepped⟩
      simp only [wakefulStep, place]

theorem check_length_takes {capacity : RingCapacity} {loaded seen : UInt64} {maxSize len32 : Nat}
    (roomy : capacity.bytes ≤ maxSize) :
    TakesAny capacity (checkLength maxSize loaded seen len32) := by
  unfold checkLength
  split
  · exact roomy
  · split <;> trivial

theorem consumer_step_takes (inv : RingInv state head tail slots)
    (roomy : TakesAny state.producerCapacity state.consumer)
    (stepped : consumerStep state = some next) :
    TakesAny state.producerCapacity next.consumer := by
  cases consumer_step_cases inv stepped with
  | headerRead maxSize seen got place saw =>
      rw [place] at roomy
      exact check_length_takes roomy
  | loadTail maxSize place =>
      rw [place] at roomy
      exact roomy
  | foundSlot maxSize place saw =>
      rw [place] at roomy
      exact roomy
  | headerByte maxSize seen got place saw more =>
      rw [place] at roomy
      exact roomy
  | skipPadding maxSize place =>
      rw [place] at roomy
      exact roomy
  | _ => trivial

theorem drain_goes_on (inv : RingInv state head tail slots)
    (stepped : consumerStep state = some next)
    (cheaper : drainCost slots next.consumer < drainCost slots state.consumer) :
    ∃ tail' slots', RingInv next head tail' slots' ∧
      drainCost slots' next.consumer < drainCost slots state.consumer := by
  obtain ⟨tail', slots', kept, effect⟩ := consumer_step_inv inv stepped
  have fewer := effect_cost effect (consumer_frame stepped).pushed
  exact ⟨tail', slots', kept, Nat.lt_of_le_of_lt (drain_cost_mono fewer next.consumer) cheaper⟩

theorem check_length_cost {slot : Slot} {rest : List Slot} {loaded seen : UInt64}
    {maxSize size : Nat} (fits : SlotFits size tail slot)
    (takes : ∀ payload, slot = .record payload → payload.length ≤ maxSize) :
    drainCost (slot :: rest) (checkLength maxSize loaded seen slot.lengthWord) =
      slotsCost (slot :: rest) - 4 := by
  unfold checkLength
  cases slot with
  | padding => simp only [Slot.lengthWord, if_true, drainCost]
  | record payload =>
      have nonempty : payload.length ≠ wrapSentinelLen :=
        fun zero => fits.1 (List.length_eq_zero_iff.mp zero)
      have within := takes payload rfl
      simp only [Slot.lengthWord, nonempty, if_false, Nat.not_lt.mpr within, drainCost,
        List.length_nil, Nat.sub_zero]

/-- While the ring has slots every step of the consumer brings it nearer to none. -/
theorem drain_step (inv : RingInv state head tail slots) (filled : slots ≠ [])
    (roomy : TakesAny state.producerCapacity state.consumer)
    (stepped : consumerStep state = some next) :
    ∃ tail' slots', RingInv next head tail' slots' ∧
      drainCost slots' next.consumer < drainCost slots state.consumer := by
  have own := inv.consumer
  cases consumer_step_cases inv stepped with
  | loadTail maxSize place =>
      apply drain_goes_on inv stepped
      simp only [place, drainCost]
      omega
  | foundEmpty maxSize place empty => exact absurd empty (filled_apart inv filled)
  | foundSlot maxSize place saw =>
      apply drain_goes_on inv stepped
      simp only [place, drainCost, List.length_nil]
      omega
  | @headerByte slot rest maxSize seen got place saw more =>
      have header := slot_header_length slot
      apply drain_goes_on inv stepped
      simp only [place, drainCost, List.length_take, slots_cost_cons]
      omega
  | @headerRead slot rest maxSize seen got place saw =>
      rw [place] at own roomy
      have reading : got.length < 4 := own.2.2.1
      have header := slot_header_length slot
      apply drain_goes_on inv stepped
      rw [check_length_cost inv.parsed.1.1 (by
        rintro payload rfl
        exact Nat.le_trans (front_record_fits inv) roomy)]
      simp only [place, drainCost, slots_cost_cons]
      omega
  | @skipPadding rest maxSize place =>
      refine ⟨_, rest, past_slot_inv inv rfl rfl rfl rfl rfl (Or.inl rfl) trivial, ?_⟩
      have header := slot_header_length .padding
      simp only [place, drainCost, slots_cost_cons]
      omega
  | @bodyByte payload rest seen got place saw more =>
      apply drain_goes_on inv stepped
      simp only [place, drainCost, List.length_take, slots_cost_cons, Slot.bytes,
        frame_bytes_length]
      omega
  | @bodyRead payload rest seen got place saw =>
      rw [place] at own
      have reading := own.2.2.1
      apply drain_goes_on inv stepped
      simp only [place, drainCost, slots_cost_cons, Slot.bytes, frame_bytes_length]
      omega
  | @takeLow payload rest seen place =>
      refine ⟨_, rest, past_slot_inv inv rfl rfl rfl rfl rfl (Or.inl rfl) trivial, ?_⟩
      simp only [place, drainCost, slots_cost_cons, Slot.bytes, frame_bytes_length]
      omega
  | @takeHigh payload rest seen place saw above =>
      refine ⟨_, rest, past_slot_inv inv rfl rfl rfl rfl rfl (Or.inl rfl) trivial, ?_⟩
      simp only [place, drainCost, deliver, slots_cost_cons, Slot.bytes, frame_bytes_length]
      omega
  | flagClear payload place clear =>
      apply drain_goes_on inv stepped
      simp only [place, drainCost, deliver]
      omega
  | flagSet payload place =>
      apply drain_goes_on inv stepped
      simp only [place, drainCost]
      omega
  | wake payload place =>
      apply drain_goes_on inv stepped
      simp only [place, drainCost, deliver]
      omega

end Drain

/-- Where a blocking push of `segs` is. It only ever copies a record that fits the empty
ring. -/
def InCall (capacity : RingCapacity) (segs : List ShmSegment) (need head : UInt64) :
    ProducerPc → Prop
  | .loadHead job _ => job = .blocking segs
  | .loadTail job _ _ => job = .blocking segs
  | .copy job todo _ =>
      job = .blocking segs ∧ todo.length ≤ (PushCall.scatter segs).record.length + 8 ∧
        FitsEmpty capacity head need
  | .waitHead job => job = .throttle segs ∨ job = .full segs
  | .waitTail job _ => job = .throttle segs ∨ job = .full segs
  | .waitArm job _ => job = .throttle segs ∨ job = .full segs
  | .waitRecheck job _ => job = .throttle segs ∨ job = .full segs
  | .waitDisarm job => job = .throttle segs ∨ job = .full segs
  | .waitPark job => job = .throttle segs ∨ job = .full segs
  | .waitEnter job => job = .throttle segs ∨ job = .full segs
  | .asleep job => job = .throttle segs ∨ job = .full segs
  | _ => False

structure Pushing (capacity : RingCapacity) (segs : List ShmSegment) (need head : UInt64)
    (before : List (List UInt8)) (state : RingState) : Prop where
  sized : state.producerCapacity = capacity
  place : InCall capacity segs need head state.producer
  headWord : state.object.head = head
  pushed : state.pushed = before

def CallEnds (capacity : RingCapacity) (segs : List ShmSegment) (need head : UInt64)
    (before : List (List UInt8)) (action : RingAction) (next : RingState) : Prop :=
  action = .producer ∧ next.producer = .idle (some (.ok ())) ∧ FitsEmpty capacity head need ∧
      next.pushed = before ++ [(PushCall.scatter segs).record] ∨
    action = .interrupt ∧ next.producer = .idle (some (.error .eintr)) ∧ next.pushed = before

section Push

variable {capacity : RingCapacity} {segs : List ShmSegment} {need start : UInt64}
variable {before : List (List UInt8)} {state next : RingState} {action : RingAction}
variable {head tail : Nat} {slots : List Slot}

theorem reserved_fits_empty {slot : Reservation} (ordered : tail ≤ head)
    (room : head ≤ tail + capacity.bytes) (within : need.toNat ≤ capacity.bytes)
    (reserved : reserve capacity (cursor head) (cursor tail) need = .ok slot) :
    FitsEmpty capacity (cursor head) need := by
  have spec := reserve_spec capacity ordered room within
  rw [cursor_of_toNat, reserved] at spec
  have remainder := Nat.mod_lt head capacity.bytes_positive
  have place : (cursor head).toNat % capacity.bytes = head % capacity.bytes := by
    simp only [cursor, UInt64.toNat_ofNat']
    exact Nat.mod_mod_of_dvd head (pow_dvd_word capacity.log capacity.word)
  split at spec
  · cases spec
  · next enough =>
    unfold FitsEmpty
    rw [place]
    unfold requiredBytes at enough
    split at enough
    · right
      omega
    · next straight =>
      unfold Wraps at straight
      left
      omega

theorem reserve_refuses_again (ordered : tail ≤ head) (room : head ≤ tail + capacity.bytes)
    (within : need.toNat ≤ capacity.bytes) {code : Errno}
    (refused : reserve capacity (cursor head) (cursor tail) need = .error code) :
    code = .eagain := by
  have spec := reserve_spec capacity ordered room within
  rw [cursor_of_toNat, refused] at spec
  split at spec <;> cases spec
  rfl

theorem check_space_in_call (inv : RingInv state head tail slots)
    (accepted : (PushCall.scatter segs).need state.producerCapacity = .ok need) :
    InCall state.producerCapacity segs need state.object.head
      (checkSpace state (.blocking segs) need state.object.head state.object.tail) := by
  have within := need_within_capacity accepted
  unfold checkSpace
  rw [inv.headWord, inv.tailWord]
  split
  · next code refused =>
      have again := reserve_refuses_again inv.ordered inv.room within refused
      simp only [again, afterPush, if_true]
      exact Or.inr rfl
  · next slot reserved =>
      exact ⟨rfl, plan_length _ _ _ _ _,
        reserved_fits_empty inv.ordered inv.room within reserved⟩

theorem after_wait_in_call {job : WaitJob} (retries : job = .throttle segs ∨ job = .full segs)
    (accepted : (PushCall.scatter segs).need capacity = .ok need) :
    afterWait capacity job (.ok ()) = .loadHead (.blocking segs) need := by
  rcases retries with rfl | rfl <;>
    simp only [afterWait, ne_eq, not_true_eq_false, false_and, if_false, start_blocking accepted]

theorem after_signal {job : WaitJob} (retries : job = .throttle segs ∨ job = .full segs) :
    afterWait capacity job (.error .eintr) = .idle (some (.error .eintr)) := by
  rcases retries with rfl | rfl <;> rfl

/-- A producer step ends the call or stays in it. -/
theorem producer_in_call (pushing : Pushing capacity segs need start before state)
    (inv : RingInv state head tail slots)
    (accepted : (PushCall.scatter segs).need capacity = .ok need)
    (moved : ProducerMove state next) :
    CallEnds capacity segs need start before .producer next ∨
      Pushing capacity segs need start before next := by
  obtain ⟨same, place, headWord, pushed⟩ := pushing
  subst same
  have own := inv.producer
  cases moved with
  | publish job newHead here =>
      rw [here] at place
      obtain ⟨rfl, _, fits⟩ := place
      left
      exact Or.inl ⟨rfl, rfl, fits, by rw [← pushed]; rfl⟩
  | loadTail job wanted loaded here =>
      rw [here] at place own
      cases place
      have asked : wanted = need := by
        have both := own.1.symm.trans accepted
        cases both
        rfl
      have fresh : loaded = state.object.head := own.2.trans inv.headWord.symm
      right
      refine ⟨rfl, ?_, headWord, pushed⟩
      rw [asked, fresh, ← headWord]
      exact check_space_in_call inv accepted
  | loadHead job wanted here =>
      rw [here] at place
      exact Or.inr ⟨rfl, place, headWord, pushed⟩
  | store job write rest newHead here =>
      rw [here] at place
      obtain ⟨blocking, few, fits⟩ := place
      exact Or.inr ⟨rfl, ⟨blocking, Nat.le_of_succ_le few, fits⟩, headWord, pushed⟩
  | writable job loaded here below =>
      rw [here] at place
      right
      refine ⟨rfl, ?_, headWord, pushed⟩
      simp only [after_wait_in_call place accepted]
      rfl
  | disarm job here =>
      rw [here] at place
      right
      refine ⟨rfl, ?_, headWord, pushed⟩
      simp only [after_wait_in_call place accepted]
      rfl
  | waitHead job here | congested job loaded here above | arm job loaded here
  | relieved job loaded here below | stillCongested job loaded here above | park job here
  | sleep job here armed | missed job here cleared =>
      rw [here] at place
      exact Or.inr ⟨rfl, place, headWord, pushed⟩
  | field field following rest here =>
      rw [here] at place
      exact place.elim
  | lastField field here =>
      rw [here] at place
      exact place.elim

theorem woken_in_call {pc : ProducerPc} (place : InCall capacity segs need start pc) :
    InCall capacity segs need start (wakeProducer pc) := by
  cases pc <;> exact place

/-- Every step ends the call or stays in it. -/
theorem push_step (pushing : Pushing capacity segs need start before state)
    (inv : RingInv state head tail slots)
    (accepted : (PushCall.scatter segs).need capacity = .ok need)
    (stepped : ringStep state action = some next) :
    CallEnds capacity segs need start before action next ∨
      Pushing capacity segs need start before next := by
  have place := pushing.place
  cases ring_step_cases stepped with
  | producer next moved => exact producer_in_call pushing inv accepted moved
  | interrupt job here =>
      rw [here] at place
      left
      refine Or.inr ⟨rfl, ?_, pushing.pushed⟩
      simp only [after_signal place]
  | spuriousWake job here =>
      rw [here] at place
      exact Or.inr ⟨pushing.sized, place, pushing.headWord, pushing.pushed⟩
  | consumer next stepped =>
      right
      have frame := consumer_frame stepped
      have same := (@same_capacity_step _ _ .consumer stepped).1
      refine ⟨same.trans pushing.sized, ?_, frame.head.trans pushing.headWord,
        frame.pushed.trans pushing.pushed⟩
      rcases frame.producer with kept | woken
      · rw [kept]
        exact place
      · rw [woken]
        exact woken_in_call place
  | attachProducer here =>
      rw [here] at place
      exact place.elim
  | callProducer call result here =>
      rw [here] at place
      exact place.elim
  | attachConsumer here => exact Or.inr ⟨pushing.sized, place, pushing.headWord, pushing.pushed⟩
  | flushFlag pending => exact Or.inr ⟨pushing.sized, place, pushing.headWord, pushing.pushed⟩
  | callPop maxSize result here =>
      exact Or.inr ⟨pushing.sized, place, pushing.headWord, pushing.pushed⟩

end Push

structure AttendedState (capacity : RingCapacity) (state : RingState) : Prop where
  sized : state.producerCapacity = capacity
  watched : state.producer.parked → Watched state
  roomy : TakesAny capacity state.consumer

theorem attended_reachable {capacity : RingCapacity} {state : RingState}
    (small : capacity.bytes ≤ 2 ^ 57) (reached : (attendedRing capacity).Reachable state) :
    (∃ head tail slots, RingInv state head tail slots) ∧ AttendedState capacity state := by
  have roomy : TakesAny capacity state.consumer := by
    have both : (wakefulRing capacity).Reachable state ∧ TakesAny capacity state.consumer := by
      apply Machine.invariant_of_reachable (attendedRing capacity)
        (fun state => (wakefulRing capacity).Reachable state ∧ TakesAny capacity state.consumer)
        _ _ reached
      · rintro start ⟨data, rfl⟩
        exact ⟨Machine.reachable_initial ⟨data, rfl⟩, trivial⟩
      · rintro before action after ⟨path, roomy⟩ stepped
        obtain ⟨sized, ⟨head, tail, slots, inv⟩, _⟩ := wakeful_reachable small path
        refine ⟨Machine.reachable_step path (Machine.guarded_step stepped).2, ?_⟩
        obtain ⟨takes, _, _, stepped⟩ := attended_step stepped
        cases ring_step_cases stepped with
        | consumer after stepped =>
            rw [← sized] at roomy ⊢
            exact consumer_step_takes inv roomy stepped
        | callPop maxSize result here =>
            have enough : capacity.bytes ≤ maxSize := of_decide_eq_true takes
            exact enough
        | attachConsumer here => trivial
        | producer after moved => cases moved <;> exact roomy
        | _ => exact roomy
    exact both.2
  obtain ⟨sized, inv, watched⟩ := wakeful_reachable small (Machine.reachable_of_guarded reached)
  exact ⟨inv, sized, watched, roomy⟩

structure Draining (capacity : RingCapacity) (segs : List ShmSegment) (need start : UInt64)
    (before : List (List UInt8)) (state : RingState) (rank : Nat) : Prop where
  reached : (attendedRing capacity).Reachable state
  pushing : Pushing capacity segs need start before state
  filled : ∃ head tail slots, RingInv state head tail slots ∧ slots ≠ [] ∧
    drainCost slots state.consumer ≤ rank

structure Emptied (capacity : RingCapacity) (segs : List ShmSegment) (need start : UInt64)
    (before : List (List UInt8)) (state : RingState) : Prop where
  reached : (attendedRing capacity).Reachable state
  pushing : Pushing capacity segs need start before state
  empty : ∃ head tail, RingInv state head tail []

section Phases

variable {capacity : RingCapacity} {segs : List ShmSegment} {need start : UInt64}
variable {before : List (List UInt8)} {state next : RingState} {action : RingAction}
variable {head tail : Nat} {slots : List Slot}

/-- Only the consumer's own steps are needed: they lower the cost, and no other step
raises it. -/
theorem drain_outside (inv : RingInv state head tail slots)
    (short : action.recordsBelow (2 ^ 32) = true) (foreign : action.entersConsumer = false)
    (other : action ≠ .consumer) (stepped : ringStep state action = some next)
    (pushed : next.pushed = state.pushed) :
    ∃ head tail slots', RingInv next head tail slots' ∧
      drainCost slots' next.consumer ≤ drainCost slots state.consumer := by
  obtain ⟨head', tail', slots', kept, effect⟩ := ring_step_inv inv short stepped
  have fewer := effect_cost effect pushed
  rw [(keeps_consumer foreign other stepped).1]
  exact ⟨head', tail', slots', kept, drain_cost_mono fewer state.consumer⟩

theorem draining_waits (small : capacity.bytes ≤ 2 ^ 57)
    (accepted : (PushCall.scatter segs).need capacity = .ok need) :
    Waits (attendedRing capacity).step RingParty.owns (Draining capacity segs need start before)
      (fun _ => .consumer) (fun _ action next =>
        CallEnds capacity segs need start before action next ∨
          Emptied capacity segs need start before next) where
  enabled := by
    rintro state rank ⟨reached, pushing, head, tail, slots, inv, _, _⟩
    obtain ⟨_, served⟩ := attended_reachable small reached
    have enabled := drain_enabled inv (by rw [served.sized]; exact served.roomy)
    rwa [served.sized] at enabled
  moves := by
    rintro state rank action next ⟨reached, pushing, head, tail, slots, inv, filled, within⟩ stepped
    have later := Machine.reachable_step reached stepped
    obtain ⟨takes, short, _, stepped⟩ := attended_step stepped
    obtain ⟨_, served⟩ := attended_reachable small reached
    rcases push_step pushing inv accepted stepped with ended | still
    · exact Or.inl (Or.inl ended)
    · have pushed := still.pushed.trans pushing.pushed.symm
      -- A step behind which the ring is empty ends the wait, another one keeps its rank.
      have settles : ∀ {head tail slots' bound}, RingInv next head tail slots' →
          drainCost slots' next.consumer ≤ bound →
          (CallEnds capacity segs need start before action next ∨
            Emptied capacity segs need start before next) ∨
            Draining capacity segs need start before next bound := by
        intro head tail slots' bound kept below
        by_cases empty : slots' = []
        · subst empty
          exact Or.inl (Or.inr ⟨later, still, head, tail, kept⟩)
        · exact Or.inr ⟨later, still, head, tail, slots', kept, empty, below⟩
      by_cases own : RingParty.consumer.owns action = true
      · have cheaper : ∃ tail' slots', RingInv next head tail' slots' ∧
            drainCost slots' next.consumer < drainCost slots state.consumer := by
          cases ring_step_cases stepped with
          | consumer next stepped =>
              exact drain_step inv filled (by rw [served.sized]; exact served.roomy) stepped
          | callPop maxSize result here =>
              refine ⟨tail, slots, ⟨inv.capacities, inv.headWord, inv.tailWord, inv.room,
                inv.parsed, inv.closed, inv.short, inv.producer, trivial⟩, ?_⟩
              simp only [here, drainCost]
              omega
          | _ => cases own
        obtain ⟨tail', slots', kept, below⟩ := cheaper
        rcases settles kept (Nat.le_refl _) with ended | on
        · exact Or.inl ended
        · exact Or.inr (Or.inl ⟨_, Nat.lt_of_lt_of_le below within, on⟩)
      · have outside : ∃ head tail slots', RingInv next head tail slots' ∧
            drainCost slots' next.consumer ≤ drainCost slots state.consumer := by
          cases action with
          | attachConsumer =>
              have roomy := served.roomy
              cases ring_step_cases stepped with
              | attachConsumer here =>
                  rw [here] at roomy
                  exact roomy.elim
          | callPop maxSize => exact absurd rfl own
          | consumer => exact absurd rfl own
          | _ => exact drain_outside inv short rfl (by simp) stepped pushed
        obtain ⟨head', tail', slots', kept, below⟩ := outside
        rcases settles kept (Nat.le_trans below within) with ended | on
        · exact Or.inl ended
        · exact Or.inr (Or.inr ⟨on, rfl, Bool.eq_false_iff.mpr own⟩)

/-- The steps until the head store on an empty ring. A sleeper needs the wake of the
pop in progress first. -/
def pushCost (length : Nat) (state : RingState) : Nat :=
  match state.producer with
  | .copy _ todo _ => todo.length + 1
  | .loadTail _ _ _ => length + 10
  | .loadHead _ _ => length + 11
  | .waitDisarm _ => length + 12
  | .waitTail _ _ => length + 12
  | .waitHead _ => length + 13
  | .waitRecheck _ _ => length + 13 + (if state.flagPending then 1 else 0)
  | .waitArm _ _ => length + 15
  | .asleep _ =>
      match state.consumer with
      | .wakeExchange _ => length + 15
      | _ => length + 14
  | .waitEnter _ => length + 16
  | .waitPark _ => length + 17
  | _ => 0

/-- Who moves next: memory where the re-check waits for the armed flag, the consumer where
the producer sleeps. -/
def pushHelper (state : RingState) : RingParty :=
  match state.producer with
  | .waitRecheck _ _ => if state.flagPending then .memory else .producer
  | .asleep _ => .consumer
  | _ => .producer

/-- A sleeper in front of an empty ring is about to be woken. -/
theorem empty_sleeper_woken {job : WaitJob} (small : capacity.bytes ≤ 2 ^ 57)
    (served : AttendedState capacity state) (inv : RingInv state head tail [])
    (asleep : state.producer = .asleep job) :
    (∃ payload, state.consumer = .wakeExchange payload ∧ state.object.flowFlag = 1) ∨
      ∃ payload, state.consumer = .wakeFutex payload := by
  obtain ⟨visible, held, armed⟩ := served.watched (by rw [asleep]; trivial)
  rcases armed job asleep with flag | waking
  · left
    have empty : state.object.head = state.object.tail := by
      have same : tail = head := inv.parsed
      rw [inv.headWord, inv.tailWord, same]
    have own := inv.consumer
    rcases held flag with low | tests
    · have positive := lw_positive small
      rw [empty, UInt64.sub_self, served.sized] at low
      exact absurd (UInt64.lt_of_lt_of_le positive low) (UInt64.lt_irrefl _)
    · cases place : state.consumer with
      | wakeExchange payload => exact ⟨payload, rfl, flag⟩
      | loadTail maxSize =>
          rw [place] at tests
          exact absurd empty tests.nonempty
      | loadHead maxSize loaded =>
          rw [place] at tests
          exact absurd empty tests.nonempty
      | readHeader maxSize loaded seen got =>
          rw [place] at tests
          exact absurd empty tests.nonempty
      | readBody loaded seen len got =>
          rw [place] at own
          obtain ⟨_, _, _, payload, rest, front, _⟩ := own
          cases front
      | storeTail loaded seen payload =>
          rw [place] at own
          obtain ⟨_, _, rest, front⟩ := own
          cases front
      | _ =>
          rw [place] at tests
          exact tests.elim
  · exact Or.inr waking

theorem stays_empty (inv : RingInv state head tail [])
    (short : action.recordsBelow (2 ^ 32) = true) (stepped : ringStep state action = some next)
    (pushed : next.pushed = state.pushed) : ∃ head tail, RingInv next head tail [] := by
  obtain ⟨head', tail', slots', kept, effect⟩ := ring_step_inv inv short stepped
  have fewer := effect_cost effect pushed
  cases slots' with
  | nil => exact ⟨head', tail', kept⟩
  | cons slot rest =>
      rw [slots_cost_cons] at fewer
      simp [slotsCost] at fewer

theorem push_enabled_at (pushing : Pushing capacity segs need start before state)
    (awake : ∀ job, state.producer ≠ .asleep job) : ∃ next, producerStep state = some next := by
  have place := pushing.place
  cases here : state.producer with
  | detached | initHeader todo | idle result =>
      rw [here] at place
      exact place.elim
  | asleep job => exact absurd here (awake job)
  | copy job todo newHead => cases todo <;> simp [producerStep, here]
  | _ => simp [producerStep, here]

/-- On an empty ring that the record fits, each step of the producer brings it nearer to
the head store. -/
theorem push_cost_step (pushing : Pushing capacity segs need start before state)
    (inv : RingInv state head tail [])
    (small : capacity.bytes ≤ 2 ^ 57)
    (accepted : (PushCall.scatter segs).need capacity = .ok need)
    (fits : FitsEmpty capacity start need) (visible : ∀ job loaded,
      state.producer = .waitRecheck job loaded → state.flagPending = false)
    (still : Pushing capacity segs need start before next) (moved : ProducerMove state next) :
    pushCost (PushCall.scatter segs).record.length next <
      pushCost (PushCall.scatter segs).record.length state := by
  obtain ⟨rfl, place, headWord, pushed⟩ := pushing
  have own := inv.producer
  have empty : state.object.head = state.object.tail := by
    have same : tail = head := inv.parsed
    rw [inv.headWord, inv.tailWord, same]
  have watermark : 0 < hwBytes state.producerCapacity :=
    UInt64.lt_of_lt_of_le (lw_positive small) (lw_le_hw small)
  have below : ∀ {loaded}, loaded = cursor head →
      loaded - state.object.tail < hwBytes state.producerCapacity := by
    intro loaded fresh
    rw [fresh, ← inv.headWord, empty, UInt64.sub_self]
    exact watermark
  cases moved with
  | loadTail job wanted loaded here =>
      rw [here] at place own
      cases place
      have asked : wanted = need := by
        have both := own.1.symm.trans accepted
        cases both
        rfl
      have fresh : loaded = state.object.head := own.2.trans inv.headWord.symm
      obtain ⟨slot, reserved⟩ := (reserve_empty start (need_within_capacity accepted)).1 fits
      have planned := plan_length state.producerCapacity start need slot (.scatter segs)
      simp only [pushCost, here, checkSpace, asked, fresh, ← empty, headWord, reserved,
        PushJob.call]
      omega
  | congested job loaded here above =>
      rw [here] at own
      exact absurd (below own) above
  | stillCongested job loaded here above =>
      rw [here] at own
      exact absurd (below own) above
  | writable job loaded here clear =>
      rw [here] at place
      simp only [pushCost, here, after_wait_in_call place accepted]
      omega
  | disarm job here =>
      rw [here] at place
      simp only [pushCost, here, after_wait_in_call place accepted]
      omega
  | relieved job loaded here clear =>
      simp only [pushCost, here, visible job loaded here]
      simp
  | publish job newHead here =>
      rw [here] at place
      obtain ⟨rfl, _⟩ := place
      exact still.place.elim
  | sleep job here armed =>
      simp only [pushCost, here]
      split <;> omega
  | field field following rest here =>
      rw [here] at place
      exact place.elim
  | lastField field here =>
      rw [here] at place
      exact place.elim
  | loadHead job wanted here | store job write rest newHead here | waitHead job here
  | arm job loaded here | park job here | missed job here cleared =>
      simp [pushCost, here]

theorem push_cost_same (length : Nat) (producer : next.producer = state.producer)
    (pending : next.flagPending = state.flagPending)
    (awake : ∀ job, state.producer ≠ .asleep job) :
    pushCost length next = pushCost length state ∧ pushHelper next = pushHelper state := by
  simp only [pushCost, pushHelper, producer, pending]
  cases here : state.producer with
  | asleep job => exact absurd here (awake job)
  | _ => exact ⟨rfl, trivial⟩

/-- A step of the consumer behind an empty ring. -/
theorem consumer_on_empty (small : capacity.bytes ≤ 2 ^ 57) (served : AttendedState capacity state)
    (inv : RingInv state head tail []) (length : Nat) (stepped : consumerStep state = some next) :
    pushCost length next < pushCost length state ∨
      pushCost length next = pushCost length state ∧ pushHelper next = pushHelper state ∧
        pushHelper state ≠ .consumer := by
  have awakened : ∀ job, state.producer = .asleep job →
      pushCost length next < pushCost length state := by
    intro job asleep
    rcases empty_sleeper_woken small served inv asleep with
      ⟨payload, place, flag⟩ | ⟨payload, place⟩
    · have set : state.object.flowFlag ≠ 0 := by
        rw [flag]
        decide
      simp only [consumerStep, place, set, if_false, Option.some.injEq] at stepped
      subst stepped
      simp only [pushCost, asleep, place]
      omega
    · simp only [consumerStep, place, asleep, wakeProducer, Option.some.injEq] at stepped
      subst stepped
      simp only [pushCost, deliver, asleep, place]
      omega
  cases here : state.producer with
  | asleep job => exact Or.inl (awakened job here)
  | _ =>
      right
      have awake : ∀ job, state.producer ≠ .asleep job := by simp [here]
      have kept : next.producer = state.producer := by
        cases (consumer_frame stepped).touch with
        | untouched same => exact same
        | woken job asleep resumed => exact absurd asleep (awake job)
        | interrupted job asleep ended => exact absurd asleep (awake job)
      have pending : next.flagPending = state.flagPending := by
        cases consumer_step_cases inv stepped <;> rfl
      obtain ⟨cost, helper⟩ := push_cost_same length kept pending awake
      refine ⟨cost, helper, ?_⟩
      simp only [pushHelper, here]
      try split
      all_goals simp

theorem emptied_enabled (small : capacity.bytes ≤ 2 ^ 57)
    (emptied : Emptied capacity segs need start before state) :
    ∃ action next, RingParty.owns (pushHelper state) action = true ∧
      (attendedRing capacity).step state action = some next := by
  obtain ⟨reached, pushing, head, tail, inv⟩ := emptied
  obtain ⟨_, served⟩ := attended_reachable small reached
  cases here : state.producer with
  | asleep job =>
      obtain ⟨payload, woken⟩ : ∃ payload, state.consumer = .wakeExchange payload ∨
          state.consumer = .wakeFutex payload := by
        rcases empty_sleeper_woken small served inv here with
          ⟨payload, place, _⟩ | ⟨payload, place⟩
        · exact ⟨payload, Or.inl place⟩
        · exact ⟨payload, Or.inr place⟩
      have enabled := drain_enabled inv (by rw [served.sized]; exact served.roomy)
      rw [served.sized] at enabled
      simpa only [pushHelper, here] using enabled
  | waitRecheck job loaded =>
      by_cases pending : state.flagPending = true
      · obtain ⟨next, stepped⟩ : ∃ next, ringStep state .flushFlag = some next := by
          simp only [ringStep, flushFlag, pending, if_true, Option.some.injEq, exists_eq']
        exact ⟨.flushFlag, next, by simp only [pushHelper, here, pending, if_true]; rfl,
          attended_takes rfl rfl rfl stepped⟩
      · rw [Bool.not_eq_true] at pending
        obtain ⟨next, stepped⟩ := push_enabled_at pushing (by simp [here])
        refine ⟨.producer, next, by simp only [pushHelper, here, pending]; rfl,
          attended_takes rfl rfl ?_ stepped⟩
        simp only [wakefulStep, here, pending, Bool.not_false]
  | _ =>
      obtain ⟨next, stepped⟩ := push_enabled_at pushing (by simp [here])
      refine ⟨.producer, next, by simp only [pushHelper, here]; rfl,
        attended_takes rfl rfl ?_ stepped⟩
      simp only [wakefulStep, here]

/-- On an empty ring every step of a call that goes on lowers its cost, or leaves the cost
and the helper alone and is not the helper's. -/
theorem emptied_cheaper (small : capacity.bytes ≤ 2 ^ 57)
    (accepted : (PushCall.scatter segs).need capacity = .ok need)
    (fits : FitsEmpty capacity start need) (served : AttendedState capacity state)
    (inv : RingInv state head tail []) (pushing : Pushing capacity segs need start before state)
    (still : Pushing capacity segs need start before next)
    (wakeful : wakefulStep state action = true) (stepped : ringStep state action = some next) :
    pushCost (PushCall.scatter segs).record.length next <
        pushCost (PushCall.scatter segs).record.length state ∨
      pushCost (PushCall.scatter segs).record.length next =
          pushCost (PushCall.scatter segs).record.length state ∧
        pushHelper next = pushHelper state ∧ (pushHelper state).owns action = false := by
  cases ring_step_cases stepped with
  | producer next moved =>
      left
      apply push_cost_step pushing inv small accepted fits _ still moved
      intro job loaded place
      simpa only [wakefulStep, place, Bool.not_eq_true'] using wakeful
  | consumer next stepped =>
      rcases consumer_on_empty small served inv
        (PushCall.scatter segs).record.length stepped with less | ⟨same, helper, other⟩
      · exact Or.inl less
      · refine Or.inr ⟨same, helper, ?_⟩
        cases party : pushHelper state with
        | consumer => exact absurd party other
        | _ => rfl
  | flushFlag pending =>
      by_cases recheck : ∃ job loaded, state.producer = .waitRecheck job loaded
      · obtain ⟨job, loaded, place⟩ := recheck
        left
        simp [pushCost, place, pending]
      · right
        cases place : state.producer with
        | waitRecheck job loaded => exact absurd ⟨job, loaded, place⟩ recheck
        | _ => simp [pushCost, pushHelper, place, RingParty.owns]
  | callPop maxSize result place =>
      right
      have awake : ∀ job, state.producer ≠ .asleep job := by
        intro job asleep
        rcases empty_sleeper_woken small served inv asleep with
          ⟨payload, waking, _⟩ | ⟨payload, waking⟩
        · rw [place] at waking
          cases waking
        · rw [place] at waking
          cases waking
      have kept : ({ state with consumer := .loadTail maxSize } : RingState).producer =
          state.producer := rfl
      have pending : ({ state with consumer := .loadTail maxSize } : RingState).flagPending =
          state.flagPending := rfl
      obtain ⟨cost, helper⟩ :=
        push_cost_same (PushCall.scatter segs).record.length kept pending awake
      refine ⟨cost, helper, ?_⟩
      simp only [pushHelper]
      cases resting : state.producer with
      | asleep job => exact absurd resting (awake job)
      | waitRecheck job loaded => cases state.flagPending <;> rfl
      | _ => rfl
  | spuriousWake job place =>
      left
      simp only [pushCost, place]
      split <;> omega
  | interrupt job place =>
      have inside := pushing.place
      have after := still.place
      rw [place] at inside
      simp only [after_signal inside] at after
      exact after.elim
  | attachConsumer place =>
      have roomy := served.roomy
      rw [place] at roomy
      exact roomy.elim
  | attachProducer place =>
      have inside := pushing.place
      rw [place] at inside
      exact inside.elim
  | callProducer call result place =>
      have inside := pushing.place
      rw [place] at inside
      exact inside.elim

theorem emptied_waits (small : capacity.bytes ≤ 2 ^ 57)
    (accepted : (PushCall.scatter segs).need capacity = .ok need)
    (fits : FitsEmpty capacity start need) :
    Waits (attendedRing capacity).step RingParty.owns
      (fun state rank => Emptied capacity segs need start before state ∧
        pushCost (PushCall.scatter segs).record.length state ≤ rank) pushHelper
      (fun _ action next => CallEnds capacity segs need start before action next) where
  enabled := by
    rintro state rank ⟨emptied, _⟩
    exact emptied_enabled small emptied
  moves := by
    rintro state rank action next ⟨⟨reached, pushing, head, tail, inv⟩, within⟩ stepped
    have later := Machine.reachable_step reached stepped
    obtain ⟨takes, short, wakeful, stepped⟩ := attended_step stepped
    obtain ⟨_, served⟩ := attended_reachable small reached
    rcases push_step pushing inv accepted stepped with ended | still
    · exact Or.inl ended
    · have empty := stays_empty inv short stepped (still.pushed.trans pushing.pushed.symm)
      have here : Emptied capacity segs need start before next := ⟨later, still, empty⟩
      rcases emptied_cheaper small accepted fits served inv pushing still wakeful stepped with
        less | ⟨same, helper, foreign⟩
      · exact Or.inr (Or.inl ⟨_, Nat.lt_of_lt_of_le less within, here, Nat.le_refl _⟩)
      · exact Or.inr (Or.inr ⟨⟨here, by omega⟩, helper, foreign⟩)

end Phases

/-- The call made at `called` returns at `returned`. -/
def Returns (run : ℕ → RingState) (called returned : ℕ) (rc : Status) : Prop :=
  called < returned ∧
    (∀ n, called < n → n < returned → (run n).producer.isIdle = false) ∧
    (run returned).producer = .idle (some rc)

section Runs

variable {capacity : RingCapacity} {run : ℕ → RingState} {actions : ℕ → RingAction}
variable {segs : List ShmSegment} {need : UInt64} {called : ℕ}

theorem in_call_busy {head : UInt64} {pc : ProducerPc} (place : InCall capacity segs need head pc) :
    pc.isIdle = false := by
  cases pc <;> first | rfl | exact place.elim

theorem call_starts (sized : (run called).producerCapacity = capacity)
    (streams : Stream (attendedRing capacity).step run actions)
    (calls : actions called = .callProducer (.pushScatterBlocking segs)) :
    Pushing capacity segs need (run called).object.head (run called).pushed (run (called + 1)) := by
  have stepped := streams called
  rw [calls] at stepped
  obtain ⟨_, _, _, stepped⟩ := attended_step stepped
  simp only [ringStep, callProducer] at stepped
  split at stepped
  · simp only [Option.some.injEq] at stepped
    rw [← stepped]
    exact ⟨sized, Or.inl rfl, rfl, rfl⟩
  · cases stepped

theorem call_path (small : capacity.bytes ≤ 2 ^ 57) {start : UInt64}
    {before : List (List UInt8)} (starts : (attendedRing capacity).initial (run 0))
    (streams : Stream (attendedRing capacity).step run actions)
    (accepted : (PushCall.scatter segs).need capacity = .ok need)
    (first : Pushing capacity segs need start before (run (called + 1))) {n : ℕ}
    (later : called + 1 ≤ n) :
    (∃ m, called < m ∧ m < n ∧
        CallEnds capacity segs need start before (actions m) (run (m + 1))) ∨
      Pushing capacity segs need start before (run n) := by
  induction n, later using Nat.le_induction with
  | base => exact Or.inr first
  | succ n later ih =>
      rcases ih with ⟨m, after, early, ended⟩ | pushing
      · exact Or.inl ⟨m, after, Nat.lt_succ_of_lt early, ended⟩
      · obtain ⟨⟨head, tail, slots, inv⟩, _⟩ :=
          attended_reachable small (stream_reachable starts streams n)
        obtain ⟨_, _, _, stepped⟩ := attended_step (streams n)
        rcases push_step pushing inv accepted stepped with ended | still
        · exact Or.inl ⟨n, later, Nat.lt_succ_self n, ended⟩
        · exact Or.inr still

theorem call_ends (small : capacity.bytes ≤ 2 ^ 57) {start : UInt64}
    {before : List (List UInt8)} (starts : (attendedRing capacity).initial (run 0))
    (streams : Stream (attendedRing capacity).step run actions)
    (fair : ∀ party, WeaklyFair (attendedRing capacity).step (RingParty.owns party) run actions)
    (accepted : (PushCall.scatter segs).need capacity = .ok need)
    (fits : FitsEmpty capacity start need)
    (first : Pushing capacity segs need start before (run (called + 1))) :
    ∃ m, called < m ∧ CallEnds capacity segs need start before (actions m) (run (m + 1)) := by
  have onEmpty : ∀ n, called < n → Emptied capacity segs need start before (run n) →
      ∃ m, called < m ∧ CallEnds capacity segs need start before (actions m) (run (m + 1)) := by
    intro n after emptied
    obtain ⟨m, later, ended⟩ := (emptied_waits small accepted fits).response streams fair
      ⟨emptied, Nat.le_refl _⟩
    exact ⟨m, Nat.lt_of_lt_of_le after later, ended⟩
  have reached := stream_reachable starts streams (called + 1)
  obtain ⟨⟨head, tail, slots, inv⟩, _⟩ := attended_reachable small reached
  by_cases empty : slots = []
  · subst empty
    exact onEmpty (called + 1) (Nat.lt_succ_self called) ⟨reached, first, head, tail, inv⟩
  · obtain ⟨m, later, ended | emptied⟩ := (draining_waits small accepted).response streams fair
      ⟨reached, first, head, tail, slots, inv, empty, Nat.le_refl _⟩
    · exact ⟨m, later, ended⟩
    · exact onEmpty (m + 1) (Nat.lt_succ_of_lt later) emptied

theorem CallEnds.idle {start : UInt64} {before : List (List UInt8)} {action : RingAction}
    {next : RingState} (ended : CallEnds capacity segs need start before action next) :
    ∃ rc, next.producer = .idle (some rc) := by
  rcases ended with ⟨_, returned, _⟩ | ⟨_, returned, _⟩
  · exact ⟨_, returned⟩
  · exact ⟨_, returned⟩

/-- With fair threads a blocking push whose record fits the empty ring at its head returns.
It returns 0 with the record published, or -EINTR by a signal with nothing published; it
never returns 0 for a record that does not fit. -/
theorem blocking_push_returns (small : capacity.bytes ≤ 2 ^ 57)
    (starts : (attendedRing capacity).initial (run 0))
    (streams : Stream (attendedRing capacity).step run actions)
    (fair : ∀ party, WeaklyFair (attendedRing capacity).step (RingParty.owns party) run actions)
    (calls : actions called = .callProducer (.pushScatterBlocking segs))
    (accepted : (PushCall.scatter segs).need capacity = .ok need) :
    (FitsEmpty capacity (run called).object.head need →
        ∃ returned rc, Returns run called returned rc) ∧
      ∀ returned rc, Returns run called returned rc →
        rc = .ok () ∧ FitsEmpty capacity (run called).object.head need ∧
            (run returned).pushed = (run called).pushed ++ [(PushCall.scatter segs).record] ∨
          rc = .error .eintr ∧ actions (returned - 1) = .interrupt ∧
            (run returned).pushed = (run called).pushed := by
  obtain ⟨_, served⟩ := attended_reachable small (stream_reachable starts streams called)
  have first := @call_starts capacity run actions segs need called served.sized streams calls
  constructor
  · intro fits
    classical
    have ends := call_ends small starts streams fair accepted fits first
    obtain ⟨after, ended⟩ := Nat.find_spec ends
    obtain ⟨rc, returned⟩ := ended.idle
    refine ⟨Nat.find ends + 1, rc, Nat.lt_succ_of_lt after, ?_, returned⟩
    intro n beyond early
    rcases call_path small starts streams accepted first beyond with
      ⟨m, later, sooner, gone⟩ | pushing
    · exact absurd ⟨later, gone⟩ (Nat.find_min ends (by omega))
    · exact in_call_busy pushing.place
  · rintro returned rc ⟨after, busy, idle⟩
    rcases call_path small starts streams accepted first after with
      ⟨m, later, early, ended⟩ | pushing
    · have last : m + 1 = returned := by
        by_contra sooner
        obtain ⟨code, stopped⟩ := ended.idle
        have running := busy (m + 1) (Nat.lt_succ_of_lt later) (by omega)
        rw [stopped] at running
        cases running
      subst last
      rcases ended with ⟨_, result, fits, pushed⟩ | ⟨signal, result, pushed⟩
      · rw [idle] at result
        cases result
        exact Or.inl ⟨rfl, fits, pushed⟩
      · rw [idle] at result
        cases result
        exact Or.inr ⟨rfl, signal, pushed⟩
    · have running := in_call_busy pushing.place
      rw [idle] at running
      cases running

end Runs

/-- The threads and the memory take turns. -/
def turnOf (n : ℕ) : RingParty :=
  match n % 3 with
  | 0 => .producer
  | 1 => .consumer
  | _ => .memory

theorem turn_around (party : RingParty) (n : ℕ) : ∃ m, n ≤ m ∧ turnOf m = party := by
  have turn : ∀ k < 3, (3 * n + k) % 3 = k := fun k small => by omega
  cases party with
  | producer => exact ⟨3 * n + 0, by omega, by simp only [turnOf, turn 0 (by decide)]⟩
  | consumer => exact ⟨3 * n + 1, by omega, by simp only [turnOf, turn 1 (by decide)]⟩
  | memory => exact ⟨3 * n + 2, by omega, by simp only [turnOf, turn 2 (by decide)]⟩

theorem goes_on_fairly {capacity : RingCapacity} {state : RingState}
    (small : capacity.bytes ≤ 2 ^ 57) (reached : (attendedRing capacity).Reachable state) :
    ∃ run actions, run 0 = state ∧ Stream (attendedRing capacity).step run actions ∧
      (∀ party, WeaklyFair (attendedRing capacity).step (RingParty.owns party) run actions) ∧
      ∀ n, ∃ party, RingParty.owns party (actions n) = true := by
  refine exists_fair_stream turn_around
    (fun _ _ _ before stepped => Machine.reachable_step before stepped) ?_ reached
  intro state held
  obtain ⟨⟨head, tail, slots, inv⟩, served⟩ := attended_reachable small held
  have roomy := served.roomy
  rw [← served.sized] at roomy ⊢
  obtain ⟨action, next, owned, stepped⟩ := drain_enabled inv roomy
  exact ⟨.consumer, action, next, owned, stepped⟩

def fillPage : List RingAction :=
  .callProducer (.push (.push (some (List.replicate 3272 0)))) :: List.replicate 3279 .producer

def parkedPush : List RingAction :=
  [.callProducer (.pushScatterBlocking [.bytes [7]]), .producer, .producer, .producer,
    .flushFlag, .producer, .producer, .producer]

theorem resting_producer {capacity : RingCapacity} {state next : RingState}
    {result : Option Status} (idle : state.producer = .idle result) :
    (attendedRing capacity).step state .producer ≠ some next := by
  intro stepped
  obtain ⟨_, _, _, stepped⟩ := attended_step stepped
  simp [ringStep, producerStep, idle] at stepped

theorem flush_rests {capacity : RingCapacity} {state next : RingState}
    (stepped : (attendedRing capacity).step state .flushFlag = some next) :
    next.producer = state.producer := by
  obtain ⟨_, _, _, stepped⟩ := attended_step stepped
  simp only [ringStep, flushFlag] at stepped
  split at stepped <;> cases stepped
  rfl

/-- A call that sleeps behind its first eight actions has not returned before. -/
theorem returns_later {run : ℕ → RingState} {actions : ℕ → RingAction} {called returned : ℕ}
    {rc : Status} (streams : Stream (attendedRing page).step run actions)
    (parks : ∀ i (inside : i < parkedPush.length), actions (called + i) = parkedPush[i])
    (asleep : (run (called + 8)).producer.parked) (returns : Returns run called returned rc) :
    called + 8 < returned := by
  obtain ⟨later, _, idle⟩ := returns
  obtain ⟨i, rfl⟩ := Nat.exists_eq_add_of_lt later
  by_contra early
  have resting : ∀ k, (run (called + k)).producer = .idle (some rc) →
      actions (called + k) ≠ .producer := by
    intro k rests moved
    have stepped := streams (called + k)
    rw [moved] at stepped
    exact resting_producer rests stepped
  have cases : i + 1 = 4 ∨ i + 1 = 8 ∨ i + 1 < 8 ∧ i + 1 ≠ 4 := by omega
  rcases cases with flushing | last | ⟨inside, other⟩
  · have flushed := streams (called + 4)
    rw [parks 4 (by decide)] at flushed
    rw [Nat.add_assoc, flushing] at idle
    exact resting 5 ((flush_rests flushed).trans idle) (parks 5 (by decide))
  · rw [Nat.add_assoc, last] at idle
    rw [idle] at asleep
    exact asleep
  · have moved : ∀ k < 8, 0 < k → k ≠ 4 → parkedPush[k]? = some .producer := by
      intro k small positive other
      rcases k with _ | _ | _ | _ | _ | _ | _ | _ | k
      · omega
      all_goals first | rfl | omega
    have here := parks (i + 1) inside
    have producer := moved (i + 1) inside (Nat.succ_pos i) other
    rw [List.getElem?_eq_getElem inside, ← here, Option.some.injEq] at producer
    rw [Nat.add_assoc] at idle
    exact resting (i + 1) idle producer

/-- A push of one byte into a ring at its high watermark parks, is woken and returns. -/
theorem blocking_push_returns_parked :
    ∃ run actions called, run 0 = freshRing page (fun _ => 255) ∧
      Stream (attendedRing page).step run actions ∧
      (∀ party, WeaklyFair (attendedRing page).step (RingParty.owns party) run actions) ∧
      actions called = .callProducer (.pushScatterBlocking [.bytes [7]]) ∧
      (run (called + 8)).producer = .asleep (.throttle [.bytes [7]]) ∧
      ∃ returned, called + 8 < returned ∧ Returns run called returned (.ok ()) ∧
        (run returned).pushed = (run called).pushed ++ [[7]] := by
  have filled : ((attendedRing page).run (freshRing page fun _ => 255) fillPage).map
      (fun state => state.object.head) = some 3276 := by decide +kernel
  have slept : ((attendedRing page).run (freshRing page fun _ => 255)
      (fillPage ++ parkedPush)).map (fun state => state.producer.sleeper) =
      some (some (.throttle [.bytes [7]])) := by decide +kernel
  obtain ⟨loaded, filling, head⟩ := Option.map_eq_some_iff.mp filled
  obtain ⟨sleeper, through, sleeps⟩ := Option.map_eq_some_iff.mp slept
  rw [Machine.run_append, filling, Option.bind_some] at through
  have asleep := ProducerPc.asleep_of_sleeper sleeps
  have fresh : (attendedRing page).Reachable (freshRing page fun _ => 255) :=
    Machine.reachable_initial ⟨_, rfl⟩
  have reached := Machine.reachable_path (Machine.reachable_path fresh
    (Machine.reachable_from_run filling)) (Machine.reachable_from_run through)
  obtain ⟨later, turns, starts, streams, fair, owned⟩ := goes_on_fairly (by decide) reached
  rw [← starts] at through
  obtain ⟨run₁, actions₁, starts₁, streams₁, states₁, moves₁, early₁⟩ :=
    stem_stream streams through
  rw [← starts₁] at filling
  obtain ⟨run, actions, begins, streams, states, moves, _⟩ := stem_stream streams₁ filling
  have fair : ∀ party, WeaklyFair (attendedRing page).step (RingParty.owns party) run actions :=
    fun party => ((fair party).behind parkedPush.length states₁ moves₁).behind fillPage.length
      states moves
  have parks : ∀ i (inside : i < parkedPush.length),
      actions (fillPage.length + i) = parkedPush[i] :=
    fun i inside => (moves i).trans (early₁ i inside)
  have calls : actions (fillPage.length + 0) =
      .callProducer (.pushScatterBlocking [.bytes [7]]) := parks 0 (by decide)
  have waits : (run (fillPage.length + 8)).producer = .asleep (.throttle [.bytes [7]]) := by
    have there : run₁ 8 = sleeper := (states₁ 0).trans starts
    rw [states, there]
    exact asleep
  have accepted : (PushCall.scatter [.bytes [7]]).need page = .ok 5 := by decide
  have fits : FitsEmpty page (run (fillPage.length + 0)).object.head 5 := by
    rw [states, starts₁, head]
    decide
  have law := blocking_push_returns (by decide) ⟨_, begins⟩ streams fair calls accepted
  obtain ⟨returned, rc, returns⟩ := law.1 fits
  have behind := returns_later streams parks (by rw [waits]; trivial) returns
  refine ⟨run, actions, fillPage.length, begins, streams, fair, calls, waits, returned, behind, ?_⟩
  rcases law.2 returned rc returns with ⟨rfl, _, pushed⟩ | ⟨_, signal, _⟩
  · exact ⟨returns, pushed⟩
  · obtain ⟨n, rfl⟩ := Nat.exists_eq_add_of_lt behind
    have quiet : actions (fillPage.length + (parkedPush.length + n)) = turns n :=
      (moves _).trans (moves₁ n)
    obtain ⟨party, owns⟩ := owned n
    have eight : parkedPush.length = 8 := rfl
    have last : fillPage.length + 8 + n + 1 - 1 =
        fillPage.length + (parkedPush.length + n) := by omega
    rw [last, quiet] at signal
    rw [signal] at owns
    cases party <;> cases owns

end AdaptIpc.Ring

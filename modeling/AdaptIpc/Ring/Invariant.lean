import AdaptIpc.Ring.Step
import AdaptIpc.Ring.Placement

/-!
# The ring invariant

Head and tail are images of unbounded positions at most one buffer apart, the
bytes between them parse as slots, and each thread's locals agree with that:
the producer only stores into positions it has reserved beyond the head, the
consumer only acts on the first slot. One lemma per thread says what a step
does to the slots.
-/

namespace AdaptIpc.Ring

open AdaptIpc.Library.Bytes AdaptIpc.Library.Cursor AdaptIpc.Library.Transition

set_option autoImplicit false

def WaitJob.segments : WaitJob → List ShmSegment
  | .direct => []
  | .throttle segs => segs
  | .full segs => segs

/-- The record a producer in the middle of a call may still push. -/
def ProducerPc.candidate : ProducerPc → List UInt8
  | .loadHead job _ => job.call.record
  | .loadTail job _ _ => job.call.record
  | .copy job _ _ => job.call.record
  | .waitHead job => (PushCall.scatter job.segments).record
  | .waitTail job _ => (PushCall.scatter job.segments).record
  | .waitArm job _ => (PushCall.scatter job.segments).record
  | .waitRecheck job _ => (PushCall.scatter job.segments).record
  | .waitDisarm job => (PushCall.scatter job.segments).record
  | .waitPark job => (PushCall.scatter job.segments).record
  | .waitEnter job => (PushCall.scatter job.segments).record
  | .asleep job => (PushCall.scatter job.segments).record
  | .detached => []
  | .initHeader _ => []
  | .idle _ => []

/-- The positions from `head` to `limit` hold the record with its header, and at most
as much padding. -/
def Spans (record : List UInt8) (head limit : Nat) : Prop :=
  head + (record.length + 4) ≤ limit ∧ limit ≤ head + 2 * (record.length + 4)

/-- The producer's locals against the positions: what it loaded as head is the
head, and its remaining stores complete the parse of the reserved positions. -/
def ProducerHolds (capacity : RingCapacity) (data : Memory) (head tail : Nat) :
    ProducerPc → Prop
  | .detached => head = 0 ∧ tail = 0
  | .initHeader _ => head = 0 ∧ tail = 0
  | .loadHead job need => job.call.need capacity = .ok need
  | .loadTail job need loaded => job.call.need capacity = .ok need ∧ loaded = cursor head
  | .copy job todo newHead =>
      ∃ slots limit, newHead = cursor limit ∧ limit ≤ tail + capacity.bytes ∧
        Spans job.call.record head limit ∧
        slots = recordSlots capacity.bytes head job.call.record ∧
        Parses capacity.bytes (applyStores data todo) head slots limit ∧
        Closed slots ∧ payloads slots = [job.call.record] ∧
        ∀ write ∈ todo, StoreWithin capacity.bytes head limit write
  | .waitTail _ loaded => loaded = cursor head
  | .waitArm _ loaded => loaded = cursor head
  | .waitRecheck _ loaded => loaded = cursor head
  | _ => True

/-- A head the consumer has loaded is the end of a non-empty run of slots. -/
def SeenHead (size tail : Nat) (slots : List Slot) (loaded : UInt64) : Prop :=
  ∃ seen unseen, slots = seen ++ unseen ∧ seen ≠ [] ∧ loaded = cursor (spanEnd size tail seen)

/-- The consumer's locals against the positions: what it has read is a prefix of
the first slot. -/
def ConsumerHolds (size tail : Nat) (slots : List Slot) : ConsumerPc → Prop
  | .loadHead _ loaded => loaded = cursor tail
  | .readHeader _ loaded seen got =>
      loaded = cursor tail ∧ SeenHead size tail slots seen ∧ got.length < 4 ∧
        ∃ slot rest, slots = slot :: rest ∧ got = slot.bytes.take got.length
  | .skipPadding _ loaded => loaded = cursor tail ∧ ∃ rest, slots = .padding :: rest
  | .readBody loaded seen len got =>
      loaded = cursor tail ∧ SeenHead size tail slots seen ∧ got.length < len ∧
        ∃ payload rest, slots = .record payload :: rest ∧ len = payload.length ∧
          got = payload.take got.length
  | .storeTail loaded seen payload =>
      loaded = cursor tail ∧ SeenHead size tail slots seen ∧
        ∃ rest, slots = .record payload :: rest
  | _ => True

structure RingInv (state : RingState) (head tail : Nat) (slots : List Slot) : Prop where
  capacities : state.consumerCapacity = state.producerCapacity
  headWord : state.object.head = cursor head
  tailWord : state.object.tail = cursor tail
  room : head ≤ tail + state.producerCapacity.bytes
  parsed : Parses state.producerCapacity.bytes state.object.data tail slots head
  closed : Closed slots
  short : state.producer.candidate.length < 2 ^ 32
  producer : ProducerHolds state.producerCapacity state.object.data head tail state.producer
  consumer : ConsumerHolds state.producerCapacity.bytes tail slots state.consumer

/-- A payload taken off the ring by a pop that has not returned yet. -/
def ConsumerPc.inFlight : ConsumerPc → List (List UInt8)
  | .wakeExchange payload => [payload]
  | .wakeFutex payload => [payload]
  | _ => []

def RingState.taken (state : RingState) : List (List UInt8) :=
  state.popped ++ state.consumer.inFlight

theorem RingInv.ordered {state : RingState} {head tail : Nat} {slots : List Slot}
    (inv : RingInv state head tail slots) : tail ≤ head :=
  parses_le state.producerCapacity.bytes_positive inv.parsed

theorem RingInv.used {state : RingState} {head tail : Nat} {slots : List Slot}
    (inv : RingInv state head tail slots) :
    state.object.head - state.object.tail = cursor (head - tail) := by
  rw [inv.headWord, inv.tailWord, cursor_sub _ _ inv.ordered]

theorem RingInv.used_toNat {state : RingState} {head tail : Nat} {slots : List Slot}
    (inv : RingInv state head tail slots) :
    (state.object.head - state.object.tail).toNat = head - tail := by
  have room := inv.room
  have small := state.producerCapacity.bytes_le
  rw [inv.used, cursor_toNat _ (by omega)]

theorem after_push_holds (capacity : RingCapacity) (data : Memory) (head tail : Nat)
    (job : PushJob) (rc : Status) :
    ProducerHolds capacity data head tail (afterPush job rc) := by
  cases job with
  | direct call => trivial
  | blocking segs =>
      simp only [afterPush]
      split <;> trivial

theorem after_push_short {job : PushJob} (rc : Status) (short : job.call.record.length < 2 ^ 32) :
    (afterPush job rc).candidate.length < 2 ^ 32 := by
  cases job with
  | direct call => simp [afterPush, ProducerPc.candidate]
  | blocking segs =>
      simp only [afterPush]
      split
      · exact short
      · simp [ProducerPc.candidate]

theorem start_push_holds (capacity : RingCapacity) (data : Memory) (head tail : Nat)
    (job : PushJob) : ProducerHolds capacity data head tail (startPush capacity job) := by
  unfold startPush
  split
  · exact after_push_holds capacity data head tail job _
  · next need accepted => exact accepted

theorem start_push_short {capacity : RingCapacity} {job : PushJob}
    (short : job.call.record.length < 2 ^ 32) :
    (startPush capacity job).candidate.length < 2 ^ 32 := by
  unfold startPush
  split
  · exact after_push_short _ short
  · exact short

theorem after_wait_holds (capacity : RingCapacity) (data : Memory) (head tail : Nat)
    (job : WaitJob) (rc : Status) :
    ProducerHolds capacity data head tail (afterWait capacity job rc) := by
  unfold afterWait
  split
  · trivial
  · split
    · trivial
    · exact start_push_holds capacity data head tail _
  · split
    · trivial
    · exact start_push_holds capacity data head tail _

theorem after_wait_short {capacity : RingCapacity} {job : WaitJob} (rc : Status)
    (short : (PushCall.scatter job.segments).record.length < 2 ^ 32) :
    (afterWait capacity job rc).candidate.length < 2 ^ 32 := by
  have idle : ∀ result, (ProducerPc.idle result).candidate.length < 2 ^ 32 := by
    simp [ProducerPc.candidate]
  unfold afterWait
  split
  · exact idle _
  · split
    · exact idle _
    · exact start_push_short short
  · split
    · exact idle _
    · exact start_push_short short

/-- The space check either ends the attempt or reserves positions that the
planned stores turn into the record's slots. -/
theorem check_space_holds {state : RingState} {job : PushJob} {need : UInt64} {head tail : Nat}
    (data : Memory) (ordered : tail ≤ head)
    (room : head ≤ tail + state.producerCapacity.bytes)
    (short : job.call.record.length < 2 ^ 32)
    (accepted : job.call.need state.producerCapacity = .ok need) :
    ProducerHolds state.producerCapacity data head tail
      (checkSpace state job need (cursor head) (cursor tail)) := by
  obtain ⟨needWord, nonempty, fits⟩ := need_ok short accepted
  unfold checkSpace
  rw [needWord, reserve_spec state.producerCapacity ordered room fits]
  by_cases full : state.producerCapacity.bytes - (head - tail) <
      requiredBytes state.producerCapacity.bytes head (job.call.record.length + 4)
  · simp only [full, if_true]
    exact after_push_holds _ data head tail job _
  · simp only [full, if_false]
    have positive := state.producerCapacity.bytes_positive
    rw [plan_eq state.producerCapacity nonempty fits rfl rfl rfl]
    have lower := need_le_required state.producerCapacity.bytes head (job.call.record.length + 4)
    have upper := required_le_double state.producerCapacity.bytes head (job.call.record.length + 4)
    refine ⟨recordSlots state.producerCapacity.bytes head job.call.record, _, rfl, by omega,
      ⟨by omega, by omega⟩, rfl,
      record_stores_parse data positive nonempty short (by omega), closed_record_slots _ _ _,
      payloads_record_slots _ _ _, ?_⟩
    intro write member
    exact record_stores_within positive (by omega) member

theorem check_space_short {state : RingState} {job : PushJob} (need head tail : UInt64)
    (short : job.call.record.length < 2 ^ 32) :
    (checkSpace state job need head tail).candidate.length < 2 ^ 32 := by
  unfold checkSpace
  split
  · exact after_push_short _ short
  · exact short

theorem seen_head_append {size tail : Nat} {slots : List Slot} {loaded : UInt64}
    (more : List Slot) (seen : SeenHead size tail slots loaded) :
    SeenHead size tail (slots ++ more) loaded := by
  obtain ⟨first, second, split, nonempty, word⟩ := seen
  exact ⟨first, second ++ more, by rw [split, List.append_assoc], nonempty, word⟩

theorem consumer_append {size tail : Nat} {slots : List Slot} {pc : ConsumerPc}
    (more : List Slot) (holds : ConsumerHolds size tail slots pc) :
    ConsumerHolds size tail (slots ++ more) pc := by
  cases pc with
  | readHeader maxSize loaded seen got =>
      obtain ⟨word, saw, bound, slot, rest, front, read⟩ := holds
      exact ⟨word, seen_head_append more saw, bound, slot, rest ++ more, by rw [front]; rfl, read⟩
  | skipPadding maxSize loaded =>
      obtain ⟨word, rest, front⟩ := holds
      exact ⟨word, rest ++ more, by rw [front]; rfl⟩
  | readBody loaded seen len got =>
      obtain ⟨word, saw, bound, payload, rest, front, length, read⟩ := holds
      exact ⟨word, seen_head_append more saw, bound, payload, rest ++ more, by rw [front]; rfl,
        length, read⟩
  | storeTail loaded seen payload =>
      obtain ⟨word, saw, rest, front⟩ := holds
      exact ⟨word, seen_head_append more saw, rest ++ more, by rw [front]; rfl⟩
  | loadHead maxSize loaded => exact holds
  | detached => trivial
  | idle result => trivial
  | loadTail maxSize => trivial
  | wakeExchange payload => trivial
  | wakeFutex payload => trivial

/-- The four effects of a step: nothing enters or leaves the unread region, one
record enters behind its padding, padding leaves, or one record leaves. -/
inductive RingEffect (state next : RingState) :
    Nat → Nat → List Slot → Nat → Nat → List Slot → Prop where
  | quiet {head tail : Nat} {slots : List Slot} (pushed : next.pushed = state.pushed)
      (taken : next.taken = state.taken) (footprint : next.lastFootprint = state.lastFootprint) :
      RingEffect state next head tail slots head tail slots
  | enqueue {head tail limit : Nat} {slots : List Slot} (more : List Slot)
      (payload : List UInt8) (single : payloads more = [payload])
      (pushed : next.pushed = state.pushed ++ [payload]) (taken : next.taken = state.taken)
      (span : limit = spanEnd state.producerCapacity.bytes head more)
      (spans : Spans payload head limit)
      (shape : more = recordSlots state.producerCapacity.bytes head payload)
      (footprint : next.lastFootprint = cursor (limit - head)) :
      RingEffect state next head tail slots limit tail (slots ++ more)
  | discard {head tail after : Nat} {rest : List Slot} (pushed : next.pushed = state.pushed)
      (taken : next.taken = state.taken) (footprint : next.lastFootprint = state.lastFootprint)
      (span : after = slotEnd state.producerCapacity.bytes tail .padding) :
      RingEffect state next head tail (.padding :: rest) head after rest
  | dequeue {head tail after : Nat} {rest : List Slot} (payload : List UInt8)
      (pushed : next.pushed = state.pushed) (taken : next.taken = state.taken ++ [payload])
      (footprint : next.lastFootprint = state.lastFootprint)
      (span : after = slotEnd state.producerCapacity.bytes tail (.record payload)) :
      RingEffect state next head tail (.record payload :: rest) head after rest

theorem producer_moves {state : RingState} {head tail : Nat} {slots : List Slot}
    (inv : RingInv state head tail slots) {object : ShmObject} {pending : Bool}
    (pc : ProducerPc) (sameHead : object.head = state.object.head)
    (sameTail : object.tail = state.object.tail) (sameData : object.data = state.object.data)
    (short : pc.candidate.length < 2 ^ 32)
    (holds : ProducerHolds state.producerCapacity state.object.data head tail pc) :
    ∃ head' slots',
      RingInv { state with object := object, flagPending := pending, producer := pc }
        head' tail slots' ∧
      RingEffect state { state with object := object, flagPending := pending, producer := pc }
        head tail slots head' tail slots' := by
  refine ⟨head, slots, ⟨inv.capacities, sameHead.trans inv.headWord, sameTail.trans inv.tailWord,
    inv.room, ?_, inv.closed, short, ?_, inv.consumer⟩, .quiet rfl rfl rfl⟩
  · simpa only [sameData] using inv.parsed
  · simpa only [sameData] using holds

theorem initial_field_words (capacity : RingCapacity) {object : ShmObject} (field : HeaderField)
    (head : object.head = 0) (tail : object.tail = 0) :
    (field.store capacity object).head = 0 ∧ (field.store capacity object).tail = 0 ∧
      (field.store capacity object).data = object.data := by
  cases field <;> exact ⟨by simp [HeaderField.store, head], by simp [HeaderField.store, tail], rfl⟩

theorem producer_step_inv {state next : RingState} {head tail : Nat} {slots : List Slot}
    (inv : RingInv state head tail slots) (stepped : producerStep state = some next) :
    ∃ head' slots', RingInv next head' tail slots' ∧
      RingEffect state next head tail slots head' tail slots' := by
  have positive := state.producerCapacity.bytes_positive
  have own := inv.producer
  have short := inv.short
  cases producer_step_cases stepped with
  | field field following rest place =>
      rw [place] at own
      obtain ⟨rfl, rfl⟩ := own
      obtain ⟨headZero, tailZero, sameData⟩ :=
        initial_field_words state.producerCapacity field inv.headWord inv.tailWord
      exact producer_moves inv _ (headZero.trans inv.headWord.symm)
        (tailZero.trans inv.tailWord.symm) sameData (by simp [ProducerPc.candidate]) ⟨rfl, rfl⟩
  | lastField field place =>
      rw [place] at own
      obtain ⟨rfl, rfl⟩ := own
      obtain ⟨headZero, tailZero, sameData⟩ :=
        initial_field_words state.producerCapacity field inv.headWord inv.tailWord
      exact producer_moves inv _ (headZero.trans inv.headWord.symm)
        (tailZero.trans inv.tailWord.symm) sameData (by simp [ProducerPc.candidate]) trivial
  | loadHead job need place =>
      rw [place] at own short
      exact producer_moves inv _ rfl rfl rfl short ⟨own, inv.headWord⟩
  | loadTail job need loaded place =>
      rw [place] at own short
      refine producer_moves inv _ rfl rfl rfl (check_space_short _ _ _ short) ?_
      rw [own.2, inv.tailWord]
      exact check_space_holds _ inv.ordered inv.room short own.1
  | store job write rest newHead place =>
      rw [place] at own short
      obtain ⟨more, limit, word, near, spans, shape, completes, paired, single, within⟩ := own
      -- The store hits reserved positions, so the unread region keeps its parse.
      refine ⟨head, slots, ⟨inv.capacities, inv.headWord, inv.tailWord, inv.room, ?_,
        inv.closed, short, ?_, inv.consumer⟩, .quiet rfl rfl rfl⟩
      · exact parses_after_store positive inv.parsed (Nat.le_refl _) near
          (within write (by simp))
      · exact ⟨more, limit, word, near, spans, shape, completes, paired, single,
          fun later member => within later (by simp [member])⟩
  | publish job newHead place =>
      rw [place] at own short
      obtain ⟨more, limit, word, near, spans, shape, completes, paired, single, within⟩ := own
      have span := parses_span completes
      have reached := span_end_ge head more positive
      refine ⟨limit, slots ++ more, ⟨inv.capacities, word, inv.tailWord, near,
        parses_append inv.parsed completes, closed_append inv.closed paired,
        after_push_short _ short, after_push_holds _ _ _ _ job _,
        consumer_append more inv.consumer⟩, ?_⟩
      refine .enqueue more job.call.record single rfl rfl span.symm spans shape ?_
      simp only [word, inv.headWord]
      exact cursor_sub _ _ (by omega)
  | waitHead job place =>
      rw [place] at short
      exact producer_moves inv _ rfl rfl rfl short inv.headWord
  | writable job loaded place below =>
      rw [place] at short
      exact producer_moves inv _ rfl rfl rfl (after_wait_short _ short)
        (after_wait_holds _ _ _ _ job _)
  | congested job loaded place above =>
      rw [place] at own short
      exact producer_moves inv _ rfl rfl rfl short own
  | arm job loaded place =>
      rw [place] at own short
      exact producer_moves inv _ rfl rfl rfl short own
  | relieved job loaded place below =>
      rw [place] at short
      exact producer_moves inv _ rfl rfl rfl short trivial
  | stillCongested job loaded place above =>
      rw [place] at short
      exact producer_moves inv _ rfl rfl rfl short trivial
  | disarm job place =>
      rw [place] at short
      exact producer_moves inv _ rfl rfl rfl (after_wait_short _ short)
        (after_wait_holds _ _ _ _ job _)
  | park job place =>
      rw [place] at short
      exact producer_moves inv _ rfl rfl rfl short trivial
  | sleep job place armed =>
      rw [place] at short
      exact producer_moves inv _ rfl rfl rfl short trivial
  | missed job place cleared =>
      rw [place] at short
      exact producer_moves inv _ rfl rfl rfl short trivial

theorem consumer_moves {state : RingState} {head tail : Nat} {slots : List Slot}
    (inv : RingInv state head tail slots) {flag : Int} (pc : ConsumerPc)
    (none : pc.inFlight = state.consumer.inFlight)
    (holds : ConsumerHolds state.producerCapacity.bytes tail slots pc) :
    ∃ tail' slots',
      RingInv
        { state with object := { state.object with flowFlag := flag }, consumer := pc }
        head tail' slots' ∧
      RingEffect state
        { state with object := { state.object with flowFlag := flag }, consumer := pc }
        head tail slots head tail' slots' := by
  have taken : ({ state with
      object := { state.object with flowFlag := flag }, consumer := pc } : RingState).taken =
      state.taken := by
    simp only [RingState.taken, none]
  exact ⟨tail, slots, ⟨inv.capacities, inv.headWord, inv.tailWord, inv.room, inv.parsed,
    inv.closed, inv.short, inv.producer, holds⟩, .quiet rfl taken rfl⟩

theorem producer_tail_advance {capacity : RingCapacity} {data : Memory}
    {head tail : Nat} (after : Nat) {pc : ProducerPc} (nonempty : tail < head)
    (advanced : tail ≤ after)
    (holds : ProducerHolds capacity data head tail pc) :
    ProducerHolds capacity data head after pc := by
  cases pc with
  | detached =>
      obtain ⟨headZero, _⟩ := holds
      omega
  | initHeader todo =>
      obtain ⟨headZero, _⟩ := holds
      omega
  | copy job todo newHead =>
      obtain ⟨more, limit, word, near, rest⟩ := holds
      exact ⟨more, limit, word, by omega, rest⟩
  | _ => exact holds

theorem wake_producer_holds {capacity : RingCapacity} {data : Memory} {head tail : Nat}
    {pc : ProducerPc} (holds : ProducerHolds capacity data head tail pc) :
    ProducerHolds capacity data head tail (wakeProducer pc) := by
  cases pc with
  | asleep job => trivial
  | _ => exact holds

theorem wake_producer_candidate (pc : ProducerPc) :
    (wakeProducer pc).candidate = pc.candidate := by
  cases pc <;> rfl

/-- Moving the tail past the first slot keeps the invariant, whatever the step does
to the flow flag and to a sleeping producer. -/
theorem past_slot_inv {state next : RingState} {head tail : Nat} {slot : Slot} {rest : List Slot}
    (inv : RingInv state head tail (slot :: rest))
    (producerCapacity : next.producerCapacity = state.producerCapacity)
    (consumerCapacity : next.consumerCapacity = state.consumerCapacity)
    (headWord : next.object.head = state.object.head)
    (tailWord : next.object.tail = cursor (slotEnd state.producerCapacity.bytes tail slot))
    (data : next.object.data = state.object.data)
    (producer : next.producer = state.producer ∨ next.producer = wakeProducer state.producer)
    (consumer : ConsumerHolds state.producerCapacity.bytes
      (slotEnd state.producerCapacity.bytes tail slot) rest next.consumer) :
    RingInv next head (slotEnd state.producerCapacity.bytes tail slot) rest := by
  have positive := state.producerCapacity.bytes_positive
  have advanced := slot_end_gt tail slot positive
  have remaining := parses_le positive inv.parsed.2
  have room := inv.room
  have moved : ProducerHolds state.producerCapacity state.object.data head
      (slotEnd state.producerCapacity.bytes tail slot) state.producer :=
    producer_tail_advance _ (by omega) (by omega) inv.producer
  constructor
  · rw [producerCapacity, consumerCapacity, inv.capacities]
  · rw [headWord, inv.headWord]
  · exact tailWord
  · rw [producerCapacity]
    omega
  · rw [producerCapacity, data]
    exact inv.parsed.2
  · exact closed_tail inv.closed
  · rcases producer with same | woken
    · rw [same]
      exact inv.short
    · rw [woken, wake_producer_candidate]
      exact inv.short
  · rw [producerCapacity, data]
    rcases producer with same | woken
    · rw [same]
      exact moved
    · rw [woken]
      exact wake_producer_holds moved
  · rw [producerCapacity]
    exact consumer

theorem read_next {state : RingState} {head tail : Nat} {slot : Slot} {rest : List Slot}
    (inv : RingInv state head tail (slot :: rest)) (offset : Nat)
    (bound : offset < slot.bytes.length) :
    slot.bytes.take offset ++ [state.object.data
        ((cursor tail &&& (state.consumerCapacity.size - 1)).toNat + offset)] =
      slot.bytes.take (offset + 1) := by
  have positive := state.producerCapacity.bytes_positive
  have small := state.producerCapacity.bytes_le
  have remainder := Nat.mod_lt tail positive
  rw [inv.capacities, state.producerCapacity.masked, cursor_toNat _ (by omega)]
  exact take_stored inv.parsed.1 bound

theorem check_length_holds {size tail : Nat} {slots : List Slot} {slot : Slot}
    {rest : List Slot} {seen : UInt64} (maxSize : Nat) (front : slots = slot :: rest)
    (fits : SlotFits size tail slot) (saw : SeenHead size tail slots seen) :
    ConsumerHolds size tail slots (checkLength maxSize (cursor tail) seen slot.lengthWord) := by
  unfold checkLength
  cases slot with
  | padding => exact ⟨rfl, rest, front⟩
  | record payload =>
      have nonempty : payload.length ≠ wrapSentinelLen :=
        fun zero => fits.1 (List.length_eq_zero_iff.mp zero)
      by_cases tooLarge : maxSize < payload.length
      · simp only [Slot.lengthWord, nonempty, tooLarge, if_false, if_true, ConsumerHolds]
      · simp only [Slot.lengthWord, nonempty, tooLarge, if_false]
        refine ⟨rfl, saw, ?_, payload, rest, front, rfl, rfl⟩
        exact List.length_pos_iff.mpr fits.1

theorem check_length_in_flight (maxSize len32 : Nat) (tail head : UInt64) :
    (checkLength maxSize tail head len32).inFlight = [] := by
  unfold checkLength
  split
  · rfl
  · split <;> rfl

theorem record_end_word (tail : Nat) (payload : List UInt8) :
    cursor tail + UInt64.ofNat payload.length + shmRingMsgHdrSize =
      cursor (tail + 4 + payload.length) := by
  rw [show shmRingMsgHdrSize = cursor 4 from rfl, cursor_add, cursor_add]
  simp only [Nat.add_assoc, Nat.add_comm payload.length 4]

theorem padding_end_word {state : RingState} {head tail : Nat} {slots : List Slot}
    (inv : RingInv state head tail slots) :
    (cursor tail &&& ~~~(state.consumerCapacity.size - 1)) + state.consumerCapacity.size =
      cursor (slotEnd state.producerCapacity.bytes tail .padding) := by
  rw [inv.capacities]
  exact state.producerCapacity.aligned tail

/-- The steps of the consumer's code between the positions of a ring: what it reads are
the bytes of the first slot. -/
inductive ConsumerMove (state : RingState) (tail : Nat) : List Slot → RingState → Prop where
  | loadTail {slots : List Slot} (maxSize : Nat) (place : state.consumer = .loadTail maxSize) :
      ConsumerMove state tail slots { state with consumer := .loadHead maxSize (cursor tail) }
  | foundEmpty {slots : List Slot} (maxSize : Nat)
      (place : state.consumer = .loadHead maxSize (cursor tail))
      (empty : state.object.head = state.object.tail) :
      ConsumerMove state tail slots { state with consumer := .idle (some (.error .eagain)) }
  | foundSlot {slot : Slot} {rest : List Slot} (maxSize : Nat)
      (place : state.consumer = .loadHead maxSize (cursor tail))
      (saw : SeenHead state.producerCapacity.bytes tail (slot :: rest) state.object.head) :
      ConsumerMove state tail (slot :: rest) { state with
        consumer := .readHeader maxSize (cursor tail) state.object.head [] }
  | headerByte {slot : Slot} {rest : List Slot} (maxSize : Nat) (seen : UInt64)
      (got : List UInt8) (place : state.consumer = .readHeader maxSize (cursor tail) seen got)
      (saw : SeenHead state.producerCapacity.bytes tail (slot :: rest) seen)
      (more : got.length + 1 < 4) :
      ConsumerMove state tail (slot :: rest) { state with
        consumer := .readHeader maxSize (cursor tail) seen (slot.bytes.take (got.length + 1)) }
  | headerRead {slot : Slot} {rest : List Slot} (maxSize : Nat) (seen : UInt64)
      (got : List UInt8) (place : state.consumer = .readHeader maxSize (cursor tail) seen got)
      (saw : SeenHead state.producerCapacity.bytes tail (slot :: rest) seen) :
      ConsumerMove state tail (slot :: rest) { state with
        consumer := checkLength maxSize (cursor tail) seen slot.lengthWord }
  | skipPadding {rest : List Slot} (maxSize : Nat)
      (place : state.consumer = .skipPadding maxSize (cursor tail)) :
      ConsumerMove state tail (.padding :: rest) { state with
        object := { state.object with
          tail := cursor (slotEnd state.producerCapacity.bytes tail .padding) }
        consumer := .loadTail maxSize }
  | bodyByte {payload : List UInt8} {rest : List Slot} (seen : UInt64) (got : List UInt8)
      (place : state.consumer = .readBody (cursor tail) seen payload.length got)
      (saw : SeenHead state.producerCapacity.bytes tail (.record payload :: rest) seen)
      (more : got.length + 1 < payload.length) :
      ConsumerMove state tail (.record payload :: rest) { state with
        consumer :=
          .readBody (cursor tail) seen payload.length (payload.take (got.length + 1)) }
  | bodyRead {payload : List UInt8} {rest : List Slot} (seen : UInt64) (got : List UInt8)
      (place : state.consumer = .readBody (cursor tail) seen payload.length got)
      (saw : SeenHead state.producerCapacity.bytes tail (.record payload :: rest) seen) :
      ConsumerMove state tail (.record payload :: rest) { state with
        consumer := .storeTail (cursor tail) seen payload }
  | takeLow {payload : List UInt8} {rest : List Slot} (seen : UInt64)
      (place : state.consumer = .storeTail (cursor tail) seen payload) :
      ConsumerMove state tail (.record payload :: rest) { state with
        object := { state.object with
          tail := cursor (slotEnd state.producerCapacity.bytes tail (.record payload)) }
        consumer := .wakeExchange payload }
  | takeHigh {payload : List UInt8} {rest : List Slot} (seen : UInt64)
      (place : state.consumer = .storeTail (cursor tail) seen payload)
      (saw : SeenHead state.producerCapacity.bytes tail (.record payload :: rest) seen)
      (above : lwBytes state.consumerCapacity ≤
        seen - cursor (slotEnd state.producerCapacity.bytes tail (.record payload))) :
      ConsumerMove state tail (.record payload :: rest) (deliver { state with
        object := { state.object with
          tail := cursor (slotEnd state.producerCapacity.bytes tail (.record payload)) } } payload)
  | flagClear {slots : List Slot} (payload : List UInt8)
      (place : state.consumer = .wakeExchange payload) (clear : state.object.flowFlag = 0) :
      ConsumerMove state tail slots
        (deliver { state with object := { state.object with flowFlag := 0 } } payload)
  | flagSet {slots : List Slot} (payload : List UInt8)
      (place : state.consumer = .wakeExchange payload) :
      ConsumerMove state tail slots { state with
        object := { state.object with flowFlag := 0 }
        consumer := .wakeFutex payload }
  | wake {slots : List Slot} (payload : List UInt8)
      (place : state.consumer = .wakeFutex payload) :
      ConsumerMove state tail slots
        (deliver { state with producer := wakeProducer state.producer } payload)

theorem consumer_step_cases {state next : RingState} {head tail : Nat} {slots : List Slot}
    (inv : RingInv state head tail slots) (stepped : consumerStep state = some next) :
    ConsumerMove state tail slots next := by
  have positive := state.producerCapacity.bytes_positive
  have small := state.producerCapacity.bytes_le
  have own := inv.consumer
  cases place : state.consumer with
  | detached => simp [consumerStep, place] at stepped
  | idle result => simp [consumerStep, place] at stepped
  | loadTail maxSize =>
      simp only [consumerStep, place, inv.tailWord, Option.some.injEq] at stepped
      subst stepped
      exact .loadTail maxSize place
  | loadHead maxSize loaded =>
      rw [place] at own
      have word : loaded = cursor tail := own
      subst word
      simp only [consumerStep, place, Option.some.injEq] at stepped
      subst stepped
      split
      · next same => exact .foundEmpty maxSize place (same.trans inv.tailWord.symm)
      · next different =>
        have apart : tail ≠ head := by
          intro same
          exact different (by rw [inv.headWord, same])
        obtain ⟨slot, rest, front⟩ := parses_nonempty inv.parsed apart
        have saw : SeenHead state.producerCapacity.bytes tail slots state.object.head := by
          refine ⟨slots, [], by simp, by simp [front], ?_⟩
          rw [parses_span inv.parsed, inv.headWord]
        subst front
        exact .foundSlot maxSize place saw
  | readHeader maxSize loaded seen got =>
      rw [place] at own
      obtain ⟨word, saw, bound, slot, rest, front, read⟩ := own
      subst word front
      have header := slot_header_length slot
      have byte := read_next inv got.length (by omega)
      rw [← read] at byte
      simp only [consumerStep, place, byte, Option.some.injEq] at stepped
      rw [List.length_take_of_le (by omega)] at stepped
      subst stepped
      split
      · next more => exact .headerByte maxSize seen got place saw more
      · next complete =>
        have four : got.length + 1 = 4 := by omega
        rw [four, header_value inv.parsed.1.1]
        exact .headerRead maxSize seen got place saw
  | skipPadding maxSize loaded =>
      rw [place] at own
      obtain ⟨word, rest, front⟩ := own
      subst word front
      simp only [consumerStep, place, padding_end_word inv, Option.some.injEq] at stepped
      subst stepped
      exact .skipPadding maxSize place
  | readBody loaded seen len got =>
      rw [place] at own
      obtain ⟨word, saw, bound, payload, rest, front, length, read⟩ := own
      subst word front length
      have byte := read_next inv (4 + got.length) (by
        simp only [Slot.bytes, frame_bytes_length]
        omega)
      have taken := take_payload byte
      rw [← read, ← Nat.add_assoc] at taken
      have header : shmRingMsgHdrSize.toNat = 4 := rfl
      simp only [consumerStep, place, header, taken, Option.some.injEq] at stepped
      rw [List.length_take_of_le (by omega)] at stepped
      subst stepped
      split
      · next more => exact .bodyByte seen got place saw more
      · next complete =>
        rw [List.take_of_length_le (by omega)]
        exact .bodyRead seen got place saw
  | storeTail loaded seen payload =>
      rw [place] at own
      obtain ⟨word, saw, rest, front⟩ := own
      subst word front
      have reached : cursor tail + UInt64.ofNat payload.length + shmRingMsgHdrSize =
          cursor (slotEnd state.producerCapacity.bytes tail (.record payload)) :=
        record_end_word tail payload
      simp only [consumerStep, place, reached, Option.some.injEq] at stepped
      subst stepped
      split
      · exact .takeLow seen place
      · next above => exact .takeHigh seen place saw (UInt64.not_lt.mp above)
  | wakeExchange payload =>
      simp only [consumerStep, place, Option.some.injEq] at stepped
      subst stepped
      split
      · next clear => exact .flagClear payload place clear
      · exact .flagSet payload place
  | wakeFutex payload =>
      simp only [consumerStep, place, Option.some.injEq] at stepped
      subst stepped
      exact .wake payload place

theorem consumer_step_inv {state next : RingState} {head tail : Nat} {slots : List Slot}
    (inv : RingInv state head tail slots) (stepped : consumerStep state = some next) :
    ∃ tail' slots', RingInv next head tail' slots' ∧
      RingEffect state next head tail slots head tail' slots' := by
  cases consumer_step_cases inv stepped with
  | loadTail maxSize place => exact consumer_moves inv _ (by rw [place]; rfl) rfl
  | foundEmpty maxSize place empty => exact consumer_moves inv _ (by rw [place]; rfl) trivial
  | foundSlot maxSize place saw =>
      exact consumer_moves inv _ (by rw [place]; rfl) ⟨rfl, saw, by simp, _, _, rfl, rfl⟩
  | @headerByte slot rest maxSize seen got place saw more =>
      have header := slot_header_length slot
      refine consumer_moves inv _ (by rw [place]; rfl) ⟨rfl, saw, ?_, slot, rest, rfl, ?_⟩
      · rw [List.length_take_of_le (by omega)]
        exact more
      · rw [List.length_take_of_le (by omega)]
  | headerRead maxSize seen got place saw =>
      refine consumer_moves inv _ ?_ (check_length_holds maxSize rfl inv.parsed.1.1 saw)
      rw [place, check_length_in_flight]
      rfl
  | skipPadding maxSize place =>
      refine ⟨_, _, past_slot_inv inv rfl rfl rfl rfl rfl (Or.inl rfl) trivial, ?_⟩
      apply RingEffect.discard
      · rfl
      · simp only [RingState.taken, place, ConsumerPc.inFlight]
      · rfl
      · rfl
  | @bodyByte payload rest seen got place saw more =>
      refine consumer_moves inv _ (by rw [place]; rfl) ⟨rfl, saw, ?_, payload, rest, rfl, rfl, ?_⟩
      · rw [List.length_take_of_le (by omega)]
        exact more
      · rw [List.length_take_of_le (by omega)]
  | bodyRead seen got place saw =>
      exact consumer_moves inv _ (by rw [place]; rfl) ⟨rfl, saw, _, rfl⟩
  | takeLow seen place =>
      refine ⟨_, _, past_slot_inv inv rfl rfl rfl rfl rfl (Or.inl rfl) trivial, ?_⟩
      apply RingEffect.dequeue
      · rfl
      · simp [RingState.taken, place, ConsumerPc.inFlight]
      · rfl
      · rfl
  | takeHigh seen place saw above =>
      refine ⟨_, _, past_slot_inv inv rfl rfl rfl rfl rfl (Or.inl rfl) trivial, ?_⟩
      apply RingEffect.dequeue
      · rfl
      · simp [RingState.taken, place, ConsumerPc.inFlight, deliver]
      · rfl
      · rfl
  | flagClear payload place clear =>
      refine ⟨tail, slots, ⟨inv.capacities, inv.headWord, inv.tailWord, inv.room, inv.parsed,
        inv.closed, inv.short, inv.producer, trivial⟩, ?_⟩
      apply RingEffect.quiet <;> simp [RingState.taken, place, ConsumerPc.inFlight, deliver]
  | flagSet payload place => exact consumer_moves inv _ (by rw [place]; rfl) trivial
  | wake payload place =>
      refine ⟨tail, slots, ⟨inv.capacities, inv.headWord, inv.tailWord, inv.room, inv.parsed,
        inv.closed, ?_, wake_producer_holds inv.producer, trivial⟩, ?_⟩
      · simp only [deliver, wake_producer_candidate]
        exact inv.short
      · apply RingEffect.quiet <;> simp [RingState.taken, place, ConsumerPc.inFlight, deliver]

def ProducerCall.record : ProducerCall → List UInt8
  | .push call => call.record
  | .waitWritable => []
  | .pushScatterBlocking segs => (PushCall.scatter segs).record

/-- The records a call action brings in are below `bound` bytes. -/
def RingAction.recordsBelow (bound : Nat) : RingAction → Bool
  | .callProducer call => decide (call.record.length < bound)
  | _ => true

theorem call_start_holds (capacity : RingCapacity) (data : Memory) (head tail : Nat)
    (call : ProducerCall) : ProducerHolds capacity data head tail (call.start capacity) := by
  cases call with
  | push call => exact start_push_holds capacity data head tail _
  | waitWritable => trivial
  | pushScatterBlocking segs => trivial

theorem call_start_short {capacity : RingCapacity} {call : ProducerCall}
    (short : call.record.length < 2 ^ 32) :
    (call.start capacity).candidate.length < 2 ^ 32 := by
  cases call with
  | push call => exact start_push_short short
  | waitWritable => simp [ProducerCall.start, ProducerPc.candidate, WaitJob.segments,
      PushCall.record]
  | pushScatterBlocking segs => exact short

theorem ring_step_inv {state next : RingState} {action : RingAction} {head tail : Nat}
    {slots : List Slot} (inv : RingInv state head tail slots)
    (short : action.recordsBelow (2 ^ 32) = true)
    (stepped : ringStep state action = some next) :
    ∃ head' tail' slots', RingInv next head' tail' slots' ∧
      RingEffect state next head tail slots head' tail' slots' := by
  have own := inv.producer
  have candidate := inv.short
  cases ring_step_cases stepped with
  | producer next moved =>
      obtain ⟨head', slots', kept, effect⟩ := producer_step_inv inv stepped
      exact ⟨head', tail, slots', kept, effect⟩
  | consumer next stepped =>
      obtain ⟨tail', slots', kept, effect⟩ := consumer_step_inv inv stepped
      exact ⟨head, tail', slots', kept, effect⟩
  | attachProducer place =>
      rw [place] at own
      obtain ⟨head', slots', kept, effect⟩ :=
        producer_moves inv (.initHeader headerInit) rfl rfl rfl (by simp [ProducerPc.candidate]) own
      exact ⟨head', tail, slots', kept, effect⟩
  | attachConsumer place =>
      obtain ⟨tail', slots', kept, effect⟩ :=
        consumer_moves inv (.idle none) (by rw [place]; rfl) trivial
      exact ⟨head, tail', slots', kept, effect⟩
  | callProducer call result place =>
      simp only [RingAction.recordsBelow, decide_eq_true_eq] at short
      obtain ⟨head', slots', kept, effect⟩ :=
        producer_moves inv (call.start state.producerCapacity) rfl rfl rfl
          (call_start_short short) (call_start_holds _ _ _ _ call)
      exact ⟨head', tail, slots', kept, effect⟩
  | flushFlag pending =>
      exact ⟨head, tail, slots, ⟨inv.capacities, inv.headWord, inv.tailWord, inv.room, inv.parsed,
        inv.closed, candidate, own, inv.consumer⟩, .quiet rfl rfl rfl⟩
  | interrupt job place =>
      rw [place] at candidate
      obtain ⟨head', slots', kept, effect⟩ :=
        producer_moves inv (afterWait state.producerCapacity job (.error .eintr)) rfl rfl rfl
          (after_wait_short _ candidate) (after_wait_holds _ _ _ _ _ _)
      exact ⟨head', tail, slots', kept, effect⟩
  | spuriousWake job place =>
      rw [place] at candidate
      obtain ⟨head', slots', kept, effect⟩ :=
        producer_moves inv (.waitHead job) rfl rfl rfl candidate trivial
      exact ⟨head', tail, slots', kept, effect⟩
  | callPop maxSize result place =>
      obtain ⟨tail', slots', kept, effect⟩ :=
        consumer_moves inv (.loadTail maxSize) (by rw [place]; rfl) trivial
      exact ⟨head, tail', slots', kept, effect⟩

theorem fresh_ring_inv (capacity : RingCapacity) (data : Memory) :
    RingInv (freshRing capacity data) 0 0 [] where
  capacities := rfl
  headWord := rfl
  tailWord := rfl
  room := Nat.zero_le _
  parsed := rfl
  closed := trivial
  short := by simp [freshRing, ProducerPc.candidate]
  producer := trivial
  consumer := trivial

end AdaptIpc.Ring

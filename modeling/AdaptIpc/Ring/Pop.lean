import AdaptIpc.Ring.Wedge

/-!
# An undisturbed pop

A pop that no producer step interrupts takes the first record with the padding
in front of it, and wakes the producer exactly when fewer than the
low-watermark bytes are left and the flow flag is set. Repeated pops drain the
ring.
-/

namespace AdaptIpc.Ring

open AdaptIpc.Library.Bytes AdaptIpc.Library.Cursor AdaptIpc.Library.Transition

set_option autoImplicit false

def RingAction.ofConsumer : RingAction → Bool
  | .callPop _ => true
  | .consumer => true
  | _ => false

abbrev consumerRing (capacity : RingCapacity) : Machine RingState RingAction :=
  (ringMachine capacity).guarded fun _ action => action.ofConsumer

def RingAction.ofPop : RingAction → Bool
  | .consumer => true
  | _ => false

abbrev poppingRing (capacity : RingCapacity) : Machine RingState RingAction :=
  (ringMachine capacity).guarded fun _ action => action.ofPop

theorem popping_ring_step (capacity : RingCapacity) (state next : RingState)
    (stepped : consumerStep state = some next) :
    (poppingRing capacity).ReachableFrom state next :=
  Relation.ReflTransGen.single ⟨.consumer, stepped⟩

theorem popping_path {capacity : RingCapacity} {start state : RingState}
    (path : (poppingRing capacity).ReachableFrom start state) :
    (consumerRing capacity).ReachableFrom start state := by
  apply Machine.reachable_from_mono _ path
  intro before action after stepped
  obtain ⟨pops, stepped⟩ := Machine.guarded_step stepped
  cases action with
  | consumer => exact stepped
  | _ => cases pops

theorem header_byte (capacity : RingCapacity) {state : RingState} {head tail : Nat} {slot : Slot}
    {rest : List Slot} (inv : RingInv state head tail (slot :: rest)) (maxSize count : Nat)
    (seen : UInt64) (bound : count < 4) :
    (poppingRing capacity).ReachableFrom
      { state with consumer := .readHeader maxSize (cursor tail) seen (slot.bytes.take count) }
      { state with consumer :=
          if count + 1 < 4 then
            .readHeader maxSize (cursor tail) seen (slot.bytes.take (count + 1))
          else checkLength maxSize (cursor tail) seen slot.lengthWord } := by
  have header := slot_header_length slot
  have before : (slot.bytes.take count).length = count := List.length_take_of_le (by omega)
  have after : (slot.bytes.take (count + 1)).length = count + 1 :=
    List.length_take_of_le (by omega)
  have byte := read_next inv count (by omega)
  apply popping_ring_step
  simp only [consumerStep, before, byte, after]
  by_cases more : count + 1 < 4
  · simp only [more, if_true]
  · have complete : count + 1 = 4 := by omega
    simp only [complete, Nat.lt_irrefl, if_false, header_value inv.parsed.1.1]

/-- From the start of a pop to its decision on the first slot's length word. -/
theorem pop_reads_header (capacity : RingCapacity) {state : RingState} {head tail : Nat}
    {slot : Slot} {rest : List Slot} (inv : RingInv state head tail (slot :: rest))
    (maxSize : Nat) (place : state.consumer = .loadTail maxSize) :
    (poppingRing capacity).ReachableFrom state
      { state with consumer :=
          checkLength maxSize (cursor tail) state.object.head slot.lengthWord } := by
  have positive := state.producerCapacity.bytes_positive
  have small := state.producerCapacity.bytes_le
  have room := inv.room
  have advanced := slot_end_gt tail slot positive
  have remaining := parses_le positive inv.parsed.2
  have nonempty : state.object.head ≠ cursor tail := by
    intro same
    have equal : tail = head := by
      apply cursor_inj_of_near inv.ordered (by omega)
      rw [← same, inv.headWord]
    omega
  have loaded := popping_ring_step capacity state
    { state with consumer := .loadHead maxSize (cursor tail) }
    (by simp [consumerStep, place, inv.tailWord])
  have entered := popping_ring_step capacity
    { state with consumer := .loadHead maxSize (cursor tail) }
    { state with consumer := .readHeader maxSize (cursor tail) state.object.head [] }
    (by simp [consumerStep, nonempty])
  have first := header_byte capacity inv maxSize 0 state.object.head (by omega)
  have second := header_byte capacity inv maxSize 1 state.object.head (by omega)
  have third := header_byte capacity inv maxSize 2 state.object.head (by omega)
  have fourth := header_byte capacity inv maxSize 3 state.object.head (by omega)
  exact ((((loaded.trans entered).trans first).trans second).trans third).trans fourth

theorem pop_reads_body (capacity : RingCapacity) {state : RingState} {head tail : Nat}
    {payload : List UInt8} {rest : List Slot}
    (inv : RingInv state head tail (.record payload :: rest)) (seen : UInt64)
    {count : Nat} (bound : count < payload.length) :
    (poppingRing capacity).ReachableFrom
      { state with
        consumer := .readBody (cursor tail) seen payload.length (payload.take count) }
      { state with consumer := .storeTail (cursor tail) seen payload } := by
  have header : shmRingMsgHdrSize.toNat = 4 := rfl
  have before : (payload.take count).length = count := List.length_take_of_le (by omega)
  have after : (payload.take (count + 1)).length = count + 1 :=
    List.length_take_of_le (by omega)
  have byte := read_next inv (4 + count) (by
    simp only [Slot.bytes, frame_bytes_length]
    omega)
  have copied := take_payload byte
  rw [← Nat.add_assoc] at copied
  have next := popping_ring_step capacity
    { state with
      consumer := .readBody (cursor tail) seen payload.length (payload.take count) } _ rfl
  simp only [header, before, copied, after] at next
  by_cases more : count + 1 < payload.length
  · simp only [more, if_true] at next
    exact next.trans (pop_reads_body capacity inv seen more)
  · have whole : payload.take (count + 1) = payload := List.take_of_length_le (by omega)
    simp only [more, if_false, whole] at next
    exact next
termination_by payload.length - count

/-- What a completed pop has done besides taking its record: with fewer than the
low-watermark bytes left the flow flag is cleared, and a producer asleep behind a
set flag is woken. -/
structure PopOutcome (state next : RingState) : Prop where
  capacity : next.producerCapacity = state.producerCapacity
  idle : ∃ payload, next.consumer = .idle (some (.ok payload))
  pending : next.flagPending = state.flagPending
  above : ¬ next.object.head - next.object.tail < lwBytes state.producerCapacity →
    next.producer = state.producer ∧ next.object.flowFlag = state.object.flowFlag
  below : next.object.head - next.object.tail < lwBytes state.producerCapacity →
    next.producer = (if state.object.flowFlag = 0 then state.producer
      else wakeProducer state.producer) ∧ next.object.flowFlag = 0

theorem pop_takes_record (capacity : RingCapacity) {state : RingState} {head tail : Nat}
    {payload : List UInt8} {rest : List Slot} {maxSize : Nat}
    (inv : RingInv state head tail (.record payload :: rest))
    (place : state.consumer = .loadTail maxSize) (fits : payload.length ≤ maxSize) :
    ∃ next after, (poppingRing capacity).ReachableFrom state next ∧
      RingInv next head after rest ∧ PopOutcome state next ∧
      next.consumer = .idle (some (.ok payload)) := by
  have nonempty : payload ≠ [] := inv.parsed.1.1.1
  have length := List.length_pos_iff.mpr nonempty
  have scanned := pop_reads_header capacity inv maxSize place
  have accepted : checkLength maxSize (cursor tail) state.object.head
      (Slot.record payload).lengthWord =
        .readBody (cursor tail) state.object.head payload.length (payload.take 0) := by
    have marked : payload.length ≠ wrapSentinelLen := Nat.ne_of_gt length
    simp only [checkLength, Slot.lengthWord, marked, if_false, Nat.not_lt.mpr fits,
      List.take_zero]
  rw [accepted] at scanned
  have copied := scanned.trans (pop_reads_body capacity inv state.object.head length)
  have reached : cursor tail + UInt64.ofNat payload.length + shmRingMsgHdrSize =
      cursor (tail + 4 + payload.length) := record_end_word tail payload
  have stored := popping_ring_step capacity
    { state with consumer := .storeTail (cursor tail) state.object.head payload } _ rfl
  have watermark : lwBytes state.consumerCapacity = lwBytes state.producerCapacity := by
    rw [inv.capacities]
  simp only [reached, watermark] at stored
  by_cases below : state.object.head - cursor (tail + 4 + payload.length) <
      lwBytes state.producerCapacity
  · simp only [below, if_true] at stored
    have exchanged := popping_ring_step capacity
      { state with
        object := { state.object with tail := cursor (tail + 4 + payload.length) }
        consumer := .wakeExchange payload } _ rfl
    by_cases clear : state.object.flowFlag = 0
    · dsimp only at exchanged
      rw [if_pos clear] at exchanged
      refine ⟨_, _, (copied.trans stored).trans exchanged, past_slot_inv inv rfl rfl rfl rfl rfl
        (Or.inl rfl) trivial, ⟨rfl, ⟨payload, rfl⟩, rfl, ?_, ?_⟩, rfl⟩
      · intro above
        exact absurd below above
      · intro _
        simp only [deliver, clear, if_true]
        exact ⟨trivial, trivial⟩
    · dsimp only at exchanged
      rw [if_neg clear] at exchanged
      have woken := popping_ring_step capacity
        { state with
          object := { state.object with
            tail := cursor (tail + 4 + payload.length)
            flowFlag := 0 }
          consumer := .wakeFutex payload } _ rfl
      refine ⟨_, _, ((copied.trans stored).trans exchanged).trans woken, past_slot_inv inv rfl rfl
        rfl rfl rfl (Or.inr rfl) trivial, ⟨rfl, ⟨payload, rfl⟩, rfl, ?_, ?_⟩, rfl⟩
      · intro above
        exact absurd below above
      · intro _
        simp only [deliver, clear, if_false]
        exact ⟨trivial, trivial⟩
  · simp only [below, if_false] at stored
    refine ⟨_, _, copied.trans stored, past_slot_inv inv rfl rfl rfl rfl rfl (Or.inl rfl)
      trivial, ⟨rfl, ⟨payload, rfl⟩, rfl, ?_, ?_⟩, rfl⟩
    · intro _
      exact ⟨rfl, rfl⟩
    · intro low
      exact absurd low below

theorem pop_skips_padding (capacity : RingCapacity) {state : RingState} {head tail : Nat}
    {rest : List Slot} {maxSize : Nat} (inv : RingInv state head tail (.padding :: rest))
    (place : state.consumer = .loadTail maxSize) :
    ∃ next after, (poppingRing capacity).ReachableFrom state next ∧
      RingInv next head after rest ∧ next.consumer = .loadTail maxSize ∧
      next.flagPending = state.flagPending ∧ next.producer = state.producer ∧
      next.object.flowFlag = state.object.flowFlag ∧
      next.producerCapacity = state.producerCapacity := by
  have scanned := pop_reads_header capacity inv maxSize place
  have marked : checkLength maxSize (cursor tail) state.object.head Slot.padding.lengthWord =
      .skipPadding maxSize (cursor tail) := rfl
  rw [marked] at scanned
  have skipped := popping_ring_step capacity
    { state with consumer := .skipPadding maxSize (cursor tail) } _ rfl
  have boundary : (cursor tail &&& ~~~(state.consumerCapacity.size - 1)) +
      state.consumerCapacity.size =
        cursor (slotEnd state.producerCapacity.bytes tail .padding) := by
    rw [inv.capacities]
    exact state.producerCapacity.aligned tail
  simp only [boundary] at skipped
  exact ⟨_, _, scanned.trans skipped, past_slot_inv inv rfl rfl rfl rfl rfl (Or.inl rfl) trivial,
    rfl, rfl, rfl, rfl, rfl⟩

/-- Any record fits a buffer of 2^32 bytes. -/
theorem undisturbed_pop (capacity : RingCapacity) {state : RingState} {head tail : Nat}
    {slot : Slot} {rest : List Slot} {result : Option (Except Errno (List UInt8))}
    (inv : RingInv state head tail (slot :: rest)) (idle : state.consumer = .idle result) :
    ∃ next after left, (consumerRing capacity).ReachableFrom state next ∧
      RingInv next head after left ∧ left.length ≤ rest.length ∧ PopOutcome state next := by
  have called : (consumerRing capacity).ReachableFrom state
      { state with consumer := .loadTail (2 ^ 32) } := by
    apply Relation.ReflTransGen.single
    refine ⟨.callPop (2 ^ 32), ?_⟩
    simp [consumerRing, Machine.guarded, RingAction.ofConsumer, ringMachine, ringStep, callPop,
      idle]
  have entered : RingInv { state with consumer := .loadTail (2 ^ 32) } head tail (slot :: rest) :=
    { inv with consumer := trivial }
  cases slot with
  | record payload =>
      have short := inv.parsed.1.1.2.1
      obtain ⟨next, after, path, kept, outcome, _⟩ :=
        pop_takes_record capacity entered rfl (Nat.le_of_lt short)
      exact ⟨next, after, rest, called.trans (popping_path path), kept, Nat.le_refl _, outcome.capacity,
        outcome.idle, outcome.pending, outcome.above, outcome.below⟩
  | padding =>
      obtain ⟨payload, more, follows⟩ := inv.closed.1
      subst follows
      obtain ⟨skipped, middle, firstPath, paired, place, pending, producer, flag, same⟩ :=
        pop_skips_padding capacity entered rfl
      have short := paired.parsed.1.1.2.1
      obtain ⟨next, after, path, kept, outcome, _⟩ :=
        pop_takes_record capacity paired place (Nat.le_of_lt short)
      refine ⟨next, after, more,
        (called.trans (popping_path firstPath)).trans (popping_path path), kept, by simp, ?_⟩
      have above := outcome.above
      have below := outcome.below
      rw [same, producer, flag] at above below
      exact ⟨outcome.capacity.trans same, outcome.idle, outcome.pending.trans pending, above,
        below⟩

/-- Behind a clear flow flag pops drain the ring and never touch the producer. -/
theorem pops_drain (capacity : RingCapacity) {state : RingState} {head tail : Nat}
    {slots : List Slot} {result : Option (Except Errno (List UInt8))}
    (inv : RingInv state head tail slots) (idle : state.consumer = .idle result)
    (clear : state.object.flowFlag = 0) :
    ∃ final, (consumerRing capacity).ReachableFrom state final ∧
      final.object.head = final.object.tail ∧ final.consumer.isIdle = true ∧
      final.producer = state.producer ∧ final.flagPending = state.flagPending ∧
      final.producerCapacity = state.producerCapacity := by
  induction measure : slots.length using Nat.strong_induction_on generalizing state tail slots result
    with
  | h length ih =>
      cases slots with
      | nil =>
          have empty : tail = head := inv.parsed
          refine ⟨state, Relation.ReflTransGen.refl, ?_, by rw [idle]; rfl, rfl, rfl, rfl⟩
          rw [inv.headWord, inv.tailWord, empty]
      | cons slot rest =>
          obtain ⟨next, after, left, path, kept, shorter, outcome⟩ :=
            undisturbed_pop capacity inv idle
          obtain ⟨payload, returned⟩ := outcome.idle
          have untouched : next.producer = state.producer ∧ next.object.flowFlag = 0 := by
            by_cases low : next.object.head - next.object.tail < lwBytes state.producerCapacity
            · have woke := outcome.below low
              rw [if_pos clear] at woke
              exact woke
            · have passed := outcome.above low
              rw [clear] at passed
              exact passed
          simp only [List.length_cons] at measure
          obtain ⟨final, rest, empty, idle, producer, pending, same⟩ :=
            ih left.length (by omega) kept returned untouched.2 rfl
          exact ⟨final, path.trans rest, empty, idle, producer.trans untouched.1,
            pending.trans outcome.pending, same.trans outcome.capacity⟩

/-- A producer asleep behind a set flag is woken by pops alone as long as the ring
holds the low-watermark number of bytes. -/
theorem pops_wake (capacity : RingCapacity) {state : RingState} {head tail : Nat}
    {slots : List Slot} {result : Option (Except Errno (List UInt8))} {job : WaitJob}
    (inv : RingInv state head tail slots) (idle : state.consumer = .idle result)
    (asleep : state.producer = .asleep job) (armed : state.object.flowFlag ≠ 0)
    (positive : 0 < lwBytes state.producerCapacity)
    (held : lwBytes state.producerCapacity ≤ state.object.head - state.object.tail) :
    ∃ final, (consumerRing capacity).ReachableFrom state final ∧
      final.producer = .waitHead job := by
  induction measure : slots.length using Nat.strong_induction_on generalizing state tail slots result
    with
  | h length ih =>
      cases slots with
      | nil =>
          have empty : tail = head := inv.parsed
          rw [inv.headWord, inv.tailWord, empty, UInt64.sub_self] at held
          exact absurd (UInt64.lt_of_lt_of_le positive held) (UInt64.lt_irrefl _)
      | cons slot rest =>
          obtain ⟨next, after, left, path, kept, shorter, outcome⟩ :=
            undisturbed_pop capacity inv idle
          obtain ⟨payload, returned⟩ := outcome.idle
          by_cases low : next.object.head - next.object.tail < lwBytes state.producerCapacity
          · have woke := (outcome.below low).1
            rw [if_neg armed, asleep] at woke
            exact ⟨next, path, woke⟩
          · obtain ⟨producer, flag⟩ := outcome.above low
            simp only [List.length_cons] at measure
            obtain ⟨final, rest, woken⟩ :=
              ih left.length (by omega) kept returned (producer.trans asleep) (by rwa [flag])
                (by rwa [outcome.capacity]) (by rwa [outcome.capacity, ← UInt64.not_lt]) rfl
            exact ⟨final, path.trans rest, woken⟩

end AdaptIpc.Ring

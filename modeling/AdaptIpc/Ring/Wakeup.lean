import AdaptIpc.Ring.Pop

/-!
# The watermark wake-up

The producer arms the flow flag, re-checks the tail and sleeps; the consumer
stores the tail and exchanges the flag. When the arming store is visible before
the re-check loads the tail, and no pop gives up behind skipped padding, a
sleeping producer always has the low-watermark number of bytes in front of the
consumer and further pops wake it. The release store alone does not order the
re-check behind it: a producer can then fall asleep on an empty ring.
-/

namespace AdaptIpc.Ring

open AdaptIpc.Library.Bytes AdaptIpc.Library.Cursor AdaptIpc.Library.Transition

set_option autoImplicit false

theorem lw_toNat {capacity : RingCapacity} (fits : capacity.bytes ≤ 2 ^ 57) :
    (lwBytes capacity).toNat = capacity.bytes * 20 / 100 := by
  have factor : shmLwPct.toNat = 20 := rfl
  have whole : (100 : UInt64).toNat = 100 := rfl
  rw [lwBytes, UInt64.toNat_div, UInt64.toNat_mul, capacity.size_toNat, factor, whole,
    Nat.mod_eq_of_lt (by omega)]

theorem hw_toNat {capacity : RingCapacity} (fits : capacity.bytes ≤ 2 ^ 57) :
    (hwBytes capacity).toNat = capacity.bytes * 80 / 100 := by
  have factor : shmHwPct.toNat = 80 := rfl
  have whole : (100 : UInt64).toNat = 100 := rfl
  rw [hwBytes, UInt64.toNat_div, UInt64.toNat_mul, capacity.size_toNat, factor, whole,
    Nat.mod_eq_of_lt (by omega)]

theorem lw_positive {capacity : RingCapacity} (fits : capacity.bytes ≤ 2 ^ 57) :
    0 < lwBytes capacity := by
  have page := capacity.bytes_page
  have low := lw_toNat fits
  rw [UInt64.lt_iff_toNat_lt, low]
  change 0 < _
  omega

theorem lw_le_hw {capacity : RingCapacity} (fits : capacity.bytes ≤ 2 ^ 57) :
    lwBytes capacity ≤ hwBytes capacity := by
  rw [UInt64.le_iff_toNat_le, lw_toNat fits, hw_toNat fits]
  omega

/-- The re-check loads the tail with the flag store visible, and padding is skipped
only by a pop that takes the record behind it or leaves the low watermark. -/
def wakefulStep (state : RingState) : RingAction → Bool
  | .producer =>
      match state.producer with
      | .waitRecheck _ _ => !state.flagPending
      | _ => true
  | .consumer =>
      match state.consumer with
      | .skipPadding maxSize tail =>
          decide (leValue (readBytes state.object.data 0 4) ≤ maxSize) ||
            decide (lwBytes state.consumerCapacity ≤ state.object.head -
              ((tail &&& ~~~(state.consumerCapacity.size - 1)) + state.consumerCapacity.size))
      | _ => true
  | _ => true

/-- The ring machine under the condition, with records whose length fits the
header word. -/
def wakefulRing (capacity : RingCapacity) : Machine RingState RingAction :=
  (ringMachine capacity).guarded fun state action =>
    action.recordsBelow (2 ^ 32) && wakefulStep state action

/-- The producer has passed its re-check. -/
def ProducerPc.parked : ProducerPc → Prop
  | .waitPark _ => True
  | .waitEnter _ => True
  | .asleep _ => True
  | _ => False

def frontLength (capacity : RingCapacity) (data : Memory) (tail : UInt64) : Nat :=
  leValue (readBytes data (tail &&& (capacity.size - 1)).toNat 4)

/-- A record of at most `maxSize` bytes is in front of the consumer. -/
structure FrontFits (capacity : RingCapacity) (data : Memory) (head tail : UInt64)
    (maxSize : Nat) : Prop where
  nonempty : head ≠ tail
  record : frontLength capacity data tail ≠ wrapSentinelLen
  fits : frontLength capacity data tail ≤ maxSize

/-- The running pop reaches the low-watermark test, or is past it with a wake to make. -/
def WillTest (capacity : RingCapacity) (data : Memory) (head tail : UInt64) :
    ConsumerPc → Prop
  | .loadTail maxSize => FrontFits capacity data head tail maxSize
  | .loadHead maxSize _ => FrontFits capacity data head tail maxSize
  | .readHeader maxSize _ _ _ => FrontFits capacity data head tail maxSize
  | .readBody _ _ _ _ => True
  | .storeTail _ _ _ => True
  | .wakeExchange _ => True
  | _ => False

/-- Behind the visible flag there are low-watermark bytes or a pop that will test
for them; a sleeper whose flag is gone is about to be woken. -/
structure Watched (state : RingState) : Prop where
  visible : state.flagPending = false
  served : state.object.flowFlag = 1 →
    lwBytes state.producerCapacity ≤ state.object.head - state.object.tail ∨
      WillTest state.consumerCapacity state.object.data state.object.head state.object.tail
        state.consumer
  armed : ∀ job, state.producer = .asleep job →
    state.object.flowFlag = 1 ∨ ∃ payload, state.consumer = .wakeFutex payload

theorem front_length {state : RingState} {head tail : Nat} {slot : Slot} {rest : List Slot}
    (inv : RingInv state head tail (slot :: rest)) :
    frontLength state.consumerCapacity state.object.data state.object.tail =
      slot.lengthWord := by
  have positive := state.producerCapacity.bytes_positive
  have small := state.producerCapacity.bytes_le
  have remainder := Nat.mod_lt tail positive
  have header := slot_header_length slot
  have stored := inv.parsed.1.2
  rw [show slot.bytes.length = 4 + (slot.bytes.length - 4) by omega, read_bytes_add] at stored
  have word : readBytes state.object.data (tail % state.producerCapacity.bytes) 4 =
      slot.bytes.take 4 := by
    rw [← stored, List.take_left' (read_bytes_length _ _ _)]
  rw [frontLength, inv.tailWord, inv.capacities, state.producerCapacity.masked,
    cursor_toNat _ (by omega), word, header_value inv.parsed.1.1]

theorem after_push_not_parked (job : PushJob) (rc : Status) : ¬(afterPush job rc).parked := by
  intro parked
  unfold afterPush at parked
  split at parked
  · cases parked
  · split at parked <;> cases parked

theorem start_push_not_parked (capacity : RingCapacity) (job : PushJob) :
    ¬(startPush capacity job).parked := by
  intro parked
  unfold startPush at parked
  split at parked
  · exact after_push_not_parked _ _ parked
  · cases parked

theorem after_wait_not_parked (capacity : RingCapacity) (job : WaitJob) (rc : Status) :
    ¬(afterWait capacity job rc).parked := by
  intro parked
  unfold afterWait at parked
  split at parked
  · cases parked
  · split at parked
    · cases parked
    · exact start_push_not_parked _ _ parked
  · split at parked
    · cases parked
    · exact start_push_not_parked _ _ parked

theorem check_space_not_parked (state : RingState) (job : PushJob) (need head tail : UInt64) :
    ¬(checkSpace state job need head tail).parked := by
  intro parked
  unfold checkSpace at parked
  split at parked
  · exact after_push_not_parked _ _ parked
  · cases parked

/-- The only way past the re-check leaves the high watermark in front of the consumer. -/
theorem producer_watched {state next : RingState} {head tail : Nat} {slots : List Slot}
    (fits : state.producerCapacity.bytes ≤ 2 ^ 57) (inv : RingInv state head tail slots)
    (watched : state.producer.parked → Watched state)
    (wakeful : wakefulStep state .producer = true)
    (stepped : producerStep state = some next) : next.producer.parked → Watched next := by
  intro parked
  have own := inv.producer
  cases producer_step_cases stepped with
  | stillCongested job loaded place above =>
      simp only [wakefulStep, place, Bool.not_eq_true'] at wakeful
      rw [place] at own
      constructor
      · exact wakeful
      · intro _
        left
        have held : hwBytes state.producerCapacity ≤ loaded - state.object.tail :=
          UInt64.not_lt.mp above
        rw [own, ← inv.headWord] at held
        exact UInt64.le_trans (lw_le_hw fits) held
      · intro sleeper asleep
        cases asleep
  | park job place =>
      have before := watched (by rw [place]; trivial)
      exact ⟨before.visible, before.served, fun sleeper asleep => by cases asleep⟩
  | sleep job place armed =>
      have before := watched (by rw [place]; trivial)
      have flag : state.object.flowFlag = 1 := by simpa [before.visible] using armed
      exact ⟨rfl, fun _ => before.served flag, fun _ _ => Or.inl rfl⟩
  | loadTail job need loaded place => exact absurd parked (check_space_not_parked _ _ _ _ _)
  | publish job newHead place => exact absurd parked (after_push_not_parked _ _)
  | writable job loaded place below => exact absurd parked (after_wait_not_parked _ _ _)
  | disarm job place => exact absurd parked (after_wait_not_parked _ _ _)
  | _ => cases parked

theorem stale_head_bounds {state : RingState} {head tail : Nat} {payload : List UInt8}
    {rest : List Slot} {seen : UInt64}
    (inv : RingInv state head tail (.record payload :: rest))
    (saw : SeenHead state.producerCapacity.bytes tail (.record payload :: rest) seen)
    (held : lwBytes state.producerCapacity ≤ seen - cursor (tail + 4 + payload.length)) :
    lwBytes state.producerCapacity ≤
      state.object.head - cursor (tail + 4 + payload.length) := by
  have positive := state.producerCapacity.bytes_positive
  have small := state.producerCapacity.bytes_le
  have room := inv.room
  obtain ⟨first, second, split, nonempty, word⟩ := saw
  have span := parses_span inv.parsed
  rw [split, span_end_append] at span
  have beyond := span_end_ge (spanEnd state.producerCapacity.bytes tail first) second positive
  have passed : tail + 4 + payload.length ≤ spanEnd state.producerCapacity.bytes tail first := by
    cases first with
    | nil => exact absurd rfl nonempty
    | cons slot more =>
        cases split
        exact span_end_ge _ more positive
  rw [word, cursor_sub _ _ passed, UInt64.le_iff_toNat_le, cursor_toNat _ (by omega)] at held
  rw [inv.headWord, cursor_sub _ _ (by omega), UInt64.le_iff_toNat_le, cursor_toNat _ (by omega)]
  omega

theorem watched_moves {state : RingState} (pc : ConsumerPc) (watched : Watched state)
    (awake : ∀ payload, state.consumer ≠ .wakeFutex payload)
    (tests : WillTest state.consumerCapacity state.object.data state.object.head
      state.object.tail state.consumer →
        WillTest state.consumerCapacity state.object.data state.object.head
          state.object.tail pc) :
    Watched { state with consumer := pc } := by
  constructor
  · exact watched.visible
  · intro flag
    exact Or.imp_right tests (watched.served flag)
  · intro job asleep
    rcases watched.armed job asleep with flag | ⟨payload, waking⟩
    · exact Or.inl flag
    · exact absurd waking (awake payload)

theorem check_length_tests {capacity : RingCapacity} {data : Memory} {head tail : UInt64}
    {maxSize : Nat} (loaded seen : UInt64) (fits : FrontFits capacity data head tail maxSize) :
    WillTest capacity data head tail
      (checkLength maxSize loaded seen (frontLength capacity data tail)) := by
  obtain ⟨_, record, bound⟩ := fits
  simp only [checkLength, record, if_false, Nat.not_lt.mpr bound]
  trivial

/-- Behind padding stands a record, at the start of the buffer. -/
theorem padding_front_fits {state : RingState} {head tail maxSize : Nat} {rest : List Slot}
    (inv : RingInv state head tail (.padding :: rest))
    (fits : leValue (readBytes state.object.data 0 4) ≤ maxSize) :
    FrontFits state.consumerCapacity state.object.data state.object.head
      (cursor (slotEnd state.producerCapacity.bytes tail .padding)) maxSize := by
  have positive := state.producerCapacity.bytes_positive
  have small := state.producerCapacity.bytes_le
  have room := inv.room
  obtain ⟨payload, more, follows⟩ := inv.closed.1
  subst follows
  let skipped : RingState := { state with
    object := { state.object with
      tail := cursor (slotEnd state.producerCapacity.bytes tail .padding) }
    consumer := .idle none }
  have kept : RingInv skipped head (slotEnd state.producerCapacity.bytes tail .padding)
      (.record payload :: more) :=
    past_slot_inv inv rfl rfl rfl rfl rfl (Or.inl rfl) trivial
  have word := front_length kept
  have start : frontLength state.consumerCapacity state.object.data
      (cursor (slotEnd state.producerCapacity.bytes tail .padding)) =
        leValue (readBytes state.object.data 0 4) := by
    rw [frontLength, inv.capacities, state.producerCapacity.masked]
    simp only [slotEnd, boundary_mod]
    rfl
  constructor
  · intro same
    have advanced := slot_end_gt tail Slot.padding positive
    have beyond := slot_end_gt (slotEnd state.producerCapacity.bytes tail .padding)
      (Slot.record payload) positive
    have remaining : slotEnd state.producerCapacity.bytes
        (slotEnd state.producerCapacity.bytes tail .padding) (.record payload) ≤ head :=
      parses_le positive kept.parsed.2
    have equal : slotEnd state.producerCapacity.bytes tail .padding = head := by
      apply cursor_inj_of_near (by omega) (by omega)
      rw [← same, inv.headWord]
    omega
  · have nonempty := kept.parsed.1.1.1
    change frontLength state.consumerCapacity state.object.data
      (cursor (slotEnd state.producerCapacity.bytes tail .padding)) = payload.length at word
    rw [word]
    intro zero
    exact nonempty (List.length_eq_zero_iff.mp zero)
  · rwa [start]

theorem parked_wake {pc : ProducerPc} (parked : (wakeProducer pc).parked) :
    pc.parked ∧ ∀ job, wakeProducer pc ≠ .asleep job := by
  cases pc with
  | waitPark job => exact ⟨trivial, fun _ asleep => by cases asleep⟩
  | waitEnter job => exact ⟨trivial, fun _ asleep => by cases asleep⟩
  | _ => cases parked

theorem consumer_watched {state next : RingState} {head tail : Nat} {slots : List Slot}
    (inv : RingInv state head tail slots) (watched : state.producer.parked → Watched state)
    (wakeful : wakefulStep state .consumer = true)
    (stepped : consumerStep state = some next) : next.producer.parked → Watched next := by
  intro parked
  cases consumer_step_cases inv stepped with
  | loadTail maxSize place =>
      apply watched_moves _ (watched parked)
      · simp [place]
      · rw [place]
        exact id
  | foundEmpty maxSize place empty =>
      apply watched_moves _ (watched parked)
      · simp [place]
      · rw [place]
        intro tests
        exact absurd empty tests.nonempty
  | foundSlot maxSize place saw =>
      apply watched_moves _ (watched parked)
      · simp [place]
      · rw [place]
        exact id
  | headerByte maxSize seen got place saw more =>
      apply watched_moves _ (watched parked)
      · simp [place]
      · rw [place]
        exact id
  | headerRead maxSize seen got place saw =>
      apply watched_moves _ (watched parked)
      · simp [place]
      · rw [place]
        intro tests
        rw [← front_length inv]
        exact check_length_tests _ _ tests
  | skipPadding maxSize place =>
      simp only [wakefulStep, place, padding_end_word inv, Bool.or_eq_true,
        decide_eq_true_eq] at wakeful
      obtain ⟨visible, _, armed⟩ := watched parked
      constructor
      · exact visible
      · intro _
        rcases wakeful with fits | held
        · have front := padding_front_fits inv fits
          exact Or.inr front
        · left
          rw [inv.capacities] at held
          exact held
      · intro job asleep
        left
        simpa [place] using armed job asleep
  | bodyByte seen got place saw more =>
      apply watched_moves _ (watched parked)
      · simp [place]
      · exact fun _ => trivial
  | bodyRead seen got place saw =>
      apply watched_moves _ (watched parked)
      · simp [place]
      · exact fun _ => trivial
  | takeLow seen place =>
      have before := watched parked
      refine ⟨before.visible, fun _ => Or.inr trivial, fun job asleep => Or.inl ?_⟩
      simpa [place] using before.armed job asleep
  | takeHigh seen place saw above =>
      have before := watched parked
      refine ⟨before.visible, fun _ => Or.inl ?_, fun job asleep => Or.inl ?_⟩
      · rw [inv.capacities] at above
        have held := stale_head_bounds inv saw above
        exact held
      · simpa [place, deliver] using before.armed job asleep
  | flagClear payload place clear =>
      refine ⟨(watched parked).visible, fun flag => absurd flag (by simp [deliver]), ?_⟩
      intro job asleep
      have armed := (watched parked).armed job asleep
      simp [place, clear] at armed
  | flagSet payload place =>
      exact ⟨(watched parked).visible, fun flag => absurd flag (by simp),
        fun job asleep => Or.inr ⟨payload, rfl⟩⟩
  | wake payload place =>
      dsimp only [deliver] at parked
      have still := parked_wake parked
      obtain ⟨visible, served, _⟩ := watched still.1
      refine ⟨visible, ?_, fun job asleep => absurd asleep (still.2 job)⟩
      intro flag
      rcases served flag with held | tests
      · exact Or.inl held
      · rw [place] at tests
        cases tests

theorem watched_step {state next : RingState} {action : RingAction} {head tail : Nat}
    {slots : List Slot} (fits : state.producerCapacity.bytes ≤ 2 ^ 57)
    (inv : RingInv state head tail slots) (watched : state.producer.parked → Watched state)
    (wakeful : wakefulStep state action = true) (stepped : ringStep state action = some next) :
    next.producer.parked → Watched next := by
  intro parked
  cases ring_step_cases stepped with
  | producer next moved => exact producer_watched fits inv watched wakeful stepped parked
  | consumer next stepped => exact consumer_watched inv watched wakeful stepped parked
  | callPop maxSize result place =>
      apply watched_moves _ (watched parked)
      · simp [place]
      · rw [place]
        exact False.elim
  | attachConsumer place =>
      apply watched_moves _ (watched parked)
      · simp [place]
      · rw [place]
        exact False.elim
  | flushFlag pending =>
      have visible := (watched parked).visible
      rw [pending] at visible
      cases visible
  | attachProducer place => cases parked
  | callProducer call result place =>
      cases call with
      | push call => exact absurd parked (start_push_not_parked _ _)
      | waitWritable => cases parked
      | pushScatterBlocking segs => cases parked
  | interrupt job place => exact absurd parked (after_wait_not_parked _ _ _)
  | spuriousWake job place => cases parked

/-- Every state of a run under the condition keeps the ring invariant and serves
the parked producer. -/
theorem wakeful_reachable {capacity : RingCapacity} {state : RingState}
    (fits : capacity.bytes ≤ 2 ^ 57) (reached : (wakefulRing capacity).Reachable state) :
    state.producerCapacity = capacity ∧ (∃ head tail slots, RingInv state head tail slots) ∧
      (state.producer.parked → Watched state) := by
  apply Machine.invariant_of_reachable (wakefulRing capacity)
    (fun state => state.producerCapacity = capacity ∧
      (∃ head tail slots, RingInv state head tail slots) ∧
        (state.producer.parked → Watched state)) _ _ reached
  · rintro start ⟨data, rfl⟩
    exact ⟨rfl, ⟨0, 0, [], fresh_ring_inv capacity data⟩, fun parked => by cases parked⟩
  · intro before action after held stepped
    obtain ⟨same, ⟨head, tail, slots, inv⟩, watched⟩ := held
    obtain ⟨allowed, stepped⟩ := Machine.guarded_step stepped
    rw [Bool.and_eq_true] at allowed
    obtain ⟨head', tail', slots', kept, _⟩ := ring_step_inv inv allowed.1 stepped
    have below : before.producerCapacity.bytes ≤ 2 ^ 57 := by rwa [same]
    exact ⟨(same_capacity_step stepped).1.trans same, ⟨head', tail', slots', kept⟩,
      watched_step below inv watched allowed.2 stepped⟩

theorem push_path_wakeful {capacity : RingCapacity} {start state : RingState}
    (path : (pushRing capacity).ReachableFrom start state) :
    (wakefulRing capacity).ReachableFrom start state := by
  apply Machine.reachable_from_mono _ path
  intro before action after stepped
  obtain ⟨allowed, stepped⟩ := Machine.guarded_step stepped
  rw [Bool.and_eq_true] at allowed
  obtain ⟨producer, pushing⟩ := allowed
  cases action with
  | producer =>
      have wakeful : wakefulStep before .producer = true := by
        cases place : before.producer <;> simp_all [wakefulStep, ProducerPc.pushing]
      simp only [wakefulRing, Machine.guarded, RingAction.recordsBelow, wakeful, Bool.and_self,
        if_true]
      exact stepped
  | _ => cases producer

/-- One record of 3272 bytes takes a fresh 4096-byte ring to its high watermark. -/
theorem page_at_high_watermark :
    ∃ state, (wakefulRing page).Reachable state ∧ state.producer = .idle (some (.ok ())) ∧
      state.consumer = .idle none ∧ state.flagPending = false ∧ state.object.flowFlag = 0 ∧
      state.object.head - state.object.tail = hwBytes page := by
  let call := PushCall.push (some (List.replicate 3272 0))
  let start := freshRing page fun _ => 255
  have need : call.need page = .ok 3276 := by
    simp only [call, PushCall.need, shmRingPushNeed, List.length_replicate]
    decide
  have started : (wakefulRing page).step start (.callProducer (.push call)) =
      some { start with producer := .loadHead (.direct call) 3276 } := by
    have below : (RingAction.callProducer (.push call)).recordsBelow (2 ^ 32) = true := by
      simp only [RingAction.recordsBelow, ProducerCall.record, call, PushCall.record,
        Option.getD_some, List.length_replicate]
      decide
    have entry : startPush page (.direct call) = .loadHead (.direct call) 3276 := by
      simp only [startPush, PushJob.call, need]
    simp only [wakefulRing, Machine.guarded, below, wakefulStep, Bool.and_self, if_true,
      ringMachine, ringStep, callProducer, start, freshRing, ProducerCall.start, entry]
  have reserved : reserve page 0 0 3276 =
      .ok { pos := 0, contiguous := 4096, wrap := false, required := 3276 } := by decide
  obtain ⟨state, path, returned, object, consumer, pending⟩ := undisturbed_push page
    { start with producer := .loadHead (.direct call) 3276 } rfl need reserved
  have first : (wakefulRing page).Reachable start := Machine.reachable_initial ⟨_, rfl⟩
  have reached := Machine.reachable_path (Machine.reachable_step first started)
    (push_path_wakeful path)
  have words : state.object.head = 3276 ∧ state.object.tail = 0 ∧ state.object.flowFlag = 0 := by
    have ran : runPush page call start.object = (.ok (), { start.object with
        data := applyStores start.object.data
          (call.plan page 0 3276
            { pos := 0, contiguous := 4096, wrap := false, required := 3276 }).1
        head := 0 + 3276 }) := by
      simp only [runPush, need, start, freshRing, freshObject, reserved]
      rfl
    change state.object = (runPush page call start.object).2 at object
    rw [object, ran]
    exact ⟨rfl, rfl, rfl⟩
  refine ⟨state, reached, returned, consumer, pending, words.2.2, ?_⟩
  rw [words.1, words.2.1]
  decide

/-- Between pops a sleeping producer has the low-watermark number of bytes in front
of the consumer, and pops alone wake it. -/
theorem asleep_holds_low_watermark {capacity : RingCapacity} {state : RingState} {job : WaitJob}
    {result : Option (Except Errno (List UInt8))} (fits : capacity.bytes ≤ 2 ^ 57)
    (reached : (wakefulRing capacity).Reachable state) (asleep : state.producer = .asleep job)
    (between : state.consumer = .idle result) :
    lwBytes capacity ≤ state.object.head - state.object.tail ∧
      state.object.head ≠ state.object.tail ∧
      ∃ final, (consumerRing capacity).ReachableFrom state final ∧
        final.producer = .waitHead job := by
  obtain ⟨same, ⟨head, tail, slots, inv⟩, watched⟩ := wakeful_reachable fits reached
  obtain ⟨visible, served, armed⟩ := watched (by rw [asleep]; trivial)
  have flag : state.object.flowFlag = 1 := by simpa [between] using armed job asleep
  have held : lwBytes capacity ≤ state.object.head - state.object.tail := by
    rw [← same]
    simpa [between, WillTest] using served flag
  have positive := lw_positive fits
  refine ⟨held, ?_, ?_⟩
  · intro empty
    rw [empty, UInt64.sub_self] at held
    exact UInt64.lt_irrefl _ (UInt64.lt_of_lt_of_le positive held)
  · apply pops_wake capacity inv between asleep
    · rw [flag]
      decide
    · rwa [same]
    · rwa [same]

def orderedWait : List RingAction :=
  [.callProducer .waitWritable, .producer, .producer, .producer, .flushFlag, .producer,
    .producer, .producer]

theorem asleep_holds_low_watermark_page :
    ∃ state, (wakefulRing page).Reachable state ∧ state.producer = .asleep .direct ∧
      lwBytes page ≤ state.object.head - state.object.tail ∧
      state.object.head ≠ state.object.tail ∧
      ∃ final, (consumerRing page).ReachableFrom state final ∧
        final.producer = .waitHead .direct := by
  obtain ⟨loaded, reached, idle, pausing, pending, clear, full⟩ := page_at_high_watermark
  obtain ⟨same, _, _⟩ := wakeful_reachable (by decide) reached
  have slept : (wakefulRing page).run loaded orderedWait = some { loaded with
      object := { loaded.object with parks := loaded.object.parks + 1, flowFlag := 1 }
      producer := .asleep .direct
      flagPending := false } := by
    simp [orderedWait, Machine.run, wakefulRing, Machine.guarded, wakefulStep,
      RingAction.recordsBelow, ProducerCall.record, ringMachine, ringStep, callProducer, idle,
      pending, ProducerCall.start, producerStep, flushFlag, full, same]
  have final := Machine.reachable_path reached (Machine.reachable_from_run slept)
  obtain ⟨held, nonempty, woken⟩ :=
    asleep_holds_low_watermark (by decide) final rfl pausing
  exact ⟨_, final, rfl, held, nonempty, woken⟩

theorem wait_up_to_park (capacity : RingCapacity) {state : RingState} {result : Option Status}
    (idle : state.producer = .idle result)
    (full : hwBytes state.producerCapacity ≤ state.object.head - state.object.tail) :
    (ringMachine capacity).run state
        (.callProducer .waitWritable :: List.replicate 4 .producer) =
      some { state with producer := .waitPark .direct, flagPending := true } := by
  have above : ¬ state.object.head - state.object.tail < hwBytes state.producerCapacity :=
    UInt64.not_lt.mpr full
  simp [Machine.run, ringMachine, ringStep, callProducer, idle, ProducerCall.start, producerStep,
    above, List.replicate]

/-- While the arming store is pending the consumer can drain the ring without a
wake; the producer then goes to sleep in front of an empty ring. -/
theorem late_flag_sleeps_on_empty {capacity : RingCapacity} {state : RingState} {head tail : Nat}
    {slots : List Slot} {result : Option Status} {between : Option (Except Errno (List UInt8))}
    (inv : RingInv state head tail slots) (reached : (ringMachine capacity).Reachable state)
    (idle : state.producer = .idle result) (pausing : state.consumer = .idle between)
    (clear : state.object.flowFlag = 0)
    (full : hwBytes state.producerCapacity ≤ state.object.head - state.object.tail) :
    ∃ final, (ringMachine capacity).Reachable final ∧ final.producer = .asleep .direct ∧
      final.consumer.isIdle = true ∧ final.object.head = final.object.tail := by
  have parked := Machine.reachable_from_run (wait_up_to_park capacity idle full)
  have kept : RingInv { state with producer := .waitPark .direct, flagPending := true }
      head tail slots :=
    { inv with short := by simp [ProducerPc.candidate, WaitJob.segments, PushCall.record]
               producer := trivial }
  obtain ⟨drained, path, empty, paused, producer, pending, _⟩ :=
    pops_drain capacity kept pausing clear
  have popped : (ringMachine capacity).ReachableFrom
      { state with producer := .waitPark .direct, flagPending := true } drained :=
    Machine.reachable_from_mono (fun _ _ _ stepped => (Machine.guarded_step stepped).2) path
  have slept : (ringMachine capacity).run drained [.producer, .producer] = some { drained with
      object := { drained.object with parks := drained.object.parks + 1, flowFlag := 1 }
      producer := .asleep .direct
      flagPending := false } := by
    simp [Machine.run, ringMachine, ringStep, producerStep, producer, pending]
  have entered := Machine.reachable_from_run slept
  exact ⟨_, Machine.reachable_path reached ((parked.trans popped).trans entered), rfl, paused,
    empty⟩

/-- A 4096-byte ring filled to the high watermark: the producer sleeps on it empty. -/
theorem sleeping_on_empty_page :
    ∃ state, (ringMachine page).Reachable state ∧ state.producer = .asleep .direct ∧
      state.consumer.isIdle = true ∧ state.object.head = state.object.tail ∧
      ¬ lwBytes page ≤ state.object.head - state.object.tail := by
  obtain ⟨loaded, reached, idle, pausing, _, clear, full⟩ := page_at_high_watermark
  obtain ⟨same, ⟨head, tail, slots, inv⟩, _⟩ := wakeful_reachable (by decide) reached
  obtain ⟨state, final, asleep, paused, empty⟩ :=
    late_flag_sleeps_on_empty inv (Machine.reachable_of_guarded reached) idle pausing clear
      (by
        rw [same, full]
        exact UInt64.le_refl _)
  refine ⟨state, final, asleep, paused, empty, ?_⟩
  rw [empty, UInt64.sub_self]
  decide

end AdaptIpc.Ring

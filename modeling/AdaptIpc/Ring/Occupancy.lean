import AdaptIpc.Ring.Call

/-!
# Readings of the occupancy

`shm_ring_used_bytes` and `shm_ring_free_bytes` load head and tail one after the
other. `adapt_shm_capacity` adds one of each, and no order of the two calls is
fixed by the language. The producer's program makes them, so the head stands still
between the loads; a pop may store the tail in between, and the sum is then off by
what it has taken.
-/

namespace AdaptIpc.Ring

open AdaptIpc.Library.Cursor AdaptIpc.Library.Transition

set_option autoImplicit false

def shmRingUsedBytes (head tail : UInt64) : UInt64 := head - tail

def shmRingFreeBytes (capacity head tail : UInt64) : UInt64 :=
  capacity - shmRingUsedBytes head tail

theorem used_bytes_iff (head tail later : UInt64) :
    shmRingUsedBytes head tail = head - later ↔ later = tail := by
  rw [shmRingUsedBytes]
  constructor
  · intro same
    grind
  · intro same
    rw [same]

inductive CallOrder where
  | usedFirst
  | freeFirst
  deriving DecidableEq

/-- The sum of the two calls, of which the first has found `first` bytes in use and the
second loads `head` and `tail`. -/
def capacitySum (capacity first head tail : UInt64) : CallOrder → UInt64
  | .usedFirst => first + shmRingFreeBytes capacity head tail
  | .freeFirst => capacity - first + shmRingUsedBytes head tail

theorem capacity_sum_iff (capacity first head tail : UInt64) (order : CallOrder) :
    capacitySum capacity first head tail order = capacity ↔ first = head - tail := by
  cases order with
  | usedFirst =>
      simp only [capacitySum, shmRingFreeBytes, shmRingUsedBytes]
      constructor
      · intro whole
        grind
      · rintro rfl
        grind
  | freeFirst =>
      simp only [capacitySum, shmRingUsedBytes]
      constructor
      · intro whole
        grind
      · rintro rfl
        grind

inductive ReadingPc where
  | firstHead
  | firstTail (head : UInt64)
  | secondHead (first : UInt64)
  | secondTail (first head : UInt64)
  | done (sum : UInt64)
  deriving DecidableEq

structure Reading where
  ring : RingState
  pc : ReadingPc

inductive ReadingAction where
  | load
  | ring (action : RingAction)

def readingStep (order : CallOrder) (reading : Reading) : ReadingAction → Option Reading
  | .load =>
      let object := reading.ring.object
      match reading.pc with
      | .firstHead => some { reading with pc := .firstTail object.head }
      | .firstTail head => some { reading with pc := .secondHead (shmRingUsedBytes head object.tail) }
      | .secondHead first => some { reading with pc := .secondTail first object.head }
      | .secondTail first head =>
          some { reading with
            pc := .done (capacitySum reading.ring.producerCapacity.size first head object.tail
              order) }
      | .done _ => none
  | .ring action =>
      if action.entersProducer then none
      else (ringStep reading.ring action).map fun ring => { reading with ring := ring }

def unpushedRing : Machine RingState RingAction where
  initial ring := ring.producer.resting = true
  step ring action := if action.entersProducer then none else ringStep ring action

def storesTail (ring : RingState) : RingAction → Bool
  | .consumer =>
      match ring.consumer with
      | .skipPadding _ _ => true
      | .storeTail _ _ _ => true
      | _ => false
  | _ => false

def tailHeld (ring : RingState) (actions : List RingAction) : Bool :=
  ((unpushedRing.guarded fun ring action => !storesTail ring action).run ring actions).isSome

/-- What stands still while the producer reads. -/
structure Standing (ring after : RingState) : Prop where
  resting : after.producer.resting = true
  head : after.object.head = ring.object.head
  capacity : after.producerCapacity = ring.producerCapacity

section Steps

variable {ring after : RingState} {action : RingAction}

theorem unpushed_step (stepped : unpushedRing.step ring action = some after) :
    action.entersProducer = false ∧ ringStep ring action = some after := by
  simp only [unpushedRing] at stepped
  split at stepped
  · cases stepped
  · next foreign => exact ⟨by simpa using foreign, stepped⟩

theorem step_standing (resting : ring.producer.resting = true)
    (stepped : unpushedRing.step ring action = some after) : Standing ring after := by
  obtain ⟨foreign, stepped⟩ := unpushed_step stepped
  obtain ⟨producer, _, head⟩ := resting_step resting foreign stepped
  constructor
  · rw [producer]
    exact resting
  · exact head
  · exact (same_capacity_step stepped).1

theorem Standing.trans {first second third : RingState} (early : Standing first second)
    (late : Standing second third) : Standing first third where
  resting := late.resting
  head := late.head.trans early.head
  capacity := late.capacity.trans early.capacity

theorem consumer_unstored (stepped : consumerStep ring = some after)
    (unstored : storesTail ring .consumer = false) : after.object.tail = ring.object.tail := by
  cases place : ring.consumer with
  | skipPadding maxSize tail => simp [storesTail, place] at unstored
  | storeTail tail head payload => simp [storesTail, place] at unstored
  | detached => simp [consumerStep, place] at stepped
  | idle result => simp [consumerStep, place] at stepped
  | wakeExchange payload =>
      simp only [consumerStep, place, Option.some.injEq] at stepped
      rw [← stepped]
      split <;> rfl
  | wakeFutex payload =>
      simp only [consumerStep, place, Option.some.injEq] at stepped
      rw [← stepped]
      rfl
  | _ =>
      simp only [consumerStep, place, Option.some.injEq] at stepped
      rw [← stepped]

theorem unstored_tail (resting : ring.producer.resting = true)
    (stepped : unpushedRing.step ring action = some after)
    (unstored : storesTail ring action = false) : after.object.tail = ring.object.tail := by
  obtain ⟨foreign, stepped⟩ := unpushed_step stepped
  cases ring_step_cases stepped with
  | callProducer call result place => cases foreign
  | attachProducer place => cases foreign
  | producer next moved => cases moved <;> simp_all [ProducerPc.resting]
  | consumer next stepped => exact consumer_unstored stepped unstored
  | _ => rfl

variable {head tail : Nat} {slots : List Slot}

theorem stored_tail (inv : RingInv ring head tail slots)
    (stepped : unpushedRing.step ring action = some after)
    (stores : storesTail ring action = true) :
    ∃ slot rest, slots = slot :: rest ∧
      after.object.tail = cursor (slotEnd ring.producerCapacity.bytes tail slot) := by
  obtain ⟨foreign, stepped⟩ := unpushed_step stepped
  cases ring_step_cases stepped with
  | consumer next stepped =>
      simp only [storesTail] at stores
      cases consumer_step_cases inv stepped with
      | skipPadding maxSize place => exact ⟨.padding, _, rfl, rfl⟩
      | takeLow seen place => exact ⟨.record _, _, rfl, rfl⟩
      | takeHigh seen place saw above => exact ⟨.record _, _, rfl, rfl⟩
      | loadTail maxSize place => simp [place] at stores
      | foundEmpty maxSize place empty => simp [place] at stores
      | foundSlot maxSize place saw => simp [place] at stores
      | headerByte maxSize seen got place saw more => simp [place] at stores
      | headerRead maxSize seen got place saw => simp [place] at stores
      | bodyByte seen got place saw more => simp [place] at stores
      | bodyRead seen got place saw => simp [place] at stores
      | flagClear payload place clear => simp [place] at stores
      | flagSet payload place => simp [place] at stores
      | wake payload place => simp [place] at stores
  | _ => cases stores

/-- A step between the loads: it keeps the head position, and the tail position exactly
where it does not store the tail. -/
theorem step_positions (inv : RingInv ring head tail slots)
    (resting : ring.producer.resting = true)
    (stepped : unpushedRing.step ring action = some after) :
    ∃ tail' slots', RingInv after head tail' slots' ∧ tail ≤ tail' ∧
      (tail' = tail ↔ storesTail ring action = false) := by
  obtain ⟨foreign, moved⟩ := unpushed_step stepped
  have short : action.recordsBelow (2 ^ 32) = true := by
    cases action with
    | callProducer call => cases foreign
    | _ => rfl
  obtain ⟨head', tail', slots', kept, effect⟩ := ring_step_inv inv short moved
  have same := effect.head_same (resting_step resting foreign moved).2.1
  have capacity := (same_capacity_step moved).1
  subst same
  have near := kept.ordered
  have room := inv.room
  have small := ring.producerCapacity.bytes_le
  refine ⟨tail', slots', kept, effect.moved.1, ?_⟩
  cases stores : storesTail ring action with
  | true =>
      obtain ⟨slot, rest, front, word⟩ := stored_tail inv stepped stores
      subst front
      have further := slot_end_gt tail slot ring.producerCapacity.bytes_positive
      have within := parses_le ring.producerCapacity.bytes_positive inv.parsed.2
      simp only [Bool.true_eq_false, iff_false]
      intro still
      subst still
      have words := kept.tailWord.symm.trans word
      have equal := cursor_inj_of_near (Nat.le_of_lt further) (by omega) words
      omega
  | false =>
      have words := kept.tailWord.symm.trans ((unstored_tail resting stepped stores).trans inv.tailWord)
      have equal := cursor_inj_of_near effect.moved.1 (by omega) words.symm
      simp only [iff_true]
      exact equal.symm

end Steps

section Runs

variable {ring after : RingState} {actions : List RingAction} {head tail : Nat} {slots : List Slot}

theorem run_positions (inv : RingInv ring head tail slots)
    (resting : ring.producer.resting = true)
    (ran : unpushedRing.run ring actions = some after) :
    ∃ tail' slots', RingInv after head tail' slots' ∧ tail ≤ tail' ∧
      (tail' = tail ↔ tailHeld ring actions = true) := by
  induction actions generalizing ring tail slots with
  | nil =>
      cases ran
      refine ⟨tail, slots, inv, Nat.le_refl _, ?_⟩
      simp [tailHeld, Machine.run]
  | cons action rest ih =>
      simp only [Machine.run] at ran
      split at ran
      · next next stepped =>
        obtain ⟨middle, slots', kept, forward, first⟩ := step_positions inv resting stepped
        obtain ⟨tail', slots', final, onward, later⟩ :=
          ih kept (step_standing resting stepped).resting ran
        refine ⟨tail', slots', final, Nat.le_trans forward onward, ?_⟩
        cases stores : storesTail ring action with
        | true =>
            have moved : middle ≠ tail := by
              intro same
              rw [first.mp same] at stores
              cases stores
            have lost : tailHeld ring (action :: rest) = false := by
              simp [tailHeld, Machine.run, Machine.guarded, stores]
            rw [lost]
            simp only [Bool.false_eq_true, iff_false]
            omega
        | false =>
            have still := first.mpr stores
            have held : tailHeld ring (action :: rest) = tailHeld next rest := by
              simp [tailHeld, Machine.run, Machine.guarded, stores, stepped]
            rw [held, ← later]
            omega
      · cases ran

theorem tail_word_iff (inv : RingInv ring head tail slots)
    (resting : ring.producer.resting = true)
    (ran : unpushedRing.run ring actions = some after) :
    after.object.tail = ring.object.tail ↔ tailHeld ring actions = true := by
  obtain ⟨tail', slots', kept, forward, held⟩ := run_positions inv resting ran
  have ordered := kept.ordered
  have room := inv.room
  have small := ring.producerCapacity.bytes_le
  rw [← held, kept.tailWord, inv.tailWord]
  constructor
  · intro words
    exact (cursor_inj_of_near forward (by omega) words.symm).symm
  · intro same
    rw [same]

end Runs

def ReadingAction.onRing : ReadingAction → Option RingAction
  | .load => none
  | .ring action => some action

def ringActions (actions : List ReadingAction) : List RingAction :=
  actions.filterMap ReadingAction.onRing

def readingMachine (order : CallOrder) (found : RingState → Prop) :
    Machine Reading ReadingAction where
  initial reading := found reading.ring ∧ reading.pc = .firstHead
  step := readingStep order

/-- From the first tail load on: the first call's result, and the head that has been
loaded. -/
structure BetweenLoads (ring : RingState) (used : UInt64) (reading : Reading) : Prop where
  standing : Standing ring reading.ring
  place : reading.pc = .secondHead used ∨ reading.pc = .secondTail used ring.object.head ∨
    ∃ sum, reading.pc = .done sum

section Readings

variable {order : CallOrder} {found : RingState → Prop} {reading next : Reading}

theorem reading_ring_step {action : ReadingAction}
    (stepped : readingStep order reading action = some next) :
    (∃ moved, action = .ring moved ∧ next.pc = reading.pc ∧
      unpushedRing.step reading.ring moved = some next.ring) ∨
    (action = .load ∧ next.ring = reading.ring) := by
  cases action with
  | load =>
      apply Or.inr
      simp only [readingStep] at stepped
      split at stepped <;> cases stepped <;> exact ⟨rfl, rfl⟩
  | ring moved =>
      apply Or.inl
      simp only [readingStep] at stepped
      split at stepped
      · cases stepped
      · next foreign =>
        obtain ⟨after, ringStepped, rfl⟩ := Option.map_eq_some_iff.mp stepped
        refine ⟨moved, rfl, rfl, ?_⟩
        simp only [unpushedRing, foreign, Bool.false_eq_true, if_false]
        exact ringStepped

theorem reading_run_ring {actions : List ReadingAction} {after : Reading}
    (ran : (readingMachine order found).run reading actions = some after) :
    unpushedRing.run reading.ring (ringActions actions) = some after.ring := by
  induction actions generalizing reading with
  | nil =>
      cases ran
      rfl
  | cons action rest ih =>
      simp only [Machine.run] at ran
      split at ran
      · next next stepped =>
        rcases reading_ring_step stepped with ⟨moved, rfl, _, ringStepped⟩ | ⟨rfl, same⟩
        · have shape : ringActions (.ring moved :: rest) = moved :: ringActions rest := rfl
          rw [shape]
          simp only [Machine.run, ringStepped]
          exact ih ran
        · have shape : ringActions (.load :: rest) = ringActions rest := rfl
          rw [shape, ← same]
          exact ih ran
      · cases ran

theorem between_step {ring : RingState} {used : UInt64} {action : ReadingAction}
    (between : BetweenLoads ring used reading)
    (stepped : readingStep order reading action = some next) : BetweenLoads ring used next := by
  have standing := between.standing
  rcases reading_ring_step stepped with ⟨moved, rfl, pc, ringStepped⟩ | ⟨rfl, same⟩
  · constructor
    · exact standing.trans (step_standing standing.resting ringStepped)
    · rw [pc]
      exact between.place
  · constructor
    · rw [same]
      exact standing
    · simp only [readingStep] at stepped
      rcases between.place with here | here | ⟨sum, here⟩
      · simp only [here, Option.some.injEq] at stepped
        rw [← stepped, standing.head]
        exact Or.inr (Or.inl rfl)
      · simp only [here, Option.some.injEq] at stepped
        rw [← stepped]
        exact Or.inr (Or.inr ⟨_, rfl⟩)
      · simp only [here, reduceCtorEq] at stepped

theorem between_run {ring : RingState} {used : UInt64} {actions : List ReadingAction}
    {after : Reading} (between : BetweenLoads ring used reading)
    (ran : (readingMachine order found).run reading actions = some after) :
    BetweenLoads ring used after := by
  induction actions generalizing reading with
  | nil =>
      cases ran
      exact between
  | cons action rest ih =>
      simp only [Machine.run] at ran
      split at ran
      · next next stepped => exact ih (between_step between stepped) ran
      · cases ran

end Readings

/-- The two tail loads of one run of the calls: the reading before each, and the actions
between them. -/
structure TailLoads (order : CallOrder) (found : RingState → Prop) (first second : Reading)
    (actions : List ReadingAction) : Prop where
  here : ∃ head, first.pc = .firstTail head
  ran : (readingMachine order found).run first (.load :: actions) = some second
  there : ∃ used head, second.pc = .secondTail used head

structure ReadsAt (reading : Reading) : Prop where
  resting : reading.ring.producer.resting = true
  loaded : ∀ head, reading.pc = .firstTail head → head = reading.ring.object.head

theorem reading_reads {order : CallOrder} {reading next : Reading} {action : ReadingAction}
    (reads : ReadsAt reading) (stepped : readingStep order reading action = some next) :
    ReadsAt next := by
  rcases reading_ring_step stepped with ⟨moved, rfl, pc, ringStepped⟩ | ⟨rfl, same⟩
  · have standing := step_standing reads.resting ringStepped
    constructor
    · exact standing.resting
    · intro head here
      rw [pc] at here
      exact (reads.loaded head here).trans standing.head.symm
  · constructor
    · rw [same]
      exact reads.resting
    · intro head here
      rw [same]
      simp only [readingStep] at stepped
      split at stepped <;> cases stepped <;> cases here
      rfl

theorem reads_reachable {order : CallOrder} {found : RingState → Prop} {reading : Reading}
    (rests : ∀ ring, found ring → ring.producer.resting = true)
    (reached : (readingMachine order found).Reachable reading) : ReadsAt reading := by
  refine Machine.invariant_of_reachable (readingMachine order found) ReadsAt ?_ ?_ reached
  · rintro start ⟨here, begins⟩
    refine ⟨rests start.ring here, ?_⟩
    intro head place
    rw [begins] at place
    cases place
  · intro before action after reads stepped
    exact reading_reads reads stepped

theorem reads_parse {order : CallOrder} {found : RingState → Prop} {reading : Reading}
    (rests : ∀ ring, found ring → ring.producer.resting = true)
    (parses : ∀ ring, found ring → ∃ head tail slots, RingInv ring head tail slots)
    (reached : (readingMachine order found).Reachable reading) :
    ∃ head tail slots, RingInv reading.ring head tail slots := by
  have held : (∃ head tail slots, RingInv reading.ring head tail slots) ∧ ReadsAt reading := by
    refine Machine.invariant_of_reachable (readingMachine order found)
      (fun reading => (∃ head tail slots, RingInv reading.ring head tail slots) ∧
        ReadsAt reading) ?_ ?_ reached
    · intro start starts
      exact ⟨parses start.ring starts.1, reads_reachable rests (Machine.reachable_initial starts)⟩
    · rintro before action after ⟨⟨head, tail, slots, inv⟩, reads⟩ stepped
      refine ⟨?_, reading_reads reads stepped⟩
      rcases reading_ring_step stepped with ⟨moved, rfl, _, ringStepped⟩ | ⟨rfl, same⟩
      · obtain ⟨tail', slots', kept, _⟩ := step_positions inv reads.resting ringStepped
        exact ⟨head, tail', slots', kept⟩
      · rw [same]
        exact ⟨head, tail, slots, inv⟩
  exact held.1

section Sums

variable {order : CallOrder} {found : RingState → Prop} {first second : Reading}
  {actions : List ReadingAction}

theorem tail_loads_found (reads : ReadsAt first)
    (loads : TailLoads order found first second actions) :
    Standing first.ring second.ring ∧
      unpushedRing.run first.ring (ringActions actions) = some second.ring ∧
      second.pc = .secondTail (shmRingUsedBytes first.ring.object.head first.ring.object.tail)
        second.ring.object.head := by
  obtain ⟨⟨loaded, here⟩, ran, used, head, there⟩ := loads
  have same := reads.loaded loaded here
  subst same
  have alone := reading_run_ring ran
  have shape : ringActions (.load :: actions) = ringActions actions := rfl
  rw [shape] at alone
  simp only [Machine.run, readingMachine, readingStep, here] at ran
  have start : BetweenLoads first.ring
      (shmRingUsedBytes first.ring.object.head first.ring.object.tail)
      { first with
        pc := .secondHead (shmRingUsedBytes first.ring.object.head first.ring.object.tail) } :=
    ⟨⟨reads.resting, rfl, rfl⟩, Or.inl rfl⟩
  have between := @between_run order found _ _ _ actions second start ran
  refine ⟨between.standing, alone, ?_⟩
  rw [between.standing.head]
  rcases between.place with place | place | ⟨sum, place⟩
  · rw [there] at place
    cases place
  · exact place
  · rw [there] at place
    cases place

theorem tail_loads_sum_iff (reads : ReadsAt first)
    (loads : TailLoads order found first second actions) :
    readingStep order second .load =
        some { second with pc := .done second.ring.producerCapacity.size } ↔
      second.ring.object.tail = first.ring.object.tail := by
  obtain ⟨standing, _, place⟩ := tail_loads_found reads loads
  have last : readingStep order second .load = some { second with
      pc := .done (capacitySum second.ring.producerCapacity.size
        (shmRingUsedBytes first.ring.object.head first.ring.object.tail) second.ring.object.head
        second.ring.object.tail order) } := by
    simp only [readingStep, place]
  have sum := capacity_sum_iff second.ring.producerCapacity.size
    (shmRingUsedBytes first.ring.object.head first.ring.object.tail) second.ring.object.head
    second.ring.object.tail order
  simp only [last, Option.some.injEq, Reading.mk.injEq, true_and, ReadingPc.done.injEq]
  rw [sum, standing.head]
  exact used_bytes_iff _ _ _

theorem tail_loads_unmoved_iff {head tail : Nat} {slots : List Slot}
    (inv : RingInv first.ring head tail slots) (reads : ReadsAt first)
    (loads : TailLoads order found first second actions) :
    second.ring.object.tail = first.ring.object.tail ↔
      tailHeld first.ring (ringActions actions) = true :=
  tail_word_iff inv reads.resting (tail_loads_found reads loads).2.1

end Sums

end AdaptIpc.Ring

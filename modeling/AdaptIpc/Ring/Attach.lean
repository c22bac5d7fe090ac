import AdaptIpc.Ring.Map
import AdaptIpc.Ring.Refinement

/-!
# Attaching to an object with any content

The producer resets head and tail with separate stores while the consumer may
already poll the object, and the consumer looks neither at `initialized` nor at
the capacity in the header. As long as the cursors a pop compares are equal, or
are those the producer has reset, the consumer only ever returns what this
producer pushed. An object left behind with a non-empty ring breaks this before
the producer has done anything.
-/

namespace AdaptIpc.Ring

open AdaptIpc.Library.Bytes AdaptIpc.Library.Cursor AdaptIpc.Library.Transition

set_option autoImplicit false

def unattached (object : ShmObject) (producerCapacity consumerCapacity : RingCapacity) :
    RingState where
  object := object
  producerCapacity := producerCapacity
  consumerCapacity := consumerCapacity
  producer := .detached
  flagPending := false
  consumer := .detached
  pushed := []
  popped := []
  lastFootprint := 0

/-- An object of any content on which neither `ring_map` fails. -/
def attachMachine (producerRequest consumerRequest : UInt64) :
    Machine RingState RingAction where
  initial state := ∃ object producerCapacity consumerCapacity,
    state = unattached object producerCapacity consumerCapacity ∧
      ∃ name producerEnv consumerEnv,
        ringMap producerEnv name producerRequest = some (.ok producerCapacity.size) ∧
          ringMap consumerEnv name consumerRequest = some (.ok consumerCapacity.size)
  step := ringStep

/-- The producer has stored both cursors. -/
def ProducerPc.cursorsReset : ProducerPc → Bool
  | .detached => false
  | .initHeader todo => !todo.contains .head && !todo.contains .tail
  | _ => true

/-- A pop finds its two cursors equal, or they are those the producer has reset. -/
def cleanPop (state : RingState) : RingAction → Bool
  | .consumer =>
      match state.consumer with
      | .loadHead _ tail =>
          decide (state.object.head = tail) ||
            (state.producer.cursorsReset && decide (state.object.tail = tail))
      | _ => true
  | _ => true

def cleanAttach (producerRequest consumerRequest : UInt64) : Machine RingState RingAction :=
  (attachMachine producerRequest consumerRequest).guarded fun state action =>
    action.recordsBelow (2 ^ 32) && cleanPop state action

/-- A pop that has not compared its cursors yet, seen as one that has not loaded them. -/
def ConsumerPc.settled : ConsumerPc → ConsumerPc
  | .loadHead maxSize _ => .loadTail maxSize
  | pc => pc

def RingState.settled (state : RingState) : RingState :=
  { state with consumer := state.consumer.settled }

def ConsumerPc.polling : ConsumerPc → Prop
  | .detached => True
  | .idle _ => True
  | .loadTail _ => True
  | .loadHead _ _ => True
  | _ => False

/-- Before the reset the consumer only polls. -/
structure Unreset (state : RingState) : Prop where
  place : state.producer = .detached ∨ state.producer = .initHeader headerInit ∨
    state.producer = .initHeader headerInit.tail ∧ state.object.head = 0
  polling : state.consumer.polling
  nothingPushed : state.pushed = []
  nothingPopped : state.popped = []

/-- From the reset on the ring invariant holds, whatever tail a pop in progress has loaded. -/
def Reset (state : RingState) : Prop :=
  ∃ head tail slots, RingInv state.settled head tail slots ∧
    state.pushed = state.taken ++ payloads slots

theorem settled_taken (state : RingState) : state.settled.taken = state.taken := by
  simp only [RingState.taken, RingState.settled]
  cases state.consumer <;> rfl

theorem settle_inv {state : RingState} {head tail : Nat} {slots : List Slot}
    (inv : RingInv state head tail slots) : RingInv state.settled head tail slots := by
  have own := inv.consumer
  have settles : ConsumerHolds state.producerCapacity.bytes tail slots
      state.consumer.settled := by
    cases place : state.consumer with
    | loadHead maxSize loaded => trivial
    | _ =>
        rw [place] at own
        exact own
  exact { inv with consumer := settles }

theorem producer_step_frame (state : RingState) (pc : ConsumerPc) :
    producerStep { state with consumer := pc } =
      (producerStep state).map fun next => { next with consumer := pc } := by
  cases place : state.producer with
  | initHeader todo => cases todo <;> simp [producerStep, place]
  | copy job todo newHead => cases todo <;> simp [producerStep, place]
  | _ => simp [producerStep, place, checkSpace]

/-- Only the consumer's own step distinguishes a pop about to load the head from
one about to load the tail. -/
theorem settled_step {state next : RingState} {action : RingAction}
    (other : action ≠ .consumer) (stepped : ringStep state action = some next) :
    ringStep state.settled action = some { next with consumer := next.consumer.settled } := by
  cases ring_step_cases stepped with
  | consumer next moved => exact absurd rfl other
  | producer next moved =>
      have stepped : producerStep state = some next := stepped
      have kept := keeps_consumer rfl other (show ringStep state .producer = some next from stepped)
      have frame := producer_step_frame state state.consumer.settled
      rw [stepped] at frame
      rw [kept.1]
      exact frame
  | callPop maxSize result place =>
      simp [ringStep, callPop, RingState.settled, ConsumerPc.settled, place]
  | attachConsumer place => simp [ringStep, RingState.settled, ConsumerPc.settled, place]
  | attachProducer place => simp [ringStep, RingState.settled, place]
  | callProducer call result place => simp [ringStep, callProducer, RingState.settled, place]
  | flushFlag pending => simp [ringStep, flushFlag, RingState.settled, pending]
  | interrupt job place => simp [ringStep, interruptWait, RingState.settled, place]
  | spuriousWake job place => simp [ringStep, wakeSpuriously, RingState.settled, place]

theorem consumer_step_reset {state next : RingState} {head tail : Nat} {slots : List Slot}
    (inv : RingInv state head tail slots) (conserved : state.pushed = state.taken ++ payloads slots)
    (stepped : consumerStep state = some next) : Reset next := by
  obtain ⟨tail', slots', kept, effect⟩ := consumer_step_inv inv stepped
  exact ⟨head, tail', slots', settle_inv kept, effect_conserves effect conserved⟩

theorem clean_consumer_reset {state next : RingState} {head tail : Nat} {slots : List Slot}
    (inv : RingInv state.settled head tail slots)
    (conserved : state.pushed = state.taken ++ payloads slots)
    (clean : cleanPop state .consumer = true) (stepped : consumerStep state = some next) :
    Reset next := by
  cases place : state.consumer with
  | loadHead maxSize loaded =>
      simp only [cleanPop, place, Bool.or_eq_true, Bool.and_eq_true, decide_eq_true_eq] at clean
      rcases clean with equal | ⟨_, current⟩
      · simp only [consumerStep, place, equal, if_true] at stepped
        cases stepped
        refine ⟨head, tail, slots, { inv with consumer := trivial }, ?_⟩
        simpa [RingState.taken, place, ConsumerPc.inFlight] using conserved
      · -- The loaded tail is the current one, so the pop runs on the ring as it is.
        have own : RingInv state head tail slots := { inv with
          consumer := by
            rw [place]
            exact current.symm.trans inv.tailWord }
        exact consumer_step_reset own conserved stepped
  | _ =>
      have own : RingInv state head tail slots := { inv with
        consumer := by
          have holds := inv.consumer
          simp only [RingState.settled, place, ConsumerPc.settled] at holds
          rw [place]
          exact holds }
      exact consumer_step_reset own conserved stepped

theorem reset_step {state next : RingState} {action : RingAction} (reset : Reset state)
    (short : action.recordsBelow (2 ^ 32) = true) (clean : cleanPop state action = true)
    (stepped : ringStep state action = some next) : Reset next := by
  obtain ⟨head, tail, slots, inv, conserved⟩ := reset
  by_cases consumes : action = .consumer
  · subst consumes
    exact clean_consumer_reset inv conserved clean stepped
  · obtain ⟨head', tail', slots', kept, effect⟩ :=
      ring_step_inv inv short (settled_step consumes stepped)
    rw [← settled_taken] at conserved
    have after := effect_conserves effect conserved
    refine ⟨head', tail', slots', kept, ?_⟩
    rw [← settled_taken next]
    exact after

theorem polling_settles {size : Nat} {slots : List Slot} {pc : ConsumerPc} (polling : pc.polling) :
    ConsumerHolds size 0 slots pc.settled ∧ pc.inFlight = [] := by
  cases pc with
  | loadHead maxSize loaded => exact ⟨trivial, rfl⟩
  | detached => exact ⟨trivial, rfl⟩
  | idle result => exact ⟨trivial, rfl⟩
  | loadTail maxSize => exact ⟨trivial, rfl⟩
  | _ => cases polling

theorem reset_starts_empty {state : RingState}
    (same : state.consumerCapacity = state.producerCapacity) (headZero : state.object.head = 0)
    (polling : state.consumer.polling) (pushed : state.pushed = []) (popped : state.popped = []) :
    Reset { state with
      object := { state.object with tail := 0 }
      producer := .initHeader [.parks, .flowFlag, .capacity, .magic, .initialized] } := by
  obtain ⟨settles, noneTaken⟩ := polling_settles polling
  refine ⟨0, 0, [], ?_, ?_⟩
  · constructor
    · exact same
    · exact headZero
    · rfl
    · exact Nat.zero_le _
    · rfl
    · trivial
    · simp [RingState.settled, ProducerPc.candidate]
    · exact ⟨rfl, rfl⟩
    · exact settles
  · simp [RingState.taken, pushed, popped, noneTaken]

/-- The two cursor stores turn a polled object of any content into an empty ring. -/
theorem unreset_step {state next : RingState} {action : RingAction}
    (same : state.consumerCapacity = state.producerCapacity) (unreset : Unreset state)
    (clean : cleanPop state action = true) (stepped : ringStep state action = some next) :
    Unreset next ∨ Reset next := by
  obtain ⟨place, polling, pushed, popped⟩ := unreset
  have notReset : state.producer.cursorsReset = false := by
    rcases place with detached | initial | ⟨second, _⟩
    · rw [detached]
      rfl
    · rw [initial]
      rfl
    · rw [second]
      rfl
  have asleep : ∀ job, state.producer ≠ .asleep job := by
    intro job asleep
    simp [asleep, headerInit] at place
  cases ring_step_cases stepped with
  | producer next moved =>
      rcases place with detached | initial | ⟨second, headZero⟩
      · simp [ringStep, producerStep, detached] at stepped
      · simp only [ringStep, producerStep, initial, headerInit] at stepped
        cases stepped
        exact Or.inl ⟨Or.inr (Or.inr ⟨rfl, rfl⟩), polling, pushed, popped⟩
      · simp only [ringStep, producerStep, second, headerInit] at stepped
        cases stepped
        exact Or.inr (reset_starts_empty same headZero polling pushed popped)
  | consumer next stepped =>
      left
      cases reading : state.consumer with
      | loadTail maxSize =>
          simp only [consumerStep, reading] at stepped
          cases stepped
          exact ⟨place, trivial, pushed, popped⟩
      | loadHead maxSize loaded =>
          simp only [cleanPop, reading, notReset, Bool.false_and, Bool.or_false,
            decide_eq_true_eq] at clean
          simp only [consumerStep, reading, clean, if_true] at stepped
          cases stepped
          exact ⟨place, trivial, pushed, popped⟩
      | detached => simp [consumerStep, reading] at stepped
      | idle result => simp [consumerStep, reading] at stepped
      | _ =>
          rw [reading] at polling
          cases polling
  | attachProducer detached =>
      exact Or.inl ⟨Or.inr (Or.inl rfl), polling, pushed, popped⟩
  | attachConsumer reading => exact Or.inl ⟨place, trivial, pushed, popped⟩
  | callPop maxSize result reading => exact Or.inl ⟨place, trivial, pushed, popped⟩
  | flushFlag pending => exact Or.inl ⟨place, polling, pushed, popped⟩
  | callProducer call result idle => simp [idle] at place
  | interrupt job sleeping => exact absurd sleeping (asleep job)
  | spuriousWake job sleeping => exact absurd sleeping (asleep job)

theorem same_request_capacity {producerRequest consumerRequest : UInt64} {name : List UInt8}
    {producerEnv consumerEnv : MapEnv} {producerCapacity consumerCapacity : RingCapacity}
    (same : roundPow2 (if producerRequest = 0 then 65536 else producerRequest) =
      roundPow2 (if consumerRequest = 0 then 65536 else consumerRequest))
    (producer : ringMap producerEnv name producerRequest = some (.ok producerCapacity.size))
    (consumer : ringMap consumerEnv name consumerRequest = some (.ok consumerCapacity.size)) :
    consumerCapacity = producerCapacity := by
  have left := ring_map_capacity producer
  have right := ring_map_capacity consumer
  apply size_injective
  rw [same, right, Option.some.injEq] at left
  exact left

theorem clean_reachable {producerRequest consumerRequest : UInt64} {state : RingState}
    (same : roundPow2 (if producerRequest = 0 then 65536 else producerRequest) =
      roundPow2 (if consumerRequest = 0 then 65536 else consumerRequest))
    (reached : (cleanAttach producerRequest consumerRequest).Reachable state) :
    state.consumerCapacity = state.producerCapacity ∧ (Unreset state ∨ Reset state) := by
  apply Machine.invariant_of_reachable (cleanAttach producerRequest consumerRequest)
    (fun state => state.consumerCapacity = state.producerCapacity ∧
      (Unreset state ∨ Reset state)) _ _ reached
  · rintro start ⟨object, producerCapacity, consumerCapacity, rfl, name, producerEnv,
      consumerEnv, producer, consumer⟩
    exact ⟨same_request_capacity same producer consumer, Or.inl ⟨Or.inl rfl, trivial, rfl, rfl⟩⟩
  · intro before action after held stepped
    obtain ⟨capacities, phase⟩ := held
    obtain ⟨allowed, stepped⟩ := Machine.guarded_step stepped
    rw [Bool.and_eq_true] at allowed
    obtain ⟨producerSame, consumerSame⟩ := same_capacity_step stepped
    refine ⟨by rw [consumerSame, producerSame, capacities], ?_⟩
    rcases phase with unreset | reset
    · exact unreset_step capacities unreset allowed.2 stepped
    · exact Or.inr (reset_step reset allowed.1 allowed.2 stepped)

/-- In a run of clean pops between equally rounded requests the consumer returns a
prefix of what this producer pushed, and from the reset on tail stays behind head. -/
theorem clean_attach_safe {producerRequest consumerRequest : UInt64} {state : RingState}
    (same : roundPow2 (if producerRequest = 0 then 65536 else producerRequest) =
      roundPow2 (if consumerRequest = 0 then 65536 else consumerRequest))
    (reached : (cleanAttach producerRequest consumerRequest).Reachable state) :
    state.popped <+: state.pushed ∧ state.producerCapacity = state.consumerCapacity ∧
      (state.producer.cursorsReset = true →
        ∃ head tail, state.object.head = cursor head ∧ state.object.tail = cursor tail ∧
          tail ≤ head ∧ head ≤ tail + state.producerCapacity.bytes) := by
  obtain ⟨capacities, phase⟩ := clean_reachable same reached
  rcases phase with unreset | ⟨head, tail, slots, inv, conserved⟩
  · refine ⟨?_, capacities.symm, ?_⟩
    · rw [unreset.nothingPopped]
      exact List.nil_prefix
    · intro isReset
      rcases unreset.place with detached | initial | ⟨second, _⟩
      · rw [detached] at isReset
        cases isReset
      · rw [initial] at isReset
        cases isReset
      · rw [second] at isReset
        cases isReset
  · refine ⟨?_, capacities.symm, ?_⟩
    · rw [conserved, RingState.taken, List.append_assoc]
      exact List.prefix_append _ _
    · intro _
      exact ⟨head, tail, inv.headWord, inv.tailWord, inv.ordered, inv.room⟩

def attachSchedule : List RingAction :=
  .attachConsumer :: .callPop 16 :: .consumer :: .attachProducer ::
    List.replicate 7 .producer ++ .consumer :: pushPopSchedule

theorem clean_attach_safe_page :
    ∃ state, (cleanAttach 4096 100).run (unattached (freshObject page fun _ => 255) page page)
        attachSchedule = some state ∧
      state.popped = [[7]] ∧ state.popped <+: state.pushed ∧
      state.producerCapacity = state.consumerCapacity ∧
      (state.producer.cursorsReset = true →
        ∃ head tail, state.object.head = cursor head ∧ state.object.tail = cursor tail ∧
          tail ≤ head ∧ head ≤ tail + state.producerCapacity.bytes) := by
  have delivered : ((cleanAttach 4096 100).run
      (unattached (freshObject page fun _ => 255) page page) attachSchedule).map
        RingState.popped = some [[7]] := by decide
  obtain ⟨state, ran, popped⟩ := Option.map_eq_some_iff.mp delivered
  have starts : (cleanAttach 4096 100).initial
      (unattached (freshObject page fun _ => 255) page page) :=
    ⟨_, page, page, rfl, [47], MapEnv.succeeding, MapEnv.succeeding, by decide, by decide⟩
  obtain ⟨ordered, capacities, bounded⟩ :=
    clean_attach_safe (by decide) (Machine.reachable_run _ starts ran)
  exact ⟨state, ran, popped, ordered, capacities, bounded⟩

/-- Two sides with one capacity on an object whose cursors are zero, as a new
object has them. -/
def zeroedAttach (capacity : RingCapacity) : Machine RingState RingAction where
  initial state := ∃ object : ShmObject, object.head = 0 ∧ object.tail = 0 ∧
    state = unattached object capacity capacity
  step := ringStep

/-- Every pop of every interleaving is then clean. -/
theorem zeroed_pops_clean {capacity : RingCapacity} {state : RingState}
    (reached : ((zeroedAttach capacity).guarded fun _ action =>
      action.recordsBelow (2 ^ 32)).Reachable state) (action : RingAction) :
    cleanPop state action = true := by
  have inv : ∃ head tail slots, RingInv state head tail slots := by
    apply Machine.invariant_of_reachable _
      (fun state => ∃ head tail slots, RingInv state head tail slots) _ _ reached
    · rintro start ⟨object, head, tail, rfl⟩
      refine ⟨0, 0, [], rfl, head, tail, Nat.zero_le _, rfl, trivial, ?_, ⟨rfl, rfl⟩, trivial⟩
      simp [unattached, ProducerPc.candidate]
    · rintro before action after ⟨head, tail, slots, held⟩ stepped
      obtain ⟨short, stepped⟩ := Machine.guarded_step stepped
      obtain ⟨head', tail', slots', kept, _⟩ := ring_step_inv held short stepped
      exact ⟨head', tail', slots', kept⟩
  obtain ⟨head, tail, slots, inv⟩ := inv
  cases action with
  | consumer =>
      cases place : state.consumer with
      | loadHead maxSize loaded =>
          have own := inv.consumer
          rw [place] at own
          have word : state.object.tail = loaded := inv.tailWord.trans own.symm
          have zeroed : state.producer.cursorsReset = false → state.object.head = loaded := by
            intro unreset
            have producer := inv.producer
            cases holder : state.producer with
            | detached =>
                rw [holder] at producer
                rw [← word, inv.headWord, inv.tailWord, producer.1, producer.2]
            | initHeader todo =>
                rw [holder] at producer
                rw [← word, inv.headWord, inv.tailWord, producer.1, producer.2]
            | _ =>
                rw [holder] at unreset
                cases unreset
          simp only [cleanPop, place, word, decide_true, Bool.and_true, Bool.or_eq_true,
            decide_eq_true_eq]
          cases phase : state.producer.cursorsReset with
          | true => exact Or.inr rfl
          | false => exact Or.inl (zeroed phase)
      | _ => simp [cleanPop, place]
  | _ => rfl

/-- The header and the bytes of a ring whose consumer stopped before the record
`[0x2A]` was popped. -/
def leftBehind : ShmObject where
  head := 5
  tail := 0
  parks := 0
  capacity := 4096
  magic := shmRingMagic
  initialized := 1
  flowFlag := 0
  data address := if address = 0 then 1 else if address = 4 then 42 else 0

/-- A consumer that attaches to it returns the old record, and two sides with
different requests both attach. -/
theorem left_behind_record_is_returned :
    (∃ state, (attachMachine 4096 4096).Reachable state ∧ state.popped = [[42]] ∧
      state.pushed = []) ∧
    ∃ state, (attachMachine 4096 65536).Reachable state ∧
      state.producerCapacity ≠ state.consumerCapacity := by
  constructor
  · have delivered : ((attachMachine 4096 4096).run (unattached leftBehind page page)
        (.attachConsumer :: .callPop 16 :: List.replicate 9 .consumer)).map
          (fun state => (state.popped, state.pushed)) = some ([[42]], []) := by decide
    obtain ⟨state, ran, values⟩ := Option.map_eq_some_iff.mp delivered
    rw [Prod.mk.injEq] at values
    have starts : (attachMachine 4096 4096).initial (unattached leftBehind page page) :=
      ⟨_, page, page, rfl, [47], MapEnv.succeeding, MapEnv.succeeding, by decide, by decide⟩
    exact ⟨state, Machine.reachable_run _ starts ran, values.1, values.2⟩
  · let larger : RingCapacity := ⟨16, by decide, by decide⟩
    have starts : (attachMachine 4096 65536).initial (unattached leftBehind page larger) :=
      ⟨_, page, larger, rfl, [47], MapEnv.succeeding, MapEnv.succeeding, by decide, by decide⟩
    exact ⟨_, Machine.reachable_initial starts, by simp [unattached, page, larger]⟩

end AdaptIpc.Ring

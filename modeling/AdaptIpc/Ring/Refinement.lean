import AdaptIpc.Ring.Call
import AdaptIpc.Library.Fifo

/-!
# The ring refines a first-in first-out queue

The forward simulation maps a ring state to the queue of the records in its
unread region. Completed calls are then compared with that queue: a push that
returns 0 has added exactly its record, a pop that returns one has taken it, and
a call that returns an error has neither added nor removed one.
-/

namespace AdaptIpc.Ring

open AdaptIpc.Library.Bytes AdaptIpc.Library.Cursor AdaptIpc.Library.Transition
open AdaptIpc.Library.Fifo

set_option autoImplicit false

def boundedRing (capacity : RingCapacity) : Machine RingState RingAction :=
  (ringMachine capacity).guarded fun _ action => action.recordsBelow (2 ^ 31)

def ringQueue (state : RingState) (slots : List Slot) : Queue (List UInt8) where
  pending := payloads slots
  sent := state.pushed
  received := state.taken

def RingRelated (state : RingState) (queue : Queue (List UInt8)) : Prop :=
  ∃ head tail slots, RingInv state head tail slots ∧ queue = ringQueue state slots

theorem below_header_word {action : RingAction} (below : action.recordsBelow (2 ^ 31) = true) :
    action.recordsBelow (2 ^ 32) = true := by
  cases action with
  | callProducer call =>
      simp only [RingAction.recordsBelow, decide_eq_true_eq] at below ⊢
      omega
  | _ => rfl

theorem effect_moves_queue {state next : RingState} {head tail head' tail' : Nat}
    {slots slots' : List Slot}
    (effect : RingEffect state next head tail slots head' tail' slots') :
    (fifo (List UInt8)).ReachableFrom (ringQueue state slots) (ringQueue next slots') := by
  cases effect with
  | quiet pushed taken footprint =>
      simp only [ringQueue, pushed, taken]
      exact Relation.ReflTransGen.refl
  | enqueue more payload single pushed taken span spans shape footprint =>
      simp only [ringQueue, pushed, taken, payloads_append, single]
      exact enqueue_reaches (ringQueue state slots) payload
  | discard pushed taken footprint span =>
      simp only [ringQueue, pushed, taken, payloads_padding]
      exact Relation.ReflTransGen.refl
  | dequeue payload pushed taken footprint span =>
      simp only [ringQueue, pushed, taken]
      exact dequeue_reaches _ payload (payloads slots') rfl

theorem effect_conserves {state next : RingState} {head tail head' tail' : Nat}
    {slots slots' : List Slot}
    (effect : RingEffect state next head tail slots head' tail' slots')
    (conserved : state.pushed = state.taken ++ payloads slots) :
    next.pushed = next.taken ++ payloads slots' := by
  cases effect with
  | quiet pushed taken footprint => rw [pushed, taken, conserved]
  | enqueue more payload single pushed taken span spans shape footprint =>
      rw [pushed, taken, conserved, payloads_append, single, List.append_assoc]
  | discard pushed taken footprint span =>
      rw [pushed, taken, conserved, payloads_padding]
  | dequeue payload pushed taken footprint span =>
      rw [pushed, taken, conserved, payloads_record, List.append_assoc]
      rfl

theorem ring_simulates_fifo (capacity : RingCapacity) :
    Simulation (boundedRing capacity) (fifo (List UInt8)) RingRelated where
  starts := by
    rintro state ⟨data, rfl⟩
    exact ⟨Queue.empty, rfl, 0, 0, [], fresh_ring_inv capacity data, rfl⟩
  steps := by
    rintro state action next _ ⟨head, tail, slots, inv, rfl⟩ stepped
    obtain ⟨below, stepped⟩ := Machine.guarded_step stepped
    obtain ⟨head', tail', slots', kept, effect⟩ :=
      ring_step_inv inv (below_header_word below) stepped
    exact ⟨_, effect_moves_queue effect, head', tail', slots', kept, rfl⟩

theorem bounded_ring_capacity {capacity : RingCapacity} {state : RingState}
    (reached : (boundedRing capacity).Reachable state) : state.producerCapacity = capacity := by
  refine Machine.invariant_of_reachable (boundedRing capacity)
    (fun state => state.producerCapacity = capacity) ?_ ?_ reached
  · rintro start ⟨data, rfl⟩
    rfl
  · intro before action after same stepped
    rw [(same_capacity_step (Machine.guarded_step stepped).2).1, same]

/-- Every reachable state satisfies the ring invariant, and the records between
tail and head are those pushed and not yet taken. -/
theorem reachable_ring_inv {capacity : RingCapacity} {state : RingState}
    (reached : (boundedRing capacity).Reachable state) :
    ∃ head tail slots, RingInv state head tail slots ∧
      state.pushed = state.taken ++ payloads slots := by
  obtain ⟨queue, fifoReached, head, tail, slots, inv, rfl⟩ :=
    (ring_simulates_fifo capacity).reachable reached
  exact ⟨head, tail, slots, inv, sent_is_received_then_pending fifoReached⟩

def ProducerPc.isIdle : ProducerPc → Bool
  | .idle _ => true
  | _ => false

def ConsumerPc.isIdle : ConsumerPc → Bool
  | .idle _ => true
  | _ => false

/-- The two pushes and the blocking push; `shm_ring_wait_writable` sends nothing. -/
def ProducerCall.sends : ProducerCall → Bool
  | .waitWritable => false
  | _ => true

/-- This producer call, made in `start`, is still running or has just returned in
`final`; the consumer may do anything in between. -/
def CallWindow (call : ProducerCall) (start final : RingState) : Prop :=
  ∃ entered, ringStep start (.callProducer call) = some entered ∧
    ((ringMachine start.producerCapacity).guarded fun state _ =>
      !state.producer.isIdle).ReachableFrom entered final

def PushWindow (start final : RingState) : Prop := ∃ call, CallWindow call start final

/-- A pop called in `start` and still running, or just returned, in `final`. -/
def PopWindow (start final : RingState) : Prop :=
  ∃ maxSize entered, ringStep start (.callPop maxSize) = some entered ∧
    ((ringMachine start.producerCapacity).guarded fun state _ =>
      !state.consumer.isIdle).ReachableFrom entered final

theorem pushed_changes_on_success {state next : RingState} {action : RingAction}
    (stepped : ringStep state action = some next) :
    next.pushed = state.pushed ∨ next.producer = .idle (some (.ok ())) := by
  rcases published_from_copy stepped with same | ⟨job, newHead, _, _, returned, _⟩
  · exact Or.inl same
  · right
    rw [returned]
    cases job <;> rfl

/-- The consumer has already moved the tail past a record: its pop can only
return that record. -/
def ConsumerPc.committed : ConsumerPc → Prop
  | .wakeExchange _ => True
  | .wakeFutex _ => True
  | .idle (some (.ok _)) => True
  | _ => False

theorem taken_changes_on_success {state next : RingState} {action : RingAction}
    (busy : state.consumer.isIdle = false) (stepped : ringStep state action = some next) :
    (next.taken = state.taken ∧ (state.consumer.committed → next.consumer.committed)) ∨
      next.consumer.committed := by
  cases ring_step_cases stepped with
  | consumer next stepped =>
      cases place : state.consumer <;> simp only [consumerStep, place] at stepped
      case detached => cases stepped
      case idle => cases stepped
      case storeTail =>
        split at stepped <;> cases stepped <;> exact Or.inr trivial
      case wakeExchange =>
        split at stepped <;> cases stepped <;> exact Or.inr trivial
      case wakeFutex =>
        cases stepped
        exact Or.inr trivial
      case loadTail =>
        cases stepped
        exact Or.inl ⟨by simp [RingState.taken, place, ConsumerPc.inFlight], False.elim⟩
      case skipPadding =>
        cases stepped
        exact Or.inl ⟨by simp [RingState.taken, place, ConsumerPc.inFlight], False.elim⟩
      case loadHead =>
        cases stepped
        refine Or.inl ⟨?_, False.elim⟩
        simp only [RingState.taken, place]
        split <;> rfl
      case readHeader =>
        cases stepped
        refine Or.inl ⟨?_, False.elim⟩
        simp only [RingState.taken, place]
        split
        · rfl
        · rw [check_length_in_flight]
          rfl
      case readBody =>
        cases stepped
        refine Or.inl ⟨?_, False.elim⟩
        simp only [RingState.taken, place]
        split <;> rfl
  | callPop maxSize result place =>
      rw [place] at busy
      cases busy
  | attachConsumer place =>
      refine Or.inl ⟨by simp [RingState.taken, place, ConsumerPc.inFlight], ?_⟩
      rw [place]
      exact False.elim
  | producer next moved => cases moved <;> exact Or.inl ⟨rfl, id⟩
  | _ => exact Or.inl ⟨rfl, id⟩

theorem failed_push_adds_nothing {start final : RingState} {code : Errno}
    (window : PushWindow start final) (failed : final.producer = .idle (some (.error code))) :
    final.pushed = start.pushed := by
  obtain ⟨call, entered, called, path⟩ := window
  have unchanged : entered.pushed = start.pushed := by
    cases ring_step_cases called
    rfl
  have held : final.pushed = start.pushed ∨ final.producer = .idle (some (.ok ())) := by
    clear failed
    induction path with
    | refl => exact Or.inl unchanged
    | tail _ stepped ih =>
        obtain ⟨action, stepped⟩ := stepped
        obtain ⟨busy, stepped⟩ := Machine.guarded_step stepped
        rcases ih with same | returned
        · rcases pushed_changes_on_success stepped with kept | succeeded
          · exact Or.inl (kept.trans same)
          · exact Or.inr succeeded
        · simp [returned, ProducerPc.isIdle] at busy
  rcases held with same | succeeded
  · exact same
  · simp [failed] at succeeded

theorem serving_foreign {state next : RingState} {action : RingAction}
    (serving : state.producer.serving = true) (stepped : ringStep state action = some next) :
    action.entersProducer = false := by
  cases ring_step_cases stepped with
  | attachProducer place =>
      rw [place] at serving
      cases serving
  | callProducer call result place =>
      rw [place] at serving
      cases serving
  | _ => rfl

theorem entered_continues {start entered : RingState} {call : ProducerCall} (sends : call.sends = true)
    (called : ringStep start (.callProducer call) = some entered) :
    Continues call.record entered.producer ∧ entered.pushed = start.pushed := by
  cases ring_step_cases called with
  | callProducer call result place =>
      refine ⟨?_, rfl⟩
      cases call with
      | push call =>
          exact start_push_continues start.producerCapacity (.direct call)
      | waitWritable => cases sends
      | pushScatterBlocking segs =>
          exact Or.inl ⟨rfl, rfl⟩

/-- A push that returns 0 has added its record and nothing else. -/
theorem served_push_adds_record {start final : RingState} {call : ProducerCall}
    (window : CallWindow call start final) (sends : call.sends = true)
    (served : final.producer = .idle (some (.ok ()))) :
    final.pushed = start.pushed ++ [call.record] := by
  obtain ⟨entered, called, path⟩ := window
  have held : (Continues call.record final.producer ∧ final.pushed = start.pushed) ∨
      (final.producer = .idle (some (.ok ())) ∧
        final.pushed = start.pushed ++ [call.record]) := by
    clear served
    induction path with
    | refl => exact Or.inl (entered_continues sends called)
    | tail _ stepped ih =>
        obtain ⟨action, stepped⟩ := stepped
        obtain ⟨busy, stepped⟩ := Machine.guarded_step stepped
        rcases ih with ⟨⟨serving, holds⟩ | ⟨code, failed⟩, same⟩ | ⟨returned, _⟩
        · cases serving_step serving (serving_foreign serving stepped) stepped with
          | continued place pushed head =>
              rw [holds] at place
              exact Or.inl ⟨place, pushed.trans same⟩
          | returned place pushed =>
              rw [holds, same] at pushed
              exact Or.inr ⟨place, pushed⟩
        · simp [failed, ProducerPc.isIdle] at busy
        · simp [returned, ProducerPc.isIdle] at busy
  rcases held with ⟨⟨serving, _⟩ | ⟨code, failed⟩, _⟩ | ⟨_, pushed⟩
  · rw [served] at serving
    cases serving
  · rw [served] at failed
    cases failed
  · exact pushed

/-- A payload is recorded as popped by the step that returns it. -/
theorem popped_with_result {state next : RingState} {action : RingAction}
    (busy : state.consumer.isIdle = false) (stepped : ringStep state action = some next) :
    (next.popped = state.popped ∧ ∀ payload, next.consumer ≠ .idle (some (.ok payload))) ∨
      ∃ payload, next.consumer = .idle (some (.ok payload)) ∧
        next.popped = state.popped ++ [payload] := by
  have running : ∀ payload, state.consumer ≠ .idle (some (.ok payload)) := by
    intro payload idle
    rw [idle] at busy
    cases busy
  cases ring_step_cases stepped with
  | consumer next stepped =>
      cases place : state.consumer <;> simp only [consumerStep, place] at stepped
      case detached => cases stepped
      case idle => cases stepped
      case loadTail =>
        cases stepped
        exact Or.inl ⟨rfl, by simp⟩
      case loadHead =>
        cases stepped
        refine Or.inl ⟨rfl, ?_⟩
        dsimp only
        split <;> simp
      case readHeader =>
        cases stepped
        refine Or.inl ⟨rfl, ?_⟩
        dsimp only [checkLength]
        split_ifs <;> simp
      case skipPadding =>
        cases stepped
        exact Or.inl ⟨rfl, by simp⟩
      case readBody =>
        cases stepped
        refine Or.inl ⟨rfl, ?_⟩
        dsimp only
        split <;> simp
      case storeTail payload =>
        split at stepped <;> cases stepped
        · exact Or.inl ⟨rfl, by simp⟩
        · exact Or.inr ⟨payload, rfl, rfl⟩
      case wakeExchange payload =>
        split at stepped <;> cases stepped
        · exact Or.inr ⟨payload, rfl, rfl⟩
        · exact Or.inl ⟨rfl, by simp⟩
      case wakeFutex payload =>
        cases stepped
        exact Or.inr ⟨payload, rfl, rfl⟩
  | callPop maxSize result place =>
      rw [place] at busy
      cases busy
  | attachConsumer place => exact Or.inl ⟨rfl, by simp⟩
  | producer next moved => cases moved <;> exact Or.inl ⟨rfl, running⟩
  | _ => exact Or.inl ⟨rfl, running⟩

theorem served_pop_takes_payload {start final : RingState} {payload : List UInt8}
    (window : PopWindow start final) (served : final.consumer = .idle (some (.ok payload))) :
    final.popped = start.popped ++ [payload] := by
  obtain ⟨maxSize, entered, called, path⟩ := window
  have held : (final.popped = start.popped ∧
        ∀ payload, final.consumer ≠ .idle (some (.ok payload))) ∨
      ∃ payload, final.consumer = .idle (some (.ok payload)) ∧
        final.popped = start.popped ++ [payload] := by
    clear served
    induction path with
    | refl =>
        cases ring_step_cases called with
        | callPop maxSize result place => exact Or.inl ⟨rfl, by simp⟩
    | tail _ stepped ih =>
        obtain ⟨action, stepped⟩ := stepped
        obtain ⟨busy, stepped⟩ := Machine.guarded_step stepped
        rcases ih with ⟨same, _⟩ | ⟨payload, returned, _⟩
        · rw [← same]
          exact popped_with_result (by simpa using busy) stepped
        · simp [returned, ConsumerPc.isIdle] at busy
  rcases held with ⟨_, running⟩ | ⟨answer, returned, popped⟩
  · exact absurd served (running payload)
  · rw [served] at returned
    cases returned
    exact popped

theorem failed_pop_takes_nothing {start final : RingState} {code : Errno}
    (window : PopWindow start final) (failed : final.consumer = .idle (some (.error code))) :
    final.taken = start.taken := by
  obtain ⟨maxSize, entered, called, path⟩ := window
  have unchanged : entered.taken = start.taken := by
    cases ring_step_cases called with
    | callPop maxSize result place => simp [RingState.taken, place, ConsumerPc.inFlight]
  have held : final.taken = start.taken ∨ final.consumer.committed := by
    clear failed
    induction path with
    | refl => exact Or.inl unchanged
    | tail _ stepped ih =>
        obtain ⟨action, stepped⟩ := stepped
        obtain ⟨busy, stepped⟩ := Machine.guarded_step stepped
        have running := taken_changes_on_success (by simpa using busy) stepped
        rcases ih with same | committed
        · rcases running with ⟨kept, _⟩ | succeeded
          · exact Or.inl (kept.trans same)
          · exact Or.inr succeeded
        · rcases running with ⟨_, stays⟩ | succeeded
          · exact Or.inr (stays committed)
          · exact Or.inr succeeded
  rcases held with same | committed
  · exact same
  · simp [failed, ConsumerPc.committed] at committed

theorem ring_refines_fifo {capacity : RingCapacity} {state : RingState}
    (reached : (boundedRing capacity).Reachable state) :
    (state.object.head - state.object.tail).toNat ≤ capacity.bytes ∧
      (∃ head tail slots, state.object.head = cursor head ∧ state.object.tail = cursor tail ∧
        tail ≤ head ∧ head ≤ tail + capacity.bytes ∧
        Parses capacity.bytes state.object.data tail slots head ∧
        state.pushed = state.taken ++ payloads slots) ∧
      state.popped <+: state.pushed ∧
      (∀ final code, PushWindow state final →
        final.producer = .idle (some (.error code)) → final.pushed = state.pushed) ∧
      (∀ final code, PopWindow state final →
        final.consumer = .idle (some (.error code)) → final.taken = state.taken) ∧
      (∀ final call, CallWindow call state final → call.sends = true →
        final.producer = .idle (some (.ok ())) →
          final.pushed = state.pushed ++ [call.record]) ∧
      (∀ final payload, PopWindow state final →
        final.consumer = .idle (some (.ok payload)) →
          final.popped = state.popped ++ [payload]) := by
  have same := bounded_ring_capacity reached
  obtain ⟨head, tail, slots, inv, conserved⟩ := reachable_ring_inv reached
  have room := inv.room
  have parsed := inv.parsed
  have used := inv.used_toNat
  rw [same] at room parsed
  refine ⟨by omega, ⟨head, tail, slots, inv.headWord, inv.tailWord, inv.ordered, room, parsed,
    conserved⟩, ?_, ?_, ?_, ?_, ?_⟩
  · rw [conserved, RingState.taken, List.append_assoc]
    exact List.prefix_append _ _
  · intro final code window failed
    exact failed_push_adds_nothing window failed
  · intro final code window failed
    exact failed_pop_takes_nothing window failed
  · intro final call window sends served
    exact served_push_adds_record window sends served
  · intro final payload window served
    exact served_pop_takes_payload window served

def pushPopSchedule : List RingAction :=
  .callProducer (.push (.push (some [7]))) :: List.replicate 8 .producer ++
    .callPop 16 :: List.replicate 9 .consumer

theorem ring_refines_fifo_push_pop :
    ∃ state, (boundedRing page).run (freshRing page fun _ => 255) pushPopSchedule = some state ∧
      state.popped = [[7]] ∧
      (state.object.head - state.object.tail).toNat ≤ page.bytes ∧
      (∃ head tail slots, state.object.head = cursor head ∧ state.object.tail = cursor tail ∧
        tail ≤ head ∧ head ≤ tail + page.bytes ∧
        Parses page.bytes state.object.data tail slots head ∧
        state.pushed = state.taken ++ payloads slots) ∧
      state.popped <+: state.pushed ∧
      ∃ served, CallWindow (.push (.push (some [7]))) (freshRing page fun _ => 255) served ∧
        served.producer = .idle (some (.ok ())) ∧ served.pushed = [] ++ [[7]] := by
  have delivered : ((boundedRing page).run (freshRing page fun _ => 255) pushPopSchedule).map
      RingState.popped = some [[7]] := by decide
  obtain ⟨state, ran, popped⟩ := Option.map_eq_some_iff.mp delivered
  have reached := Machine.reachable_run (boundedRing page) ⟨_, rfl⟩ ran
  obtain ⟨bound, parsed, ordered, _⟩ := ring_refines_fifo reached
  obtain ⟨entered, called, served, pushes, returned⟩ : ∃ entered,
      ringStep (freshRing page fun _ => 255) (.callProducer (.push (.push (some [7])))) =
          some entered ∧
        ∃ served, ((ringMachine page).guarded fun state _ => !state.producer.isIdle).run entered
            (List.replicate 8 .producer) = some served ∧
          served.producer = .idle (some (.ok ())) := ⟨_, rfl, _, rfl, rfl⟩
  have window : CallWindow (.push (.push (some [7]))) (freshRing page fun _ => 255) served :=
    ⟨entered, called, Machine.reachable_from_run pushes⟩
  have first := ring_refines_fifo (Machine.reachable_initial
    (⟨fun _ => 255, rfl⟩ : (boundedRing page).initial (freshRing page fun _ => 255)))
  obtain ⟨_, _, _, _, _, sent, _⟩ := first
  exact ⟨state, ran, popped, bound, parsed, ordered, served, window, returned,
    sent served _ window rfl returned⟩

end AdaptIpc.Ring

import AdaptIpc.Ring.Invariant

/-!
# A pop in progress

What a pop into a buffer of `cap` bytes may answer, whatever the producer does
meanwhile: a record that fits the buffer and has been taken, or nothing taken and,
where the answer is `-EMSGSIZE`, a first record that does not fit and stays.
-/

namespace AdaptIpc.Ring

open AdaptIpc.Library.Bytes AdaptIpc.Library.Cursor

set_option autoImplicit false

def FrontExceeds (cap : Nat) (slots : List Slot) : Prop :=
  ∃ payload rest, slots = .record payload :: rest ∧ cap < payload.length

/-- A pop called when `before` had been popped, by the place the consumer is in. -/
def PopAt (cap : Nat) (before : List (List UInt8)) (slots : List Slot)
    (popped : List (List UInt8)) : ConsumerPc → Prop
  | .detached => False
  | .idle none => False
  | .idle (some (.ok payload)) => payload.length ≤ cap ∧ popped = before ++ [payload]
  | .idle (some (.error code)) =>
      (code = .emsgsize → FrontExceeds cap slots) ∧ popped = before
  | .loadTail maxSize => maxSize = cap ∧ popped = before
  | .loadHead maxSize _ => maxSize = cap ∧ popped = before
  | .readHeader maxSize _ _ _ => maxSize = cap ∧ popped = before
  | .skipPadding maxSize _ => maxSize = cap ∧ popped = before
  | .readBody _ _ len _ => len ≤ cap ∧ popped = before
  | .storeTail _ _ payload => payload.length ≤ cap ∧ popped = before
  | .wakeExchange payload => payload.length ≤ cap ∧ popped = before
  | .wakeFutex payload => payload.length ≤ cap ∧ popped = before

section Pops

variable {state next : RingState} {cap : Nat} {before : List (List UInt8)} {slots : List Slot}
variable {head tail : Nat}

theorem call_pop_at {result : Option (Except Errno (List UInt8))}
    (idle : state.consumer = .idle result) (called : callPop state cap = some next) :
    PopAt cap state.popped slots next.popped next.consumer := by
  simp only [callPop, idle, Option.some.injEq] at called
  rw [← called]
  exact ⟨rfl, rfl⟩

theorem front_exceeds_append (more : List Slot) (exceeds : FrontExceeds cap slots) :
    FrontExceeds cap (slots ++ more) := by
  obtain ⟨payload, rest, front, large⟩ := exceeds
  exact ⟨payload, rest ++ more, by rw [front]; rfl, large⟩

theorem pop_at_extends {popped : List (List UInt8)} {pc : ConsumerPc}
    (place : PopAt cap before slots popped pc) : before <+: popped := by
  cases pc with
  | detached => exact place.elim
  | idle result =>
      cases result with
      | none => exact place.elim
      | some answer =>
          cases answer with
          | ok payload => exact place.2 ▸ List.prefix_append _ _
          | error code => exact place.2 ▸ List.prefix_refl _
  | _ => exact place.2 ▸ List.prefix_refl _

theorem pop_at_before (place : PopAt cap before slots state.popped state.consumer) :
    before.length ≤ state.taken.length := by
  have shorter := (pop_at_extends place).length_le
  rw [RingState.taken, List.length_append]
  exact Nat.le_trans shorter (Nat.le_add_right _ _)

/-- A pop that answers an error has left the first record in place. -/
theorem pop_at_effect {head' tail' : Nat} {slots' : List Slot}
    (effect : RingEffect state next head tail slots head' tail' slots')
    (held : PopAt cap before slots state.popped state.consumer)
    (place : PopAt cap before slots next.popped next.consumer) :
    PopAt cap before slots' next.popped next.consumer := by
  cases here : next.consumer with
  | idle result =>
      rw [here] at place
      cases result with
      | none => exact place
      | some answer =>
          cases answer with
          | ok payload => exact place
          | error code =>
              refine ⟨fun refused => ?_, place.2⟩
              have exceeds := place.1 refused
              cases effect with
              | quiet pushed taken footprint => exact exceeds
              | enqueue more payload single pushed taken span spans shape footprint =>
                  exact front_exceeds_append more exceeds
              | discard pushed taken footprint span =>
                  obtain ⟨payload, rest, front, _⟩ := exceeds
                  cases front
              | dequeue payload pushed taken footprint span =>
                  have grown := congrArg List.length taken
                  have least := pop_at_before held
                  simp only [RingState.taken, here, place.2, ConsumerPc.inFlight,
                    List.length_append, List.length_nil, List.length_singleton] at grown least
                  omega
  | _ =>
      rw [here] at place
      exact place

theorem check_length_pop_at {slot : Slot} {rest : List Slot} {loaded seen : UInt64}
    (front : slots = slot :: rest) (fits : SlotFits state.producerCapacity.bytes tail slot) :
    PopAt cap before slots before (checkLength cap loaded seen slot.lengthWord) := by
  cases slot with
  | padding => exact ⟨rfl, rfl⟩
  | record payload =>
      have nonempty : payload.length ≠ wrapSentinelLen :=
        fun zero => fits.1 (List.length_eq_zero_iff.mp zero)
      simp only [checkLength, Slot.lengthWord, nonempty, if_false]
      by_cases large : cap < payload.length
      · simp only [large, if_true]
        exact ⟨fun _ => ⟨payload, rest, front, large⟩, rfl⟩
      · simp only [large, if_false]
        exact ⟨Nat.not_lt.mp large, rfl⟩

theorem consumer_pop_at (inv : RingInv state head tail slots)
    (place : PopAt cap before slots state.popped state.consumer)
    (stepped : consumerStep state = some next) :
    PopAt cap before slots next.popped next.consumer := by
  cases consumer_step_cases inv stepped with
  | loadTail maxSize here =>
      rw [here] at place
      exact place
  | foundEmpty maxSize here empty =>
      rw [here] at place
      exact ⟨fun refused => (by cases refused), place.2⟩
  | foundSlot maxSize here saw =>
      rw [here] at place
      exact place
  | headerByte maxSize seen got here saw more =>
      rw [here] at place
      exact place
  | headerRead maxSize seen got here saw =>
      rw [here] at place
      rw [place.1, place.2]
      exact check_length_pop_at rfl inv.parsed.1.1
  | skipPadding maxSize here =>
      rw [here] at place
      exact place
  | bodyByte seen got here saw more =>
      rw [here] at place
      exact place
  | bodyRead seen got here saw =>
      rw [here] at place
      exact place
  | takeLow seen here =>
      rw [here] at place
      exact place
  | takeHigh seen here saw above =>
      rw [here] at place
      exact ⟨place.1, congrArg (· ++ [_]) place.2⟩
  | flagClear payload here clear =>
      rw [here] at place
      exact ⟨place.1, congrArg (· ++ [payload]) place.2⟩
  | flagSet payload here =>
      rw [here] at place
      exact place
  | wake payload here =>
      rw [here] at place
      exact ⟨place.1, congrArg (· ++ [payload]) place.2⟩

theorem ring_step_pop_at {action : RingAction} (inv : RingInv state head tail slots)
    (held : PopAt cap before slots state.popped state.consumer)
    (short : action.recordsBelow (2 ^ 32) = true) (foreign : action.entersConsumer = false)
    (stepped : ringStep state action = some next) :
    ∃ head' tail' slots', RingInv next head' tail' slots' ∧
      RingEffect state next head tail slots head' tail' slots' ∧
      PopAt cap before slots' next.popped next.consumer := by
  obtain ⟨head', tail', slots', kept, effect⟩ := ring_step_inv inv short stepped
  refine ⟨head', tail', slots', kept, effect, pop_at_effect effect held ?_⟩
  by_cases own : action = .consumer
  · subst own
    exact consumer_pop_at inv held stepped
  · obtain ⟨consumer, popped⟩ := keeps_consumer foreign own stepped
    rw [consumer, popped]
    exact held

end Pops

end AdaptIpc.Ring

import AdaptIpc.Ring.Wedge
import AdaptIpc.Ring.Call

/-!
# Accesses to the data region

The data region has exactly `capacity` bytes. Records never cross its end, but
the four bytes of a sentinel are stored and read at the cursor, which can be
anywhere: with fewer than four bytes left before the end of the buffer they run
over it. In a run in which every padding has room for its sentinel, every store
of a push and every load of a pop stays inside.
-/

namespace AdaptIpc.Ring

open AdaptIpc.Library.Bytes AdaptIpc.Library.Cursor AdaptIpc.Library.Transition

set_option autoImplicit false

/-- The bytes of the data region that the thread's next step stores to or loads. -/
def RingState.accesses (state : RingState) : RingAction → List Nat
  | .producer =>
      match state.producer with
      | .copy _ (write :: _) _ => [write.1]
      | _ => []
  | .consumer =>
      match state.consumer with
      | .readHeader _ tail _ got =>
          [(tail &&& (state.consumerCapacity.size - 1)).toNat + got.length]
      | .readBody tail _ _ got =>
          [(tail &&& (state.consumerCapacity.size - 1)).toNat + shmRingMsgHdrSize.toNat +
            got.length]
      | _ => []
  | _ => []

def InRegion (state : RingState) : Prop :=
  ∀ action, ∀ address ∈ state.accesses action, address < state.producerCapacity.bytes

/-- The space check about to be made does not reserve a padding shorter than the
sentinel. -/
def sentinelFits (state : RingState) : RingAction → Bool
  | .producer =>
      match state.producer with
      | .loadTail _ need head =>
          match reserve state.producerCapacity head state.object.tail need with
          | .ok slot => !slot.wrap || decide (4 ≤ slot.contiguous)
          | .error _ => true
      | _ => true
  | _ => true

def sentinelGuard (state : RingState) (action : RingAction) : Bool :=
  action.recordsBelow (2 ^ 32) && sentinelFits state action

/-- Every padding of the slots holds its sentinel. -/
def Roomy (size : Nat) : Nat → List Slot → Prop
  | _, [] => True
  | position, slot :: rest =>
      (slot = .padding → position % size + 4 ≤ size) ∧ Roomy size (slotEnd size position slot) rest

theorem roomy_append {size position : Nat} {first second : List Slot}
    (before : Roomy size position first) (after : Roomy size (spanEnd size position first) second) :
    Roomy size position (first ++ second) := by
  induction first generalizing position with
  | nil => exact after
  | cons slot rest ih => exact ⟨before.1, ih before.2 after⟩

/-- A record placed at `head` leaves room for the sentinel in front of it. -/
def RoomAt (size head : Nat) (record : List UInt8) : Prop :=
  Wraps size head (record.length + 4) → head % size + 4 ≤ size

theorem roomy_record_slots {size head : Nat} {record : List UInt8} (room : RoomAt size head record) :
    Roomy size head (recordSlots size head record) := by
  unfold recordSlots
  split
  · next crosses =>
    refine ⟨fun _ => room crosses, ?_, trivial⟩
    intro record
    cases record
  · refine ⟨?_, trivial⟩
    intro record
    cases record

theorem block_inside {size address : Nat} {bytes : List UInt8} {write : Store}
    (fits : address + bytes.length ≤ size) (member : write ∈ blockStores address bytes) :
    write.1 < size := by
  obtain ⟨offset, bound, target, _⟩ := mem_block_stores member
  omega

theorem record_stores_inside {size head : Nat} {record : List UInt8} (positive : 0 < size)
    (fits : record.length + 4 ≤ size) (room : RoomAt size head record) {write : Store}
    (member : write ∈ recordStores size head record) : write.1 < size := by
  have remainder := Nat.mod_lt head positive
  unfold recordStores at member
  split at member
  · next crosses =>
    have sentinel := room crosses
    rcases List.mem_append.mp member with padding | placed
    · exact block_inside (by simp only [le_bytes_length]; omega) padding
    · exact block_inside (by simp only [frame_bytes_length]; omega) placed
  · next straight =>
    unfold Wraps at straight
    exact block_inside (by simp only [frame_bytes_length]; omega) member

def StoresInside (capacity : RingCapacity) (head : Nat) : ProducerPc → Prop
  | .copy job todo _ =>
      (∀ write ∈ todo, write.1 < capacity.bytes) ∧ RoomAt capacity.bytes head job.call.record
  | _ => True

theorem StoresInside.elsewhere {capacity : RingCapacity} {head : Nat} {pc : ProducerPc}
    (place : ∀ job todo newHead, pc ≠ .copy job todo newHead) : StoresInside capacity head pc := by
  cases pc with
  | copy job todo newHead => exact absurd rfl (place job todo newHead)
  | _ => trivial

theorem after_push_elsewhere (job : PushJob) (rc : Status) :
    ∀ other todo newHead, afterPush job rc ≠ .copy other todo newHead := by
  intro other todo newHead
  cases job with
  | direct call => simp [afterPush]
  | blocking segs =>
      simp only [afterPush]
      split <;> simp

theorem start_push_elsewhere (capacity : RingCapacity) (job : PushJob) :
    ∀ other todo newHead, startPush capacity job ≠ .copy other todo newHead := by
  intro other todo newHead
  unfold startPush
  split
  · exact after_push_elsewhere job _ other todo newHead
  · simp

theorem after_wait_elsewhere (capacity : RingCapacity) (job : WaitJob) (rc : Status) :
    ∀ other todo newHead, afterWait capacity job rc ≠ .copy other todo newHead := by
  intro other todo newHead
  unfold afterWait
  split
  · simp
  · split
    · simp
    · exact start_push_elsewhere capacity _ other todo newHead
  · split
    · simp
    · exact start_push_elsewhere capacity _ other todo newHead

theorem call_start_elsewhere (capacity : RingCapacity) (call : ProducerCall) :
    ∀ other todo newHead, call.start capacity ≠ .copy other todo newHead := by
  intro other todo newHead
  cases call with
  | push call => exact start_push_elsewhere capacity _ other todo newHead
  | waitWritable => simp [ProducerCall.start]
  | pushScatterBlocking segs => simp [ProducerCall.start]

section Steps

variable {state next : RingState} {head tail head' tail' : Nat} {slots slots' : List Slot}

theorem check_space_inside {job : PushJob} {need : UInt64}
    (short : job.call.record.length < 2 ^ 32)
    (accepted : job.call.need state.producerCapacity = .ok need) {tailWord : UInt64}
    (fits : ∀ slot, reserve state.producerCapacity (cursor head) tailWord need = .ok slot →
      slot.wrap = true → 4 ≤ slot.contiguous) :
    StoresInside state.producerCapacity head
      (checkSpace state job need (cursor head) tailWord) := by
  obtain ⟨needWord, nonempty, within⟩ := need_ok short accepted
  have small := state.producerCapacity.bytes_le
  have remainder := Nat.mod_lt head state.producerCapacity.bytes_positive
  subst needWord
  unfold checkSpace
  cases reserved : reserve state.producerCapacity (cursor head) tailWord
      (cursor (job.call.record.length + 4)) with
  | error code => exact StoresInside.elsewhere (after_push_elsewhere job _)
  | ok slot =>
      obtain ⟨pos, contiguous, wrap, required⟩ := reserve_slot within reserved
      have room : RoomAt state.producerCapacity.bytes head job.call.record := by
        intro crosses
        have enough := fits slot reserved (by rw [wrap]; exact decide_eq_true crosses)
        rw [contiguous, UInt64.le_iff_toNat_le, cursor_toNat _ (by omega)] at enough
        have four : (4 : UInt64).toNat = 4 := rfl
        omega
      simp only [plan_eq state.producerCapacity nonempty within pos wrap required]
      exact ⟨fun write member =>
        record_stores_inside state.producerCapacity.bytes_positive within room member, room⟩

/-- A producer is copying because it was, or because the space check has just passed. -/
theorem copy_reached {action : RingAction} {job : PushJob} {todo : List Store} {newHead : UInt64}
    (stepped : ringStep state action = some next) (place : next.producer = .copy job todo newHead) :
    next.pushed = state.pushed ∧
      ((∃ before, state.producer = .copy job before newHead ∧ ∀ write ∈ todo, write ∈ before) ∨
        ∃ need loaded, action = .producer ∧ state.producer = .loadTail job need loaded ∧
          next.producer = checkSpace state job need loaded state.object.tail) := by
  by_cases outside : action.entersProducer = false ∧ action ≠ .producer
  · obtain ⟨touch, pushed, _, _⟩ := outside_step outside.1 outside.2 stepped
    refine ⟨pushed, Or.inl ⟨todo, ?_, fun _ member => member⟩⟩
    cases touch with
    | untouched same => exact same.symm.trans place
    | woken wait asleep resumed =>
        rw [resumed] at place
        cases place
    | interrupted wait asleep ended =>
        rw [ended] at place
        exact absurd place (after_wait_elsewhere _ wait _ job todo newHead)
  cases ring_step_cases stepped with
  | attachProducer detached => cases place
  | callProducer call result idle =>
      exact absurd place (call_start_elsewhere _ call job todo newHead)
  | producer next moved =>
      cases moved with
      | loadTail other need loaded before =>
          have started := after_push_elsewhere other
          simp only [checkSpace] at place
          split at place
          · exact absurd place (started _ job todo newHead)
          · cases place
            exact ⟨rfl, Or.inr ⟨need, loaded, rfl, before, rfl⟩⟩
      | store other write rest limit before =>
          cases place
          exact ⟨rfl, Or.inl ⟨_, before, fun later member => List.mem_cons_of_mem _ member⟩⟩
      | publish other limit before =>
          exact absurd place (after_push_elsewhere other _ job todo newHead)
      | writable wait loaded before below =>
          exact absurd place (after_wait_elsewhere _ wait _ job todo newHead)
      | disarm wait before =>
          exact absurd place (after_wait_elsewhere _ wait _ job todo newHead)
      | _ => cases place
  | _ => exact absurd ⟨rfl, by simp⟩ outside

theorem step_stores_inside {action : RingAction} (inv : RingInv state head tail slots)
    (inside : StoresInside state.producerCapacity head state.producer)
    (fits : sentinelFits state action = true) (stepped : ringStep state action = some next)
    (effect : RingEffect state next head tail slots head' tail' slots') :
    StoresInside state.producerCapacity head' next.producer := by
  cases place : next.producer with
  | copy job todo newHead =>
      obtain ⟨pushed, before⟩ := copy_reached stepped place
      rw [effect.head_same pushed]
      rcases before with ⟨earlier, copying, fewer⟩ | ⟨need, loaded, acted, checking, checked⟩
      · rw [copying] at inside
        exact ⟨fun write member => inside.1 write (fewer write member), inside.2⟩
      · have own := inv.producer
        have short := inv.short
        rw [checking] at own short
        rw [← place, checked, own.2]
        apply check_space_inside short own.1
        intro slot reserved wraps
        rw [acted] at fits
        simp only [sentinelFits, checking, own.2, reserved, wraps, Bool.not_true, Bool.false_or,
          decide_eq_true_eq] at fits
        exact fits
  | _ => trivial

theorem effect_roomy (roomy : Roomy state.producerCapacity.bytes tail slots)
    (inv : RingInv state head tail slots)
    (room : ∀ payload, next.pushed = state.pushed ++ [payload] →
      RoomAt state.producerCapacity.bytes head payload)
    (effect : RingEffect state next head tail slots head' tail' slots') :
    Roomy state.producerCapacity.bytes tail' slots' := by
  cases effect with
  | quiet pushed taken footprint => exact roomy
  | enqueue more payload single pushed taken span spans shape footprint =>
      apply roomy_append roomy
      rw [parses_span inv.parsed, shape]
      exact roomy_record_slots (room payload pushed)
  | discard pushed taken footprint span =>
      rw [span]
      exact roomy.2
  | dequeue payload pushed taken footprint span =>
      rw [span]
      exact roomy.2

structure RegionInv (state : RingState) (head tail : Nat) (slots : List Slot) : Prop where
  inv : RingInv state head tail slots
  roomy : Roomy state.producerCapacity.bytes tail slots
  inside : StoresInside state.producerCapacity head state.producer

theorem RegionInv.step {action : RingAction} (held : RegionInv state head tail slots)
    (allowed : sentinelGuard state action = true) (stepped : ringStep state action = some next) :
    ∃ head' tail' slots', RegionInv next head' tail' slots' := by
  simp only [sentinelGuard, Bool.and_eq_true] at allowed
  obtain ⟨head', tail', slots', kept, effect⟩ := ring_step_inv held.inv allowed.1 stepped
  have capacity := (same_capacity_step stepped).1
  refine ⟨head', tail', slots', kept, ?_, ?_⟩
  · rw [capacity]
    apply effect_roomy held.roomy held.inv _ effect
    intro payload pushed
    rcases published_from_copy stepped with same | ⟨job, newHead, _, copying, _, published⟩
    · rw [same] at pushed
      exact absurd (congrArg List.length pushed) (by simp)
    · have inside := held.inside
      rw [copying] at inside
      rw [published] at pushed
      rw [← List.singleton_inj.mp (List.append_cancel_left pushed)]
      exact inside.2
  · rw [capacity]
    exact step_stores_inside held.inv held.inside allowed.2 stepped effect

/-- The invariant keeps both threads inside the region. -/
theorem RegionInv.in_region (held : RegionInv state head tail slots) : InRegion state := by
  have capacities := held.inv.capacities
  have positive := state.producerCapacity.bytes_positive
  have small := state.producerCapacity.bytes_le
  have remainder := Nat.mod_lt tail positive
  have masked : (cursor tail &&& (state.consumerCapacity.size - 1)).toNat =
      tail % state.producerCapacity.bytes := by
    rw [capacities, state.producerCapacity.masked, cursor_toNat _ (by omega)]
  have parsed := held.inv.parsed
  have roomy := held.roomy
  intro action address member
  cases action with
  | producer =>
      have inside := held.inside
      simp only [RingState.accesses] at member
      split at member
      · next job write rest newHead copying =>
        rw [copying] at inside
        rw [List.mem_singleton.mp member]
        exact inside.1 write (by simp)
      · cases member
  | consumer =>
      have own := held.inv.consumer
      simp only [RingState.accesses] at member
      split at member
      · next maxSize loaded seen got reading =>
        rw [reading] at own
        obtain ⟨word, saw, bound, slot, rest, front, read⟩ := own
        subst word front
        rw [List.mem_singleton.mp member, masked]
        cases slot with
        | padding =>
            have room := roomy.1 rfl
            omega
        | record payload =>
            have fits := parsed.1.1.2.2
            omega
      · next loaded seen len got reading =>
        rw [reading] at own
        obtain ⟨word, saw, bound, payload, rest, front, length, read⟩ := own
        subst word front length
        have header : shmRingMsgHdrSize.toNat = 4 := rfl
        have fits := parsed.1.1.2.2
        rw [List.mem_singleton.mp member, masked, header]
        omega
      · cases member
  | _ => cases member

end Steps

/-- In every run in which records are below 2^32 bytes and paddings hold their
sentinel, no thread ever accesses a byte beyond the data region. -/
theorem accesses_in_region (capacity : RingCapacity) {state : RingState}
    (reached : ((ringMachine capacity).guarded sentinelGuard).Reachable state) :
    InRegion state := by
  have held : ∃ head tail slots, RegionInv state head tail slots := by
    refine Machine.invariant_of_reachable ((ringMachine capacity).guarded sentinelGuard)
      (fun state => ∃ head tail slots, RegionInv state head tail slots) ?_ ?_ reached
    · rintro start ⟨data, rfl⟩
      exact ⟨0, 0, [], fresh_ring_inv capacity data, trivial, trivial⟩
    · rintro before action next ⟨head, tail, slots, inv⟩ stepped
      obtain ⟨allowed, stepped⟩ := Machine.guarded_step stepped
      exact inv.step allowed stepped
  obtain ⟨head, tail, slots, inv⟩ := held
  exact inv.in_region

theorem accesses_in_region_push_pop :
    ∃ state, ((ringMachine page).guarded sentinelGuard).run (freshRing page fun _ => 255)
        pushPopSchedule = some state ∧ state.popped = [[7]] ∧ InRegion state := by
  have delivered : (((ringMachine page).guarded sentinelGuard).run (freshRing page fun _ => 255)
      pushPopSchedule).map RingState.popped = some [[7]] := by decide
  obtain ⟨state, ran, popped⟩ := Option.map_eq_some_iff.mp delivered
  have reached := Machine.reachable_run ((ringMachine page).guarded sentinelGuard) ⟨_, rfl⟩ ran
  exact ⟨state, ran, popped, accesses_in_region page reached⟩

theorem copy_reaches {capacity : RingCapacity} {state : RingState} {job : PushJob}
    {first rest : List Store} {newHead : UInt64}
    (place : state.producer = .copy job (first ++ rest) newHead) :
    (ringMachine capacity).ReachableFrom state { state with
      object := { state.object with data := applyStores state.object.data first }
      producer := .copy job rest newHead } := by
  induction first generalizing state with
  | nil =>
      rw [List.nil_append] at place
      rw [← place]
      exact Relation.ReflTransGen.refl
  | cons write more ih =>
      let stored : RingState := { state with
        object := { state.object with data := store state.object.data write }
        producer := .copy job (more ++ rest) newHead }
      have stepped : (ringMachine capacity).step state .producer = some stored := by
        simp only [ringMachine, ringStep, producerStep, place, List.cons_append]
        rfl
      have later := @ih stored rfl
      exact Relation.ReflTransGen.head ⟨.producer, stepped⟩ later

theorem push_plans {capacity : RingCapacity} {state : RingState} {result : Option Status}
    {call : PushCall} {need : UInt64} {slot : Reservation}
    (idle : state.producer = .idle result)
    (accepted : call.need state.producerCapacity = .ok need)
    (reserved : reserve state.producerCapacity state.object.head state.object.tail need =
      .ok slot) :
    (ringMachine capacity).ReachableFrom state { state with
      producer := .copy (.direct call)
        (call.plan state.producerCapacity state.object.head need slot).1
        (call.plan state.producerCapacity state.object.head need slot).2 } := by
  have called : (ringMachine capacity).step state (.callProducer (.push call)) =
      some { state with producer := .loadHead (.direct call) need } := by
    have accepted : (PushJob.direct call).call.need state.producerCapacity = .ok need := accepted
    simp only [ringMachine, ringStep, callProducer, idle, ProducerCall.start, startPush, accepted]
  have checked : (ringMachine capacity).step
      { state with producer := .loadTail (.direct call) need state.object.head } .producer =
      some { state with
        producer := .copy (.direct call)
          (call.plan state.producerCapacity state.object.head need slot).1
          (call.plan state.producerCapacity state.object.head need slot).2 } := by
    simp only [ringMachine, ringStep, producerStep, checkSpace, reserved, PushJob.call]
  apply Relation.ReflTransGen.head ⟨_, called⟩
  apply Relation.ReflTransGen.head ⟨.producer, rfl⟩
  exact Relation.ReflTransGen.single ⟨.producer, checked⟩

/-- The whole push, as `runPush` computes it. -/
theorem push_completes {capacity : RingCapacity} {state : RingState} {result : Option Status}
    {call : PushCall} {need : UInt64} {slot : Reservation}
    (idle : state.producer = .idle result)
    (accepted : call.need state.producerCapacity = .ok need)
    (reserved : reserve state.producerCapacity state.object.head state.object.tail need =
      .ok slot) :
    ∃ next : RingState, (ringMachine capacity).ReachableFrom state next ∧
      next.producer = .idle (some (.ok ())) ∧
      next.producerCapacity = state.producerCapacity ∧
      next.object.tail = state.object.tail ∧
      next.object.head = (call.plan state.producerCapacity state.object.head need slot).2 := by
  let stores := (call.plan state.producerCapacity state.object.head need slot).1
  let newHead := (call.plan state.producerCapacity state.object.head need slot).2
  let copied : RingState := { state with
    object := { state.object with data := applyStores state.object.data stores }
    producer := .copy (.direct call) [] newHead }
  have planned := @push_plans capacity state result call need slot idle accepted reserved
  have place : ({ state with producer := .copy (.direct call) stores newHead } : RingState).producer =
      .copy (.direct call) (stores ++ []) newHead := by
    rw [List.append_nil]
  have copies := @copy_reaches capacity _ (.direct call) stores [] newHead place
  refine ⟨{ copied with
      object := { copied.object with head := newHead }
      producer := .idle (some (.ok ()))
      pushed := state.pushed ++ [call.record]
      lastFootprint := newHead - state.object.head }, ?_, rfl, rfl, rfl, rfl⟩
  apply (planned.trans copies).tail
  exact ⟨.producer, rfl⟩

/-- With three bytes left before the end of a 4096-byte buffer, the fourth byte of the
sentinel is stored behind it. -/
theorem sentinel_leaves_region : ∃ state : RingState, (ringMachine page).Reachable state ∧
    state.producerCapacity = page ∧ state.accesses .producer = [4096] ∧ ¬InRegion state := by
  obtain ⟨state, bounded, headWord, tailWord, settled⟩ := page_after_one_byte
  have capacity := bounded_ring_capacity bounded
  have reached : (ringMachine page).Reachable state := Machine.reachable_of_guarded bounded
  have idle : ∃ result, state.producer = .idle result := by
    cases place : state.producer <;> rw [place] at settled <;> cases settled
    exact ⟨_, rfl⟩
  obtain ⟨result, idle⟩ := idle
  -- The first push brings the head to cell 4093.
  have largeNeed : (PushCall.push (some (List.replicate 4084 0))).need state.producerCapacity =
      .ok 4088 := by
    rw [capacity]
    simp only [PushCall.need, shmRingPushNeed, List.length_replicate]
    decide
  have largeSlot : reserve state.producerCapacity state.object.head state.object.tail 4088 =
      .ok { pos := 5, contiguous := 4091, wrap := false, required := 4088 } := by
    rw [capacity, headWord, tailWord]
    decide
  obtain ⟨filled, path, idle, sameCapacity, sameTail, newHead⟩ :=
    @push_completes page state result _ 4088 _ idle largeNeed largeSlot
  have filledCapacity := sameCapacity.trans capacity
  have filledTail := sameTail.trans tailWord
  have filledHead : filled.object.head = 4093 := by
    rw [newHead, headWord]
    rfl
  -- The second one wraps with three bytes of padding.
  have smallNeed : (PushCall.push (some [7])).need filled.producerCapacity = .ok 5 := by
    rw [filledCapacity]
    decide
  have smallSlot : reserve filled.producerCapacity filled.object.head filled.object.tail 5 =
      .ok { pos := 4093, contiguous := 3, wrap := true, required := 8 } := by
    rw [filledCapacity, filledHead, filledTail]
    decide
  have planned := @push_plans page filled _ _ 5 _ idle smallNeed smallSlot
  let inside : List Store := [(4093, 0), (4094, 0), (4095, 0)]
  let beyond : List Store := [(4096, 0), (0, 1), (1, 0), (2, 0), (3, 0), (4, 7)]
  have stores : ((PushCall.push (some [7])).plan filled.producerCapacity filled.object.head 5
      { pos := 4093, contiguous := 3, wrap := true, required := 8 }).1 = inside ++ beyond := by
    rw [filledCapacity, filledHead]
    decide
  rw [stores] at planned
  have written := planned.trans (@copy_reaches page _ _ inside beyond _ rfl)
  refine ⟨_, Machine.reachable_path reached (path.trans written), filledCapacity, rfl, ?_⟩
  intro bounded
  have exceeds := bounded .producer 4096 (by simp [RingState.accesses, beyond])
  simp only [filledCapacity] at exceeds
  exact absurd exceeds (by decide)

end AdaptIpc.Ring

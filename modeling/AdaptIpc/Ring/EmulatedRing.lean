import AdaptIpc.Ring.EmulatedFutex
import AdaptIpc.Library.Progress

/-!
# The ring over the emulated futex

Seen through a view of the waiter, every state of the ring over the emulation is
a state of the ring over the futex: so the records are the same. A wake that has
taken the flag reaches the waiter, and where a sleeper on the futex would be
woken by pops alone, one blocked on the condition variable is too.
-/

namespace AdaptIpc.Ring

open AdaptIpc.Library.Bytes AdaptIpc.Library.Transition

set_option autoImplicit false

/-- The waiter seen from the futex: its check under the mutex is the compare of the
kernel entry, unless the store it read was still its own. -/
def EmuRing.futexPc (state : EmuRing) : ProducerPc :=
  match state.ring.producer, state.wait with
  | .waitEnter job, .parking =>
      if state.ring.flagPending then .waitEnter job else .asleep job
  | .waitEnter job, .waiting => .asleep job
  | .waitEnter job, .relocking => .waitHead job
  | .waitEnter job, .unlocking _ => .waitHead job
  | pc, _ => pc

def EmuRing.futexView (state : EmuRing) : RingState :=
  { state.ring with producer := state.futexPc }

section View

variable {state next : EmuRing} {action : RingAction}

theorem view_outside (outside : state.wait = .outside) : state.futexView = state.ring := by
  have place : state.futexPc = state.ring.producer := by
    unfold EmuRing.futexPc
    rw [outside]
    split <;> first | rfl | simp_all
  rw [EmuRing.futexView, place]

theorem view_moved (ring : RingState) (outside : state.wait = .outside) :
    EmuRing.futexView { state with ring } = ring :=
  @view_outside { state with ring } outside

theorem pop_step_view {ring after : RingState} (pc : ProducerPc)
    (elsewhere : ∀ payload, ¬ ring.consumer.wakesFor payload)
    (moved : consumerStep ring = some after) :
    consumerStep { ring with producer := pc } = some { after with producer := pc } := by
  cases place : ring.consumer <;> simp only [consumerStep, place] at moved ⊢
  case detached => cases moved
  case idle => cases moved
  case wakeExchange payload => exact absurd (Or.inl place) (elsewhere payload)
  case wakeFutex payload => exact absurd (Or.inr place) (elsewhere payload)
  case storeTail =>
    split at moved <;> cases moved <;> simp_all [deliver]
  all_goals
    cases moved
    rfl

/-- The futex ring makes the move, and under the conditions the step was made. -/
structure EmuMatch (state : EmuRing) (action : RingAction) (next : EmuRing) (move : RingAction) :
    Prop where
  records : ∀ bound, move.recordsBelow bound = action.recordsBelow bound
  wakeful : wakefulStep state.ring action = true → wakefulStep state.futexView move = true
  stepped : ringStep state.futexView move = some next.futexView

theorem emu_wait_matches {job : WaitJob} (inv : EmuInv state)
    (place : state.ring.producer = .waitEnter job) (moved : EmuWaitMove state job next) :
    next.futexView = state.futexView ∨ EmuMatch state .producer next .producer := by
  cases moved with
  | refuse outside unready => simp [inv.ready] at unready
  | enter outside ready =>
      left
      simp [EmuRing.futexView, EmuRing.futexPc, place, outside]
  | lock locking free =>
      left
      simp [EmuRing.futexView, EmuRing.futexPc, place, locking]
  | armed checking flag =>
      by_cases pending : state.ring.flagPending = true
      · left
        simp [EmuRing.futexView, EmuRing.futexPc, place, checking, pending]
      · right
        have set : state.ring.object.flowFlag = 1 := by simpa [pending] using flag
        have stored : { state.ring.object with flowFlag := 1 } = state.ring.object := by rw [← set]
        constructor
        · exact fun _ => rfl
        · simp [wakefulStep, EmuRing.futexView, EmuRing.futexPc, place, checking]
        · simp_all [EmuRing.futexView, EmuRing.futexPc, ringStep, producerStep]
  | changed checking flag =>
      right
      constructor
      · exact fun _ => rfl
      · simp [wakefulStep, EmuRing.futexView, EmuRing.futexPc, place, checking]
      · simp_all [EmuRing.futexView, EmuRing.futexPc, ringStep, producerStep]
  | park parking =>
      by_cases pending : state.ring.flagPending = true
      · right
        constructor
        · exact fun _ => rfl
        · simp [wakefulStep, EmuRing.futexView, EmuRing.futexPc, place, parking, pending]
        · simp [EmuRing.futexView, EmuRing.futexPc, ringStep, producerStep, place, parking,
            pending, RingState.released]
      · left
        simp_all [EmuRing.futexView, EmuRing.futexPc, RingState.released]
  | relock relocking free =>
      left
      simp [EmuRing.futexView, EmuRing.futexPc, place, relocking]
  | leave rc unlocking =>
      left
      have visible := inv.visible (by simp [unlocking, EmuWaitPc.released])
      have returned : afterFlowWait state.ring.producerCapacity job rc = .waitHead job := by
        rcases inv.verdict rc unlocking with rfl | rfl <;> rfl
      rw [view_outside rfl]
      simp [EmuRing.futexView, EmuRing.futexPc, place, unlocking, RingState.released, visible,
        returned]

/-- Only a broadcast takes the waiter out of its wait, and the futex may do that unasked. -/
theorem emu_wake_matches {payload : List UInt8} (inv : EmuInv state)
    (place : state.ring.consumer.wakesFor payload) (moved : EmuWakeMove state payload next) :
    next.futexView = state.futexView ∨ ∃ move, EmuMatch state .consumer next move := by
  have held := inv.wakePlace
  cases moved with
  | refuse outside unready => simp [inv.ready] at unready
  | enter outside ready => exact Or.inl rfl
  | lock locking free => exact Or.inl rfl
  | nobody exchanging clear =>
      right
      have exchange : state.ring.consumer = .wakeExchange payload := by
        rw [exchanging] at held
        obtain ⟨other, place'⟩ := held
        rcases place with place | place <;> simp_all
      refine ⟨.consumer, fun _ => rfl, ?_, ?_⟩
      · simp [wakefulStep, EmuRing.futexView, exchange]
      · simp [ringStep, consumerStep, EmuRing.futexView, exchange, clear, deliver]
        rfl
  | take exchanging set =>
      right
      have exchange : state.ring.consumer = .wakeExchange payload := by
        rw [exchanging] at held
        obtain ⟨other, place'⟩ := held
        rcases place with place | place <;> simp_all
      refine ⟨.consumer, fun _ => rfl, ?_, ?_⟩
      · simp [wakefulStep, EmuRing.futexView, exchange]
      · simp [ringStep, consumerStep, EmuRing.futexView, exchange, set]
        rfl
  | broadcast broadcasting =>
      by_cases waiting : state.wait = .waiting
      · right
        obtain ⟨job, waiter⟩ := inv.waitPlace (by simp [waiting])
        refine ⟨.spuriousWake, fun _ => rfl, fun _ => rfl, ?_⟩
        simp [ringStep, wakeSpuriously, EmuRing.futexView, EmuRing.futexPc, waiter, waiting,
          EmuWaitPc.broadcast]
      · left
        have same : state.wait.broadcast = state.wait := by
          cases phase : state.wait <;> simp_all [EmuWaitPc.broadcast]
        rw [EmuRing.futexView, EmuRing.futexView, EmuRing.futexPc, EmuRing.futexPc, same]
  | leave unlocking =>
      right
      have futex : state.ring.consumer = .wakeFutex payload := by
        rw [unlocking] at held
        obtain ⟨other, place'⟩ := held
        rcases place with place | place <;> simp_all
      -- The waker holds the mutex and has broadcast, so the waiter is not blocked.
      have parked : state.wait ≠ .parking := by
        intro parking
        have waker := inv.exclusive (by simp [parking, EmuWaitPc.holdsMutex])
        simp [unlocking, EmuWakePc.holdsMutex] at waker
      have waiting := inv.woken unlocking
      have awake := inv.awake
      have roused : wakeProducer state.futexPc = state.futexPc := by
        unfold EmuRing.futexPc
        split <;> first | rfl | simp_all
        next pc place _ _ =>
          cases producer : state.ring.producer <;> simp_all [wakeProducer]
      refine ⟨.consumer, fun _ => rfl, ?_, ?_⟩
      · simp [wakefulStep, EmuRing.futexView, futex]
      · simp [ringStep, consumerStep, EmuRing.futexView, futex, roused, deliver]
        rfl

theorem emu_step_matches (inv : EmuInv state) (stepped : emuStep state action = some next) :
    next.futexView = state.futexView ∨ ∃ move, EmuMatch state action next move := by
  cases emu_step_cases stepped with
  | callProducer call result place =>
      right
      have outside := inv.wait_outside (by simp [place])
      refine ⟨.callProducer call, fun _ => rfl, fun _ => rfl, ?_⟩
      rw [view_outside outside, view_moved _ outside]
      simp [ringStep, callProducer, place]
  | producer ring elsewhere moved =>
      right
      have outside := inv.wait_outside elsewhere
      refine ⟨.producer, fun _ => rfl, ?_, ?_⟩
      · rw [view_outside outside]
        exact id
      · rw [view_outside outside, view_moved _ outside]
        exact moved
  | wait job next place moved =>
      rcases emu_wait_matches inv place moved with same | matched
      · exact Or.inl same
      · exact Or.inr ⟨.producer, matched⟩
  | flushFlag pending =>
      right
      by_cases parking : state.wait = .parking
      · -- The waiter's check is now the kernel's: the futex flushes and compares at once.
        obtain ⟨job, place⟩ := inv.waitPlace (by simp [parking])
        refine ⟨.producer, fun _ => rfl, fun _ => ?_, ?_⟩
        · simp [wakefulStep, EmuRing.futexView, EmuRing.futexPc, place, parking, pending]
        · simp [ringStep, producerStep, EmuRing.futexView, EmuRing.futexPc, place, parking,
            pending]
      · refine ⟨.flushFlag, fun _ => rfl, fun _ => rfl, ?_⟩
        simp only [ringStep, flushFlag, EmuRing.futexView, pending, if_true, Option.some.injEq]
        unfold EmuRing.futexPc
        cases producer : state.ring.producer <;> cases phase : state.wait <;> simp_all
  | spuriousWake waiting =>
      right
      obtain ⟨job, place⟩ := inv.waitPlace (by simp [waiting])
      refine ⟨.spuriousWake, fun _ => rfl, fun _ => rfl, ?_⟩
      simp [ringStep, wakeSpuriously, EmuRing.futexView, EmuRing.futexPc, place, waiting]
  | callPop maxSize result place =>
      right
      refine ⟨.callPop maxSize, fun _ => rfl, fun _ => rfl, ?_⟩
      simp [ringStep, callPop, EmuRing.futexView, place]
      rfl
  | consumer ring elsewhere moved =>
      right
      have frame := pop_frame elsewhere moved
      refine ⟨.consumer, fun _ => rfl, id, ?_⟩
      have stepped := pop_step_view state.futexPc elsewhere moved
      have same : EmuRing.futexPc { state with ring } = state.futexPc := by
        unfold EmuRing.futexPc
        simp only [frame.producer, frame.pending]
      have view : EmuRing.futexView { state with ring } = { ring with producer := state.futexPc } := by
        rw [EmuRing.futexView, same]
      rw [view]
      exact stepped
  | wake payload next place moved => exact emu_wake_matches inv place moved

end View

def emulatedRing (capacity : RingCapacity) : Machine EmuRing RingAction :=
  (emuMachine capacity).guarded fun _ action => action.recordsBelow (2 ^ 31)

def wakefulEmu (capacity : RingCapacity) : Machine EmuRing RingAction :=
  (emuMachine capacity).guarded fun state action =>
    action.recordsBelow (2 ^ 32) && wakefulStep state.ring action

def EmuRelated (state : EmuRing) (view : RingState) : Prop :=
  EmuInv state ∧ view = state.futexView

theorem emu_simulates (capacity : RingCapacity) (allowed : RingState → RingAction → Bool)
    (transfers : ∀ state action next move, EmuMatch state action next move →
      allowed state.ring action = true → allowed state.futexView move = true) :
    Simulation ((emuMachine capacity).guarded fun state action => allowed state.ring action)
      ((ringMachine capacity).guarded allowed) EmuRelated where
  starts := by
    rintro state ⟨data, rfl⟩
    exact ⟨freshRing capacity data, ⟨data, rfl⟩, fresh_emu_inv capacity data, rfl⟩
  steps := by
    rintro state action next _ ⟨inv, rfl⟩ stepped
    obtain ⟨permitted, stepped⟩ := Machine.guarded_step stepped
    have kept := emu_step_inv inv stepped
    rcases emu_step_matches inv stepped with same | ⟨move, matched⟩
    · refine ⟨state.futexView, Relation.ReflTransGen.refl, kept, same.symm⟩
    · have mirrored : ((ringMachine capacity).guarded allowed).step state.futexView move =
          some next.futexView := by
        have permits := transfers state action next move matched permitted
        simp only [Machine.guarded, permits, if_true]
        exact matched.stepped
      exact ⟨next.futexView, Relation.ReflTransGen.single ⟨move, mirrored⟩, kept, rfl⟩

theorem emulated_view_reachable {capacity : RingCapacity} {state : EmuRing}
    (reached : (emulatedRing capacity).Reachable state) :
    EmuInv state ∧ (boundedRing capacity).Reachable state.futexView := by
  obtain ⟨view, mirrored, inv, rfl⟩ := (emu_simulates capacity
    (fun _ action => action.recordsBelow (2 ^ 31)) (by
      intro before action after move matched permitted
      rw [matched.records]
      exact permitted)).reachable reached
  exact ⟨inv, mirrored⟩

theorem wakeful_view_reachable {capacity : RingCapacity} {state : EmuRing}
    (reached : (wakefulEmu capacity).Reachable state) :
    EmuInv state ∧ (wakefulRing capacity).Reachable state.futexView := by
  obtain ⟨view, mirrored, inv, rfl⟩ := (emu_simulates capacity
    (fun state action => action.recordsBelow (2 ^ 32) && wakefulStep state action) (by
      intro before action after move matched permitted
      rw [Bool.and_eq_true] at permitted ⊢
      rw [matched.records]
      exact ⟨permitted.1, matched.wakeful permitted.2⟩)).reachable reached
  exact ⟨inv, mirrored⟩

/-- What the futex build delivers, the emulated build delivers. -/
theorem emulated_ring_is_futex_ring {capacity : RingCapacity} {state : EmuRing}
    (reached : (emulatedRing capacity).Reachable state) :
    (boundedRing capacity).Reachable state.futexView ∧
      (∃ head tail slots, RingInv state.futexView head tail slots ∧
        state.ring.pushed = state.ring.taken ++ payloads slots) ∧
      state.ring.popped <+: state.ring.pushed := by
  have mirrored := (emulated_view_reachable reached).2
  obtain ⟨head, tail, slots, inv, conserved⟩ := reachable_ring_inv mirrored
  have kept : state.ring.pushed = state.ring.taken ++ payloads slots := conserved
  refine ⟨mirrored, ⟨head, tail, slots, inv, kept⟩, ?_⟩
  rw [kept, RingState.taken, List.append_assoc]
  exact List.prefix_append _ _

/-- The pop of one byte loads the head and stops at its tail store; behind it the ring is
filled to the high watermark and the producer blocks. -/
def emuBlocks : List RingAction :=
  .callProducer (.push (.push (some [7]))) :: List.replicate 8 .producer ++
    .callPop 16 :: List.replicate 7 .consumer ++
    .callProducer (.push (.push (some (List.replicate 3272 0)))) ::
      List.replicate 3279 .producer ++
    .callProducer .waitWritable :: List.replicate 9 .producer

theorem emulated_ring_is_futex_ring_blocked :
    ∃ state, (emulatedRing page).run (freshEmu page fun _ => 255) emuBlocks = some state ∧
      state.wait = .waiting ∧ (boundedRing page).Reachable state.futexView ∧
      (∃ head tail slots, RingInv state.futexView head tail slots ∧
        state.ring.pushed = state.ring.taken ++ payloads slots) ∧
      state.ring.popped <+: state.ring.pushed := by
  have blocked : ((emulatedRing page).run (freshEmu page fun _ => 255) emuBlocks).map
      EmuRing.wait = some .waiting := by decide +kernel
  obtain ⟨state, ran, waiting⟩ := Option.map_eq_some_iff.mp blocked
  have reached := Machine.reachable_run (emulatedRing page) ⟨_, rfl⟩ ran
  obtain ⟨mirrored, parsed, ordered⟩ := emulated_ring_is_futex_ring reached
  exact ⟨state, ran, waiting, mirrored, parsed, ordered⟩

def wakeDistance (state : EmuRing) : Nat :=
  match state.wake with
  | .locking => 2
  | .broadcasting => 1
  | _ => 0

structure Unheard (state : EmuRing) : Prop where
  blocked : state.wait = .waiting
  taken : state.ring.object.flowFlag = 0

section Wake

variable {state next : EmuRing} {action : RingAction}

/-- While the waiter is blocked nobody but the waker holds the mutex. -/
theorem waker_enabled (inv : EmuInv state) (unheard : Unheard state) :
    ∃ next, emuStep state .consumer = some next ∧ wakeDistance next < wakeDistance state ∧
      (next.wait = .waiting ∨ next.wait = .relocking) := by
  obtain ⟨blocked, taken⟩ := unheard
  have held := inv.wakePlace
  have producer : state.owner ≠ some .producer := by
    intro owns
    have holds := inv.producerOwns.mp owns
    simp [blocked, EmuWaitPc.holdsMutex] at holds
  rcases inv.watched (Or.inl blocked) taken with locking | broadcasting
  · have consumer : state.owner ≠ some .consumer := by
      intro owns
      have holds := inv.consumerOwns.mp owns
      simp [locking, EmuWakePc.holdsMutex] at holds
    have free : state.owner = none := by
      cases owner : state.owner with
      | none => rfl
      | some thread => cases thread <;> simp_all
    rw [locking] at held
    obtain ⟨payload, place⟩ := held
    refine ⟨{ state with owner := some .consumer, wake := .broadcasting }, ?_, ?_, Or.inl blocked⟩
    · simp [emuStep, emuConsumerStep, place, emuWakeStep, locking, free]
    · simp [wakeDistance, locking]
  · rw [broadcasting] at held
    obtain ⟨payload, place⟩ := held
    refine ⟨{ state with wait := .relocking, wake := .unlocking }, ?_, ?_, Or.inr rfl⟩
    · simp [emuStep, emuConsumerStep, place, emuWakeStep, broadcasting, blocked,
        EmuWaitPc.broadcast]
    · simp [wakeDistance, broadcasting]

theorem unheard_step (inv : EmuInv state) (unheard : Unheard state)
    (stepped : emuStep state action = some next) :
    next.wait ≠ .waiting ∨ Unheard next ∧
      wakeDistance next + (if action.ofPop then 1 else 0) ≤ wakeDistance state := by
  obtain ⟨blocked, taken⟩ := unheard
  obtain ⟨waiter, parked⟩ := inv.waitPlace (by simp [blocked])
  have waking := inv.watched (Or.inl blocked) taken
  cases emu_step_cases stepped with
  | callProducer call result place => simp [place] at parked
  | producer ring elsewhere moved => exact absurd parked (elsewhere waiter)
  | wait job next place moved => cases moved <;> simp_all
  | flushFlag pending =>
      have visible := inv.visible (by simp [blocked, EmuWaitPc.released])
      simp [pending] at visible
  | spuriousWake place => exact Or.inl (by simp)
  | callPop maxSize result place => exact Or.inr ⟨⟨blocked, taken⟩, Nat.le_refl _⟩
  | consumer ring elsewhere moved =>
      have outside := inv.wake_outside elsewhere
      simp [outside] at waking
  | wake payload next place moved =>
      cases moved with
      | lock locking free =>
          exact Or.inr ⟨⟨blocked, taken⟩, by simp [wakeDistance, locking, RingAction.ofPop]⟩
      | broadcast broadcasting => exact Or.inl (by simp [blocked, EmuWaitPc.broadcast])
      | _ => simp_all

theorem unheard_budgeted (capacity : RingCapacity) :
    (emuMachine capacity).Budgeted RingAction.ofPop
      (fun state budget => EmuInv state ∧ Unheard state ∧ wakeDistance state ≤ budget)
      (fun state => state.wait ≠ .waiting) where
  unspent := by
    rintro state ⟨inv, unheard, spent⟩
    obtain ⟨next, _, closer, _⟩ := waker_enabled inv unheard
    omega
  spends := by
    rintro state budget action next ⟨inv, unheard, near⟩ stepped
    rcases unheard_step inv unheard stepped with left | ⟨still, closer⟩
    · exact Or.inl left
    · exact Or.inr ⟨wakeDistance next, ⟨emu_step_inv inv stepped, still, Nat.le_refl _⟩, by omega⟩

/-- A waiter whose flag is taken is never left behind: in any run that goes on from there it
has left its wait, or the consumer has made fewer than two steps and can make the next. -/
theorem emulated_wake_is_heard {capacity : RingCapacity} {schedule : List RingAction}
    {final : EmuRing} (reached : (emuMachine capacity).Reachable state)
    (unheard : Unheard state) (ran : (emuMachine capacity).run state schedule = some final) :
    (emuMachine capacity).Passes (fun mid => mid.wait ≠ .waiting) state schedule ∨
      schedule.countP RingAction.ofPop < 2 ∧ ∃ next, emuStep final .consumer = some next := by
  have near : wakeDistance state ≤ 2 := by
    unfold wakeDistance
    split <;> omega
  rcases (unheard_budgeted capacity).progress ⟨reachable_emu_inv reached, unheard, near⟩ ran with
    passed | ⟨few, left, inv, still, _⟩
  · exact Or.inl passed
  · obtain ⟨next, stepped, _⟩ := waker_enabled inv still
    exact Or.inr ⟨few, next, stepped⟩

end Wake

/-- The pop behind the blocked producer takes the flag with its stale head. -/
theorem emulated_wake_is_heard_page :
    ∃ state final, (emuMachine page).run (freshEmu page fun _ => 255)
        (emuBlocks ++ List.replicate 3 .consumer) = some state ∧
      state.wait = .waiting ∧ state.ring.object.flowFlag = 0 ∧
      (emuMachine page).run state [.consumer, .consumer] = some final ∧
      (emuMachine page).Passes (fun mid => mid.wait ≠ .waiting) state [.consumer, .consumer] := by
  let start := freshEmu page fun _ => 255
  have taken : ((emuMachine page).run start (emuBlocks ++ List.replicate 3 .consumer)).map
      (fun state => (state.wait, state.ring.object.flowFlag)) = some (.waiting, 0) := by
    decide +kernel
  obtain ⟨state, ran, observed⟩ := Option.map_eq_some_iff.mp taken
  obtain ⟨blocked, clear⟩ := Prod.mk.injEq .. ▸ observed
  have goesOn : ((emuMachine page).run start
      ((emuBlocks ++ List.replicate 3 .consumer) ++ [.consumer, .consumer])).isSome = true := by
    decide +kernel
  obtain ⟨final, further⟩ := Option.isSome_iff_exists.mp goesOn
  rw [Machine.run_append, ran, Option.bind_some] at further
  have reached := Machine.reachable_run (emuMachine page) ⟨_, rfl⟩ ran
  rcases emulated_wake_is_heard reached ⟨blocked, clear⟩ further with passed | ⟨few, _⟩
  · exact ⟨state, final, ran, blocked, clear, further, passed⟩
  · exact absurd few (by decide)

abbrev consumerEmu (capacity : RingCapacity) : Machine EmuRing RingAction :=
  (emuMachine capacity).guarded fun _ action => action.ofConsumer

/-- The waiter is blocked, and a waker has at most taken the flag. -/
structure Blocked (state : EmuRing) (view : RingState) : Prop where
  inv : EmuInv state
  waiting : state.wait = .waiting
  early : state.wake = .outside ∨ state.wake = .locking
  seen : view = state.futexView

section Blocked

variable {state after : EmuRing} {view next : RingState} {action : RingAction}

theorem Blocked.asleep (blocked : Blocked state view) : ∃ job, view.producer = .asleep job := by
  obtain ⟨job, place⟩ := blocked.inv.waitPlace (by simp [blocked.waiting])
  exact ⟨job, by simp [blocked.seen, EmuRing.futexView, EmuRing.futexPc, place, blocked.waiting]⟩

theorem Blocked.free (blocked : Blocked state view) : state.owner = none := by
  have producer := blocked.inv.free_of_producer (by rw [blocked.waiting]; rfl)
  have loose : state.wake.holdsMutex = false := by
    rcases blocked.early with outside | locking
    · rw [outside]
      rfl
    · rw [locking]
      rfl
  have consumer := blocked.inv.free_of_consumer loose
  cases owner : state.owner with
  | none => rfl
  | some thread => cases thread <;> simp_all

theorem consumer_emu_step (capacity : RingCapacity) (stepped : emuStep state .consumer = some after) :
    (consumerEmu capacity).ReachableFrom state after :=
  Relation.ReflTransGen.single ⟨.consumer, stepped⟩

/-- The pop's own steps before its wake. -/
theorem blocked_pops (capacity : RingCapacity) (blocked : Blocked state view)
    (elsewhere : ∀ payload, ¬ state.ring.consumer.wakesFor payload)
    (moved : consumerStep view = some next) :
    ∃ after, (consumerEmu capacity).ReachableFrom state after ∧ Blocked after next := by
  obtain ⟨inv, waiting, early, rfl⟩ := blocked
  have outside := inv.wake_outside elsewhere
  have popped : consumerStep state.ring = some { next with producer := state.ring.producer } :=
    @pop_step_view state.futexView next state.ring.producer elsewhere moved
  have frame := @pop_frame state.futexView next elsewhere moved
  have stepped : emuStep state .consumer =
      some { state with ring := { next with producer := state.ring.producer } } := by
    have idle : ∀ payload, state.ring.consumer ≠ .wakeExchange payload :=
      fun payload place => elsewhere payload (Or.inl place)
    have quiet : ∀ payload, state.ring.consumer ≠ .wakeFutex payload :=
      fun payload place => elsewhere payload (Or.inr place)
    simp only [emuStep, emuConsumerStep]
    rw [popped]
    rfl
  have kept := emu_step_inv inv stepped
  refine ⟨_, consumer_emu_step capacity stepped, kept, waiting, Or.inl outside, ?_⟩
  have same : EmuRing.futexPc { state with ring := { next with producer := state.ring.producer } } =
      state.futexPc := by
    have pending : next.flagPending = state.ring.flagPending := frame.pending
    unfold EmuRing.futexPc
    simp only [waiting, pending]
  have producer : next.producer = state.futexPc := frame.producer
  have viewed : EmuRing.futexView { state with
      ring := { next with producer := state.ring.producer } } =
        { next with producer := state.futexPc } := by
    rw [EmuRing.futexView, same]
  rw [viewed, ← producer]

/-- The exchange, which takes the flag or finds nobody. -/
theorem blocked_exchanges (capacity : RingCapacity) {payload : List UInt8}
    (blocked : Blocked state view) (place : state.ring.consumer = .wakeExchange payload)
    (moved : consumerStep view = some next) :
    ∃ after, (consumerEmu capacity).ReachableFrom state after ∧ Blocked after next := by
  obtain ⟨inv, waiting, early, rfl⟩ := blocked
  have outside : state.wake = .outside := by
    have held := inv.wakePlace
    rcases early with outside | locking
    · exact outside
    · rw [locking, place] at held
      obtain ⟨other, futex⟩ := held
      cases futex
  have entered : emuStep state .consumer = some { state with wake := .exchanging } := by
    simp [emuStep, emuConsumerStep, place, emuWakeStep, outside, inv.ready]
  have ready := emu_step_inv inv entered
  have viewed : state.futexView.consumer = .wakeExchange payload := place
  by_cases clear : state.ring.object.flowFlag = 0
  · have exchanged : emuStep { state with wake := .exchanging } .consumer = some { state with
        ring := deliver { state.ring with object := { state.ring.object with flowFlag := 0 } }
          payload
        wake := .outside } := by
      simp [emuStep, emuConsumerStep, place, emuWakeStep, clear]
    refine ⟨_, (consumer_emu_step capacity entered).trans (consumer_emu_step capacity exchanged),
      emu_step_inv ready exchanged, waiting, Or.inl rfl, ?_⟩
    have found : state.futexView.object.flowFlag = 0 := clear
    simp only [consumerStep, viewed, found, if_true, Option.some.injEq] at moved
    rw [← moved]
    rfl
  · have exchanged : emuStep { state with wake := .exchanging } .consumer = some { state with
        ring := { state.ring with
          object := { state.ring.object with flowFlag := 0 }
          consumer := .wakeFutex payload }
        wake := .locking } := by
      simp [emuStep, emuConsumerStep, place, emuWakeStep, clear]
    refine ⟨_, (consumer_emu_step capacity entered).trans (consumer_emu_step capacity exchanged),
      emu_step_inv ready exchanged, waiting, Or.inr rfl, ?_⟩
    have found : ¬ state.futexView.object.flowFlag = 0 := clear
    simp only [consumerStep, viewed, found, if_false, Option.some.injEq] at moved
    rw [← moved]
    rfl

theorem blocked_wakes (capacity : RingCapacity) {payload : List UInt8}
    (blocked : Blocked state view) (place : state.ring.consumer = .wakeFutex payload) :
    ∃ after, (consumerEmu capacity).ReachableFrom state after ∧ after.wait = .relocking := by
  have free := blocked.free
  have locking : state.wake = .locking := by
    have held := blocked.inv.wakePlace
    rcases blocked.early with outside | locking
    · rw [outside] at held
      exact absurd place (held payload)
    · exact locking
  have locked : emuStep state .consumer =
      some { state with owner := some .consumer, wake := .broadcasting } := by
    simp [emuStep, emuConsumerStep, place, emuWakeStep, locking, free]
  have woken : emuStep { state with owner := some .consumer, wake := .broadcasting } .consumer =
      some { state with owner := some .consumer, wait := .relocking, wake := .unlocking } := by
    simp [emuStep, emuConsumerStep, place, emuWakeStep, blocked.waiting, EmuWaitPc.broadcast]
  exact ⟨_, (consumer_emu_step capacity locked).trans (consumer_emu_step capacity woken), rfl⟩

/-- While the waiter is blocked the consumer does over the emulation what it does over the
futex, up to the wake. -/
theorem blocked_step (capacity : RingCapacity) (blocked : Blocked state view)
    (stepped : (consumerRing capacity).step view action = some next) :
    ∃ after, (consumerEmu capacity).ReachableFrom state after ∧
      (Blocked after next ∨ after.wait = .relocking) := by
  obtain ⟨own, stepped⟩ := Machine.guarded_step stepped
  cases ring_step_cases stepped with
  | callPop maxSize result place =>
      obtain ⟨inv, waiting, early, rfl⟩ := blocked
      have idle : state.ring.consumer = .idle result := place
      have called : emuStep state (.callPop maxSize) = some { state with ring := { state.ring with
          consumer := .loadTail maxSize } } := by
        simp [emuStep, callPop, idle]
      have outside := inv.wake_outside (by rw [idle]; exact idle_wakes_nobody)
      refine ⟨_, Relation.ReflTransGen.single ⟨.callPop maxSize, called⟩,
        Or.inl ⟨emu_step_inv inv called, waiting, Or.inl outside, rfl⟩⟩
  | consumer next moved =>
      by_cases waking : ∃ payload, state.ring.consumer.wakesFor payload
      · obtain ⟨payload, exchange | futex⟩ := waking
        · obtain ⟨after, path, still⟩ := blocked_exchanges capacity blocked exchange moved
          exact ⟨after, path, Or.inl still⟩
        · obtain ⟨after, path, woken⟩ := blocked_wakes capacity blocked futex
          exact ⟨after, path, Or.inr woken⟩
      · obtain ⟨after, path, still⟩ :=
          blocked_pops capacity blocked (not_exists.mp waking) moved
        exact ⟨after, path, Or.inl still⟩
  | _ => cases own

theorem blocked_run (capacity : RingCapacity) {final : RingState} {job : WaitJob}
    (blocked : Blocked state view) (path : (consumerRing capacity).ReachableFrom view final)
    (woken : final.producer = .waitHead job) :
    ∃ after, (consumerEmu capacity).ReachableFrom state after ∧ after.wait = .relocking := by
  induction path using Relation.ReflTransGen.head_induction_on generalizing state with
  | refl =>
      obtain ⟨sleeper, asleep⟩ := blocked.asleep
      rw [woken] at asleep
      cases asleep
  | head stepped _ ih =>
      obtain ⟨action, stepped⟩ := stepped
      obtain ⟨middle, first, still | returned⟩ := blocked_step capacity blocked stepped
      · obtain ⟨after, rest, returned⟩ := ih still
        exact ⟨after, first.trans rest, returned⟩
      · exact ⟨middle, first, returned⟩

end Blocked

/-- Under the conditions of the watermark wake-up a producer blocked between pops has the
low-watermark number of bytes in front of the consumer, and pops alone wake it. -/
theorem blocked_holds_low_watermark {capacity : RingCapacity} {state : EmuRing}
    {result : Option (Except Errno (List UInt8))} (fits : capacity.bytes ≤ 2 ^ 57)
    (reached : (wakefulEmu capacity).Reachable state) (waiting : state.wait = .waiting)
    (between : state.ring.consumer = .idle result) :
    state.ring.object.flowFlag = 1 ∧
      lwBytes capacity ≤ state.ring.object.head - state.ring.object.tail ∧
      ∃ final, (consumerEmu capacity).ReachableFrom state final ∧ final.wait = .relocking := by
  obtain ⟨inv, mirrored⟩ := wakeful_view_reachable reached
  obtain ⟨same, ⟨head, tail, slots, ring⟩, watched⟩ := wakeful_reachable fits mirrored
  have outside := inv.wake_outside (by rw [between]; exact idle_wakes_nobody)
  have blocked : Blocked state state.futexView := ⟨inv, waiting, Or.inl outside, rfl⟩
  obtain ⟨job, asleep⟩ := blocked.asleep
  have idle : state.futexView.consumer = .idle result := between
  obtain ⟨visible, served, armed⟩ := watched (by rw [asleep]; trivial)
  have flag : state.futexView.object.flowFlag = 1 := by simpa [idle] using armed job asleep
  have held : lwBytes capacity ≤ state.futexView.object.head - state.futexView.object.tail := by
    rw [← same]
    simpa [idle, WillTest] using served flag
  have set : state.futexView.object.flowFlag ≠ 0 := by
    rw [flag]
    decide
  have positive := lw_positive fits
  obtain ⟨final, path, woken⟩ :=
    pops_wake capacity ring idle asleep set (by rwa [same]) (by rwa [same])
  exact ⟨flag, held, blocked_run capacity blocked path woken⟩

/-- The ring filled to the high watermark, the arming store flushed before the re-check,
and the producer blocked. -/
def emuSleeps : List RingAction :=
  .callProducer (.push (.push (some (List.replicate 3272 0)))) :: List.replicate 3279 .producer ++
    [.callProducer .waitWritable, .producer, .producer, .producer, .flushFlag] ++
    List.replicate 6 .producer

theorem blocked_holds_low_watermark_page :
    ∃ state, (wakefulEmu page).run (freshEmu page fun _ => 255) emuSleeps = some state ∧
      state.wait = .waiting ∧ state.ring.object.flowFlag = 1 ∧
      lwBytes page ≤ state.ring.object.head - state.ring.object.tail ∧
      ∃ final, (consumerEmu page).ReachableFrom state final ∧ final.wait = .relocking := by
  have slept : ((wakefulEmu page).run (freshEmu page fun _ => 255) emuSleeps).map
      (fun state => (state.wait, state.ring.consumer.isIdle)) = some (.waiting, true) := by
    decide +kernel
  obtain ⟨state, ran, observed⟩ := Option.map_eq_some_iff.mp slept
  obtain ⟨waiting, idle⟩ := Prod.mk.injEq .. ▸ observed
  have reached := Machine.reachable_run (wakefulEmu page) ⟨_, rfl⟩ ran
  cases between : state.ring.consumer with
  | idle result =>
      obtain ⟨flag, held, woken⟩ :=
        blocked_holds_low_watermark (by decide) reached waiting between
      exact ⟨state, ran, waiting, flag, held, woken⟩
  | _ => simp [between, ConsumerPc.isIdle] at idle

end AdaptIpc.Ring

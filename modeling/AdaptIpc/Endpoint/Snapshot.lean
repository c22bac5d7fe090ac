import AdaptIpc.Endpoint.Backlog
import AdaptIpc.Endpoint.Retry
import AdaptIpc.Ring.Occupancy

/-!
# Occupancy snapshots of a producer

Before each send over a mapped ring `adapt_send` reads the bytes in use and the free
bytes and hands their sum to the health monitor as the capacity; `adapt_shm_capacity`
returns such a sum. Four loads make it up, and the consumer goes on in between. The
sum is the capacity, and the fraction one that the ring had, exactly where no pop
stores the tail between the two tail loads.
-/

namespace AdaptIpc.Endpoint

open AdaptIpc.Ring AdaptIpc.Policy AdaptIpc.Library.Transition

set_option autoImplicit false

/-- The capacity `adapt_send` hands to `adapt_health_update_shm`. -/
def Sender.healthCapacity (sender : Sender) (occ head : UInt64) : UInt64 :=
  occ + shmRingFreeBytes sender.ring.producerCapacity.size head sender.ring.object.tail

/-- The step after the last load monitors the health with these values. -/
def HandsOver (sender : Sender) (occ capacity : UInt64) : Prop :=
  ∃ now, ∀ env, sender.step env =
    { sender with ctx := monitorHealth sender.ctx occ capacity }.dispatch env now

theorem health_capacity_step {sender : Sender} {now occ head : UInt64}
    (here : sender.pc = .freeTail now occ head) :
    HandsOver sender occ (sender.healthCapacity occ head) := by
  refine ⟨now, ?_⟩
  intro env
  simp only [Sender.step, here]
  rfl

def ringFrac (ring : RingState) : ℚ :=
  occFrac (shmRingUsedBytes ring.object.head ring.object.tail) ring.producerCapacity.size

def SendPc.reading : SendPc → Option ReadingPc
  | .usedHead _ => some .firstHead
  | .usedTail _ head => some (.firstTail head)
  | .freeHead _ occ => some (.secondHead occ)
  | .freeTail _ occ head => some (.secondTail occ head)
  | _ => none

def samples (sender : Sender) : SendAction → Bool
  | .call _ _ => false
  | .step _ =>
      match sender.pc with
      | .usedHead _ => true
      | .usedTail _ _ => true
      | .freeHead _ _ => true
      | _ => false
  | .ring _ => true

def SendAction.reading : SendAction → ReadingAction
  | .call _ _ => .load
  | .step _ => .load
  | .ring action => .ring action

abbrev samplingMachine (cfg : AdaptConfig) (env : InitEnv) : Machine Sender SendAction :=
  (sharedMachine cfg env).guarded samples

section Simulation

variable {cfg : AdaptConfig} {env : InitEnv} {sender next : Sender}

theorem sampling_step_reads {action : SendAction} {pc : ReadingPc}
    (stepped : (samplingMachine cfg env).step sender action = some next)
    (view : sender.pc.reading = some pc) :
    ∃ after, next.pc.reading = some after ∧
      readingStep .usedFirst ⟨sender.ring, pc⟩ action.reading = some ⟨next.ring, after⟩ := by
  obtain ⟨sampled, stepped⟩ := Machine.guarded_step stepped
  cases send_step_move stepped with
  | usedHead env now here =>
      rw [here] at view
      cases view
      exact ⟨_, rfl, rfl⟩
  | usedTail env now head here =>
      rw [here] at view
      cases view
      exact ⟨_, rfl, rfl⟩
  | freeHead env now occ here =>
      rw [here] at view
      cases view
      exact ⟨_, rfl, rfl⟩
  | ring moved after foreign ringStepped =>
      refine ⟨pc, view, ?_⟩
      simp only [SendAction.reading, readingStep, foreign, Bool.false_eq_true, if_false, ringStepped,
        Option.map_some]
  | rejected env data before code idle bad => cases sampled
  | opened env data before payload idle good held => cases sampled
  | openedUnmapped env data before payload next idle good none dispatched => cases sampled
  | pushed env tMeas rc here returned =>
      rcases here with here | here <;> simp [samples, here] at sampled
  | _ => simp_all [samples]

theorem sampling_run_reads {actions : List SendAction} {pc : ReadingPc} {after : Sender}
    (found : RingState → Prop)
    (ran : (samplingMachine cfg env).run sender actions = some after)
    (view : sender.pc.reading = some pc) :
    ∃ there, after.pc.reading = some there ∧
      (readingMachine .usedFirst found).run ⟨sender.ring, pc⟩ (actions.map SendAction.reading) =
        some ⟨after.ring, there⟩ := by
  induction actions generalizing sender pc with
  | nil =>
      cases ran
      exact ⟨pc, view, rfl⟩
  | cons action rest ih =>
      simp only [Machine.run] at ran
      split at ran
      · next next stepped =>
        obtain ⟨middle, seen, moved⟩ := sampling_step_reads stepped view
        obtain ⟨there, last, reads⟩ := ih ran seen
        refine ⟨there, last, ?_⟩
        simp only [List.map_cons, Machine.run]
        rw [show (readingMachine .usedFirst found).step ⟨sender.ring, pc⟩ action.reading =
          some ⟨next.ring, middle⟩ from moved]
        exact reads
      · cases ran

end Simulation

def RestsAt (ring : RingState) : SendPc → Prop
  | .mapping => True
  | .pushDirect _ => True
  | .pushBlocking _ => True
  | .usedTail _ head => ring.producer.resting = true ∧ head = ring.object.head
  | _ => ring.producer.resting = true

section Rests

variable {sender next : Sender}

theorem transmitted_rests {route : AdaptRoute} (resting : sender.ring.producer.resting = true)
    (transmitted : Transmitted sender route next) : RestsAt next.ring next.pc := by
  cases transmitted with
  | push ring tMeas shm called =>
      simp only [Sender.startPush]
      split <;> trivial
  | datagram tMeas other => exact resting

theorem failed_rests {hrc : Errno} (resting : sender.ring.producer.resting = true)
    (failed : HandshakeFailed sender hrc next) : RestsAt next.ring next.pc := by
  cases failed with
  | refused large => exact resting
  | degraded tMeas small => exact resting

theorem dispatched_rests (resting : sender.ring.producer.resting = true)
    (dispatched : Dispatched sender next) : RestsAt next.ring next.pc := by
  cases dispatched with
  | tooLarge now waitClock refused => exact resting
  | negotiating now waitClock env route unmapped waiting =>
      simp only [Sender.negotiate]
      split <;> exact resting
  | sent now waitClock route next decided mapped transmitted =>
      exact @transmitted_rests (sender.decide now waitClock).2 next route resting transmitted

theorem idle_rests {ring : RingState} {before : Option Status}
    (written : ring.producer = .idle before) : ring.producer.resting = true := by
  rw [written]
  rfl

theorem returned_rests {ring : RingState} {rc : Status} (returned : pushResult ring = some rc) :
    ring.producer.resting = true := by
  simp only [pushResult] at returned
  split at returned
  · next result idle => exact idle_rests idle
  · cases returned

theorem move_rests {action : SendAction} (rests : RestsAt sender.ring sender.pc)
    (move : SendMove sender action next) : RestsAt next.ring next.pc := by
  cases move with
  | rejected env data before code idle bad =>
      rw [idle] at rests
      exact rests
  | opened env data before payload idle good held =>
      rw [idle] at rests
      exact rests
  | openedUnmapped env data before payload next idle good none dispatched =>
      rw [idle] at rests
      refine dispatched_rests ?_ dispatched
      exact rests
  | usedHead env now here =>
      rw [here] at rests
      exact ⟨rests, rfl⟩
  | usedTail env now head here =>
      rw [here] at rests
      exact rests.1
  | freeHead env now occ here =>
      rw [here] at rests
      exact rests
  | freeTail env now occ head cap next here dispatched =>
      rw [here] at rests
      refine dispatched_rests ?_ dispatched
      exact rests
  | requestFailed env nowNs code next here refused failed =>
      rw [here] at rests
      exact failed_rests rests failed
  | requested env nowNs here delivered =>
      rw [here] at rests
      exact rests
  | ackFailed env deadline received code next here arrived failed =>
      rw [here] at rests
      exact failed_rests rests failed
  | polled env deadline here quiet => exact rests
  | ackUnmappable env deadline frame code next here arrived acknowledged failed =>
      rw [here] at rests
      refine failed_rests ?_ failed
      exact rests
  | ackMapped env deadline frame mapped here arrived acknowledged attached => trivial
  | mappingFailed env before next here written short failed =>
      refine failed_rests ?_ failed
      exact idle_rests written
  | negotiated env before grown next here written room transmitted =>
      refine transmitted_rests ?_ transmitted
      exact idle_rests written
  | pushAgain env tMeas ring here full blocks called => trivial
  | pushed env tMeas rc here returned => exact returned_rests returned
  | datagramSent env tMeas here =>
      rw [here] at rests
      exact rests
  | ring moved after foreign stepped =>
      have still : sender.ring.producer.resting = true →
          after.producer.resting = true ∧ after.object.head = sender.ring.object.head := by
        intro resting
        obtain ⟨producer, _, head⟩ := resting_step resting foreign stepped
        rw [producer]
        exact ⟨resting, head⟩
      cases place : sender.pc with
      | mapping => trivial
      | pushDirect tMeas => trivial
      | pushBlocking tMeas => trivial
      | usedTail now head =>
          rw [place] at rests
          obtain ⟨resting, same⟩ := still rests.1
          exact ⟨resting, rests.2.trans same.symm⟩
      | _ =>
          rw [place] at rests
          exact (still rests).1

end Rests

theorem shared_rests {cfg : AdaptConfig} {env : InitEnv} {sender : Sender}
    (reached : (sharedMachine cfg env).Reachable sender) : RestsAt sender.ring sender.pc := by
  refine Machine.invariant_of_reachable (sharedMachine cfg env)
    (fun sender => RestsAt sender.ring sender.pc) ?_ ?_ reached
  · rintro start ⟨⟨_, ⟨before, idle⟩, _⟩, new⟩
    have resting : start.ring.producer.resting = true := by
      rw [new.producer]
      split <;> rfl
    rw [idle]
    exact resting
  · intro before action after rests stepped
    exact move_rests rests (send_step_move stepped)

theorem short_ring_inv {cfg : AdaptConfig} {env : InitEnv} {sender : Sender}
    (reached : ((sharedMachine cfg env).guarded fun _ => payloadsBelow).Reachable sender) :
    ∃ head tail slots, RingInv sender.ring head tail slots := by
  have held : ∃ head tail slots, SendRing sender head tail slots ∧ SenderMapped sender := by
    refine Machine.invariant_of_reachable ((sharedMachine cfg env).guarded fun _ => payloadsBelow)
      (fun sender => ∃ head tail slots, SendRing sender head tail slots ∧ SenderMapped sender)
      ?_ ?_ reached
    · intro start starts
      exact ⟨0, 0, [], shared_starts starts⟩
    · rintro before action after ⟨head, tail, slots, ring, mapped⟩ stepped
      obtain ⟨short, stepped⟩ := Machine.guarded_step stepped
      have move := send_step_move stepped
      obtain ⟨head', tail', slots', kept, _⟩ := move_advances ring mapped short move
      exact ⟨head', tail', slots', kept, move_mapped mapped move⟩
  obtain ⟨head, tail, slots, ring, _⟩ := held
  exact ⟨head, tail, slots, ring.inv⟩

/-- The two tail loads of one sampling: the sender before each, and the actions between
them. -/
structure SampleLoads (cfg : AdaptConfig) (env : InitEnv) (first second : Sender)
    (loading : SendEnv) (actions : List SendAction) (occ head : UInt64) : Prop where
  here : ∃ now loaded, first.pc = .usedTail now loaded
  ran : (samplingMachine cfg env).run first (.step loading :: actions) = some second
  there : ∃ now, second.pc = .freeTail now occ head

/-- The ring has had this fraction in use at some instant of the sampling. -/
def FractionHad (cfg : AdaptConfig) (env : InitEnv) (first : Sender) (actions : List SendAction)
    (fraction : ℚ) : Prop :=
  ∃ early late seen, actions = early ++ late ∧
    (samplingMachine cfg env).run first early = some seen ∧ ringFrac seen.ring = fraction

/-- The capacity handed to the health monitor is the ring's, and the fraction computed
from it one that the ring has had. -/
structure SampleConsistent (cfg : AdaptConfig) (env : InitEnv) (first second : Sender)
    (actions : List SendAction) (occ head : UInt64) : Prop where
  capacity : second.healthCapacity occ head = second.ring.producerCapacity.size
  fraction : FractionHad cfg env first actions (occFrac occ (second.healthCapacity occ head))

section Samples

variable {cfg : AdaptConfig} {env : InitEnv} {first second : Sender} {loading : SendEnv}
  {actions : List SendAction} {occ head : UInt64}

theorem sample_tail_loads (found : RingState → Prop) (rests : RestsAt first.ring first.pc)
    (loads : SampleLoads cfg env first second loading actions occ head) :
    ReadsAt ⟨first.ring, .firstTail first.ring.object.head⟩ ∧
      TailLoads .usedFirst found ⟨first.ring, .firstTail first.ring.object.head⟩
        ⟨second.ring, .secondTail occ head⟩ (actions.map SendAction.reading) := by
  obtain ⟨⟨now, loaded, here⟩, ran, later, there⟩ := loads
  rw [here] at rests
  obtain ⟨resting, same⟩ := rests
  subst same
  constructor
  · refine ⟨resting, ?_⟩
    intro head place
    cases place
    rfl
  · have view : first.pc.reading = some (.firstTail first.ring.object.head) := by
      rw [here]
      rfl
    obtain ⟨pc, seen, reads⟩ := sampling_run_reads found ran view
    rw [there] at seen
    cases seen
    exact ⟨⟨_, rfl⟩, reads, occ, head, rfl⟩

/-- The capacity of one sampling is the ring's exactly where both tail loads find the same
tail, and the fraction is then that of the first of them. -/
theorem sample_consistent_iff (rests : RestsAt first.ring first.pc)
    (loads : SampleLoads cfg env first second loading actions occ head) :
    SampleConsistent cfg env first second (.step loading :: actions) occ head ↔
      second.ring.object.tail = first.ring.object.tail := by
  obtain ⟨reads, tails⟩ := sample_tail_loads (fun _ => True) rests loads
  obtain ⟨standing, _, place⟩ := tail_loads_found reads tails
  simp only [ReadingPc.secondTail.injEq] at place
  obtain ⟨rfl, rfl⟩ := place
  have sum := capacity_sum_iff second.ring.producerCapacity.size
    (shmRingUsedBytes first.ring.object.head first.ring.object.tail) second.ring.object.head
    second.ring.object.tail .usedFirst
  have whole_iff : second.healthCapacity
        (shmRingUsedBytes first.ring.object.head first.ring.object.tail) second.ring.object.head =
          second.ring.producerCapacity.size ↔
      second.ring.object.tail = first.ring.object.tail := by
    rw [Sender.healthCapacity]
    refine sum.trans ?_
    rw [standing.head]
    exact used_bytes_iff _ _ _
  constructor
  · intro consistent
    exact whole_iff.mp consistent.capacity
  · intro same
    have whole := whole_iff.mpr same
    refine ⟨whole, [], _, first, rfl, rfl, ?_⟩
    rw [whole, ringFrac, standing.capacity]

theorem sample_unmoved_iff {position tail : Nat} {slots : List Slot}
    (inv : RingInv first.ring position tail slots) (rests : RestsAt first.ring first.pc)
    (loads : SampleLoads cfg env first second loading actions occ head) :
    second.ring.object.tail = first.ring.object.tail ↔
      tailHeld first.ring (ringActions (actions.map SendAction.reading)) = true := by
  obtain ⟨reads, tails⟩ := sample_tail_loads (fun _ => True) rests loads
  exact tail_loads_unmoved_iff inv reads tails

end Samples

/-- Where `adapt_shm_capacity` starts; without a ring it returns 0 and loads nothing. -/
def adaptShmCapacity (ctx : AdaptCtx) : ReadingPc :=
  if ctx.ring.isSome then .firstHead else .done 0

/-- The rings a producer's program may find when it makes the call between its sends. -/
def CapacityCalled (machine : Machine Sender SendAction) (ring : RingState) : Prop :=
  ∃ sender, machine.Reachable sender ∧ sender.pc.isIdle = true ∧
    adaptShmCapacity sender.ctx = .firstHead ∧ sender.ring = ring

abbrev capacityMachine (order : CallOrder) (machine : Machine Sender SendAction) :
    Machine Reading ReadingAction :=
  readingMachine order (CapacityCalled machine)

def ReturnsCapacity (order : CallOrder) (reading : Reading) : Prop :=
  readingStep order reading .load =
    some { reading with pc := .done reading.ring.producerCapacity.size }

theorem called_rests {cfg : AdaptConfig} {env : InitEnv} {ring : RingState}
    (called : CapacityCalled (sharedMachine cfg env) ring) : ring.producer.resting = true := by
  obtain ⟨sender, reached, returned, _, same⟩ := called
  have rests := shared_rests reached
  obtain ⟨before, idle⟩ := SendPc.returned returned
  rw [idle, same] at rests
  exact rests

abbrev shortMachine (cfg : AdaptConfig) (env : InitEnv) : Machine Sender SendAction :=
  (sharedMachine cfg env).guarded fun _ => payloadsBelow

/-- The snapshots that `adapt_send` hands to the health monitor and that
`adapt_shm_capacity` returns hold together exactly where both tail loads find the same
tail; with records that fit their length word, that is where no pop stores the tail
between the two loads. -/
theorem snapshot_consistent_iff (cfg : AdaptConfig) (env : InitEnv) :
    (∀ first second loading actions occ head, (sharedMachine cfg env).Reachable first →
      SampleLoads cfg env first second loading actions occ head →
        HandsOver second occ (second.healthCapacity occ head) ∧
        (SampleConsistent cfg env first second (.step loading :: actions) occ head ↔
          second.ring.object.tail = first.ring.object.tail)) ∧
    (∀ order first second actions,
      (capacityMachine order (sharedMachine cfg env)).Reachable first →
      TailLoads order (CapacityCalled (sharedMachine cfg env)) first second actions →
        (ReturnsCapacity order second ↔
          second.ring.object.tail = first.ring.object.tail)) ∧
    (∀ first second loading actions occ head, (shortMachine cfg env).Reachable first →
      SampleLoads cfg env first second loading actions occ head →
        (SampleConsistent cfg env first second (.step loading :: actions) occ head ↔
          tailHeld first.ring (ringActions (actions.map SendAction.reading)) = true)) ∧
    ∀ order first second actions,
      (capacityMachine order (shortMachine cfg env)).Reachable first →
      TailLoads order (CapacityCalled (shortMachine cfg env)) first second actions →
        (ReturnsCapacity order second ↔ tailHeld first.ring (ringActions actions) = true) := by
  have resting : ∀ ring, CapacityCalled (shortMachine cfg env) ring →
      ring.producer.resting = true := by
    rintro ring ⟨sender, reached, idle, mapped, same⟩
    exact called_rests ⟨sender, Machine.reachable_of_guarded reached, idle, mapped, same⟩
  refine ⟨?_, ?_, ?_, ?_⟩
  · intro first second loading actions occ head reached loads
    obtain ⟨now, place⟩ := loads.there
    exact ⟨health_capacity_step place, sample_consistent_iff (shared_rests reached) loads⟩
  · intro order first second actions reached loads
    have reads := reads_reachable (fun _ called => called_rests called) reached
    exact tail_loads_sum_iff reads loads
  · intro first second loading actions occ head reached loads
    have rests := shared_rests (Machine.reachable_of_guarded reached)
    obtain ⟨position, tail, slots, inv⟩ := short_ring_inv reached
    rw [sample_consistent_iff rests loads]
    exact sample_unmoved_iff inv rests loads
  · intro order first second actions reached loads
    have reads := reads_reachable resting reached
    have parsed : ∀ ring, CapacityCalled (shortMachine cfg env) ring →
        ∃ head tail slots, RingInv ring head tail slots := by
      rintro ring ⟨sender, known, idle, mapped, rfl⟩
      exact short_ring_inv known
    obtain ⟨head, tail, slots, inv⟩ := reads_parse resting parsed reached
    rw [ReturnsCapacity, tail_loads_sum_iff reads loads]
    exact tail_loads_unmoved_iff inv reads loads

theorem reading_first_tail {pc : SendPc} {loaded : UInt64}
    (view : pc.reading = some (.firstTail loaded)) : ∃ now, pc = .usedTail now loaded := by
  cases pc with
  | usedTail now head =>
      cases view
      exact ⟨now, rfl⟩
  | _ => cases view

theorem reading_second_tail {pc : SendPc} {occ head : UInt64}
    (view : pc.reading = some (.secondTail occ head)) : ∃ now, pc = .freeTail now occ head := by
  cases pc with
  | freeTail now used loaded =>
      cases view
      exact ⟨now, rfl⟩
  | _ => cases view

def samplingStart : List SendAction :=
  timedSend [1] ++ [.call quietEnv (some [2]), .step quietEnv]

def popSteps (steps : Nat) : List RingAction := .callPop 16 :: List.replicate steps .consumer

def sampleBetween (steps : Nat) : List SendAction :=
  (popSteps steps).map .ring ++ [.step quietEnv]

def capacityBetween (steps : Nat) : List ReadingAction :=
  (popSteps steps).map .ring ++ [.load]

theorem short_starts : (shortMachine timedConfig eagerEnv).initial timedSender := timed_starts

section Traced

variable {machine : Machine Sender SendAction} {order : CallOrder} {steps : Nat}

theorem traced_sample {tail capacity : UInt64} (starts : machine.initial timedSender)
    (traced : (machine.run timedSender samplingStart).bind (fun first =>
        ((samplingMachine timedConfig eagerEnv).run first
          (.step quietEnv :: sampleBetween steps)).map fun second =>
            (first.pc.reading, second.pc.reading, first.ring.object.tail, second.ring.object.tail,
              second.ring.producerCapacity.size, second.healthCapacity 6 6)) =
      some (some (.firstTail 6), some (.secondTail 6 6), 0, tail, 4096, capacity)) :
    ∃ first second, machine.run timedSender samplingStart = some first ∧
      machine.Reachable first ∧
      SampleLoads timedConfig eagerEnv first second quietEnv (sampleBetween steps) 6 6 ∧
      first.ring.object.tail = 0 ∧ second.ring.object.tail = tail ∧
      second.ring.producerCapacity.size = 4096 ∧ second.healthCapacity 6 6 = capacity := by
  obtain ⟨first, ran, rest⟩ := Option.bind_eq_some_iff.mp traced
  obtain ⟨second, sampled, facts⟩ := Option.map_eq_some_iff.mp rest
  simp only [Prod.mk.injEq] at facts
  obtain ⟨here, there, before, after, size, health⟩ := facts
  obtain ⟨now, place⟩ := reading_first_tail here
  have loads : SampleLoads timedConfig eagerEnv first second quietEnv (sampleBetween steps) 6 6 :=
    ⟨⟨now, 6, place⟩, sampled, reading_second_tail there⟩
  exact ⟨first, second, ran, Machine.reachable_run machine starts ran, loads, before, after, size,
    health⟩

theorem traced_capacity {tail : UInt64} (starts : machine.initial timedSender)
    (traced : (machine.run timedSender (timedSend [1])).bind (fun sender =>
        ((capacityMachine order machine).run
          ⟨sender.ring, .firstTail sender.ring.object.head⟩
          (.load :: capacityBetween steps)).map fun second =>
            ((sender.pc.isIdle, adaptShmCapacity sender.ctx, sender.ring.object.tail), second.pc,
              second.ring.object.tail, second.ring.producerCapacity.size)) =
      some ((true, .firstHead, 0), .secondTail 6 6, tail, 4096)) :
    ∃ first second, (capacityMachine order machine).Reachable first ∧
      TailLoads order (CapacityCalled machine) first second (capacityBetween steps) ∧
      first.ring.object.tail = 0 ∧ second.ring.object.tail = tail ∧
      second.ring.producerCapacity.size = 4096 ∧
      readingStep order second .load =
        some { second with pc := .done (capacitySum 4096 6 6 tail order) } := by
  obtain ⟨sender, ran, rest⟩ := Option.bind_eq_some_iff.mp traced
  obtain ⟨second, read, facts⟩ := Option.map_eq_some_iff.mp rest
  simp only [Prod.mk.injEq] at facts
  obtain ⟨⟨idle, mapped, before⟩, place, after, size⟩ := facts
  have called : CapacityCalled machine sender.ring :=
    ⟨sender, Machine.reachable_run machine starts ran, idle, mapped, rfl⟩
  have start : (capacityMachine order machine).Reachable ⟨sender.ring, .firstHead⟩ :=
    Machine.reachable_initial ⟨called, rfl⟩
  have loaded : (capacityMachine order machine).Reachable
      ⟨sender.ring, .firstTail sender.ring.object.head⟩ :=
    @Machine.reachable_step _ _ _ _ _ ReadingAction.load start rfl
  refine ⟨_, second, loaded, ⟨⟨_, rfl⟩, read, 6, 6, place⟩, before, after, size, ?_⟩
  simp only [readingStep, place, size, after]

end Traced

/-- A pop that has not stored the tail yet: both snapshots give 4096. -/
theorem snapshot_during_pop :
    (∃ first second, SampleLoads timedConfig eagerEnv first second quietEnv (sampleBetween 8) 6 6 ∧
      SampleConsistent timedConfig eagerEnv first second
        (.step quietEnv :: sampleBetween 8) 6 6 ∧
      tailHeld first.ring (ringActions ((sampleBetween 8).map SendAction.reading)) = true) ∧
    (∃ first second, TailLoads .usedFirst (CapacityCalled (sharedMachine timedConfig eagerEnv))
      first second (capacityBetween 8) ∧ ReturnsCapacity .usedFirst second) ∧
    ∃ first second, TailLoads .freeFirst (CapacityCalled (shortMachine timedConfig eagerEnv))
      first second (capacityBetween 8) ∧ ReturnsCapacity .freeFirst second ∧
      tailHeld first.ring (ringActions (capacityBetween 8)) = true := by
  obtain ⟨samples, readings, shortSamples, shortReadings⟩ :=
    snapshot_consistent_iff timedConfig eagerEnv
  refine ⟨?_, ?_, ?_⟩
  · obtain ⟨first, second, _, reached, loads, before, after, _⟩ :=
      @traced_sample (shortMachine timedConfig eagerEnv) 8 0 4096 short_starts (by decide +kernel)
    obtain ⟨_, holds⟩ := samples first second quietEnv (sampleBetween 8) 6 6
      (Machine.reachable_of_guarded reached) loads
    have held := shortSamples first second quietEnv (sampleBetween 8) 6 6 reached loads
    have consistent := holds.mpr (after.trans before.symm)
    exact ⟨first, second, loads, consistent, held.mp consistent⟩
  · obtain ⟨first, second, reached, loads, before, after, _⟩ :=
      @traced_capacity (sharedMachine timedConfig eagerEnv) .usedFirst 8 0 timed_starts
        (by decide +kernel)
    have holds := readings .usedFirst first second (capacityBetween 8) reached loads
    exact ⟨first, second, loads, holds.mpr (after.trans before.symm)⟩
  · obtain ⟨first, second, reached, loads, _, _, size, last⟩ :=
      @traced_capacity (shortMachine timedConfig eagerEnv) .freeFirst 8 0 short_starts
        (by decide +kernel)
    have holds := shortReadings .freeFirst first second (capacityBetween 8) reached loads
    have returns : ReturnsCapacity .freeFirst second := by
      rw [ReturnsCapacity, last, size]
      rfl
    exact ⟨first, second, loads, returns, holds.mp returns⟩

/-- The ring has 6 bytes in use in the drained sampling, and then none. -/
theorem drained_fraction {first : Sender}
    (ran : (sharedMachine timedConfig eagerEnv).run timedSender samplingStart = some first) :
    ¬FractionHad timedConfig eagerEnv first (.step quietEnv :: sampleBetween 9)
      (occFrac 6 4102) := by
  rintro ⟨early, late, seen, split, reached, had⟩
  have bound : early.length ∈ List.range 13 := by
    have lengths := congrArg List.length split
    simp only [sampleBetween, popSteps, List.length_cons, List.length_append, List.length_map,
      List.length_replicate, List.length_nil] at lengths
    rw [List.mem_range]
    omega
  have start : early = (.step quietEnv :: sampleBetween 9).take early.length := by
    rw [split, List.take_left]
  have traced : ∀ steps ∈ List.range 13,
      (((sharedMachine timedConfig eagerEnv).run timedSender samplingStart).bind fun first =>
        ((samplingMachine timedConfig eagerEnv).run first
          ((.step quietEnv :: sampleBetween 9).take steps)).map fun seen =>
            (shmRingUsedBytes seen.ring.object.head seen.ring.object.tail,
              seen.ring.producerCapacity.size)) ∈ [some (6, 4096), some (0, 4096)] := by
    decide +kernel
  have here := traced early.length bound
  rw [ran, Option.bind_some, ← start, reached] at here
  simp only [Option.map_some, List.mem_cons, Option.some.injEq, Prod.mk.injEq, List.not_mem_nil,
    or_false] at here
  have full : occFrac 6 4096 ≠ occFrac 6 4102 := by decide +kernel
  have empty : occFrac 0 4096 ≠ occFrac 6 4102 := by decide +kernel
  rcases here with ⟨used, size⟩ | ⟨used, size⟩
  · rw [ringFrac, used, size] at had
    exact full had
  · rw [ringFrac, used, size] at had
    exact empty had

/-- The pop has stored the tail: the capacity comes out as 4102 bytes, and as 4090 where
the free bytes are loaded first. -/
theorem pop_between_tail_loads :
    (∃ first second, (sharedMachine timedConfig eagerEnv).Reachable first ∧
      SampleLoads timedConfig eagerEnv first second quietEnv (sampleBetween 9) 6 6 ∧
      second.ring.producerCapacity.size = 4096 ∧ second.healthCapacity 6 6 = 4102 ∧
      ¬FractionHad timedConfig eagerEnv first (.step quietEnv :: sampleBetween 9)
        (occFrac 6 4102)) ∧
    (∃ first second,
      (capacityMachine .usedFirst (sharedMachine timedConfig eagerEnv)).Reachable first ∧
      TailLoads .usedFirst (CapacityCalled (sharedMachine timedConfig eagerEnv)) first second
        (capacityBetween 9) ∧
      second.ring.producerCapacity.size = 4096 ∧
      readingStep .usedFirst second .load = some { second with pc := .done 4102 }) ∧
    ∃ first second,
      (capacityMachine .freeFirst (sharedMachine timedConfig eagerEnv)).Reachable first ∧
      TailLoads .freeFirst (CapacityCalled (sharedMachine timedConfig eagerEnv)) first second
        (capacityBetween 9) ∧
      second.ring.producerCapacity.size = 4096 ∧
      readingStep .freeFirst second .load = some { second with pc := .done 4090 } := by
  refine ⟨?_, ?_, ?_⟩
  · obtain ⟨first, second, ran, reached, loads, _, _, size, health⟩ :=
      @traced_sample (sharedMachine timedConfig eagerEnv) 9 6 4102 timed_starts
        (by decide +kernel)
    exact ⟨first, second, reached, loads, size, health, drained_fraction ran⟩
  · obtain ⟨first, second, reached, loads, _, _, size, last⟩ :=
      @traced_capacity (sharedMachine timedConfig eagerEnv) .usedFirst 9 6 timed_starts
        (by decide +kernel)
    exact ⟨first, second, reached, loads, size, last⟩
  · obtain ⟨first, second, reached, loads, _, _, size, last⟩ :=
      @traced_capacity (sharedMachine timedConfig eagerEnv) .freeFirst 9 6 timed_starts
        (by decide +kernel)
    exact ⟨first, second, reached, loads, size, last⟩

end AdaptIpc.Endpoint

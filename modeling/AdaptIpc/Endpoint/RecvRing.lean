import AdaptIpc.Endpoint.Truncation
import AdaptIpc.Ring.PopBound

/-!
# The ring under the receive calls

The ring invariant along the runs of a consumer endpoint, mapped from the start or
in the middle of a call: outside a pop the ring's consumer thread is at rest, and
what has been popped is what the calls have met. The receive calls move nothing of
the ring but its consumer thread.
-/

namespace AdaptIpc.Endpoint

open AdaptIpc.Ring AdaptIpc.Policy AdaptIpc.Library.Bytes AdaptIpc.Library.Cursor
open AdaptIpc.Library.Transition

set_option autoImplicit false

/-- What the calls have met so far, with the running one. -/
def metBy (receipts : List Receipt) (draft : Receipt) : RecvPc → List (AdaptRoute × List UInt8)
  | .idle _ => receipts.flatMap Receipt.met
  | _ => receipts.flatMap Receipt.met ++ draft.met

def recordsOf (met : List (AdaptRoute × List UInt8)) : List (List UInt8) :=
  met.filterMap fun message => if message.1 = .shm then some message.2 else none

theorem records_append (met more : List (AdaptRoute × List UInt8)) :
    recordsOf (met ++ more) = recordsOf met ++ recordsOf more := List.filterMap_append

theorem records_shm (frame : List UInt8) : recordsOf [(.shm, frame)] = [frame] := rfl

theorem records_uds (frame : List UInt8) : recordsOf [(.uds, frame)] = [] := rfl

/-- The ring's consumer thread between two pops: attached exactly with a mapping. -/
def Attached (ctx : AdaptCtx) (consumer : ConsumerPc) : Prop :=
  (ctx.ring.isSome = true ∧ ∃ result, consumer = .idle result) ∨
    (ctx.ring = none ∧ consumer = .detached)

def RecvAt (ctx : AdaptCtx) (ring : RingState) (slots : List Slot)
    (records : List (List UInt8)) : RecvPc → Prop
  | .popping _ => ctx.ring.isSome = true ∧
      PopAt ctx.rxbufCap.toNat records slots ring.popped ring.consumer
  | _ => Attached ctx ring.consumer ∧ ring.popped = records

def sameObject (ring : RingState) (frame : List UInt8) : Bool :=
  if isControl frame then
    match parseSetupReq frame with
    | none => true
    | some (cap32, _) => decide (roundPow2 cap32.toUInt64 = some ring.producerCapacity.size)
  else true

/-- A peer's datagram; a request can only map the ring the peer uses. -/
def Arrivable (receiver : Receiver) (frame : List UInt8) : Prop :=
  PeerDatagram frame ∧ (receiver.ctx.ring = none → sameObject receiver.ring frame = true)

instance (receiver : Receiver) (frame : List UInt8) : Decidable (Arrivable receiver frame) :=
  inferInstanceAs (Decidable (_ ∧ (_ → _)))

structure RecvRing (origin : List (List UInt8)) (receiver : Receiver) (head tail : Nat)
    (slots : List Slot) : Prop where
  inv : RingInv receiver.ring head tail slots
  scratch : udsMaxDgram ≤ receiver.ctx.rxbufCap
  inbox : ∀ frame ∈ receiver.inbox, Arrivable receiver frame
  place : RecvAt receiver.ctx receiver.ring slots
    (origin ++ recordsOf (metBy receiver.receipts receiver.draft receiver.pc)) receiver.pc

structure RecvReady (origin : List (List UInt8)) (receiver : Receiver) (head tail : Nat)
    (slots : List Slot) : Prop where
  inv : RingInv receiver.ring head tail slots
  scratch : udsMaxDgram ≤ receiver.ctx.rxbufCap
  inbox : ∀ frame ∈ receiver.inbox, Arrivable receiver frame
  attached : Attached receiver.ctx receiver.ring.consumer
  popped : receiver.ring.popped =
    origin ++ recordsOf (receiver.receipts.flatMap Receipt.met ++ receiver.draft.met)

structure SameProducerSide (before after : RingState) : Prop where
  object : after.object = before.object
  producerCapacity : after.producerCapacity = before.producerCapacity
  producer : after.producer = before.producer
  flagPending : after.flagPending = before.flagPending
  pushed : after.pushed = before.pushed
  popped : after.popped = before.popped
  lastFootprint : after.lastFootprint = before.lastFootprint
  inFlight : after.consumer.inFlight = before.consumer.inFlight

theorem SameProducerSide.refl (ring : RingState) : SameProducerSide ring ring := by
  constructor <;> rfl

theorem SameProducerSide.trans {first second third : RingState}
    (early : SameProducerSide first second) (late : SameProducerSide second third) :
    SameProducerSide first third where
  object := late.object.trans early.object
  producerCapacity := late.producerCapacity.trans early.producerCapacity
  producer := late.producer.trans early.producer
  flagPending := late.flagPending.trans early.flagPending
  pushed := late.pushed.trans early.pushed
  popped := late.popped.trans early.popped
  lastFootprint := late.lastFootprint.trans early.lastFootprint
  inFlight := late.inFlight.trans early.inFlight

theorem SameProducerSide.inv {before after : RingState} {head tail : Nat} {slots : List Slot}
    (same : SameProducerSide before after) (inv : RingInv before head tail slots)
    (capacities : after.consumerCapacity = after.producerCapacity)
    (consumer : ConsumerHolds after.producerCapacity.bytes tail slots after.consumer) :
    RingInv after head tail slots where
  capacities := capacities
  headWord := by rw [same.object]; exact inv.headWord
  tailWord := by rw [same.object]; exact inv.tailWord
  room := by rw [same.producerCapacity]; exact inv.room
  parsed := by rw [same.object, same.producerCapacity]; exact inv.parsed
  closed := inv.closed
  short := by rw [same.producer]; exact inv.short
  producer := by rw [same.object, same.producerCapacity, same.producer]; exact inv.producer
  consumer := consumer

theorem count_scratch (ctx : AdaptCtx) (update : AdaptStats → AdaptStats) :
    (ctx.count update).ring = ctx.ring ∧ (ctx.count update).rxbufCap = ctx.rxbufCap ∧
      (ctx.count update).role = ctx.role := by
  simp only [AdaptCtx.count]
  split <;> exact ⟨rfl, rfl, rfl⟩

/-- What `handle_control` does to the context: it may map the ring a request names. -/
inductive ControlEffect (ctx : AdaptCtx) (frame : List UInt8) (after : AdaptCtx) : Prop where
  | unmapped (ring : after.ring = ctx.ring) (rxbufCap : after.rxbufCap = ctx.rxbufCap)
      (role : after.role = ctx.role)
  | mapped (cap32 : UInt32) (name : List UInt8) (capacity : UInt64) (vacant : ctx.ring = none)
      (read : parseSetupReq frame = some (cap32, name))
      (rounded : roundPow2 (if cap32.toUInt64 = 0 then 65536 else cap32.toUInt64) = some capacity)
      (ring : after.ring = some { name := name, capacity := capacity })
      (rxbufCap : ctx.rxbufCap ≤ after.rxbufCap) (role : after.role = ctx.role)
      (scratch : after.rxbufCap = ctx.rxbufCap ∨ after.rxbufCap = cap32.toUInt64)

theorem handle_control_effect {env : ControlEnv} {ctx after : AdaptCtx} {frame : List UInt8}
    {ack : Option (List UInt8)} (handled : handleControl env ctx frame = some (after, ack)) :
    ControlEffect ctx frame after := by
  simp only [handleControl] at handled
  split at handled
  · cases handled
    exact .unmapped rfl rfl rfl
  · next cap32 name read =>
    split at handled
    · cases handled
    · next attached status answered =>
      have counted : ∀ settled : AdaptCtx, ControlEffect ctx frame settled →
          ControlEffect ctx frame (if status = 0 then settled.count fun st =>
            { st with shmSetupAcks := st.shmSetupAcks + 1 } else settled) := by
        intro settled effect
        split
        · obtain ⟨ring, scratch, role⟩ := count_scratch settled fun st =>
            { st with shmSetupAcks := st.shmSetupAcks + 1 }
          cases effect with
          | unmapped same size kept =>
              exact .unmapped (ring.trans same) (scratch.trans size) (role.trans kept)
          | mapped cap32 name capacity vacant read rounded same size kept grown =>
              exact .mapped cap32 name capacity vacant read rounded (ring.trans same)
                (scratch ▸ size) (role.trans kept) (scratch ▸ grown)
        · exact effect
      simp only [Option.some.injEq, Prod.mk.injEq] at handled
      rw [← handled.1]
      apply counted
      simp only [attachNamed] at answered
      split at answered
      · cases answered
        exact .unmapped rfl rfl rfl
      · next vacant =>
        split at answered
        · cases answered
        · cases answered
          exact .unmapped rfl rfl rfl
        · next capacity mapping =>
          split at answered
          · cases answered
            exact .unmapped rfl rfl rfl
          · next grown room =>
            cases answered
            obtain ⟨_, larger, size⟩ := grow_covers room
            exact .mapped cap32 name capacity vacant read (ring_map_capacity mapping)
              (grow_keeps room).1 larger (by rw [grow_context room]) size

section Steps

variable {origin : List (List UInt8)} {receiver next received : Receiver} {head tail : Nat}
variable {slots : List Slot}

theorem Attached.same {before after : AdaptCtx} {consumer : ConsumerPc}
    (attached : Attached before consumer) (ring : after.ring = before.ring) :
    Attached after consumer := by
  rw [Attached, ring]
  exact attached

theorem Arrivable.same {before after : Receiver} {frame : List UInt8}
    (arrivable : Arrivable before frame)
    (mapping : after.ctx.ring = none → before.ctx.ring = none)
    (capacity : after.ring.producerCapacity = before.ring.producerCapacity) :
    Arrivable after frame := by
  refine ⟨arrivable.1, fun unmapped => ?_⟩
  have same := arrivable.2 (mapping unmapped)
  simp only [sameObject, capacity]
  exact same

theorem RecvReady.counted (ready : RecvReady origin receiver head tail slots)
    (counter : AdaptStats → AdaptStats) :
    RecvReady origin (receiver.counted counter) head tail slots := by
  obtain ⟨ring, scratch, _⟩ := count_scratch receiver.ctx counter
  have mapping : (receiver.counted counter).ctx.ring = receiver.ctx.ring := ring
  have size : (receiver.counted counter).ctx.rxbufCap = receiver.ctx.rxbufCap := scratch
  refine ⟨ready.inv, ?_, ?_, ready.attached.same mapping, ready.popped⟩
  · rw [size]
    exact ready.scratch
  · intro frame member
    exact (ready.inbox frame member).same (fun unmapped => mapping ▸ unmapped) rfl

theorem RecvReady.finish {result : Except Int (List UInt8)}
    (ready : RecvReady origin receiver head tail slots) :
    RecvRing origin (receiver.finish result) head tail slots where
  inv := ready.inv
  scratch := ready.scratch
  inbox := ready.inbox
  place := by
    refine ⟨ready.attached, ready.popped.trans ?_⟩
    simp [Receiver.finish, metBy, Receiver.closed]

theorem RecvReady.delivered (ready : RecvReady origin receiver head tail slots) (n : Int)
    (tmp : List UInt8) (counter : AdaptStats → AdaptStats) :
    RecvRing origin (receiver.deliver n tmp counter) head tail slots ∧
      (receiver.deliver n tmp counter).ring = receiver.ring := by
  simp only [Receiver.deliver]
  split
  · exact ⟨ready.finish, rfl⟩
  · have finished : RecvRing origin ((receiver.counted counter).finish
        (.ok ((tmp.drop 1).take (n.toNat - 1)))) head tail slots := (ready.counted counter).finish
    exact ⟨finished, rfl⟩

theorem RecvReady.waits (ready : RecvReady origin receiver head tail slots) {pc : RecvPc}
    (waiting : (∃ tmoInMsg, pc = .polling tmoInMsg) ∨ pc = .pollingUds) :
    RecvRing origin { receiver with pc := pc } head tail slots := by
  refine ⟨ready.inv, ready.scratch, ready.inbox, ?_⟩
  rcases waiting with ⟨tmoInMsg, rfl⟩ | rfl
  · exact ⟨ready.attached, ready.popped⟩
  · exact ⟨ready.attached, ready.popped⟩

/-- The top of the loop enters a pop or the wait on the socket. -/
theorem RecvReady.looped (ready : RecvReady origin receiver head tail slots)
    (looped : Looped receiver next) :
    RecvRing origin next head tail slots ∧ SameProducerSide receiver.ring next.ring := by
  have counted := ready.counted countLoop
  cases looped with
  | polls tmoInMsg after mapped called =>
      rcases counted.attached with ⟨mapping, result, idle⟩ | ⟨unmapped, _⟩
      · have place := @call_pop_at _ _ _ slots _ idle called
        have consumer : receiver.ring.consumer = .idle result := idle
        simp only [callPop, consumer, Option.some.injEq] at called
        subst called
        have same : SameProducerSide receiver.ring
            { receiver.ring with consumer := .loadTail receiver.ctx.rxbufCap.toNat } := by
          refine ⟨rfl, rfl, rfl, rfl, rfl, rfl, rfl, ?_⟩
          rw [consumer]
          rfl
        refine ⟨⟨same.inv ready.inv ready.inv.capacities trivial, counted.scratch, ?_, mapping, ?_⟩,
          same⟩
        · intro frame member
          exact (counted.inbox frame member).same id rfl
        · obtain ⟨_, scratch, _⟩ := count_scratch receiver.ctx countLoop
          have size : (receiver.ctx.count countLoop).rxbufCap = receiver.ctx.rxbufCap := scratch
          exact ⟨(congrArg UInt64.toNat size).symm, ready.popped⟩
      · have mapping : (receiver.ctx.count countLoop).ring = receiver.ctx.ring :=
          (count_scratch receiver.ctx countLoop).1
        rw [← mapping, show (receiver.ctx.count countLoop).ring = none from unmapped] at mapped
        cases mapped
  | waits tmoInMsg unmapped =>
      exact ⟨counted.waits (Or.inl ⟨tmoInMsg, rfl⟩), SameProducerSide.refl _⟩

theorem RecvReady.answered {env : RecvEnv} {maxSize : Nat} {result : Except Errno (List UInt8)}
    (ready : RecvReady origin receiver head tail slots)
    (answered : Received env receiver maxSize result received) :
    RecvReady origin received head tail slots := by
  have taken := received_taken answered
  cases answered with
  | failed code cause => exact ready
  | datagram frame rest queued room =>
      refine ⟨ready.inv, ready.scratch, ?_, ready.attached, ?_⟩
      · intro frame member
        exact (ready.inbox frame (taken.inbox member)).same id rfl
      · rw [Receiver.note, ← List.append_assoc, records_append, records_uds, List.append_nil]
        exact ready.popped

theorem parse_capacity_nonzero {frame name : List UInt8} {cap32 : UInt32}
    (read : parseSetupReq frame = some (cap32, name)) : cap32.toUInt64 ≠ 0 := by
  simp only [parseSetupReq] at read
  split_ifs at read with _ _ _ range
  cases read
  simp only [not_or, Nat.not_lt] at range
  intro zero
  apply range.1
  have value := congrArg UInt64.toNat zero
  rw [UInt32.toNat_toUInt64, UInt32.toNat_ofNat', UInt64.toNat_zero] at value
  omega

theorem parse_capacity_small {frame name : List UInt8} {cap32 : UInt32}
    (read : parseSetupReq frame = some (cap32, name)) : cap32.toUInt64.toNat ≤ 2 ^ 30 := by
  simp only [parseSetupReq] at read
  split_ifs at read with _ _ _ range
  cases read
  simp only [not_or, Nat.not_lt] at range
  rw [UInt32.toNat_toUInt64, UInt32.toNat_ofNat']
  omega

theorem RecvReady.served {env : RecvEnv} {frame : List UInt8} {served : Receiver}
    (ready : RecvReady origin receiver head tail slots) (tagged : isControl frame = true)
    (same : receiver.ctx.ring = none → sameObject receiver.ring frame = true)
    (handled : receiver.serve env frame = some served) :
    RecvReady origin served head tail slots ∧ SameProducerSide receiver.ring served.ring := by
  obtain ⟨⟨ctx, ack⟩, control, rfl⟩ := Option.map_eq_some_iff.mp handled
  cases handle_control_effect control with
  | unmapped ring rxbufCap role =>
      have kept : servedRing receiver.ring receiver.ctx.ring ctx.ring = receiver.ring := by
        rw [ring]
        cases receiver.ctx.ring <;> rfl
      dsimp only
      rw [kept]
      refine ⟨⟨ready.inv, ?_, ?_, ready.attached.same ring, ready.popped⟩,
        SameProducerSide.refl _⟩
      · dsimp only
        rw [rxbufCap]
        exact ready.scratch
      · intro frame member
        exact (ready.inbox frame member).same (fun unmapped => ring ▸ unmapped) rfl
  | mapped cap32 name capacity vacant read rounded ring rxbufCap role =>
      have kept : servedRing receiver.ring receiver.ctx.ring ctx.ring =
          attachConsumerRing receiver.ring { name := name, capacity := capacity } := by
        rw [vacant, ring]
        rfl
      dsimp only
      rw [kept]
      have asked := same vacant
      simp only [sameObject, tagged, if_true, read, decide_eq_true_eq] at asked
      rw [if_neg (parse_capacity_nonzero read), asked] at rounded
      cases rounded
      have side : SameProducerSide receiver.ring (attachConsumerRing receiver.ring
          { name := name, capacity := receiver.ring.producerCapacity.size }) := by
        refine ⟨rfl, rfl, rfl, rfl, rfl, rfl, rfl, ?_⟩
        rcases ready.attached with ⟨mapped, _⟩ | ⟨_, detached⟩
        · rw [vacant] at mapped
          cases mapped
        · rw [detached]
          rfl
      refine ⟨⟨side.inv ready.inv (of_size _) trivial, ?_, ?_, ?_, ready.popped⟩, side⟩
      · exact UInt64.le_trans ready.scratch rxbufCap
      · intro frame member
        refine (ready.inbox frame member).same (fun unmapped => ?_) rfl
        rw [show ctx.ring = none from unmapped] at ring
        cases ring
      · exact Or.inl ⟨by simp [ring], none, rfl⟩

theorem same_object_take {ring : RingState} {frame : List UInt8} (cap : Nat)
    (peer : PeerDatagram frame) (control : isControl frame = true)
    (same : sameObject ring frame = true) : sameObject ring (frame.take cap) = true := by
  by_cases fits : frame.length ≤ cap
  · rw [List.take_of_length_le fits]
    exact same
  · simp only [sameObject, parse_truncated peer control (Nat.not_le.mp fits), ite_self]

theorem received_frame {env : RecvEnv} {maxSize : Nat} {result : Except Errno (List UInt8)}
    (answered : Received env receiver maxSize result received) (positive : 0 < intResult result) :
    ∃ frame rest, receiver.inbox = frame :: rest ∧ 0 < maxSize ∧
      result = .ok (frame.take maxSize) ∧
      received = { receiver with inbox := rest }.note .uds frame := by
  cases answered with
  | failed code cause =>
      exact absurd positive (error_not_positive code)
  | datagram frame rest queued room =>
      refine ⟨frame, rest, queued, room, ?_, rfl⟩
      split at positive
      · exact absurd positive (error_not_positive .econnreset)
      · next nonempty => rw [if_neg nonempty]

/-- The pop has returned: what it answered is noted, and the ring is at rest again. -/
theorem RecvRing.returned {tmoInMsg : Nat} {result : Except Errno (List UInt8)}
    (held : RecvRing origin receiver head tail slots) (here : receiver.pc = .popping tmoInMsg)
    (returned : popResult receiver.ring = some result) :
    RecvReady origin (receiver.notePopped result) head tail slots ∧
      (∀ frame, result = .ok frame → frame.length ≤ receiver.ctx.rxbufCap.toNat) ∧
      (result = .error .emsgsize → FrontExceeds receiver.ctx.rxbufCap.toNat slots) := by
  have place := held.place
  rw [here] at place
  obtain ⟨mapped, place⟩ := place
  simp only [popResult] at returned
  split at returned
  · next answer idle =>
    cases returned
    rw [idle] at place
    cases result with
    | ok frame =>
        refine ⟨⟨held.inv, held.scratch, held.inbox, Or.inl ⟨mapped, _, idle⟩, ?_⟩, ?_, ?_⟩
        · refine place.2.trans ?_
          simp only [Receiver.notePopped, Receiver.note, metBy]
          rw [← List.append_assoc, records_append _ [(AdaptRoute.shm, frame)], records_shm,
            List.append_assoc]
        · intro other same
          cases same
          exact place.1
        · intro refused
          cases refused
    | error code =>
        refine ⟨⟨held.inv, held.scratch, held.inbox, Or.inl ⟨mapped, _, idle⟩, place.2⟩, ?_, ?_⟩
        · intro frame same
          cases same
        · intro refused
          cases refused
          exact place.1 rfl
  · cases returned

theorem RecvRing.ready (held : RecvRing origin receiver head tail slots)
    (here : (∃ tmoInMsg, receiver.pc = .polling tmoInMsg) ∨ receiver.pc = .pollingUds) :
    RecvReady origin receiver head tail slots := by
  have place := held.place
  rcases here with ⟨tmoInMsg, here⟩ | here <;> rw [here] at place <;>
    exact ⟨held.inv, held.scratch, held.inbox, place.1, place.2⟩

theorem RecvRing.opened {entry : RecvEntry} {buffer : Option Nat}
    {before : Option (Except Int (List UInt8))} (held : RecvRing origin receiver head tail slots)
    (idle : receiver.pc = .idle before) :
    RecvReady origin (receiver.opened entry buffer) head tail slots := by
  have place := held.place
  rw [idle] at place
  refine ⟨held.inv, held.scratch, held.inbox, place.1, ?_⟩
  refine place.2.trans ?_
  simp [metBy, Receiver.opened, openReceipt]

theorem foreign_keeps_consumer {before after : RingState} {action : RingAction}
    (foreign : action.entersConsumer = false)
    (rest : (∃ result, before.consumer = .idle result) ∨ before.consumer = .detached)
    (stepped : ringStep before action = some after) :
    after.consumer = before.consumer ∧ after.popped = before.popped := by
  refine keeps_consumer foreign ?_ stepped
  rintro rfl
  rcases rest with ⟨result, here⟩ | here <;> simp [ringStep, consumerStep, here] at stepped

theorem Attached.rest {ctx : AdaptCtx} {consumer : ConsumerPc} (attached : Attached ctx consumer) :
    (∃ result, consumer = .idle result) ∨ consumer = .detached :=
  attached.imp And.right And.right

theorem ring_move_recv {action : RingAction} {after : RingState}
    (held : RecvRing origin receiver head tail slots) (short : action.recordsBelow (2 ^ 32) = true)
    (foreign : action.entersConsumer = false)
    (moved : ringStep receiver.ring action = some after) :
    ∃ head' tail' slots', RecvRing origin { receiver with ring := after } head' tail' slots' ∧
      RingEffect receiver.ring after head tail slots head' tail' slots' := by
  have place := held.place
  have capacity := (same_capacity_step moved).1
  have inbox : ∀ frame ∈ receiver.inbox, Arrivable { receiver with ring := after } frame :=
    fun frame member => (held.inbox frame member).same id capacity
  have resting : Attached receiver.ctx receiver.ring.consumer ∧ receiver.ring.popped =
        origin ++ recordsOf (metBy receiver.receipts receiver.draft receiver.pc) →
      ∃ head' tail' slots', RingInv after head' tail' slots' ∧
        RingEffect receiver.ring after head tail slots head' tail' slots' ∧
        Attached receiver.ctx after.consumer ∧ after.popped =
          origin ++ recordsOf (metBy receiver.receipts receiver.draft receiver.pc) := by
    rintro ⟨attached, popped⟩
    obtain ⟨head', tail', slots', kept, effect⟩ := ring_step_inv held.inv short moved
    obtain ⟨consumer, same⟩ := foreign_keeps_consumer foreign attached.rest moved
    exact ⟨head', tail', slots', kept, effect, consumer ▸ attached, same.trans popped⟩
  cases here : receiver.pc with
  | popping tmoInMsg =>
      rw [here] at place
      obtain ⟨mapped, place⟩ := place
      obtain ⟨head', tail', slots', kept, effect, place⟩ :=
        ring_step_pop_at held.inv place short foreign moved
      refine ⟨head', tail', slots', ⟨kept, held.scratch, inbox, ?_⟩, effect⟩
      exact ⟨mapped, place⟩
  | _ =>
      rw [here] at place resting
      obtain ⟨head', tail', slots', kept, effect, rest⟩ := resting place
      refine ⟨head', tail', slots', ⟨kept, held.scratch, inbox, ?_⟩, effect⟩
      exact rest

/-- What the endpoint is promised: datagrams of its peer, records whose length fits
their header word, and that receiving does not fail for the size of a message. -/
def RecvAction.allowed (receiver : Receiver) : RecvAction → Bool
  | .arrive datagram => decide (Arrivable receiver datagram)
  | .ring action => action.recordsBelow (2 ^ 32)
  | .step env => decide (env.failure ≠ some .emsgsize)
  | .call _ _ => true

theorem RecvReady.taken_request {env : RecvEnv} {maxSize : Nat}
    {result : Except Errno (List UInt8)} (ready : RecvReady origin receiver head tail slots)
    (answered : Received env receiver maxSize result received) (positive : 0 < intResult result)
    (control : isControl (bufferBytes result) = true) :
    received.ctx.ring = none → sameObject received.ring (bufferBytes result) = true := by
  obtain ⟨frame, rest, queued, room, rfl, rfl⟩ := received_frame answered positive
  have arrived := ready.inbox frame (by rw [queued]; exact List.mem_cons_self)
  have whole : isControl frame = true := by
    rw [← control]
    simp only [isControl, bufferBytes, List.head?_take, Nat.ne_of_gt room, if_false]
  exact fun unmapped => same_object_take maxSize arrived.1 whole (arrived.2 unmapped)

/-- A step of the endpoint itself moves at most the consumer thread. -/
theorem own_move_recv {action : RecvAction} (held : RecvRing origin receiver head tail slots)
    (own : ∀ moved, action ≠ .ring moved)
    (arrives : ∀ datagram, action = .arrive datagram → Arrivable receiver datagram)
    (move : RecvMove receiver action next) :
    RecvRing origin next head tail slots ∧ SameProducerSide receiver.ring next.ring := by
  have still := SameProducerSide.refl receiver.ring
  have finished : ∀ {ready : Receiver} {result : Except Int (List UInt8)},
      RecvReady origin ready head tail slots → ready.ring = receiver.ring →
      RecvRing origin (ready.finish result) head tail slots ∧
        SameProducerSide receiver.ring (ready.finish result).ring := by
    intro ready result rest same
    refine ⟨rest.finish, ?_⟩
    rw [show (ready.finish result).ring = receiver.ring from same]
    exact still
  have looping : ∀ {ready : Receiver}, RecvReady origin ready head tail slots →
      SameProducerSide receiver.ring ready.ring → Looped ready next →
      RecvRing origin next head tail slots ∧ SameProducerSide receiver.ring next.ring := by
    intro ready rest side looped
    obtain ⟨kept, same⟩ := rest.looped looped
    exact ⟨kept, side.trans same⟩
  cases move with
  | rejected buffer before code idle bad => exact finished (held.opened idle) rfl
  | entered buffer before maxSize next idle good looped =>
      exact looping (held.opened idle) still looped
  | rejectedUds buffer before code idle bad => exact finished (held.opened idle) rfl
  | enteredUds buffer before maxSize idle good =>
      exact ⟨(held.opened idle).waits (Or.inr rfl), still⟩
  | popped env tmoInMsg result here returned positive =>
      obtain ⟨ready, _, _⟩ := held.returned here returned
      obtain ⟨kept, same⟩ := ready.delivered (intResult result) (bufferBytes result)
        (countShm tmoInMsg)
      refine ⟨kept, ?_⟩
      rw [same]
      cases result <;> exact still
  | popFailed env tmoInMsg result here returned nonpositive other =>
      obtain ⟨ready, _, _⟩ := held.returned here returned
      cases result <;> exact finished ready rfl
  | popEmpty env tmoInMsg result here returned empty =>
      obtain ⟨ready, _, _⟩ := held.returned here returned
      refine ⟨ready.waits (Or.inl ⟨tmoInMsg, rfl⟩), ?_⟩
      cases result <;> exact still
  | served env tmoInMsg result received served next here answered more control handled looped =>
      have ready := held.ready (Or.inl ⟨tmoInMsg, here⟩)
      have mapping : (received.counted countPoll).ctx.ring = received.ctx.ring :=
        (count_scratch received.ctx countPoll).1
      have asked := ready.taken_request answered (by omega) control
      obtain ⟨ready, side⟩ := ((ready.answered answered).counted countPoll).served control
        (fun unmapped => asked (mapping ▸ unmapped)) handled
      rw [show (received.counted countPoll).ring = receiver.ring from
        (received_taken answered).ring] at side
      exact looping ready side looped
  | received env tmoInMsg result received here answered more data =>
      have ready := (held.ready (Or.inl ⟨tmoInMsg, here⟩)).answered answered
      obtain ⟨kept, same⟩ := (ready.counted countPoll).delivered (intResult result)
        (bufferBytes result) (countUds tmoInMsg)
      refine ⟨kept, ?_⟩
      rw [same, show (received.counted countPoll).ring = receiver.ring from
        (received_taken answered).ring]
      exact still
  | pollFailed env tmoInMsg result received here answered nonpositive other =>
      have ready := (held.ready (Or.inl ⟨tmoInMsg, here⟩)).answered answered
      exact finished (ready.counted countPoll) (received_taken answered).ring
  | pollQuiet env tmoInMsg result received next here answered nothing looped =>
      have ready := (held.ready (Or.inl ⟨tmoInMsg, here⟩)).answered answered
      have same : SameProducerSide receiver.ring received.ring := by
        rw [(received_taken answered).ring]
        exact still
      exact looping ((ready.counted countPoll).counted countTimeout) same looped
  | udsFailed env result received here answered nonpositive =>
      exact finished ((held.ready (Or.inr here)).answered answered) (received_taken answered).ring
  | udsServed env result received next here answered positive control handled =>
      have ready := held.ready (Or.inr here)
      have asked := ready.taken_request answered positive control
      obtain ⟨served, side⟩ := (ready.answered answered).served control asked handled
      rw [(received_taken answered).ring] at side
      have same : next.pc = .pollingUds :=
        (serve_served handled).pc.trans ((received_taken answered).pc.trans here)
      refine ⟨⟨served.inv, served.scratch, served.inbox, ?_⟩, side⟩
      rw [same]
      exact ⟨served.attached, served.popped⟩
  | udsTooLarge env result received here answered positive data large =>
      exact finished ((held.ready (Or.inr here)).answered answered) (received_taken answered).ring
  | udsReceived env result received here answered positive data fits =>
      exact finished ((held.ready (Or.inr here)).answered answered) (received_taken answered).ring
  | ring action after foreign moved => exact absurd rfl (own action)
  | arrived datagram =>
      refine ⟨⟨held.inv, held.scratch, ?_, held.place⟩, still⟩
      intro frame member
      rcases List.mem_append.mp member with old | new
      · exact (held.inbox frame old).same id rfl
      · rw [List.mem_singleton.mp new]
        exact (arrives datagram rfl).same id rfl

end Steps

end AdaptIpc.Endpoint

import AdaptIpc.Endpoint.SendFrame
import AdaptIpc.Ring.Call

/-!
# The ring under `adapt_send`

The ring invariant along the runs of a producer endpoint, mapped from the start
or by a handshake on the way: a step of the endpoint has the effect of a ring
step, the ring's producer thread is inside a call exactly in the SHM branch, and
the ring has been given the frames of the attempts that report one there.
-/

namespace AdaptIpc.Endpoint

open AdaptIpc.Ring AdaptIpc.Policy AdaptIpc.Library.Transition

set_option autoImplicit false

def Attempt.shmFrames (attempt : Attempt) : List (List UInt8) :=
  if attempt.placed = some .shm then [shmFrame attempt.payload] else []

def shmFrames (attempts : List Attempt) : List (List UInt8) :=
  attempts.flatMap Attempt.shmFrames

theorem shm_frames_append (attempts : List Attempt) (attempt : Attempt) :
    shmFrames (attempts ++ [attempt]) = shmFrames attempts ++ attempt.shmFrames := by
  simp [shmFrames]

theorem segments_record (payload : List UInt8) :
    (PushCall.scatter (shmSegments payload)).record = shmFrame payload := by
  simp [PushCall.record, shmSegments, shmFrame, ShmSegment.content]

theorem shm_call_record (ctx : AdaptCtx) (payload : List UInt8) :
    (shmCall ctx payload).record = shmFrame payload := by
  simp only [shmCall]
  split <;> exact segments_record payload

theorem start_continues (capacity : RingCapacity) (ctx : AdaptCtx) (payload : List UInt8) :
    Ring.Continues (shmFrame payload) ((shmCall ctx payload).start capacity) := by
  rw [← segments_record payload]
  simp only [shmCall]
  split
  · exact start_push_continues capacity (.direct (.scatter (shmSegments payload)))
  · exact Or.inl ⟨rfl, rfl⟩

def Initialising (pc : ProducerPc) : Prop := (∃ todo, pc = .initHeader todo) ∨ ∃ rc, pc = .idle rc

/-- The push of the frame: running, failed, or returned with the frame enqueued. -/
inductive PushPlace (ring : RingState) (frame : List UInt8) (before : List (List UInt8)) :
    Prop where
  | waiting (place : Ring.Continues frame ring.producer) (pushed : ring.pushed = before)
  | done (place : ring.producer = .idle (some (.ok ()))) (pushed : ring.pushed = before ++ [frame])

def RingAt (ring : RingState) (attempts : List Attempt) (draft : Attempt) : SendPc → Prop
  | .mapping => Initialising ring.producer ∧ ring.pushed = shmFrames attempts
  | .pushDirect _ => PushPlace ring (shmFrame draft.payload) (shmFrames attempts)
  | .pushBlocking _ => PushPlace ring (shmFrame draft.payload) (shmFrames attempts)
  | _ => ring.producer.resting = true ∧ ring.pushed = shmFrames attempts

/-- The running call: nothing is placed yet, and its frame fits the length word. -/
structure Open (draft : Attempt) : Prop where
  unplaced : draft.placed = none
  nonempty : draft.payload ≠ []
  short : (shmFrame draft.payload).length < 2 ^ 32

/-- The capacity `ring_map` gives to the configured request. -/
def Fitted (ctx : AdaptCtx) (ring : RingState) : Prop :=
  roundPow2 (if ctx.shmCapacity = 0 then 65536 else ctx.shmCapacity) =
    some ring.producerCapacity.size

structure SendRing (sender : Sender) (head tail : Nat) (slots : List Slot) : Prop where
  inv : RingInv sender.ring head tail slots
  fitted : Fitted sender.ctx sender.ring
  vacant : sender.ctx.ring = none ∨ sender.pc = .mapping → head = 0
  place : RingAt sender.ring sender.attempts sender.draft sender.pc
  running : (∃ rc, sender.pc = .idle rc) ∨ Open sender.draft

structure Ready (sender : Sender) (head tail : Nat) (slots : List Slot) : Prop where
  inv : RingInv sender.ring head tail slots
  fitted : Fitted sender.ctx sender.ring
  vacant : sender.ctx.ring = none → head = 0
  resting : sender.ring.producer.resting = true
  pushed : sender.ring.pushed = shmFrames sender.attempts
  opened : Open sender.draft

/-- A step of the endpoint and its effect on the ring. -/
def Advances (sender next : Sender) (head tail : Nat) (slots : List Slot) : Prop :=
  ∃ head' tail' slots', SendRing next head' tail' slots' ∧
    RingEffect sender.ring next.ring head tail slots head' tail' slots'

section Steps

variable {sender next : Sender} {head tail : Nat} {slots : List Slot}

theorem Fitted.same {before after : AdaptCtx} {ring : RingState} (fitted : Fitted before ring)
    (config : SameConfig before after) : Fitted after ring := by
  rw [Fitted, config.shmCapacity]
  exact fitted

theorem advances_same (held : SendRing next head tail slots) (ring : next.ring = sender.ring) :
    Advances sender next head tail slots :=
  ⟨head, tail, slots, held, .quiet (by rw [ring]) (by rw [ring]) (by rw [ring])⟩

theorem Ready.noted {ctx : AdaptCtx} {draft : Attempt} (ready : Ready sender head tail slots)
    (config : SameConfig sender.ctx ctx) (ring : ctx.ring = none → sender.ctx.ring = none)
    (opened : Open draft) : Ready { sender with ctx := ctx, draft := draft } head tail slots where
  inv := ready.inv
  fitted := ready.fitted.same config
  vacant := fun unmapped => ready.vacant (ring unmapped)
  resting := ready.resting
  pushed := ready.pushed
  opened := opened

theorem Ready.finish_any {rc : Status} {draft : Attempt}
    (ready : Ready { sender with draft := draft } head tail slots)
    (unplaced : sender.draft.placed = none) : SendRing (sender.finish rc) head tail slots where
  inv := ready.inv
  fitted := ready.fitted
  vacant := by
    rintro (unmapped | mapping)
    · exact ready.vacant unmapped
    · cases mapping
  place := by
    refine ⟨ready.resting, ?_⟩
    simp only [Sender.finish, Sender.closed, shm_frames_append, Attempt.shmFrames, unplaced,
      reduceCtorEq, if_false, List.append_nil]
    exact ready.pushed
  running := Or.inl ⟨_, rfl⟩

theorem Ready.finish {rc : Status} (ready : Ready sender head tail slots) :
    SendRing (sender.finish rc) head tail slots :=
  Ready.finish_any ready ready.opened.unplaced

theorem call_producer_entered {ring after : RingState} {call : ProducerCall}
    (called : callProducer ring call = some after) :
    (∃ result, ring.producer = .idle result) ∧
      after = { ring with producer := call.start ring.producerCapacity } := by
  simp only [callProducer] at called
  split at called
  · next result idle => exact ⟨⟨result, idle⟩, (Option.some.inj called).symm⟩
  · cases called

/-- The endpoint enters a push of its frame. -/
theorem call_advances {call : ProducerCall} (ready : Ready sender head tail slots)
    (record : call.record = shmFrame sender.draft.payload)
    (starts : Ring.Continues (shmFrame sender.draft.payload) (call.start sender.ring.producerCapacity))
    (called : callProducer sender.ring call = some next.ring)
    (config : SameConfig sender.ctx next.ctx) (ring : next.ctx.ring = sender.ctx.ring)
    (attempts : next.attempts = sender.attempts)
    (payload : next.draft.payload = sender.draft.payload)
    (placed : next.draft.placed = sender.draft.placed)
    (pushing : (∃ t, next.pc = .pushDirect t) ∨ ∃ t, next.pc = .pushBlocking t) :
    Advances sender next head tail slots := by
  have short : (RingAction.callProducer call).recordsBelow (2 ^ 32) = true := by
    simpa [RingAction.recordsBelow, record] using ready.opened.short
  obtain ⟨head', tail', slots', inv, effect⟩ := ring_step_inv ready.inv short called
  obtain ⟨_, entered⟩ := call_producer_entered called
  have same : head' = head := effect.head_same (by rw [entered])
  rw [same] at inv effect
  refine ⟨head, tail', slots', ?_, effect⟩
  constructor
  · exact inv
  · rw [entered]
    exact ready.fitted.same config
  · rintro (unmapped | mapping)
    · rw [ring] at unmapped
      exact ready.vacant unmapped
    · rcases pushing with ⟨t, here⟩ | ⟨t, here⟩ <;> rw [here] at mapping <;> cases mapping
  · have place : PushPlace next.ring (shmFrame next.draft.payload) (shmFrames next.attempts) := by
      rw [entered, payload, attempts]
      exact .waiting starts ready.pushed
    rcases pushing with ⟨t, here⟩ | ⟨t, here⟩ <;> rw [here] <;> exact place
  · apply Or.inr
    constructor
    · rw [placed]
      exact ready.opened.unplaced
    · rw [payload]
      exact ready.opened.nonempty
    · rw [payload]
      exact ready.opened.short

theorem push_advances {ring : RingState} (tMeas : UInt64) (ready : Ready sender head tail slots)
    (called : callProducer sender.ring (shmCall sender.ctx sender.draft.payload) = some ring) :
    Advances sender (sender.startPush ring tMeas) head tail slots := by
  have quiet := quiet_push sender ring tMeas
  apply call_advances ready (shm_call_record sender.ctx sender.draft.payload)
    (start_continues _ _ _) called quiet.toSameConfig quiet.ring rfl rfl rfl
  simp only [Sender.startPush]
  split
  · exact Or.inl ⟨_, rfl⟩
  · exact Or.inr ⟨_, rfl⟩

theorem datagram_advances (tMeas : UInt64) (ready : Ready sender head tail slots) :
    Advances sender (sender.startDatagram tMeas) head tail slots := by
  have quiet := quiet_datagram sender tMeas
  apply advances_same _ rfl
  constructor
  · exact ready.inv
  · exact ready.fitted.same quiet.toSameConfig
  · rintro (unmapped | mapping)
    · rw [quiet.ring] at unmapped
      exact ready.vacant unmapped
    · cases mapping
  · exact ⟨ready.resting, ready.pushed⟩
  · exact Or.inr ⟨ready.opened.unplaced, ready.opened.nonempty, ready.opened.short⟩

theorem failed_advances {hrc : Errno} (ready : Ready sender head tail slots)
    (failed : HandshakeFailed sender hrc next) : Advances sender next head tail slots := by
  have kept := handshake_failed_retry_only sender.ctx sender.draft.size hrc
  have ring : (handshakeFailed sender.ctx sender.draft.size hrc).2.ring = none →
      sender.ctx.ring = none := fun unmapped => kept.ring.symm.trans unmapped
  have noted : Ready (sender.handshakeFailure hrc).2 head tail slots :=
    ready.noted kept.toSameConfig ring ⟨ready.opened.unplaced, ready.opened.nonempty, ready.opened.short⟩
  cases failed with
  | refused large => exact advances_same noted.finish rfl
  | degraded tMeas small =>
      have sent := datagram_advances tMeas noted
      exact sent

theorem transmitted_advances {route : AdaptRoute} (ready : Ready sender head tail slots)
    (transmitted : Transmitted sender route next) : Advances sender next head tail slots := by
  cases transmitted with
  | push ring tMeas shm called => exact push_advances tMeas ready called
  | datagram tMeas other => exact datagram_advances tMeas ready

theorem dispatched_advances (ready : Ready sender head tail slots)
    (dispatched : Dispatched sender next) : Advances sender next head tail slots := by
  have decided : ∀ now waitClock, Ready (sender.decide now waitClock).2 head tail slots := by
    intro now waitClock
    apply ready.noted (decide_config sender now waitClock)
    · intro unmapped
      exact (decide_mapping sender now waitClock).ring.symm.trans unmapped
    · exact ⟨ready.opened.unplaced, ready.opened.nonempty, ready.opened.short⟩
  cases dispatched with
  | tooLarge now waitClock refused => exact advances_same (decided now waitClock).finish rfl
  | negotiating now waitClock env route unmapped waiting =>
      have ready := decided now waitClock
      have named := name_mapping_only (sender.decide now waitClock).2.ctx env.pid env.negCounter
      have link := name_keeps_ring (sender.decide now waitClock).2.ctx env.pid env.negCounter
      apply advances_same _ rfl
      constructor
      · exact ready.inv
      · exact ready.fitted.same named.toSameConfig
      · exact fun _ => ready.vacant unmapped
      · simp only [Sender.negotiate]
        split <;> exact ⟨ready.resting, ready.pushed⟩
      · exact Or.inr ready.opened
  | sent now waitClock route next accepted mapped transmitted =>
      have moved := transmitted_advances (decided now waitClock) transmitted
      exact moved

theorem attach_ring_same {env : MapEnv} {ctx mapped : AdaptCtx} {ring : RingState}
    (fitted : Fitted ctx ring) (attached : mapNegotiated env ctx = some (.ok mapped)) :
    attachRing ring mapped = { ring with producer := .initHeader headerInit } := by
  simp only [mapNegotiated] at attached
  split at attached <;> cases attached
  next capacity rounded =>
    have same := (ring_map_capacity rounded).symm.trans fitted
    cases same
    simp only [attachRing, of_size]

theorem SendRing.opened (held : SendRing sender head tail slots)
    (busy : ∀ rc, sender.pc ≠ .idle rc) : Open sender.draft := by
  rcases held.running with ⟨rc, idle⟩ | opened
  · exact absurd idle (busy rc)
  · exact opened

theorem push_returned {ring : RingState} {frame : List UInt8} {before : List (List UInt8)}
    {rc : Status} (place : PushPlace ring frame before) (returned : pushResult ring = some rc) :
    ring.producer.resting = true ∧
      ring.pushed = before ++ if rc = .ok () then [frame] else [] := by
  cases place with
  | waiting place pushed =>
      rcases place with ⟨serving, candidate⟩ | ⟨code, failed⟩
      · exfalso
        cases producer : ring.producer <;> rw [producer] at serving <;>
          simp [pushResult, producer, ProducerPc.serving] at returned serving
      · simp only [pushResult, failed, Option.some.injEq] at returned
        rw [failed, ← returned, pushed]
        exact ⟨rfl, by simp⟩
  | done place pushed =>
      simp only [pushResult, place, Option.some.injEq] at returned
      rw [place, ← returned, pushed]
      exact ⟨rfl, by simp⟩

theorem push_failed {ring : RingState} {frame : List UInt8} {before : List (List UInt8)}
    {code : Errno} (place : PushPlace ring frame before)
    (failed : pushResult ring = some (.error code)) :
    ring.producer.resting = true ∧ ring.pushed = before := by
  simpa using push_returned place failed

theorem SendRing.ready (held : SendRing sender head tail slots)
    (place : RingAt sender.ring sender.attempts sender.draft sender.pc →
      sender.ring.producer.resting = true ∧ sender.ring.pushed = shmFrames sender.attempts)
    (busy : ∀ rc, sender.pc ≠ .idle rc) : Ready sender head tail slots where
  inv := held.inv
  fitted := held.fitted
  vacant := fun unmapped => held.vacant (Or.inl unmapped)
  resting := (place held.place).1
  pushed := (place held.place).2
  opened := held.opened busy

theorem Ready.moves (ready : Ready sender head tail slots) (ring : next.ring = sender.ring)
    (config : SameConfig sender.ctx next.ctx)
    (unmapped : next.ctx.ring = none → sender.ctx.ring = none) (elsewhere : next.pc ≠ .mapping)
    (place : RingAt next.ring next.attempts next.draft next.pc) (opened : Open next.draft) :
    Advances sender next head tail slots := by
  apply advances_same _ ring
  constructor
  · rw [ring]
    exact ready.inv
  · rw [ring]
    exact ready.fitted.same config
  · rintro (gone | mapping)
    · exact ready.vacant (unmapped gone)
    · exact absurd mapping elsewhere
  · exact place
  · exact Or.inr opened

/-- The payloads of the calls leave room for the header word. -/
def payloadsBelow : SendAction → Bool
  | .call _ (some payload) => decide ((shmFrame payload).length < 2 ^ 32)
  | _ => true

theorem idle_ready {rc : Option Status} {data : Option (List UInt8)} {payload : List UInt8}
    (idle : sender.pc = .idle rc) (held : SendRing sender head tail slots)
    (good : checkArguments sender.ctx data = .ok payload)
    (short : (shmFrame payload).length < 2 ^ 32) :
    Ready { sender with draft := openAttempt payload } head tail slots := by
  have place := held.place
  rw [idle] at place
  exact ⟨held.inv, held.fitted, fun unmapped => held.vacant (Or.inl unmapped), place.1, place.2,
    rfl, arguments_nonempty good, short⟩

theorem push_place_step {ring after : RingState} {action : RingAction} {frame : List UInt8}
    {before : List (List UInt8)} (place : PushPlace ring frame before)
    (foreign : action.entersProducer = false) (moved : ringStep ring action = some after) :
    PushPlace after frame before := by
  cases place with
  | waiting place pushed =>
      rcases place with ⟨serving, candidate⟩ | ⟨code, failed⟩
      · cases serving_step serving foreign moved with
        | continued next samePushed sameHead =>
            rw [candidate] at next
            exact .waiting next (samePushed.trans pushed)
        | returned next nowPushed =>
            rw [candidate, pushed] at nowPushed
            exact .done next nowPushed
      · obtain ⟨producer, samePushed, sameHead⟩ :=
          resting_step (by rw [failed]; rfl) foreign moved
        exact .waiting (Or.inr ⟨code, producer.trans failed⟩) (samePushed.trans pushed)
  | done place pushed =>
      obtain ⟨producer, samePushed, sameHead⟩ := resting_step (by rw [place]; rfl) foreign moved
      exact .done (producer.trans place) (samePushed.trans pushed)

theorem initialising_step {ring after : RingState} {action : RingAction}
    (place : Initialising ring.producer) (foreign : action.entersProducer = false)
    (moved : ringStep ring action = some after) :
    Initialising after.producer ∧ after.pushed = ring.pushed := by
  rcases place with ⟨todo, writing⟩ | ⟨rc, idle⟩
  · obtain ⟨next, pushed⟩ := header_step writing foreign moved
    rcases next with more | finished
    · exact ⟨Or.inl more, pushed⟩
    · exact ⟨Or.inr ⟨none, finished⟩, pushed⟩
  · obtain ⟨producer, pushed, sameHead⟩ := resting_step (by rw [idle]; rfl) foreign moved
    exact ⟨Or.inr ⟨rc, producer.trans idle⟩, pushed⟩

theorem ring_at_step {ring after : RingState} {action : RingAction} {attempts : List Attempt}
    {draft : Attempt} {pc : SendPc} (place : RingAt ring attempts draft pc)
    (foreign : action.entersProducer = false) (moved : ringStep ring action = some after) :
    RingAt after attempts draft pc ∧
      (after.pushed = ring.pushed ∨ (∃ t, pc = .pushDirect t) ∨ ∃ t, pc = .pushBlocking t) := by
  have resting : ring.producer.resting = true ∧ ring.pushed = shmFrames attempts →
      (after.producer.resting = true ∧ after.pushed = shmFrames attempts) ∧
        after.pushed = ring.pushed := by
    rintro ⟨still, pushed⟩
    obtain ⟨producer, same, sameHead⟩ := resting_step still foreign moved
    exact ⟨⟨by rw [producer]; exact still, same.trans pushed⟩, same⟩
  cases pc with
  | mapping =>
      obtain ⟨next, same⟩ := initialising_step place.1 foreign moved
      exact ⟨⟨next, same.trans place.2⟩, Or.inl same⟩
  | pushDirect t => exact ⟨push_place_step place foreign moved, Or.inr (Or.inl ⟨t, rfl⟩)⟩
  | pushBlocking t => exact ⟨push_place_step place foreign moved, Or.inr (Or.inr ⟨t, rfl⟩)⟩
  | _ =>
      obtain ⟨next, same⟩ := resting place
      exact ⟨next, Or.inl same⟩

theorem SendRing.ring_moved {action : RingAction} {after : RingState} {head' tail' : Nat}
    {slots' : List Slot} (held : SendRing sender head tail slots) (mapped : SenderMapped sender)
    (foreign : action.entersProducer = false) (moved : ringStep sender.ring action = some after)
    (inv : RingInv after head' tail' slots')
    (effect : RingEffect sender.ring after head tail slots head' tail' slots') :
    SendRing { sender with ring := after } head' tail' slots' := by
  have fitted : Fitted sender.ctx after := by
    rw [Fitted, (same_capacity_step moved).1]
    exact held.fitted
  obtain ⟨place, still⟩ := ring_at_step held.place foreign moved
  refine ⟨inv, fitted, ?_, place, held.running⟩
  intro vacancy
  rcases still with same | pushing
  · rw [effect.head_same same]
    exact held.vacant vacancy
  · have held : sender.ctx.ring.isSome = true ∧ sender.pc ≠ .mapping := by
      rcases pushing with ⟨t, here⟩ | ⟨t, here⟩ <;> rw [SenderMapped, here] at mapped <;>
        exact ⟨mapped, by rw [here]; simp⟩
    rcases vacancy with unmapped | mapping
    · rw [unmapped] at held
      cases held.1
    · exact absurd mapping held.2

theorem ring_advances {action : RingAction} {after : RingState}
    (held : SendRing sender head tail slots) (mapped : SenderMapped sender)
    (foreign : action.entersProducer = false) (moved : ringStep sender.ring action = some after) :
    Advances sender { sender with ring := after } head tail slots := by
  have below : action.recordsBelow (2 ^ 32) = true := by
    cases action with
    | callProducer call => cases foreign
    | _ => rfl
  obtain ⟨head', tail', slots', inv, effect⟩ := ring_step_inv held.inv below moved
  exact ⟨head', tail', slots', held.ring_moved mapped foreign moved inv effect, effect⟩

theorem SendRing.rejected {before : Option Status} {rc : Status}
    (held : SendRing sender head tail slots) (idle : sender.pc = .idle before) :
    SendRing { sender with pc := .idle (some rc) } head tail slots := by
  have place := held.place
  rw [idle] at place
  refine ⟨held.inv, held.fitted, ?_, place, Or.inl ⟨_, rfl⟩⟩
  rintro (unmapped | mapping)
  · exact held.vacant (Or.inl unmapped)
  · cases mapping

/-- Every step keeps the ring invariant and has the effect of one ring step. -/
theorem move_advances {action : SendAction} (held : SendRing sender head tail slots)
    (mapped : SenderMapped sender) (short : payloadsBelow action = true)
    (move : SendMove sender action next) : Advances sender next head tail slots := by
  have place := held.place
  cases move with
  | rejected env data before code idle bad => exact advances_same (held.rejected idle) rfl
  | opened env data before payload idle good present =>
      cases arguments_payload good
      have ready := idle_ready idle held good (by simpa [payloadsBelow] using short)
      have moved : Advances { sender with draft := openAttempt payload }
          { sender with draft := openAttempt payload, pc := .usedHead env.clock } head tail slots :=
        ready.moves rfl (SameConfig.refl _) id (by simp) ⟨ready.resting, ready.pushed⟩ ready.opened
      exact moved
  | openedUnmapped env data before payload next idle good none dispatched =>
      cases arguments_payload good
      have ready := idle_ready idle held good (by simpa [payloadsBelow] using short)
      have sampled : Ready ({ sender with draft := openAttempt payload }.sample 0 env.clock
          Option.none) head tail slots := by
        have quiet := quiet_sample sender.ctx (openAttempt payload).size 0 env.clock
        exact ⟨ready.inv, ready.fitted.same quiet.toSameConfig, ready.vacant, ready.resting,
          ready.pushed, ready.opened⟩
      have moved := dispatched_advances sampled dispatched
      exact moved
  | usedHead env now here =>
      have ready := held.ready (by rw [here]; exact id) (by simp [here])
      exact ready.moves rfl (SameConfig.refl _) id (by simp) ⟨ready.resting, ready.pushed⟩
        ready.opened
  | usedTail env now head here =>
      have ready := held.ready (by rw [here]; exact id) (by simp [here])
      exact ready.moves rfl (quiet_sample _ _ _ _).toSameConfig id (by simp)
        ⟨ready.resting, ready.pushed⟩ ready.opened
  | freeHead env now occ here =>
      have ready := held.ready (by rw [here]; exact id) (by simp [here])
      exact ready.moves rfl (SameConfig.refl _) id (by simp) ⟨ready.resting, ready.pushed⟩
        ready.opened
  | freeTail env now occ head cap next here dispatched =>
      have ready := held.ready (by rw [here]; exact id) (by simp [here])
      have quiet := quiet_monitor sender.ctx occ cap
      have noted := ready.noted quiet.toSameConfig (fun gone => quiet.ring.symm.trans gone)
        ready.opened
      have moved := dispatched_advances noted dispatched
      exact moved
  | requestFailed env nowNs code next here refused failed =>
      have ready := held.ready (by rw [here]; exact id) (by simp [here])
      exact failed_advances ready failed
  | requested env nowNs here delivered =>
      have ready := held.ready (by rw [here]; exact id) (by simp [here])
      have quiet := quiet_request sender.ctx nowNs
      exact ready.moves rfl quiet.toSameConfig (fun gone => quiet.ring.symm.trans gone) (by simp)
        ⟨ready.resting, ready.pushed⟩ ready.opened
  | ackFailed env deadline received code next here arrived failed =>
      have ready := held.ready (by rw [here]; exact id) (by simp [here])
      exact failed_advances ready failed
  | polled env deadline here quiet => exact advances_same held rfl
  | ackUnmappable env deadline frame code next here arrived acknowledged failed =>
      have ready := held.ready (by rw [here]; exact id) (by simp [here])
      have quiet := quiet_ack sender.ctx
      have noted := ready.noted quiet.toSameConfig (fun gone => quiet.ring.symm.trans gone)
        ready.opened
      have moved := failed_advances noted failed
      exact moved
  | ackMapped env deadline frame attachedCtx here arrived acknowledged attached =>
      have ready := held.ready (by rw [here]; exact id) (by simp [here])
      have quiet := quiet_ack sender.ctx
      have config := quiet.toSameConfig.trans (map_mapping_only attached).toSameConfig
      rw [SenderMapped, here] at mapped
      have empty : head = 0 := ready.vacant mapped.1
      have ordered := ready.inv.ordered
      obtain ⟨head', slots', inv, effect⟩ := @producer_moves _ _ _ _ ready.inv sender.ring.object
        sender.ring.flagPending (.initHeader headerInit) rfl rfl rfl (by simp [ProducerPc.candidate])
        ⟨empty, by omega⟩
      have same : head' = head := effect.head_same rfl
      rw [same] at inv effect
      rw [attach_ring_same (ready.fitted.same quiet.toSameConfig) attached]
      refine ⟨head, tail, slots', ⟨inv, ready.fitted.same config, fun _ => empty,
        ⟨Or.inl ⟨_, rfl⟩, ready.pushed⟩, Or.inr ready.opened⟩, effect⟩
  | mappingFailed env before next here written short failed =>
      have empty : head = 0 := held.vacant (Or.inr here)
      have closed : Ready { sender with ctx := { sender.ctx with ring := none } } head tail
          slots := by
        rw [here] at place
        refine ⟨held.inv, held.fitted, fun _ => empty, ?_, place.2, held.opened (by simp [here])⟩
        rw [written]
        rfl
      have moved := failed_advances closed failed
      exact moved
  | negotiated env before grown next here written room transmitted =>
      have empty : head = 0 := held.vacant (Or.inr here)
      have done : Ready { sender with ctx := { grown with negotDone := true } } head tail
          slots := by
        rw [here] at place
        have kept := (grow_mapping_only room).toSameConfig
        refine ⟨held.inv, held.fitted.same ⟨kept.role, kept.policy, kept.alpha, kept.statsOn,
          kept.nonblockingSend, kept.shmCapacity⟩, fun _ => empty, ?_, place.2,
          held.opened (by simp [here])⟩
        rw [written]
        rfl
      have moved := transmitted_advances done transmitted
      exact moved
  | pushAgain env tMeas ring here full blocks called =>
      rw [here] at place
      have before := push_failed place full
      have ready : Ready sender head tail slots :=
        ⟨held.inv, held.fitted, fun unmapped => held.vacant (Or.inl unmapped), before.1, before.2,
          held.opened (by simp [here])⟩
      have record : (ProducerCall.pushScatterBlocking (shmSegments sender.draft.payload)).record =
          shmFrame sender.draft.payload := segments_record sender.draft.payload
      exact call_advances ready record (Or.inl ⟨rfl, record⟩) called (SameConfig.refl _) rfl rfl rfl
        rfl (Or.inr ⟨tMeas, rfl⟩)
  | pushed env tMeas rc here returned =>
      have kept := finish_shm_retry_only sender.ctx sender.draft.size tMeas env.clock
        sender.ring.object.parks rc
      have given : PushPlace sender.ring (shmFrame sender.draft.payload)
          (shmFrames sender.attempts) := by
        rcases here with here | here <;> rw [here] at place <;> exact place
      apply advances_same _ rfl
      refine ⟨held.inv, held.fitted.same kept.toSameConfig, ?_, ?_, Or.inl ⟨_, rfl⟩⟩
      · rintro (unmapped | mapping)
        · exact held.vacant (Or.inl (kept.ring.symm.trans unmapped))
        · cases mapping
      · have before := push_returned given returned
        refine ⟨before.1, ?_⟩
        simp only [Sender.finishPush, Sender.finish, Sender.closed, shm_frames_append,
          Attempt.shmFrames]
        rw [before.2]
        split <;> simp
  | datagramSent env tMeas here =>
      have ready := held.ready (by rw [here]; exact id) (by simp [here])
      have kept := finish_uds_retry_only sender.ctx sender.draft.size tMeas env.clock env.status
      apply advances_same _ rfl
      refine ⟨held.inv, held.fitted.same kept.toSameConfig, ?_, ⟨ready.resting, ?_⟩,
        Or.inl ⟨_, rfl⟩⟩
      · rintro (unmapped | mapping)
        · exact held.vacant (Or.inl (kept.ring.symm.trans unmapped))
        · cases mapping
      · simp only [Sender.finish, Sender.closed, shm_frames_append, Attempt.shmFrames]
        rw [ready.pushed]
        by_cases delivered : env.status = Except.ok () <;> simp [delivered]
  | ring action after foreign moved => exact ring_advances held mapped foreign moved

/-- What a step of the endpoint itself does to the ring: it moves at most the producer
thread, into a call or into the header stores. -/
inductive OwnRing (sender : Sender) (after : RingState) : Prop where
  | untouched (same : after = sender.ring)
  | called (call : ProducerCall) (idle : ∃ result, sender.ring.producer = .idle result)
      (direct : ∀ push, call = .push push → pushesDirectly sender.ctx = true)
      (entered : after =
        { sender.ring with producer := call.start sender.ring.producerCapacity })
  | attached (detached : sender.ctx.ring = none)
      (mapped : after = { sender.ring with producer := .initHeader headerInit })

theorem transmitted_own {before : Sender} {route : AdaptRoute}
    (transmitted : Transmitted before route next) (ring : before.ring = sender.ring)
    (config : SameConfig sender.ctx before.ctx) : OwnRing sender next.ring := by
  cases transmitted with
  | push after tMeas shm called untimed =>
      obtain ⟨idle, entered⟩ := call_producer_entered called
      rw [ring] at idle entered
      refine .called (shmCall before.ctx before.draft.payload) idle ?_ entered
      intro push direct
      have same : pushesDirectly sender.ctx = pushesDirectly before.ctx := by
        rw [pushesDirectly, pushesDirectly, config.nonblockingSend, config.policy]
      rw [same]
      by_contra waits
      rw [shmCall, if_neg waits] at direct
      cases direct
  | datagram tMeas other => exact .untouched ring

theorem failed_own {before : Sender} {hrc : Errno} (failed : HandshakeFailed before hrc next)
    (ring : before.ring = sender.ring) : OwnRing sender next.ring := by
  cases failed with
  | refused large => exact .untouched ring
  | degraded tMeas small => exact .untouched ring

theorem dispatched_own {before : Sender} (dispatched : Dispatched before next)
    (ring : before.ring = sender.ring) (config : SameConfig sender.ctx before.ctx) :
    OwnRing sender next.ring := by
  cases dispatched with
  | tooLarge now waitClock refused => exact .untouched ring
  | negotiating now waitClock env route unmapped waiting => exact .untouched ring
  | sent now waitClock route next decided mapped transmitted =>
      exact transmitted_own transmitted ring (config.trans (decide_config before now waitClock))

theorem move_own {action : SendAction} (held : SendRing sender head tail slots)
    (mapped : SenderMapped sender) (move : SendMove sender action next) :
    OwnRing sender next.ring ∨ ∃ moved, action = .ring moved ∧ moved.entersProducer = false ∧
      ringStep sender.ring moved = some next.ring := by
  cases move with
  | ring moved after foreign stepped => exact Or.inr ⟨moved, rfl, foreign, stepped⟩
  | openedUnmapped env data before payload next idle good unmapped dispatched =>
      exact Or.inl (dispatched_own dispatched rfl (quiet_sample _ _ _ _).toSameConfig)
  | freeTail env now occ head cap next here dispatched =>
      exact Or.inl (dispatched_own dispatched rfl (quiet_monitor sender.ctx occ cap).toSameConfig)
  | requestFailed env nowNs code next here refused failed => exact Or.inl (failed_own failed rfl)
  | ackFailed env deadline received code next here arrived failed =>
      exact Or.inl (failed_own failed rfl)
  | ackUnmappable env deadline frame code next here arrived acknowledged failed =>
      exact Or.inl (failed_own failed rfl)
  | ackMapped env deadline frame attachedCtx here arrived acknowledged attached =>
      rw [SenderMapped, here] at mapped
      have fitted := held.fitted.same (quiet_ack sender.ctx).toSameConfig
      exact Or.inl (.attached mapped.1 (attach_ring_same fitted attached))
  | mappingFailed env before next here written short failed =>
      exact Or.inl (failed_own failed rfl)
  | negotiated env before grown next here written room transmitted =>
      have config := (grow_mapping_only room).toSameConfig
      exact Or.inl (transmitted_own transmitted rfl ⟨config.role, config.policy, config.alpha,
        config.statsOn, config.nonblockingSend, config.shmCapacity⟩)
  | pushAgain env tMeas after here full blocks called =>
      obtain ⟨idle, entered⟩ := call_producer_entered called
      exact Or.inl (.called _ idle (by rintro push ⟨⟩) entered)
  | _ => exact Or.inl (.untouched rfl)

end Steps

/-- The ring of a context that `adapt_init` has just set up: an object nobody has
pushed to, mapped already or still to be found by the handshake. -/
structure NewRing (ctx : AdaptCtx) (ring : RingState) : Prop where
  fitted : Fitted ctx ring
  capacities : ring.consumerCapacity = ring.producerCapacity
  head : ring.object.head = 0
  tail : ring.object.tail = 0
  producer : ring.producer = if ctx.ring.isSome then .idle none else .detached
  consumer : ring.consumer = .detached ∨ ring.consumer = .idle none
  pushed : ring.pushed = []
  popped : ring.popped = []
  footprint : ring.lastFootprint = 0

/-- Every run of a producer and its consumer over a new ring. -/
def sharedMachine (cfg : AdaptConfig) (env : InitEnv) : Machine Sender SendAction where
  initial sender := (sendMachine cfg env).initial sender ∧ NewRing sender.ctx sender.ring
  step := sendStep

theorem new_ring_inv {ctx : AdaptCtx} {ring : RingState} (new : NewRing ctx ring) :
    RingInv ring 0 0 [] where
  capacities := new.capacities
  headWord := new.head
  tailWord := new.tail
  room := Nat.zero_le _
  parsed := rfl
  closed := trivial
  short := by
    rw [new.producer]
    split <;> simp [ProducerPc.candidate]
  producer := by
    rw [new.producer]
    split
    · trivial
    · exact ⟨rfl, rfl⟩
  consumer := by rcases new.consumer with place | place <;> rw [place] <;> trivial

theorem shared_starts {cfg : AdaptConfig} {env : InitEnv} {sender : Sender}
    (starts : (sharedMachine cfg env).initial sender) :
    SendRing sender 0 0 [] ∧ SenderMapped sender := by
  obtain ⟨⟨accepted, ⟨before, idle⟩, attempts, _⟩, new⟩ := starts
  constructor
  · refine ⟨new_ring_inv new, new.fitted, fun _ => rfl, ?_, Or.inl ⟨before, idle⟩⟩
    rw [idle, attempts]
    refine ⟨?_, new.pushed⟩
    rw [new.producer]
    split <;> rfl
  · rw [SenderMapped, idle]
    exact (init_starts accepted).2

end AdaptIpc.Endpoint

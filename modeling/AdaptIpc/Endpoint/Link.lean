import AdaptIpc.Endpoint.RecvRing
import AdaptIpc.Endpoint.SendFrame
import AdaptIpc.Endpoint.SetupFrame

/-!
# A producer and a consumer on one socket path

The two endpoints side by side, with what each puts on its socket and takes off
it, and what their steps do to the state of the handshake: the producer has
negotiated only behind a success ACK, and the consumer maps only the object that
the request it takes names.
-/

namespace AdaptIpc.Endpoint

open AdaptIpc.Ring AdaptIpc.Policy AdaptIpc.Library.Transition

set_option autoImplicit false

/-- `sent` holds the datagrams the kernel has accepted from the producer. -/
structure Link where
  sender : Sender
  receiver : Receiver
  sent : List (List UInt8)

inductive LinkAction where
  | send (action : SendAction)
  | recv (action : RecvAction)

/-- The datagram a step of the producer hands to the kernel. -/
def Sender.datagrams (sender : Sender) : SendAction → List (List UInt8)
  | .step env =>
      if env.status = Except.ok () then
        match sender.pc with
        | .request _ => [setupReqFrame sender.ctx.shmCapacity sender.ctx.negName]
        | .udsSend _ => [udsFrame sender.draft.payload]
        | _ => []
      else []
  | _ => []

def Sender.takes (sender : Sender) : SendAction → Option (List UInt8)
  | .step env =>
      match sender.pc, env.received with
      | .awaitAck _, .ok frame => some frame
      | _, _ => none
  | _ => none

def Receiver.takes (receiver : Receiver) : Option (List UInt8) :=
  match receiver.pc, receiver.inbox with
  | .polling _, frame :: _ => some (frame.take receiver.ctx.rxbufCap.toNat)
  | .pollingUds, frame :: _ => some (frame.take receiver.draft.maxSize)
  | _, _ => none

theorem datagrams_request {sender : Sender} {action : SendAction} {frame : List UInt8}
    (member : frame ∈ sender.datagrams action) (control : isControl frame = true) :
    (∃ nowNs, sender.pc = .request nowNs) ∧
      frame = setupReqFrame sender.ctx.shmCapacity sender.ctx.negName := by
  simp only [Sender.datagrams] at member
  split at member
  · split at member
    · split at member
      · next nowNs here => exact ⟨⟨nowNs, here⟩, List.mem_singleton.mp member⟩
      · rw [List.mem_singleton.mp member, uds_frame_data] at control
        cases control
      · cases member
    · cases member
  · cases member

section Producer

variable {sender next : Sender}

theorem map_keeps_name {env : MapEnv} {ctx mapped : AdaptCtx}
    (attached : mapNegotiated env ctx = some (.ok mapped)) : mapped.negName = ctx.negName := by
  simp only [mapNegotiated] at attached
  split at attached <;> cases attached
  rfl

def NamedOnce (before after : AdaptCtx) : Prop :=
  after.negName = before.negName ∨
    before.negName = [] ∧ ∃ pid negCounter, after.negName = generateShmName pid negCounter

/-- A step that does not map: it leaves `negot_done` and a chosen name alone, and goes
to the request with a name. -/
structure KeepsNegotiation (sender next : Sender) : Prop where
  negotDone : next.ctx.negotDone = sender.ctx.negotDone
  named : NamedOnce sender.ctx next.ctx
  elsewhere : next.pc ≠ .mapping
  requesting : ∀ nowNs, next.pc = .request nowNs → next.ctx.negName ≠ []

theorem keeps_negotiation_same {before : AdaptCtx} (same : SameMapping before next.ctx)
    (negotDone : before.negotDone = sender.ctx.negotDone)
    (negName : before.negName = sender.ctx.negName) (elsewhere : next.pc ≠ .mapping)
    (settled : ∀ nowNs, next.pc ≠ .request nowNs) : KeepsNegotiation sender next where
  negotDone := same.negotDone.trans negotDone
  named := Or.inl (same.negName.trans negName)
  elsewhere := elsewhere
  requesting := fun nowNs here => absurd here (settled nowNs)

theorem transmitted_keeps {before : Sender} {route : AdaptRoute}
    (transmitted : Transmitted before route next)
    (negotDone : before.ctx.negotDone = sender.ctx.negotDone)
    (negName : before.ctx.negName = sender.ctx.negName) : KeepsNegotiation sender next := by
  cases transmitted with
  | push ring tMeas shm called untimed =>
      apply keeps_negotiation_same (quiet_push before ring tMeas).toSameMapping negotDone negName
      · simp only [Sender.startPush]
        split <;> simp
      · intro nowNs
        simp only [Sender.startPush]
        split <;> simp
  | datagram tMeas other =>
      exact keeps_negotiation_same (quiet_datagram before tMeas).toSameMapping negotDone negName
        (by simp [Sender.startDatagram]) (by simp [Sender.startDatagram])

theorem failed_keeps {before : Sender} {hrc : Errno} (failed : HandshakeFailed before hrc next)
    (negotDone : before.ctx.negotDone = sender.ctx.negotDone)
    (negName : before.ctx.negName = sender.ctx.negName) : KeepsNegotiation sender next := by
  have noted := (handshake_failed_retry_only before.ctx before.draft.size hrc).toSameMapping
  cases failed with
  | refused large =>
      exact keeps_negotiation_same noted negotDone negName (by simp [Sender.finish])
        (by simp [Sender.finish])
  | degraded tMeas small =>
      exact transmitted_keeps (@Transmitted.datagram _ .uds tMeas (by decide))
        (noted.negotDone.trans negotDone) (noted.negName.trans negName)

theorem generated_name_nonempty (pid : Nat) (negCounter : UInt32) :
    generateShmName pid negCounter ≠ [] := by
  intro empty
  have slash := name_starts_with_slash pid negCounter
  rw [empty] at slash
  cases slash

theorem name_ring_named (ctx : AdaptCtx) (pid : Nat) (negCounter : UInt32) :
    (nameRing ctx pid negCounter).negName ≠ [] ∧ NamedOnce ctx (nameRing ctx pid negCounter) := by
  simp only [nameRing]
  split
  · next unnamed =>
    exact ⟨generated_name_nonempty pid negCounter, Or.inr ⟨unnamed, pid, negCounter, rfl⟩⟩
  · next named => exact ⟨named, Or.inl rfl⟩

theorem dispatched_keeps {before : Sender} (dispatched : Dispatched before next)
    (negotDone : before.ctx.negotDone = sender.ctx.negotDone)
    (negName : before.ctx.negName = sender.ctx.negName) : KeepsNegotiation sender next := by
  cases dispatched with
  | tooLarge now waitClock refused =>
      exact keeps_negotiation_same (decide_mapping before now waitClock) negotDone negName
        (by simp [Sender.finish]) (by simp [Sender.finish])
  | negotiating now waitClock env route unmapped waiting =>
      have decided := decide_mapping before now waitClock
      have done := (name_keeps_ring (before.decide now waitClock).2.ctx env.pid env.negCounter).2
      have named := name_ring_named (before.decide now waitClock).2.ctx env.pid env.negCounter
      refine ⟨done.trans (decided.negotDone.trans negotDone), ?_, ?_, fun _ _ => named.1⟩
      · have same := decided.negName.trans negName
        rw [NamedOnce, ← same]
        exact named.2
      · simp only [Sender.negotiate]
        split <;> simp
  | sent now waitClock route next accepted mapped transmitted =>
      have decided := decide_mapping before now waitClock
      exact transmitted_keeps transmitted (decided.negotDone.trans negotDone)
        (decided.negName.trans negName)

/-- What a step does to the producer's side of the handshake: it maps behind a success
ACK, has negotiated once it has mapped, and keeps the name it asks for. -/
structure Negotiates (sender : Sender) (action : SendAction) (next : Sender) : Prop where
  maps : next.pc = .mapping → sender.pc = .mapping ∨
    ∃ frame, sender.takes action = some frame ∧ isSetupAck frame = true
  finishes : next.ctx.negotDone = true → sender.ctx.negotDone = true ∨ sender.pc = .mapping
  named : NamedOnce sender.ctx next.ctx
  requests : ∀ nowNs, next.pc = .request nowNs →
    sender.pc = .request nowNs ∨ next.ctx.negName ≠ []

theorem KeepsNegotiation.negotiates {action : SendAction} (keeps : KeepsNegotiation sender next) :
    Negotiates sender action next where
  maps := fun here => absurd here keeps.elsewhere
  finishes := fun done => Or.inl (keeps.negotDone.symm.trans done)
  named := keeps.named
  requests := fun nowNs here => Or.inr (keeps.requesting nowNs here)

theorem NamedOnce.kept {before after : AdaptCtx} (once : NamedOnce before after)
    (named : before.negName ≠ []) : after.negName = before.negName := by
  rcases once with same | ⟨unnamed, _⟩
  · exact same
  · exact absurd unnamed named

theorem move_negotiation {action : SendAction} (move : SendMove sender action next) :
    Negotiates sender action next := by
  have still : next.ctx = sender.ctx → next.pc = sender.pc → Negotiates sender action next := by
    intro ctx pc
    exact ⟨fun mapping => Or.inl (pc.symm.trans mapping), fun done => Or.inl (ctx ▸ done),
      Or.inl (by rw [ctx]), fun nowNs here => Or.inl (pc.symm.trans here)⟩
  have moved : SameMapping sender.ctx next.ctx → next.pc ≠ .mapping →
      (∀ nowNs, next.pc ≠ .request nowNs) → Negotiates sender action next :=
    fun same elsewhere settled =>
      (keeps_negotiation_same same rfl rfl elsewhere settled).negotiates
  have same : SameMapping sender.ctx sender.ctx := ⟨rfl, rfl, rfl, rfl⟩
  cases move with
  | rejected env data before code idle bad => exact moved same (by simp) (by simp)
  | opened env data before payload idle good held => exact moved same (by simp) (by simp)
  | openedUnmapped env data before payload next idle good none dispatched =>
      have kept : KeepsNegotiation sender next := dispatched_keeps dispatched rfl rfl
      exact kept.negotiates
  | usedHead env now here => exact moved same (by simp) (by simp)
  | usedTail env now head here =>
      exact moved (quiet_sample _ _ _ _).toSameMapping (by simp) (by simp)
  | freeHead env now occ here => exact moved same (by simp) (by simp)
  | freeTail env now occ head cap next here dispatched =>
      have quiet := quiet_monitor sender.ctx occ cap
      exact (dispatched_keeps dispatched quiet.negotDone quiet.negName).negotiates
  | requestFailed env nowNs code next here refused failed =>
      exact (failed_keeps failed rfl rfl).negotiates
  | requested env nowNs here delivered =>
      exact moved (quiet_request sender.ctx nowNs).toSameMapping (by simp) (by simp)
  | ackFailed env deadline received code next here arrived failed =>
      exact (failed_keeps failed rfl rfl).negotiates
  | polled env deadline here quiet => exact still rfl rfl
  | ackUnmappable env deadline frame code next here arrived acknowledged failed =>
      have quiet := quiet_ack sender.ctx
      exact (failed_keeps failed quiet.negotDone quiet.negName).negotiates
  | ackMapped env deadline frame mapped here arrived acknowledged attached =>
      have quiet := quiet_ack sender.ctx
      refine ⟨fun _ => Or.inr ⟨frame, by simp [Sender.takes, here, arrived], acknowledged⟩, ?_, ?_,
        by simp⟩
      · intro done
        exact Or.inl (((map_gives_ring attached).2.trans quiet.negotDone).symm.trans done)
      · exact Or.inl ((map_keeps_name attached).trans quiet.negName)
  | mappingFailed env before next here written short failed =>
      have kept : KeepsNegotiation sender next := failed_keeps failed rfl rfl
      exact kept.negotiates
  | negotiated env before grown next here written room transmitted =>
      have kept : KeepsNegotiation { sender with ctx := { grown with negotDone := true } } next :=
        transmitted_keeps transmitted rfl rfl
      refine ⟨fun _ => Or.inl here, fun _ => Or.inr here, ?_, ?_⟩
      · rw [NamedOnce, ← (grow_keeps room).2.2.1]
        exact kept.named
      · exact fun nowNs waiting => Or.inr (kept.requesting nowNs waiting)
  | pushAgain env tMeas ring here full blocks called => exact moved same (by simp) (by simp)
  | pushed env tMeas rc here returned =>
      exact moved (finish_shm_retry_only sender.ctx sender.draft.size tMeas env.clock
        sender.ring.object.parks rc).toSameMapping (by simp [Sender.finishPush, Sender.finish])
        (by simp [Sender.finishPush, Sender.finish])
  | datagramSent env tMeas here =>
      exact moved (finish_uds_retry_only sender.ctx sender.draft.size tMeas env.clock
        env.status).toSameMapping (by simp [Sender.finish]) (by simp [Sender.finish])
  | ring action after foreign moved => exact still rfl rfl

end Producer

/-- What an answer of `handle_control` says about the mapping it leaves. -/
structure Answers (ctx : AdaptCtx) (frame : List UInt8) (after : AdaptCtx)
    (ack : Option (List UInt8)) : Prop where
  kept : ∀ handle, ctx.ring = some handle → after.ring = some handle
  asked : ctx.ring = none → ∀ handle, after.ring = some handle →
    ∃ cap32, parseSetupReq frame = some (cap32, handle.name)
  mapped : ∀ answer, ack = some answer → isSetupAck answer = true → after.ring.isSome = true
  scratch : after.rxbufCap = ctx.rxbufCap ∨ after.rxbufCap.toNat ≤ 2 ^ 30

theorem ack_success {status : UInt8} (success : isSetupAck (setupAckFrame status) = true) :
    status = 0 := by
  simpa [isSetupAck, setupAckFrame] using success

theorem attach_named_mapped {env : ControlEnv} {ctx attached : AdaptCtx} {cap32 : UInt32}
    {name : List UInt8} (answered : attachNamed env ctx cap32 name = some (attached, 0)) :
    attached.ring.isSome = true := by
  simp only [attachNamed] at answered
  split at answered
  · next held mapped =>
    cases answered
    rw [mapped]
    rfl
  · split at answered
    · cases answered
    · next code refused =>
      simp only [Option.some.injEq, Prod.mk.injEq] at answered
      exact absurd answered.2 (errno_byte_nonzero code)
    · split at answered
      · simp only [Option.some.injEq, Prod.mk.injEq] at answered
        exact absurd answered.2 (by decide)
      · next grown room =>
        cases answered
        rw [(grow_keeps room).1]
        rfl

theorem handle_control_answers {env : ControlEnv} {ctx after : AdaptCtx} {frame : List UInt8}
    {ack : Option (List UInt8)} (handled : handleControl env ctx frame = some (after, ack)) :
    Answers ctx frame after ack := by
  have effect := handle_control_effect handled
  constructor
  · intro handle held
    cases effect with
    | unmapped ring => exact ring.trans held
    | mapped cap32 name capacity vacant =>
        rw [vacant] at held
        cases held
  · intro vacant handle held
    cases effect with
    | unmapped ring =>
        rw [ring, vacant] at held
        cases held
    | mapped cap32 name capacity vacant read rounded ring =>
        rw [ring] at held
        cases held
        exact ⟨cap32, read⟩
  · intro answer sent success
    simp only [handleControl] at handled
    split at handled
    · cases handled
      cases sent
    · split at handled
      · cases handled
      · next attached status answered =>
        simp only [Option.some.injEq, Prod.mk.injEq] at handled
        obtain ⟨settled, reply⟩ := handled
        rw [← reply, Option.some.injEq] at sent
        rw [← sent] at success
        cases ack_success success
        rw [← settled, if_pos rfl, (count_keeps attached _).1]
        exact attach_named_mapped answered
  · cases effect with
    | unmapped ring rxbufCap => exact Or.inl rxbufCap
    | mapped cap32 name capacity vacant read rounded ring rxbufCap role grown =>
        rcases grown with same | larger
        · exact Or.inl same
        · rw [larger]
          exact Or.inr (parse_capacity_small read)

section Consumer

variable {receiver next : Receiver}

structure Polls (receiver next : Receiver) : Prop where
  kept : ∀ handle, receiver.ctx.ring = some handle → next.ctx.ring = some handle
  asked : receiver.ctx.ring = none → ∀ handle, next.ctx.ring = some handle →
    ∃ frame cap32, receiver.takes = some frame ∧
      parseSetupReq frame = some (cap32, handle.name)
  mapped : ∀ answer ∈ next.outbox, isSetupAck answer = true →
    answer ∈ receiver.outbox ∨ next.ctx.ring.isSome = true
  scratch : next.ctx.rxbufCap = receiver.ctx.rxbufCap ∨ next.ctx.rxbufCap.toNat ≤ 2 ^ 30

structure SameMapped (before after : Receiver) : Prop where
  ring : after.ctx.ring = before.ctx.ring
  rxbufCap : after.ctx.rxbufCap = before.ctx.rxbufCap
  outbox : after.outbox = before.outbox

theorem SameMapped.trans {first second third : Receiver} (early : SameMapped first second)
    (late : SameMapped second third) : SameMapped first third where
  ring := late.ring.trans early.ring
  rxbufCap := late.rxbufCap.trans early.rxbufCap
  outbox := late.outbox.trans early.outbox

theorem SameMapped.polls (same : SameMapped receiver next) : Polls receiver next := by
  constructor
  · intro handle held
    exact same.ring.trans held
  · intro vacant handle held
    rw [same.ring, vacant] at held
    cases held
  · intro answer member success
    rw [same.outbox] at member
    exact Or.inl member
  · exact Or.inl same.rxbufCap

theorem counted_mapped (receiver : Receiver) (counter : AdaptStats → AdaptStats) :
    SameMapped receiver (receiver.counted counter) := by
  obtain ⟨ring, rxbufCap⟩ := count_keeps receiver.ctx counter
  exact ⟨ring, rxbufCap, rfl⟩

theorem looped_mapped (looped : Looped receiver next) : SameMapped receiver next := by
  have counted := counted_mapped receiver countLoop
  cases looped <;> exact ⟨counted.ring, counted.rxbufCap, rfl⟩

theorem deliver_mapped (receiver : Receiver) (n : Int) (tmp : List UInt8)
    (counter : AdaptStats → AdaptStats) : SameMapped receiver (receiver.deliver n tmp counter) := by
  have counted := counted_mapped receiver counter
  simp only [Receiver.deliver]
  split
  · exact ⟨rfl, rfl, rfl⟩
  · exact ⟨counted.ring, counted.rxbufCap, rfl⟩

theorem noted_mapped (receiver : Receiver) (result : Except Errno (List UInt8)) :
    SameMapped receiver (receiver.notePopped result) := by
  cases result <;> exact ⟨rfl, rfl, rfl⟩

theorem Taken.mapped {received : Receiver} (taken : Taken receiver received) :
    SameMapped receiver received :=
  ⟨congrArg AdaptCtx.ring taken.ctx, congrArg AdaptCtx.rxbufCap taken.ctx, taken.outbox⟩

theorem serve_polls {env : RecvEnv} {frame : List UInt8} {before served : Receiver}
    (handled : before.serve env frame = some served) (taken : receiver.takes = some frame)
    (same : SameMapped receiver before) : Polls receiver served := by
  obtain ⟨⟨ctx, ack⟩, answered, rfl⟩ := Option.map_eq_some_iff.mp handled
  have answers := handle_control_answers answered
  constructor
  · intro handle held
    exact answers.kept handle (same.ring.trans held)
  · intro vacant handle held
    obtain ⟨cap32, read⟩ := answers.asked (same.ring.trans vacant) handle held
    exact ⟨frame, cap32, taken, read⟩
  · intro answer member success
    simp only [same.outbox, List.mem_append] at member
    rcases member with old | new
    · exact Or.inl old
    · split at new
      · exact Or.inr (answers.mapped answer (Option.mem_toList.mp new) success)
      · cases new
  · exact answers.scratch.imp (fun kept => kept.trans same.rxbufCap) id

theorem received_takes {env : RecvEnv} {maxSize : Nat} {result : Except Errno (List UInt8)}
    {received : Receiver} (answered : Received env receiver maxSize result received)
    (positive : 0 < intResult result)
    (here : (∃ tmoInMsg, receiver.pc = .polling tmoInMsg ∧
        maxSize = receiver.ctx.rxbufCap.toNat) ∨
      (receiver.pc = .pollingUds ∧ maxSize = receiver.draft.maxSize)) :
    receiver.takes = some (bufferBytes result) := by
  obtain ⟨frame, rest, queued, room, rfl, rfl⟩ := received_frame answered positive
  rcases here with ⟨tmoInMsg, polling, rfl⟩ | ⟨polling, rfl⟩
  · simp [Receiver.takes, polling, queued, bufferBytes]
  · simp [Receiver.takes, polling, queued, bufferBytes]

theorem Polls.looped {before : Receiver} (polls : Polls receiver before)
    (looped : Looped before next) : Polls receiver next := by
  have same := looped_mapped looped
  constructor
  · intro handle held
    exact same.ring.trans (polls.kept handle held)
  · intro vacant handle held
    exact polls.asked vacant handle (same.ring.symm.trans held)
  · intro answer member success
    rw [same.outbox] at member
    rw [same.ring]
    exact polls.mapped answer member success
  · rw [same.rxbufCap]
    exact polls.scratch

theorem move_polls {action : RecvAction} (move : RecvMove receiver action next) :
    Polls receiver next := by
  cases move with
  | rejected buffer before code idle bad => exact SameMapped.polls ⟨rfl, rfl, rfl⟩
  | entered buffer before maxSize next idle good looped =>
      have opened : SameMapped receiver (receiver.opened .recv buffer) := ⟨rfl, rfl, rfl⟩
      exact opened.polls.looped looped
  | rejectedUds buffer before code idle bad => exact SameMapped.polls ⟨rfl, rfl, rfl⟩
  | enteredUds buffer before maxSize idle good => exact SameMapped.polls ⟨rfl, rfl, rfl⟩
  | popped env tmoInMsg result here returned positive =>
      exact ((noted_mapped receiver result).trans (deliver_mapped _ _ _ _)).polls
  | popFailed env tmoInMsg result here returned nonpositive other =>
      have noted := noted_mapped receiver result
      exact SameMapped.polls ⟨noted.ring, noted.rxbufCap, noted.outbox⟩
  | popEmpty env tmoInMsg result here returned empty =>
      have noted := noted_mapped receiver result
      exact SameMapped.polls ⟨noted.ring, noted.rxbufCap, noted.outbox⟩
  | served env tmoInMsg result received served next here answered more control handled looped =>
      have taken := (received_taken answered).mapped.trans (counted_mapped received countPoll)
      have frame := received_takes answered (by omega) (Or.inl ⟨tmoInMsg, here, rfl⟩)
      exact (serve_polls handled frame taken).looped looped
  | received env tmoInMsg result received here answered more data =>
      have taken := (received_taken answered).mapped.trans (counted_mapped received countPoll)
      exact (taken.trans (deliver_mapped _ _ _ _)).polls
  | pollFailed env tmoInMsg result received here answered nonpositive other =>
      have taken := (received_taken answered).mapped.trans (counted_mapped received countPoll)
      exact SameMapped.polls ⟨taken.ring, taken.rxbufCap, taken.outbox⟩
  | pollQuiet env tmoInMsg result received next here answered nothing looped =>
      have taken := (received_taken answered).mapped.trans (counted_mapped received countPoll)
      exact (taken.trans (counted_mapped _ countTimeout)).polls.looped looped
  | udsFailed env result received here answered nonpositive =>
      have taken := (received_taken answered).mapped
      exact SameMapped.polls ⟨taken.ring, taken.rxbufCap, taken.outbox⟩
  | udsServed env result received next here answered positive control handled =>
      have frame := received_takes answered positive (Or.inr ⟨here, rfl⟩)
      exact serve_polls handled frame (received_taken answered).mapped
  | udsTooLarge env result received here answered positive data large =>
      have taken := (received_taken answered).mapped
      exact SameMapped.polls ⟨taken.ring, taken.rxbufCap, taken.outbox⟩
  | udsReceived env result received here answered positive data fits =>
      have taken := (received_taken answered).mapped
      exact SameMapped.polls ⟨taken.ring, taken.rxbufCap, taken.outbox⟩
  | ring action after foreign moved => exact SameMapped.polls ⟨rfl, rfl, rfl⟩
  | arrived datagram => exact SameMapped.polls ⟨rfl, rfl, rfl⟩

end Consumer

end AdaptIpc.Endpoint

import AdaptIpc.Endpoint.Holdings
import AdaptIpc.Endpoint.SendFrame
import AdaptIpc.Endpoint.Handshake

/-!
# Whole lifetimes

Between `adapt_init` and `adapt_shutdown` a producer acquires and releases in
`producer_map_ring` only, a consumer in `handle_control` only, both in the
middle of other calls. Whatever the system answers there, a context holds its
footprint behind every step, and behind the shutdown nothing. The objects stay
apart from that: a ring closed in the middle leaves its object there, the shutdown
of a producer unlinks that of the ring it has, and a consumer unlinks none.
-/

namespace AdaptIpc.Endpoint

open AdaptIpc.Ring AdaptIpc.Policy AdaptIpc.Library.Custody AdaptIpc.Library.Transition

set_option autoImplicit false

theorem footprint_same {localPath : List UInt8} {before after : AdaptCtx}
    (ring : after.ring = before.ring) (rxbufCap : after.rxbufCap = before.rxbufCap) :
    footprint localPath after = footprint localPath before := by
  rw [footprint, footprint, buffered, buffered, ring, rxbufCap]

theorem kept_custody {localPath : List UInt8} {before after : AdaptCtx}
    {trace : List EndpointUse} (nothing : trace = []) (ring : after.ring = before.ring)
    (rxbufCap : after.rxbufCap = before.rxbufCap) :
    custody (footprint localPath before) trace = some (footprint localPath after) := by
  rw [nothing, footprint_same ring rxbufCap]
  rfl

/-- What a step of `adapt_send` acquires and releases. -/
def sendUses (sender : Sender) : SendAction → List EndpointUse
  | .step env =>
      match sender.pc with
      | .awaitAck _ =>
          match env.received with
          | .ok frame =>
              if isSetupAck frame then
                ringMapUses env.map (.ok ()) sender.ctx.negName sender.ctx.shmCapacity
              else []
          | .error _ => []
      | .mapping =>
          match sender.ring.producer with
          | .idle _ =>
              match growRxbuf env.realloc sender.ctx sender.ctx.shmCapacity with
              | none => closeRingUses false sender.ctx
              | some _ => growRxbufUses env.realloc sender.ctx sender.ctx.shmCapacity
          | _ => []
      | _ => []
  | _ => []

section Producer

variable {sender next : Sender} {localPath : List UInt8}

theorem transmitted_parts {route : AdaptRoute} (transmitted : Transmitted sender route next) :
    SameMapping sender.ctx next.ctx := by
  cases transmitted with
  | push ring tMeas shm called => exact (quiet_push sender ring tMeas).toSameMapping
  | datagram tMeas other => exact (quiet_datagram sender tMeas).toSameMapping

theorem failed_parts {hrc : Errno} (failed : HandshakeFailed sender hrc next) :
    SameMapping sender.ctx next.ctx := by
  have noted := (handshake_failed_retry_only sender.ctx sender.draft.size hrc).toSameMapping
  cases failed with
  | refused large => exact noted
  | degraded tMeas small =>
      exact noted.trans (quiet_datagram (sender.handshakeFailure hrc).2 tMeas).toSameMapping

theorem dispatched_parts (dispatched : Dispatched sender next) :
    next.ctx.ring = sender.ctx.ring ∧ next.ctx.rxbufCap = sender.ctx.rxbufCap := by
  cases dispatched with
  | tooLarge now waitClock refused =>
      have kept := decide_mapping sender now waitClock
      exact ⟨kept.ring, kept.rxbufCap⟩
  | negotiating now waitClock env route unmapped waiting =>
      have kept := decide_mapping sender now waitClock
      have named := (name_keeps_ring (sender.decide now waitClock).2.ctx env.pid env.negCounter).1
      refine ⟨named.trans kept.ring, Eq.trans ?_ kept.rxbufCap⟩
      simp only [Sender.negotiate, nameRing]
      split <;> rfl
  | sent now waitClock route next decided ready transmitted =>
      have kept := (decide_mapping sender now waitClock).trans (transmitted_parts transmitted)
      exact ⟨kept.ring, kept.rxbufCap⟩

/-- The wait for the ACK: a ring that maps is held, one that does not leaves nothing. -/
theorem await_custody {env : SendEnv} {deadline : UInt64} (here : sender.pc = .awaitAck deadline)
    (vacant : sender.ctx.ring = none) (stepped : sender.step env = some next) :
    custody (footprint localPath sender.ctx) (sendUses sender (.step env)) =
      some (footprint localPath next.ctx) := by
  have failing : ∀ {ctx : AdaptCtx} {code : Errno} {now : UInt64},
      SameMapping sender.ctx ctx →
      ({ sender with ctx := ctx } : Sender).failHandshake code now = some next →
      footprint localPath next.ctx = footprint localPath sender.ctx := by
    intro ctx code now kept failed
    have parts := kept.trans (failed_parts (fail_handshake_failed failed))
    exact footprint_same parts.ring parts.rxbufCap
  have same : SameMapping sender.ctx sender.ctx := by constructor <;> rfl
  have noted := (quiet_ack sender.ctx).toSameMapping
  simp only [Sender.step, here] at stepped
  simp only [sendUses, here]
  cases arrived : env.received with
  | error code =>
      simp only [arrived] at stepped ⊢
      split at stepped
      · split at stepped
        · rw [failing same stepped]
          rfl
        · cases stepped
          rfl
      · rw [failing same stepped]
        rfl
  | ok frame =>
      simp only [arrived] at stepped ⊢
      cases acknowledged : isSetupAck frame with
      | false =>
          simp only [acknowledged, Bool.false_eq_true, if_false, Option.some.injEq] at stepped ⊢
          rw [← stepped]
          rfl
      | true =>
          simp only [acknowledged, if_true, mapNegotiated, noted.negName,
            (quiet_ack sender.ctx).shmCapacity] at stepped ⊢
          have start : footprint localPath sender.ctx =
              holdings true (named localPath) false (buffered sender.ctx) := by
            rw [footprint, vacant]
            rfl
          cases called : ringMap env.map sender.ctx.negName sender.ctx.shmCapacity with
          | none => simp [called] at stepped
          | some placed =>
              have tried := @ring_map_holdings true (named localPath) (buffered sender.ctx)
                _ _ _ _ called
              rw [start, tried]
              cases placed with
              | error code =>
                  simp only [called] at stepped
                  rw [failing noted stepped, start]
                  rfl
              | ok capacity =>
                  simp only [called, Option.some.injEq] at stepped
                  rw [← stepped, footprint, buffered, buffered]
                  simp only [noted.rxbufCap]
                  rfl

/-- Every step of a producer moves the footprint of its context. -/
theorem send_step_custody {action : SendAction} (held : SenderMapped sender)
    (stepped : sendStep sender action = some next) :
    custody (footprint localPath sender.ctx) (sendUses sender action) =
      some (footprint localPath next.ctx) := by
  have move := send_step_move stepped
  cases move with
  | rejected env data before code idle bad => rfl
  | opened env data before payload idle good mapped => rfl
  | openedUnmapped env data before payload next idle good unmapped dispatched =>
      have parts := dispatched_parts dispatched
      exact kept_custody rfl parts.1 parts.2
  | usedHead env now here => exact kept_custody (by simp only [sendUses, here]) rfl rfl
  | usedTail env now head here => exact kept_custody (by simp only [sendUses, here]) rfl rfl
  | freeHead env now occ here => exact kept_custody (by simp only [sendUses, here]) rfl rfl
  | freeTail env now occ head cap next here dispatched =>
      have quiet := quiet_monitor sender.ctx occ cap
      have parts := dispatched_parts dispatched
      exact kept_custody (by simp only [sendUses, here]) (parts.1.trans quiet.ring)
        (parts.2.trans quiet.rxbufCap)
  | requestFailed env nowNs code next here refused failed =>
      have parts := failed_parts failed
      exact kept_custody (by simp only [sendUses, here]) parts.ring parts.rxbufCap
  | requested env nowNs here delivered =>
      have quiet := quiet_request sender.ctx nowNs
      exact kept_custody (by simp only [sendUses, here]) quiet.ring quiet.rxbufCap
  | ackFailed env deadline received code next here arrived failed =>
      rw [SenderMapped, here] at held
      exact await_custody here held.1 stepped
  | polled env deadline here quiet =>
      rw [SenderMapped, here] at held
      exact await_custody here held.1 stepped
  | ackUnmappable env deadline frame code next here arrived acknowledged failed =>
      rw [SenderMapped, here] at held
      exact await_custody here held.1 stepped
  | ackMapped env deadline frame mapped here arrived acknowledged attached =>
      rw [SenderMapped, here] at held
      exact await_custody here held.1 stepped
  | mappingFailed env before next here written short failed =>
      rw [SenderMapped, here] at held
      have parts := failed_parts failed
      have closed := @close_ring_holdings sender.ctx true (named localPath) (buffered sender.ctx)
        false
      simp only [sendUses, here, written, short]
      rw [footprint, closed, footprint_same parts.ring parts.rxbufCap]
      rfl
  | negotiated env before grown next here written room transmitted =>
      have parts := transmitted_parts transmitted
      have roomy := @grow_holdings sender.ctx true (named localPath) sender.ctx.ring.isSome
        _ _ _ room
      simp only [sendUses, here, written, room]
      rw [footprint, roomy, footprint_same parts.ring parts.rxbufCap, footprint,
        ← (grow_keeps_ring room).1]
      rfl
  | pushAgain env tMeas ring here full blocks called =>
      exact kept_custody (by simp only [sendUses, here]) rfl rfl
  | pushed env tMeas rc here returned =>
      have kept := (finish_shm_retry_only sender.ctx sender.draft.size tMeas env.clock
        sender.ring.object.parks rc).toSameMapping
      have nothing : sendUses sender (.step env) = [] := by
        rcases here with here | here <;> simp only [sendUses, here]
      exact kept_custody nothing kept.ring kept.rxbufCap
  | datagramSent env tMeas here =>
      have kept := (finish_uds_retry_only sender.ctx sender.draft.size tMeas env.clock
        env.status).toSameMapping
      exact kept_custody (by simp only [sendUses, here]) kept.ring kept.rxbufCap
  | ring action after foreign moved => rfl

theorem send_uses_keep (sender : Sender) (action : SendAction) :
    ∀ use ∈ sendUses sender action, use.keeps = true := by
  intro use member
  simp only [sendUses] at member
  split at member
  · next env =>
    split at member
    · split at member
      · split at member
        · exact (ring_map_uses env.map (.ok ()) _ _ use member).keeps
        · cases member
      · cases member
    · split at member
      · split at member
        · exact close_keeps sender.ctx use member
        · exact Use.keeps_resource (grow_resources env.realloc _ _ use member)
      · cases member
    · cases member
  · cases member

/-- The objects a producer has left, behind those it found: that of its ring, or that of
the negotiated name where a mapping was tried. -/
structure ObjectsLeft (objects : Finset (List UInt8)) (ctx : AdaptCtx)
    (names : Finset (List UInt8)) : Prop where
  mapped : ∀ handle, ctx.ring = some handle → names = insert handle.name objects
  unmapped : ctx.ring = none → names = objects ∨
    ctx.negName ≠ [] ∧ names = insert ctx.negName objects
  negotiated : ∀ handle, ctx.ring = some handle → ctx.negotDone = false →
    handle.name = ctx.negName ∧ ctx.negName ≠ []

variable {objects names : Finset (List UInt8)}

theorem ObjectsLeft.same {before after : AdaptCtx} (left : ObjectsLeft objects before names)
    (same : SameMapping before after) : ObjectsLeft objects after names := by
  constructor
  · intro handle held
    rw [same.ring] at held
    exact left.mapped handle held
  · intro vacant
    rw [same.ring] at vacant
    rw [same.negName]
    exact left.unmapped vacant
  · intro handle held waiting
    rw [same.ring] at held
    rw [same.negotDone] at waiting
    rw [same.negName]
    exact left.negotiated handle held waiting

theorem ObjectsLeft.vacant {before after : AdaptCtx} (left : ObjectsLeft objects before names)
    (still : after.ring = none) (vacant : before.ring = none)
    (named : before.negName ≠ [] → after.negName = before.negName) :
    ObjectsLeft objects after names := by
  constructor
  · intro handle held
    rw [still] at held
    cases held
  · intro _
    rcases left.unmapped vacant with untried | ⟨given, tried⟩
    · exact Or.inl untried
    · rw [named given]
      exact Or.inr ⟨given, tried⟩
  · intro handle held
    rw [still] at held
    cases held

/-- `producer_map_ring` closes a ring whose buffer cannot grow and leaves the object. -/
theorem ObjectsLeft.closed {ctx : AdaptCtx} {handle : RingHandle}
    (left : ObjectsLeft objects ctx names) (ring : ctx.ring = some handle)
    (pending : ctx.negotDone = false) :
    ObjectsLeft objects { ctx with ring := none } names := by
  obtain ⟨same, given⟩ := left.negotiated handle ring pending
  constructor
  · intro other held
    cases held
  · intro _
    refine Or.inr ⟨given, ?_⟩
    rw [left.mapped handle ring, same]
  · intro other held
    cases held

theorem ObjectsLeft.agreed {ctx grown : AdaptCtx} {handle : RingHandle}
    (left : ObjectsLeft objects ctx names) (ring : ctx.ring = some handle)
    (kept : grown.ring = ctx.ring) :
    ObjectsLeft objects { grown with negotDone := true } names := by
  have same : grown.ring = some handle := kept.trans ring
  constructor
  · intro other held
    rw [same] at held
    cases held
    exact left.mapped handle ring
  · intro vacant
    rw [same] at vacant
    cases vacant
  · intro other _ waiting
    cases waiting

theorem dispatched_left (left : ObjectsLeft objects sender.ctx names)
    (dispatched : Dispatched sender next) : ObjectsLeft objects next.ctx names := by
  cases dispatched with
  | tooLarge now waitClock refused => exact left.same (decide_mapping sender now waitClock)
  | negotiating now waitClock env route unmapped waiting =>
      have decided := left.same (decide_mapping sender now waitClock)
      have kept := name_keeps_ring (sender.decide now waitClock).2.ctx env.pid env.negCounter
      apply decided.vacant _ unmapped
      · intro given
        simp only [Sender.negotiate, nameRing, given, if_false]
      · exact kept.1.trans unmapped
  | sent now waitClock route next decided ready transmitted =>
      exact left.same ((decide_mapping sender now waitClock).trans
        (transmitted_parts transmitted))

theorem opened_named {env : MapEnv} {name : List UInt8} (opened : objectOpened env name = true) :
    name ≠ [] := by
  intro empty
  rw [empty] at opened
  cases opened

theorem tried_left {env : MapEnv} {ctx : AdaptCtx} (left : ObjectsLeft objects ctx names)
    (vacant : ctx.ring = none) :
    ObjectsLeft objects ctx
      (if objectOpened env ctx.negName then insert ctx.negName names else names) := by
  split
  · next opened =>
    constructor
    · intro handle held
      rw [vacant] at held
      cases held
    · intro _
      refine Or.inr ⟨opened_named opened, ?_⟩
      rcases left.unmapped vacant with untried | ⟨_, tried⟩
      · rw [untried]
      · rw [tried, Finset.insert_idem]
    · intro handle held
      rw [vacant] at held
      cases held
  · exact left

theorem mapped_left {ctx : AdaptCtx} {handle : RingHandle} (ring : ctx.ring = some handle)
    (same : handle.name = ctx.negName) (given : ctx.negName ≠ [])
    (tried : names = insert handle.name objects) : ObjectsLeft objects ctx names := by
  constructor
  · intro other held
    rw [ring] at held
    cases held
    exact tried
  · intro vacant
    rw [ring] at vacant
    cases vacant
  · intro other held _
    rw [ring] at held
    cases held
    exact ⟨same, given⟩

theorem await_left {env : SendEnv} {deadline : UInt64} (here : sender.pc = .awaitAck deadline)
    (vacant : sender.ctx.ring = none) (left : ObjectsLeft objects sender.ctx names)
    (stepped : sender.step env = some next) :
    ObjectsLeft objects next.ctx (remaining names (sendUses sender (.step env))) := by
  have failing : ∀ {ctx : AdaptCtx} {code : Errno} {now : UInt64} {tried : Finset (List UInt8)},
      ObjectsLeft objects ctx tried →
      ({ sender with ctx := ctx } : Sender).failHandshake code now = some next →
      ObjectsLeft objects next.ctx tried := by
    intro ctx code now tried kept failed
    exact kept.same (failed_parts (fail_handshake_failed failed))
  have noted := (quiet_ack sender.ctx).toSameMapping
  simp only [Sender.step, here] at stepped
  simp only [sendUses, here]
  cases arrived : env.received with
  | error code =>
      simp only [arrived] at stepped ⊢
      split at stepped
      · split at stepped
        · exact failing left stepped
        · cases stepped
          exact left
      · exact failing left stepped
  | ok frame =>
      simp only [arrived] at stepped ⊢
      cases acknowledged : isSetupAck frame with
      | false =>
          simp only [acknowledged, Bool.false_eq_true, if_false, Option.some.injEq] at stepped ⊢
          rw [← stepped]
          exact left
      | true =>
          simp only [acknowledged, if_true, mapNegotiated, noted.negName,
            (quiet_ack sender.ctx).shmCapacity] at stepped ⊢
          have tried := @tried_left _ _ env.map _ left vacant
          cases called : ringMap env.map sender.ctx.negName sender.ctx.shmCapacity with
          | none => simp [called] at stepped
          | some placed =>
              rw [ring_map_remaining names called]
              cases placed with
              | error code =>
                  simp only [called] at stepped
                  exact failing (tried.same noted) stepped
              | ok capacity =>
                  simp only [called, Option.some.injEq] at stepped
                  have opened := ring_map_opened called
                  rw [if_pos opened] at tried ⊢
                  have only : insert sender.ctx.negName names =
                      insert sender.ctx.negName objects := by
                    rcases left.unmapped vacant with untried | ⟨_, before⟩
                    · rw [untried]
                    · rw [before, Finset.insert_idem]
                  rw [← stepped, only]
                  exact @mapped_left objects _ _ ⟨sender.ctx.negName, capacity⟩ rfl rfl
                    (opened_named opened) rfl

/-- Every step of a producer takes the objects it may leave to those of the next state. -/
theorem send_step_left {action : SendAction} (held : SenderMapped sender)
    (left : ObjectsLeft objects sender.ctx names) (stepped : sendStep sender action = some next) :
    ObjectsLeft objects next.ctx (remaining names (sendUses sender action)) := by
  have move := send_step_move stepped
  have quiet : ∀ {trace : List EndpointUse}, trace = [] → SameMapping sender.ctx next.ctx →
      ObjectsLeft objects next.ctx (remaining names trace) := by
    intro trace nothing same
    rw [nothing]
    exact left.same same
  cases move with
  | rejected env data before code idle bad => exact left
  | opened env data before payload idle good mapped => exact left
  | openedUnmapped env data before payload next idle good unmapped dispatched =>
      exact dispatched_left (left.same (quiet_sample _ _ _ _).toSameMapping) dispatched
  | usedHead env now here => exact quiet (by simp only [sendUses, here]) (by constructor <;> rfl)
  | usedTail env now head here => exact quiet (by simp only [sendUses, here]) (by constructor <;> rfl)
  | freeHead env now occ here => exact quiet (by simp only [sendUses, here]) (by constructor <;> rfl)
  | freeTail env now occ head cap next here dispatched =>
      have nothing : sendUses sender (.step env) = [] := by simp only [sendUses, here]
      rw [nothing]
      exact dispatched_left (left.same (quiet_monitor sender.ctx occ cap).toSameMapping) dispatched
  | requestFailed env nowNs code next here refused failed =>
      exact quiet (by simp only [sendUses, here]) (failed_parts failed)
  | requested env nowNs here delivered =>
      exact quiet (by simp only [sendUses, here]) (quiet_request sender.ctx nowNs).toSameMapping
  | ackFailed env deadline received code next here arrived failed =>
      rw [SenderMapped, here] at held
      exact await_left here held.1 left stepped
  | polled env deadline here waits =>
      rw [SenderMapped, here] at held
      exact await_left here held.1 left stepped
  | ackUnmappable env deadline frame code next here arrived acknowledged failed =>
      rw [SenderMapped, here] at held
      exact await_left here held.1 left stepped
  | ackMapped env deadline frame mapped here arrived acknowledged attached =>
      rw [SenderMapped, here] at held
      exact await_left here held.1 left stepped
  | mappingFailed env before next here written short failed =>
      rw [SenderMapped, here] at held
      obtain ⟨handle, ring⟩ := Option.isSome_iff_exists.mp held.1
      have stays : remaining names (sendUses sender (.step env)) = names := by
        simp only [sendUses, here, written, short]
        rw [close_ring_remaining, closedObjects, ring]
        rfl
      rw [stays]
      exact (left.closed ring held.2).same (failed_parts failed)
  | negotiated env before grown next here written room transmitted =>
      have resources : remaining names (sendUses sender (.step env)) = names := by
        simp only [sendUses, here, written, room]
        exact remaining_resources names (grow_resources env.realloc _ _)
      rw [SenderMapped, here] at held
      obtain ⟨handle, ring⟩ := Option.isSome_iff_exists.mp held.1
      rw [resources]
      exact (left.agreed ring (grow_keeps_ring room).1).same (transmitted_parts transmitted)
  | pushAgain env tMeas ring here full blocks called =>
      exact quiet (by simp only [sendUses, here]) (by constructor <;> rfl)
  | pushed env tMeas rc here returned =>
      have nothing : sendUses sender (.step env) = [] := by
        rcases here with here | here <;> simp only [sendUses, here]
      exact quiet nothing (finish_shm_retry_only sender.ctx sender.draft.size tMeas env.clock
        sender.ring.object.parks rc).toSameMapping
  | datagramSent env tMeas here =>
      exact quiet (by simp only [sendUses, here]) (finish_uds_retry_only sender.ctx
        sender.draft.size tMeas env.clock env.status).toSameMapping
  | ring action after foreign moved => exact left

end Producer

/-- What the mapping in `handle_control` acquires and releases. -/
def attachNamedUses (env : ControlEnv) (ctx : AdaptCtx) (cap32 : UInt32) (name : List UInt8) :
    List EndpointUse :=
  match ctx.ring with
  | some _ => []
  | none =>
      ringMapUses env.map (.ok ()) name cap32.toUInt64 ++
        match ringMap env.map name cap32.toUInt64 with
        | none => []
        | some (.error _) => []
        | some (.ok capacity) =>
            let mapped := { ctx with ring := some { name := name, capacity := capacity } }
            match growRxbuf env.realloc mapped cap32.toUInt64 with
            | none => closeRingUses false mapped
            | some _ => growRxbufUses env.realloc mapped cap32.toUInt64

def handleControlUses (env : ControlEnv) (ctx : AdaptCtx) (frame : List UInt8) :
    List EndpointUse :=
  match parseSetupReq frame with
  | none => []
  | some (cap32, name) => attachNamedUses env ctx cap32 name

/-- The control frame a step of a receive call takes off the socket, with the context
that `handle_control` is given. -/
def servedFrame (receiver : Receiver) (env : RecvEnv) : Option (AdaptCtx × List UInt8) :=
  match receiver.pc with
  | .polling _ =>
      match receiver.udsRecvTimeout env receiver.ctx.rxbufCap.toNat with
      | some (result, received) =>
          if 1 < intResult result ∧ isControl (bufferBytes result) = true then
            some ((received.counted countPoll).ctx, bufferBytes result)
          else none
      | none => none
  | .pollingUds =>
      match receiver.udsRecvTimeout env receiver.draft.maxSize with
      | some (result, received) =>
          if 0 < intResult result ∧ isControl (bufferBytes result) = true then
            some (received.ctx, bufferBytes result)
          else none
      | none => none
  | _ => none

def recvUses (receiver : Receiver) : RecvAction → List EndpointUse
  | .step env =>
      match servedFrame receiver env with
      | some (ctx, frame) => handleControlUses env.control ctx frame
      | none => []
  | _ => []

section Consumer

variable {receiver next : Receiver} {localPath : List UInt8}
variable {before middle after : AdaptCtx} {trace : List EndpointUse}

structure SameParts (before after : AdaptCtx) : Prop where
  ring : after.ring = before.ring
  rxbufCap : after.rxbufCap = before.rxbufCap
  role : after.role = before.role

theorem SameParts.trans (early : SameParts before middle) (late : SameParts middle after) :
    SameParts before after where
  ring := late.ring.trans early.ring
  rxbufCap := late.rxbufCap.trans early.rxbufCap
  role := late.role.trans early.role

/-- The trace accounts for the context's change: its footprint moves along the trace, and
the object of a ring it did not have before is created there. -/
structure Accounts (localPath : List UInt8) (before after : AdaptCtx)
    (trace : List EndpointUse) : Prop where
  custody : custody (footprint localPath before) trace = some (footprint localPath after)
  ring : ∀ handle, after.ring = some handle →
    before.ring = some handle ∨ handle.name ∈ created trace
  role : after.role = before.role

theorem quiet_accounts (same : SameParts before after) : Accounts localPath before after [] where
  custody := kept_custody rfl same.ring same.rxbufCap
  ring _ held := Or.inl (same.ring.symm.trans held)
  role := same.role

theorem Accounts.then (accounts : Accounts localPath before middle trace)
    (same : SameParts middle after) : Accounts localPath before after trace where
  custody := by rw [accounts.custody, footprint_same same.ring same.rxbufCap]
  ring handle held := accounts.ring handle (same.ring.symm.trans held)
  role := same.role.trans accounts.role

theorem Accounts.behind (accounts : Accounts localPath middle after trace)
    (same : SameParts before middle) : Accounts localPath before after trace where
  custody := by rw [← footprint_same same.ring same.rxbufCap, accounts.custody]
  ring := by
    rw [← same.ring]
    exact accounts.ring
  role := accounts.role.trans same.role

theorem attach_accounts {env : ControlEnv} {ctx after : AdaptCtx} {cap32 : UInt32}
    {name : List UInt8} {status : UInt8}
    (attached : attachNamed env ctx cap32 name = some (after, status)) :
    Accounts localPath ctx after (attachNamedUses env ctx cap32 name) := by
  simp only [attachNamed] at attached
  simp only [attachNamedUses]
  cases vacant : ctx.ring with
  | some handle =>
      simp only [vacant, Option.some.injEq, Prod.mk.injEq] at attached
      rw [← attached.1]
      exact quiet_accounts ⟨rfl, rfl, rfl⟩
  | none =>
      have start : footprint localPath ctx =
          holdings true (named localPath) false (buffered ctx) := by
        rw [footprint, vacant]
        rfl
      have unchanged : ∀ {trace : List EndpointUse},
          custody (footprint localPath ctx) trace = some (footprint localPath ctx) →
            Accounts localPath ctx ctx trace :=
        fun custody => ⟨custody, fun _ held => Or.inl held, rfl⟩
      cases called : ringMap env.map name cap32.toUInt64 with
      | none => simp [vacant, called] at attached
      | some placed =>
          have tried := @ring_map_holdings true (named localPath) (buffered ctx) _ _ _ _ called
          cases placed with
          | error code =>
              simp only [vacant, called, Option.some.injEq, Prod.mk.injEq] at attached
              rw [← attached.1]
              apply unchanged
              rw [start]
              exact custody_chain tried rfl
          | ok capacity =>
              simp only [vacant, called] at attached ⊢
              cases room : growRxbuf env.realloc
                  { ctx with ring := some { name := name, capacity := capacity } }
                  cap32.toUInt64 with
              | none =>
                  have closed := @close_ring_holdings
                    { ctx with ring := some { name := name, capacity := capacity } }
                    true (named localPath) (buffered ctx) false
                  simp only [room, Option.some.injEq, Prod.mk.injEq] at attached
                  rw [← attached.1]
                  apply unchanged
                  rw [start]
                  exact custody_chain tried closed
              | some grown =>
                  have roomy := @grow_holdings
                    { ctx with ring := some { name := name, capacity := capacity } }
                    true (named localPath) true _ _ _ room
                  have kept := grow_context room
                  have ring : grown.ring = some { name := name, capacity := capacity } := by
                    rw [kept]
                  simp only [room, Option.some.injEq, Prod.mk.injEq] at attached
                  rw [← attached.1]
                  constructor
                  · rw [start, footprint, ring]
                    exact custody_chain tried roomy
                  · intro handle held
                    rw [ring] at held
                    cases held
                    right
                    rw [created_append, ring_map_created ((ring_map_futex _ _ _).trans called),
                      ring_map_opened called]
                    exact Finset.mem_union_left _ (Finset.mem_singleton_self name)
                  · rw [kept]

theorem control_accounts {env : ControlEnv} {ctx after : AdaptCtx} {frame : List UInt8}
    {ack : Option (List UInt8)} (handled : handleControl env ctx frame = some (after, ack)) :
    Accounts localPath ctx after (handleControlUses env ctx frame) := by
  simp only [handleControl] at handled
  simp only [handleControlUses]
  cases read : parseSetupReq frame with
  | none =>
      simp only [read, Option.some.injEq, Prod.mk.injEq] at handled
      rw [← handled.1]
      exact quiet_accounts ⟨rfl, rfl, rfl⟩
  | some request =>
      obtain ⟨cap32, name⟩ := request
      simp only [read] at handled ⊢
      cases attached : attachNamed env ctx cap32 name with
      | none => simp [attached] at handled
      | some outcome =>
          obtain ⟨settled, status⟩ := outcome
          simp only [attached, Option.some.injEq, Prod.mk.injEq] at handled
          rw [← handled.1]
          split
          · obtain ⟨ring, rxbufCap, role⟩ := count_scratch settled fun st =>
              { st with shmSetupAcks := st.shmSetupAcks + 1 }
            exact (attach_accounts attached).then ⟨ring, rxbufCap, role⟩
          · exact attach_accounts attached

theorem counted_parts (receiver : Receiver) (counter : AdaptStats → AdaptStats) :
    SameParts receiver.ctx (receiver.counted counter).ctx := by
  obtain ⟨ring, rxbufCap, role⟩ := count_scratch receiver.ctx counter
  exact ⟨ring, rxbufCap, role⟩

theorem looped_parts (looped : Looped receiver next) : SameParts receiver.ctx next.ctx := by
  cases looped with
  | polls tmoInMsg ring mapped called => exact counted_parts receiver countLoop
  | waits tmoInMsg unmapped => exact counted_parts receiver countLoop

theorem delivered_parts (n : Int) (tmp : List UInt8) (counter : AdaptStats → AdaptStats) :
    SameParts receiver.ctx (receiver.deliver n tmp counter).ctx := by
  simp only [Receiver.deliver]
  split
  · exact ⟨rfl, rfl, rfl⟩
  · exact counted_parts receiver counter

theorem serve_accounts {env : RecvEnv} {frame : List UInt8}
    (handled : receiver.serve env frame = some next) :
    Accounts localPath receiver.ctx next.ctx
      (handleControlUses env.control receiver.ctx frame) := by
  obtain ⟨⟨ctx, ack⟩, control, rfl⟩ := Option.map_eq_some_iff.mp handled
  exact control_accounts control

theorem polling_accounts {env : RecvEnv} {tmoInMsg : Nat} (here : receiver.pc = .polling tmoInMsg)
    (stepped : receiver.step env = some next) :
    Accounts localPath receiver.ctx next.ctx (recvUses receiver (.step env)) := by
  simp only [Receiver.step, here] at stepped
  simp only [recvUses, servedFrame, here]
  split at stepped
  · cases stepped
  · next result received answered =>
    have taken := received_taken (uds_received answered)
    have polled : SameParts receiver.ctx (received.counted countPoll).ctx := by
      rw [← taken.ctx]
      exact counted_parts received countPoll
    simp only [answered]
    by_cases more : 1 < intResult result
    · cases control : isControl (bufferBytes result) with
      | true =>
          simp only [more, control, and_self, if_true] at stepped ⊢
          obtain ⟨served, handled, looped⟩ := Option.bind_eq_some_iff.mp stepped
          have polledServe : (received.counted countPoll).serve env (bufferBytes result) =
              some served := handled
          exact ((serve_accounts polledServe).then (looped_parts (loop_looped looped))).behind
            polled
      | false =>
          simp only [more, control, if_true, Bool.false_eq_true, and_false, if_false,
            Option.some.injEq] at stepped ⊢
          rw [← stepped]
          exact quiet_accounts (polled.trans (delivered_parts _ _ _))
    · simp only [more, false_and, if_false] at stepped ⊢
      split at stepped
      · cases stepped
        exact quiet_accounts polled
      · have timed := counted_parts (received.counted countPoll) countTimeout
        exact quiet_accounts ((polled.trans timed).trans (looped_parts (loop_looped stepped)))

theorem polling_uds_accounts {env : RecvEnv} (here : receiver.pc = .pollingUds)
    (stepped : receiver.step env = some next) :
    Accounts localPath receiver.ctx next.ctx (recvUses receiver (.step env)) := by
  simp only [Receiver.step, here] at stepped
  simp only [recvUses, servedFrame, here]
  split at stepped
  · cases stepped
  · next result received answered =>
    have taken := received_taken (uds_received answered)
    have same : SameParts receiver.ctx received.ctx := by
      rw [taken.ctx]
      exact ⟨rfl, rfl, rfl⟩
    simp only [answered]
    by_cases empty : intResult result ≤ 0
    · have few : ¬0 < intResult result := by omega
      simp only [empty, few, false_and, if_true, if_false, Option.some.injEq] at stepped ⊢
      rw [← stepped]
      exact quiet_accounts same
    · have more : 0 < intResult result := by omega
      cases control : isControl (bufferBytes result) with
      | true =>
          simp only [empty, more, control, and_self, if_true, if_false] at stepped ⊢
          exact (serve_accounts stepped).behind same
      | false =>
          simp only [empty, control, if_false, Bool.false_eq_true, and_false] at stepped ⊢
          split at stepped <;> cases stepped <;> exact quiet_accounts same

/-- Every step of a consumer is accounted for by its trace. -/
theorem recv_step_accounts {action : RecvAction} (stepped : recvStep receiver action = some next) :
    Accounts localPath receiver.ctx next.ctx (recvUses receiver action) := by
  have still : SameParts receiver.ctx receiver.ctx := ⟨rfl, rfl, rfl⟩
  have popping : ∀ env tmoInMsg, receiver.pc = .popping tmoInMsg →
      recvUses receiver (.step env) = [] := by
    intro env tmoInMsg here
    simp only [recvUses, servedFrame, here]
  have move := recv_step_move stepped
  cases move with
  | rejected buffer before code idle bad => exact quiet_accounts still
  | entered buffer before maxSize next idle good looped =>
      have parts := looped_parts looped
      exact quiet_accounts parts
  | rejectedUds buffer before code idle bad => exact quiet_accounts still
  | enteredUds buffer before maxSize idle good => exact quiet_accounts still
  | popped env tmoInMsg result here returned positive =>
      rw [popping env tmoInMsg here]
      have parts := @delivered_parts (receiver.notePopped result) (intResult result)
        (bufferBytes result) (countShm tmoInMsg)
      cases result <;> exact quiet_accounts parts
  | popFailed env tmoInMsg result here returned nonpositive other =>
      rw [popping env tmoInMsg here]
      cases result <;> exact quiet_accounts still
  | popEmpty env tmoInMsg result here returned empty =>
      rw [popping env tmoInMsg here]
      cases result <;> exact quiet_accounts still
  | served env tmoInMsg result received served next here answered more control handled looped =>
      exact polling_accounts here stepped
  | received env tmoInMsg result received here answered more data =>
      exact polling_accounts here stepped
  | pollFailed env tmoInMsg result received here answered nonpositive other =>
      exact polling_accounts here stepped
  | pollQuiet env tmoInMsg result received next here answered nothing looped =>
      exact polling_accounts here stepped
  | udsFailed env result received here answered nonpositive =>
      exact polling_uds_accounts here stepped
  | udsServed env result received next here answered positive control handled =>
      exact polling_uds_accounts here stepped
  | udsTooLarge env result received here answered positive data large =>
      exact polling_uds_accounts here stepped
  | udsReceived env result received here answered positive data fits =>
      exact polling_uds_accounts here stepped
  | ring action after foreign moved => exact quiet_accounts still
  | arrived datagram => exact quiet_accounts still

theorem attach_uses_keep (env : ControlEnv) (ctx : AdaptCtx) (cap32 : UInt32)
    (name : List UInt8) : ∀ use ∈ attachNamedUses env ctx cap32 name, use.keeps = true := by
  intro use member
  simp only [attachNamedUses] at member
  split at member
  · cases member
  · rcases List.mem_append.mp member with mapping | behind
    · exact (ring_map_uses env.map (.ok ()) name cap32.toUInt64 use mapping).keeps
    · split at behind
      · cases behind
      · cases behind
      · split at behind
        · exact close_keeps _ use behind
        · exact Use.keeps_resource (grow_resources env.realloc _ _ use behind)

theorem recv_uses_keep (receiver : Receiver) (action : RecvAction) :
    ∀ use ∈ recvUses receiver action, use.keeps = true := by
  intro use member
  simp only [recvUses] at member
  split at member
  · next env =>
    split at member
    · next ctx frame served =>
      simp only [handleControlUses] at member
      split at member
      · cases member
      · exact attach_uses_keep env.control ctx _ _ use member
    · cases member
  · cases member

end Consumer

def consumerRuns : Machine Receiver RecvAction where
  initial receiver := ∃ before, receiver.pc = .idle before
  step := recvStep

section Lifetimes

variable {cfg : AdaptConfig} {env : InitEnv} {uds : UdsOpenEnv} {localPath : List UInt8}

theorem init_negotiated {role : AdaptRole} {ctx : AdaptCtx} {handle : RingHandle}
    (accepted : adaptInit role cfg env = some (.ok ctx)) (ring : ctx.ring = some handle) :
    ctx.negotDone = true := by
  rcases init_succeeds accepted with succeeded | ⟨mapped, eager, succeeded⟩
  · rw [open_context succeeded] at ring
    cases ring
  · obtain ⟨capacity, room⟩ := eager_succeeds eager
    rw [open_context succeeded, grow_context room]

theorem init_left {ctx : AdaptCtx} {objects : Finset (List UInt8)}
    (socket : cfg.localSock = some localPath)
    (accepted : adaptInit .producer cfg env = some (.ok ctx)) :
    ObjectsLeft objects ctx (remaining objects (adaptInitUses .producer cfg env uds)) := by
  rw [init_remaining socket accepted, initRemains]
  constructor
  · intro handle ring
    rw [ring]
  · intro vacant
    rw [vacant]
    exact Or.inl rfl
  · intro handle ring waiting
    rw [init_negotiated accepted ring] at waiting
    cases waiting

theorem run_left {sender final : Sender} {actions : List SendAction}
    {before : Option Status} (socket : cfg.localSock = some localPath)
    (accepted : adaptInit .producer cfg env = some (.ok sender.ctx))
    (idle : sender.pc = .idle before)
    (ran : (sendMachine cfg env).run sender actions = some final)
    (objects : Finset (List UInt8)) :
    final.ctx.role = .producer ∧ ObjectsLeft objects final.ctx
      (remaining objects (adaptInitUses .producer cfg env uds ++
        runUses (sendMachine cfg env) sendUses sender actions)) := by
  have starts := init_starts accepted
  have mapped : SenderMapped sender := by
    rw [SenderMapped, idle]
    exact starts.2
  have lived := @run_remaining _ _ _ _ (sendMachine cfg env) _ sendUses
    (fun sender names => SenderMapped sender ∧ sender.ctx.role = .producer ∧
      ObjectsLeft objects sender.ctx names)
    (fun state action next names held stepped =>
      have move := send_step_move stepped
      ⟨move_mapped held.1 move, (move_config move).role.trans held.2.1,
        send_step_left held.1 held.2.2 stepped⟩)
    _ _ _ _ ⟨mapped, starts.1.role, @init_left cfg env uds localPath _ objects socket accepted⟩
    ran
  rw [remaining_append]
  exact lived.2

/-- A producer that is initialised, run and shut down has given back everything once. Its
ring's object goes with the shutdown; one of a handshake that failed behind `shm_open`
stays. -/
theorem producer_lifetime {sender final : Sender} {actions : List SendAction}
    {before : Option Status} (socket : cfg.localSock = some localPath)
    (answered : env.udsOpen = udsOpen uds localPath)
    (accepted : adaptInit .producer cfg env = some (.ok sender.ctx))
    (idle : sender.pc = .idle before)
    (ran : (sendMachine cfg env).run sender actions = some final)
    (objects : Finset (List UInt8)) :
    let whole := adaptInitUses .producer cfg env uds ++
      (runUses (sendMachine cfg env) sendUses sender actions ++
        adaptShutdownUses localPath final.ctx)
    custody ∅ whole = some ∅ ∧
      match final.ctx.ring with
      | some handle =>
          remaining objects whole =
            (insert handle.name objects).erase (handleName handle.name)
      | none =>
          remaining objects whole = objects ∪ created whole ∧
            created whole ⊆ {final.ctx.negName} := by
  intro whole
  have started : SenderMapped sender := by
    rw [SenderMapped, idle]
    exact (init_starts accepted).2
  have lived := run_custody (fun state action next held stepped =>
    ⟨move_mapped held (send_step_move stepped),
      @send_step_custody state next localPath action held stepped⟩) started ran
  have closes : ∀ start, remaining start whole = closedObjects true final.ctx
      (remaining start (adaptInitUses .producer cfg env uds ++
        runUses (sendMachine cfg env) sendUses sender actions)) := by
    intro start
    have role := (@run_left cfg env uds localPath _ _ _ _ socket accepted idle ran start).1
    rw [remaining_append, remaining_append, shutdown_remaining, role, remaining_append]
    rfl
  constructor
  · exact custody_chain (init_custody socket answered accepted)
      (custody_chain lived.2 shutdown_holdings)
  · cases ring : final.ctx.ring with
    | some handle =>
        have left := (@run_left cfg env uds localPath _ _ _ _ socket accepted idle ran objects).2
        dsimp only
        rw [closes, closedObjects, ring, left.mapped handle ring]
        rfl
    | none =>
        have kept : ∀ use ∈ whole, use.keeps = true := by
          intro use member
          rcases List.mem_append.mp member with init | later
          · exact init_keeps accepted use init
          · rcases List.mem_append.mp later with running | shutdown
            · exact run_keeps send_uses_keep sender actions use running
            · exact shutdown_keeps (Or.inl ring) use shutdown
        have left := (@run_left cfg env uds localPath _ _ _ _ socket accepted idle ran ∅).2
        have made : created whole = remaining ∅ whole := by
          rw [remaining_kept ∅ kept, Finset.empty_union]
        refine ⟨remaining_kept objects kept, ?_⟩
        rw [made, closes, closedObjects, ring]
        rcases left.unmapped ring with untried | ⟨_, tried⟩
        · rw [untried]
          exact Finset.empty_subset _
        · rw [tried]
          exact Finset.Subset.refl _

/-- Every call inside `uds_open` succeeds. -/
def openedUds : UdsOpenEnv where
  calloc := true
  socket := .ok ()
  bind := .ok ()

def mappedBuffer (realloc : Bool) : List SendAction :=
  [.call quietEnv (some (List.replicate 5000 1)), .step quietEnv, .step ackEnv] ++
    List.replicate headerInit.length (.ring .producer) ++
    [.step { quietEnv with realloc := realloc }]

def mappedLifetime (realloc : Bool) (final : Sender) : List EndpointUse :=
  adaptInitUses .producer (plainConfig 8192) sharpEnv openedUds ++
    (runUses (sendMachine (plainConfig 8192) sharpEnv) sendUses lazySender
      (mappedBuffer realloc) ++ adaptShutdownUses [97] final.ctx)

theorem middle_left {first middle last : List EndpointUse} {name : List UInt8}
    (left : remaining ∅ (first ++ (middle ++ last)) = ∅ ∪ created (first ++ (middle ++ last)))
    (only : created (first ++ (middle ++ last)) ⊆ {name}) (made : created middle = {name}) :
    remaining ∅ (first ++ (middle ++ last)) = {name} := by
  rw [left, Finset.empty_union]
  apply Finset.Subset.antisymm only
  rw [created_append, created_append, made]
  exact Finset.subset_union_left.trans Finset.subset_union_right

/-- Everything held is given back; the object of a ring that was closed again stays, that
of a ring in use goes. -/
theorem producer_lifetime_mapped :
    (∃ refused, (sendMachine (plainConfig 8192) sharpEnv).run lazySender (mappedBuffer false) =
        some refused ∧
      custody ∅ (mappedLifetime false refused) = some ∅ ∧
      remaining ∅ (mappedLifetime false refused) = {generateShmName 4711 0}) ∧
      ∃ granted, (sendMachine (plainConfig 8192) sharpEnv).run lazySender (mappedBuffer true) =
          some granted ∧
        custody ∅ (mappedLifetime true granted) = some ∅ ∧
        remaining ∅ (mappedLifetime true granted) = ∅ := by
  have closed : ((sendMachine (plainConfig 8192) sharpEnv).run lazySender
      (mappedBuffer false)).map (fun sender => (sender.ctx.ring, sender.ctx.negName)) =
        some (none, generateShmName 4711 0) := by decide +kernel
  have used : created (runUses (sendMachine (plainConfig 8192) sharpEnv) sendUses lazySender
      (mappedBuffer false)) = {generateShmName 4711 0} := by decide +kernel
  have opened : ((sendMachine (plainConfig 8192) sharpEnv).run lazySender
      (mappedBuffer true)).map (fun sender => sender.ctx.ring) =
        some (some ⟨generateShmName 4711 0, 8192⟩) := by decide +kernel
  unfold mappedLifetime
  constructor
  · obtain ⟨refused, ran, parts⟩ := Option.map_eq_some_iff.mp closed
    obtain ⟨unmapped, name⟩ := Prod.mk.inj parts
    have lived := @producer_lifetime (plainConfig 8192) sharpEnv openedUds [97] lazySender refused
      (mappedBuffer false) none rfl rfl rfl rfl ran ∅
    dsimp only at lived
    rw [unmapped] at lived
    obtain ⟨nothing, left, only⟩ := lived
    rw [name] at only
    exact ⟨refused, ran, nothing, middle_left left only used⟩
  · obtain ⟨granted, ran, mapped⟩ := Option.map_eq_some_iff.mp opened
    have lived := @producer_lifetime (plainConfig 8192) sharpEnv openedUds [97] lazySender granted
      (mappedBuffer true) none rfl rfl rfl rfl ran ∅
    dsimp only at lived
    rw [mapped] at lived
    refine ⟨granted, ran, lived.1, ?_⟩
    rw [lived.2]
    decide +kernel

/-- A consumer gives back what it holds, and unlinks no object, that of its ring included. -/
theorem consumer_lifetime {receiver final : Receiver} {actions : List RecvAction}
    (socket : cfg.localSock = some localPath) (answered : env.udsOpen = udsOpen uds localPath)
    (accepted : adaptInit .consumer cfg env = some (.ok receiver.ctx))
    (ran : consumerRuns.run receiver actions = some final) (objects : Finset (List UInt8)) :
    let whole := adaptInitUses .consumer cfg env uds ++
      (runUses consumerRuns recvUses receiver actions ++
        adaptShutdownUses localPath final.ctx)
    custody ∅ whole = some ∅ ∧ remaining objects whole = objects ∪ created whole ∧
      ∀ handle, final.ctx.ring = some handle → handle.name ∈ created whole := by
  intro whole
  have lived := @run_custody _ _ _ _ consumerRuns _ recvUses
    (fun receiver => footprint localPath receiver.ctx) (fun _ => True)
    (fun state action next _ stepped => ⟨trivial, (recv_step_accounts stepped).custody⟩) _ _ _
    trivial ran
  have start : ∀ handle, receiver.ctx.ring = some handle →
      handle.name ∈ remaining ∅ (adaptInitUses .consumer cfg env uds) := by
    intro handle ring
    rw [init_remaining socket accepted, initRemains, ring]
    exact Finset.mem_insert_self handle.name ∅
  have left := @run_remaining _ _ _ _ consumerRuns _ recvUses
    (fun receiver names => receiver.ctx.role = .consumer ∧
      ∀ handle, receiver.ctx.ring = some handle → handle.name ∈ names)
    (fun state action next names held stepped => by
      have accounts := @recv_step_accounts state next localPath action stepped
      refine ⟨accounts.role.trans held.1, ?_⟩
      intro handle ring
      rw [remaining_kept names (recv_uses_keep state action)]
      rcases accounts.ring handle ring with before | made
      · exact Finset.mem_union_left _ (held.2 handle before)
      · exact Finset.mem_union_right _ made)
    _ _ _ _ ⟨(init_starts accepted).1.role, start⟩ ran
  have kept : ∀ use ∈ whole, use.keeps = true := by
    intro use member
    rcases List.mem_append.mp member with init | later
    · exact init_keeps accepted use init
    · rcases List.mem_append.mp later with running | shutdown
      · exact run_keeps recv_uses_keep receiver actions use running
      · exact shutdown_keeps (Or.inr left.1) use shutdown
  refine ⟨?_, remaining_kept objects kept, ?_⟩
  · exact custody_chain (init_custody socket answered accepted)
      (custody_chain lived.2 shutdown_holdings)
  · intro handle ring
    have here := left.2 handle ring
    rw [remaining_kept _ (run_keeps recv_uses_keep receiver actions),
      remaining_kept _ (init_keeps accepted), Finset.empty_union] at here
    rw [created_append, created_append, ← Finset.union_assoc]
    exact Finset.mem_union_left _ here

def servedRequest : List RecvAction :=
  [.arrive (setupReqFrame 8192 (generateShmName 4711 0)), .call .recvUds (some 4096),
    .step quietRecv]

theorem consumer_lifetime_served : ∃ receiver,
    consumerRuns.run emptyConsumer servedRequest = some receiver ∧
      runUses consumerRuns recvUses emptyConsumer servedRequest =
        [.create (generateShmName 4711 0), .acquire .shmFd, .acquire .mapping,
          .acquire .handle, .release .rxbuf, .acquire .rxbuf] ∧
      custody ∅ (adaptInitUses .consumer (plainConfig 4096) plainEnv openedUds ++
        (runUses consumerRuns recvUses emptyConsumer servedRequest ++
          adaptShutdownUses [97] receiver.ctx)) = some ∅ ∧
      generateShmName 4711 0 ∈
        remaining ∅ (adaptInitUses .consumer (plainConfig 4096) plainEnv openedUds ++
          (runUses consumerRuns recvUses emptyConsumer servedRequest ++
            adaptShutdownUses [97] receiver.ctx)) := by
  have measured : (consumerRuns.run emptyConsumer servedRequest).map
      (fun receiver => receiver.ctx.ring.map RingHandle.name) =
        some (some (generateShmName 4711 0)) := by
    decide +kernel
  obtain ⟨receiver, ran, ring⟩ := Option.map_eq_some_iff.mp measured
  obtain ⟨handle, held, named⟩ := Option.map_eq_some_iff.mp ring
  have lived := @consumer_lifetime (plainConfig 4096) plainEnv openedUds [97] emptyConsumer
    receiver servedRequest rfl rfl rfl ran ∅
  refine ⟨receiver, ran, by decide +kernel, lived.1, ?_⟩
  rw [lived.2.1, Finset.empty_union, ← named]
  exact lived.2.2 handle held

end Lifetimes

end AdaptIpc.Endpoint

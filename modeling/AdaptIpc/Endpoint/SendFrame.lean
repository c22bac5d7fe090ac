import AdaptIpc.Endpoint.SendMove

/-!
# What the parts of `adapt_send` leave alone

Only the classification moves the smoothed size, the decided route and the two
counters of decisions; only the handshake moves the ring and `negot_done`; only
the decision, the guard rails and the exits move the retry state. A ring is
mapped wherever a push or an occupancy reading is in progress.
-/

namespace AdaptIpc.Endpoint

open AdaptIpc.Ring AdaptIpc.Policy AdaptIpc.Library.Transition

set_option autoImplicit false

theorem count_fields (ctx : AdaptCtx) (update : AdaptStats → AdaptStats) :
    ctx.count update = { ctx with st := if ctx.statsOn then update ctx.st else ctx.st } := by
  simp only [AdaptCtx.count]
  split <;> rfl

/-- What no send changes. -/
structure SameConfig (before after : AdaptCtx) : Prop where
  role : after.role = before.role
  policy : after.policy = before.policy
  alpha : after.alpha = before.alpha
  statsOn : after.statsOn = before.statsOn
  nonblockingSend : after.nonblockingSend = before.nonblockingSend
  shmCapacity : after.shmCapacity = before.shmCapacity

structure SameRouter (before after : AdaptCtx) : Prop where
  ewmaSize : after.ewmaSize = before.ewmaSize
  lastRoute : after.lastRoute = before.lastRoute
  decisions : after.st.decisions = before.st.decisions
  routeSwitches : after.st.routeSwitches = before.st.routeSwitches

structure SameRetry (before after : AdaptCtx) : Prop where
  retryPending : after.retryPending = before.retryPending
  pendingSize : after.pendingSize = before.pendingSize
  pendingRoute : after.pendingRoute = before.pendingRoute

structure SameMapping (before after : AdaptCtx) : Prop where
  ring : after.ring = before.ring
  negotDone : after.negotDone = before.negotDone
  negName : after.negName = before.negName
  rxbufCap : after.rxbufCap = before.rxbufCap

/-- Steps that only measure and count. -/
structure Quiet (before after : AdaptCtx) : Prop extends SameConfig before after,
  SameRouter before after, SameRetry before after, SameMapping before after

structure RetryOnly (before after : AdaptCtx) : Prop extends SameConfig before after,
  SameRouter before after, SameMapping before after

structure MappingOnly (before after : AdaptCtx) : Prop extends SameConfig before after,
  SameRouter before after, SameRetry before after

section Composition

variable {first second third : AdaptCtx}

theorem SameConfig.trans (early : SameConfig first second) (late : SameConfig second third) :
    SameConfig first third where
  role := late.role.trans early.role
  policy := late.policy.trans early.policy
  alpha := late.alpha.trans early.alpha
  statsOn := late.statsOn.trans early.statsOn
  nonblockingSend := late.nonblockingSend.trans early.nonblockingSend
  shmCapacity := late.shmCapacity.trans early.shmCapacity

theorem SameRouter.trans (early : SameRouter first second) (late : SameRouter second third) :
    SameRouter first third where
  ewmaSize := late.ewmaSize.trans early.ewmaSize
  lastRoute := late.lastRoute.trans early.lastRoute
  decisions := late.decisions.trans early.decisions
  routeSwitches := late.routeSwitches.trans early.routeSwitches

theorem SameRetry.trans (early : SameRetry first second) (late : SameRetry second third) :
    SameRetry first third where
  retryPending := late.retryPending.trans early.retryPending
  pendingSize := late.pendingSize.trans early.pendingSize
  pendingRoute := late.pendingRoute.trans early.pendingRoute

theorem SameMapping.trans (early : SameMapping first second) (late : SameMapping second third) :
    SameMapping first third where
  ring := late.ring.trans early.ring
  negotDone := late.negotDone.trans early.negotDone
  negName := late.negName.trans early.negName
  rxbufCap := late.rxbufCap.trans early.rxbufCap

theorem MappingOnly.trans (early : MappingOnly first second) (late : MappingOnly second third) :
    MappingOnly first third where
  toSameConfig := early.toSameConfig.trans late.toSameConfig
  toSameRouter := early.toSameRouter.trans late.toSameRouter
  toSameRetry := early.toSameRetry.trans late.toSameRetry

end Composition

theorem quiet_sample (ctx : AdaptCtx) (size occ now : UInt64) :
    Quiet ctx (sampleContext ctx size occ now) := by
  constructor <;> constructor <;> rfl

theorem quiet_monitor (ctx : AdaptCtx) (occ cap : UInt64) :
    Quiet ctx (monitorHealth ctx occ cap) := by
  simp only [monitorHealth, count_fields]
  split_ifs <;> constructor <;> constructor <;> rfl

theorem quiet_request (ctx : AdaptCtx) (nowNs : UInt64) : Quiet ctx (requestSent ctx nowNs) := by
  simp only [requestSent, count_fields]
  split_ifs <;> constructor <;> constructor <;> rfl

theorem quiet_ack (ctx : AdaptCtx) : Quiet ctx (ackReceived ctx) := by
  simp only [ackReceived, count_fields]
  split_ifs <;> constructor <;> constructor <;> rfl

theorem quiet_push (sender : Sender) (ring : RingState) (tMeas : UInt64) :
    Quiet sender.ctx (sender.startPush ring tMeas).ctx := by
  simp only [Sender.startPush, count_fields]
  split_ifs <;> constructor <;> constructor <;> rfl

theorem quiet_datagram (sender : Sender) (tMeas : UInt64) :
    Quiet sender.ctx (sender.startDatagram tMeas).ctx := by
  simp only [Sender.startDatagram, count_fields]
  split_ifs <;> constructor <;> constructor <;> rfl

theorem guard_retry_only (ctx : AdaptCtx) (route : AdaptRoute) (size : UInt64) :
    RetryOnly ctx (guardRails ctx route size).2 := by
  simp only [guardRails, count_fields]
  split_ifs <;> constructor <;> constructor <;> rfl

theorem handshake_failed_retry_only (ctx : AdaptCtx) (size : UInt64) (hrc : Errno) :
    RetryOnly ctx (handshakeFailed ctx size hrc).2 := by
  simp only [handshakeFailed, count_fields]
  split_ifs <;> constructor <;> constructor <;> rfl

theorem finish_shm_retry_only (ctx : AdaptCtx) (size tMeas now parks : UInt64) (rc : Status) :
    RetryOnly ctx (finishShm ctx size tMeas now parks rc) := by
  simp only [finishShm, observeCost, count_fields]
  split_ifs <;> constructor <;> constructor <;> rfl

theorem finish_uds_retry_only (ctx : AdaptCtx) (size tMeas now : UInt64) (rc : Status) :
    RetryOnly ctx (finishUds ctx size tMeas now rc) := by
  simp only [finishUds, observeCost]
  split_ifs <;> constructor <;> constructor <;> rfl

theorem name_mapping_only (ctx : AdaptCtx) (pid : Nat) (negCounter : UInt32) :
    MappingOnly ctx (nameRing ctx pid negCounter) := by
  simp only [nameRing]
  split_ifs <;> constructor <;> constructor <;> rfl

theorem map_mapping_only {env : MapEnv} {ctx mapped : AdaptCtx}
    (attached : mapNegotiated env ctx = some (.ok mapped)) : MappingOnly ctx mapped := by
  simp only [mapNegotiated] at attached
  split at attached <;> cases attached
  constructor <;> constructor <;> rfl

theorem grow_mapping_only {realloc : Bool} {ctx grown : AdaptCtx} {cap : UInt64}
    (room : growRxbuf realloc ctx cap = some grown) : MappingOnly ctx grown := by
  rw [grow_context room]
  constructor <;> constructor <;> rfl

theorem Quiet.mappingOnly {before after : AdaptCtx} (quiet : Quiet before after) :
    MappingOnly before after :=
  ⟨quiet.toSameConfig, quiet.toSameRouter, quiet.toSameRetry⟩

def decidedRoute (ctx : AdaptCtx) (size now waitClock : UInt64) : AdaptRoute :=
  (adaptPolicyDecide ctx.policy ctx.cmcfg
    (decideInput { ctx with ewmaSize := ewmaUpdate ctx.ewmaSize ctx.alpha size } size now
      waitClock)).1.selected

theorem classify_config (ctx : AdaptCtx) (size now waitClock : UInt64) :
    SameConfig ctx (classify ctx size now waitClock) := by
  simp only [classify, logDecision, count_fields]
  split_ifs <;> constructor <;> rfl

theorem classify_mapping (ctx : AdaptCtx) (size now waitClock : UInt64) :
    SameMapping ctx (classify ctx size now waitClock) := by
  simp only [classify, logDecision, count_fields]
  split_ifs <;> constructor <;> rfl

theorem classify_retry (ctx : AdaptCtx) (size now waitClock : UInt64) :
    (classify ctx size now waitClock).retryPending = false ∧
      (classify ctx size now waitClock).pendingRoute = .none := by
  constructor <;> rfl

theorem classify_route (ctx : AdaptCtx) (size now waitClock : UInt64) :
    (classify ctx size now waitClock).lastRoute = decidedRoute ctx size now waitClock := rfl

theorem classify_ewma (ctx : AdaptCtx) (size now waitClock : UInt64) :
    (classify ctx size now waitClock).ewmaSize = ewmaUpdate ctx.ewmaSize ctx.alpha size := by
  simp only [classify, logDecision, count_fields]
  split_ifs <;> rfl

theorem classify_counters (ctx : AdaptCtx) (size now waitClock : UInt64)
    (statsOn : ctx.statsOn = true) :
    (classify ctx size now waitClock).st.decisions = ctx.st.decisions + 1 ∧
      (classify ctx size now waitClock).st.routeSwitches =
        if ctx.lastRoute ≠ .none ∧ decidedRoute ctx size now waitClock ≠ ctx.lastRoute then
          ctx.st.routeSwitches + 1
        else ctx.st.routeSwitches := by
  have logged : ∀ d : AdaptDecision, (logDecision ctx d).statsOn = true := by
    intro d
    simp only [logDecision]
    split <;> exact statsOn
  simp only [classify, count_fields, logDecision]
  constructor <;> split_ifs <;> simp_all [decidedRoute]

theorem SameConfig.refl (ctx : AdaptCtx) : SameConfig ctx ctx := by constructor <;> rfl

theorem decide_config (sender : Sender) (now waitClock : UInt64) :
    SameConfig sender.ctx (sender.decide now waitClock).2.ctx := by
  have guarded := (guard_retry_only (routeMessage sender.ctx sender.draft.size now waitClock).2
    (routeMessage sender.ctx sender.draft.size now waitClock).1 sender.draft.size).toSameConfig
  have routed : SameConfig sender.ctx
      (routeMessage sender.ctx sender.draft.size now waitClock).2 := by
    simp only [routeMessage]
    split
    · exact SameConfig.refl sender.ctx
    · exact classify_config sender.ctx sender.draft.size now waitClock
  exact routed.trans guarded

theorem transmitted_config {sender next : Sender} {route : AdaptRoute}
    (transmitted : Transmitted sender route next) : SameConfig sender.ctx next.ctx := by
  cases transmitted with
  | push ring tMeas shm called => exact (quiet_push sender ring tMeas).toSameConfig
  | datagram tMeas other => exact (quiet_datagram sender tMeas).toSameConfig

theorem failed_config {sender next : Sender} {hrc : Errno}
    (failed : HandshakeFailed sender hrc next) : SameConfig sender.ctx next.ctx := by
  have noted := (handshake_failed_retry_only sender.ctx sender.draft.size hrc).toSameConfig
  cases failed with
  | refused large => exact noted
  | degraded tMeas small =>
      exact noted.trans (quiet_datagram (sender.handshakeFailure hrc).2 tMeas).toSameConfig

theorem dispatched_config {sender next : Sender} (dispatched : Dispatched sender next) :
    SameConfig sender.ctx next.ctx := by
  cases dispatched with
  | tooLarge now waitClock refused => exact decide_config sender now waitClock
  | negotiating now waitClock env route unmapped waiting =>
      exact (decide_config sender now waitClock).trans
        (name_mapping_only _ env.pid env.negCounter).toSameConfig
  | sent now waitClock route next decided ready transmitted =>
      exact (decide_config sender now waitClock).trans (transmitted_config transmitted)

/-- No step of a send changes the configuration. -/
theorem move_config {sender next : Sender} {action : SendAction}
    (move : SendMove sender action next) : SameConfig sender.ctx next.ctx := by
  cases move with
  | rejected env data before code idle bad => exact SameConfig.refl sender.ctx
  | opened env data before payload idle good held => exact SameConfig.refl sender.ctx
  | openedUnmapped env data before payload next idle good none dispatched =>
      exact (quiet_sample _ _ _ _).toSameConfig.trans (dispatched_config dispatched)
  | usedHead env now here => exact SameConfig.refl sender.ctx
  | usedTail env now head here => exact (quiet_sample _ _ _ _).toSameConfig
  | freeHead env now occ here => exact SameConfig.refl sender.ctx
  | freeTail env now occ head cap next here dispatched =>
      exact (quiet_monitor _ occ cap).toSameConfig.trans (dispatched_config dispatched)
  | requestFailed env nowNs code next here refused failed => exact failed_config failed
  | requested env nowNs here delivered => exact (quiet_request _ nowNs).toSameConfig
  | ackFailed env deadline received code next here arrived failed => exact failed_config failed
  | polled env deadline here quiet => exact SameConfig.refl sender.ctx
  | ackUnmappable env deadline frame code next here arrived acknowledged failed =>
      exact (quiet_ack _).toSameConfig.trans (failed_config failed)
  | ackMapped env deadline frame mapped here arrived acknowledged attached =>
      exact (quiet_ack _).toSameConfig.trans (map_mapping_only attached).toSameConfig
  | mappingFailed env before next here written short failed =>
      have kept := failed_config failed
      exact ⟨kept.role, kept.policy, kept.alpha, kept.statsOn, kept.nonblockingSend,
        kept.shmCapacity⟩
  | negotiated env before grown next here written room transmitted =>
      have kept := transmitted_config transmitted
      apply (grow_mapping_only room).toSameConfig.trans
      exact ⟨kept.role, kept.policy, kept.alpha, kept.statsOn, kept.nonblockingSend,
        kept.shmCapacity⟩
  | pushAgain env tMeas ring here full blocks called => exact SameConfig.refl sender.ctx
  | pushed env tMeas rc here returned => exact (finish_shm_retry_only _ _ _ _ _ _).toSameConfig
  | datagramSent env tMeas here => exact (finish_uds_retry_only _ _ _ _ _).toSameConfig
  | ring action after foreign moved => exact SameConfig.refl sender.ctx

theorem grow_keeps_ring {realloc : Bool} {ctx grown : AdaptCtx} {cap : UInt64}
    (room : growRxbuf realloc ctx cap = some grown) :
    grown.ring = ctx.ring ∧ grown.negotDone = ctx.negotDone := by
  rw [grow_context room]
  exact ⟨rfl, rfl⟩

theorem map_gives_ring {env : MapEnv} {ctx mapped : AdaptCtx}
    (attached : mapNegotiated env ctx = some (.ok mapped)) :
    mapped.ring.isSome = true ∧ mapped.negotDone = ctx.negotDone := by
  simp only [mapNegotiated] at attached
  split at attached <;> cases attached
  constructor <;> rfl

theorem name_keeps_ring (ctx : AdaptCtx) (pid : Nat) (negCounter : UInt32) :
    (nameRing ctx pid negCounter).ring = ctx.ring ∧
      (nameRing ctx pid negCounter).negotDone = ctx.negotDone := by
  simp only [nameRing]
  split <;> constructor <;> rfl

theorem decide_mapping (sender : Sender) (now waitClock : UInt64) :
    SameMapping sender.ctx (sender.decide now waitClock).2.ctx := by
  have guarded := (guard_retry_only (routeMessage sender.ctx sender.draft.size now waitClock).2
    (routeMessage sender.ctx sender.draft.size now waitClock).1 sender.draft.size).toSameMapping
  have routed : SameMapping sender.ctx
      (routeMessage sender.ctx sender.draft.size now waitClock).2 := by
    simp only [routeMessage]
    split
    · constructor <;> rfl
    · exact classify_mapping sender.ctx sender.draft.size now waitClock
  exact routed.trans guarded

/-- A finished negotiation has left a mapped ring. -/
def NegotiatedMapped (ctx : AdaptCtx) : Prop := ctx.negotDone = true → ctx.ring.isSome = true

theorem NegotiatedMapped.same {before after : AdaptCtx} (mapped : NegotiatedMapped before)
    (same : SameMapping before after) : NegotiatedMapped after := by
  intro done
  rw [same.negotDone] at done
  rw [same.ring]
  exact mapped done

theorem init_starts {role : AdaptRole} {cfg : AdaptConfig} {env : InitEnv} {ctx : AdaptCtx}
    (accepted : adaptInit role cfg env = some (.ok ctx)) :
    MappingOnly (blankContext role cfg env) ctx ∧ NegotiatedMapped ctx := by
  obtain ⟨blank, mapped⟩ := init_context accepted
  constructor
  · rw [blank]
    constructor <;> constructor <;> rfl
  · exact mapped

def MappedAt (ctx : AdaptCtx) : SendPc → Prop
  | .idle _ => NegotiatedMapped ctx
  | .udsSend _ => NegotiatedMapped ctx
  | .request _ => ctx.ring = none ∧ ctx.negotDone = false
  | .awaitAck _ => ctx.ring = none ∧ ctx.negotDone = false
  | .mapping => ctx.ring.isSome = true ∧ ctx.negotDone = false
  | _ => ctx.ring.isSome = true

def SenderMapped (sender : Sender) : Prop := MappedAt sender.ctx sender.pc

theorem transmitted_mapped {sender next : Sender} {route : AdaptRoute}
    (mapped : NegotiatedMapped sender.ctx)
    (shm : route = .shm → sender.ctx.ring.isSome = true)
    (transmitted : Transmitted sender route next) : SenderMapped next := by
  cases transmitted with
  | push ring tMeas isShm called =>
      have held : (sender.startPush ring tMeas).ctx.ring.isSome = true := by
        rw [(quiet_push sender ring tMeas).ring]
        exact shm isShm
      simp only [SenderMapped, Sender.startPush] at held ⊢
      split <;> exact held
  | datagram tMeas other => exact mapped.same (quiet_datagram sender tMeas).toSameMapping

theorem failed_mapped {sender next : Sender} {hrc : Errno} (mapped : NegotiatedMapped sender.ctx)
    (failed : HandshakeFailed sender hrc next) : SenderMapped next := by
  have noted : NegotiatedMapped (sender.handshakeFailure hrc).2.ctx :=
    mapped.same (handshake_failed_retry_only sender.ctx sender.draft.size hrc).toSameMapping
  cases failed with
  | refused large => exact noted
  | degraded tMeas small =>
      exact transmitted_mapped noted (fun shm => absurd shm (by decide))
        (@Transmitted.datagram _ .uds tMeas (by decide))

theorem dispatched_mapped {sender next : Sender} (mapped : NegotiatedMapped sender.ctx)
    (dispatched : Dispatched sender next) : SenderMapped next := by
  cases dispatched with
  | tooLarge now waitClock refused => exact mapped.same (decide_mapping sender now waitClock)
  | negotiating now waitClock env route unmapped waiting =>
      have named := name_keeps_ring (sender.decide now waitClock).2.ctx env.pid env.negCounter
      have place := And.intro (named.1.trans unmapped) (named.2.trans waiting)
      simp only [SenderMapped, Sender.negotiate]
      split <;> exact place
  | sent now waitClock route next decided ready transmitted =>
      have kept := mapped.same (decide_mapping sender now waitClock)
      apply transmitted_mapped kept _ transmitted
      intro shm
      cases held : (sender.decide now waitClock).2.ctx.ring with
      | some handle => rfl
      | none =>
          have done := kept (ready shm held)
          rw [held] at done
          exact done

theorem move_mapped {sender next : Sender} {action : SendAction} (mapped : SenderMapped sender)
    (move : SendMove sender action next) : SenderMapped next := by
  have ringOnly : sender.ctx.ring.isSome = true → NegotiatedMapped sender.ctx := fun held _ => held
  have unmapped : sender.ctx.negotDone = false → NegotiatedMapped sender.ctx := by
    intro waiting done
    rw [waiting] at done
    cases done
  cases move with
  | rejected env data before code idle bad =>
      rw [SenderMapped, idle] at mapped
      exact mapped
  | opened env data before payload idle good held => exact held
  | openedUnmapped env data before payload next idle good none dispatched =>
      rw [SenderMapped, idle] at mapped
      exact dispatched_mapped (mapped.same (quiet_sample _ _ _ _).toSameMapping) dispatched
  | usedHead env now here =>
      rw [SenderMapped, here] at mapped
      exact mapped
  | usedTail env now head here =>
      rw [SenderMapped, here] at mapped
      exact mapped
  | freeHead env now occ here =>
      rw [SenderMapped, here] at mapped
      exact mapped
  | freeTail env now occ head cap next here dispatched =>
      rw [SenderMapped, here] at mapped
      exact dispatched_mapped ((ringOnly mapped).same (quiet_monitor _ occ cap).toSameMapping)
        dispatched
  | requestFailed env nowNs code next here refused failed =>
      rw [SenderMapped, here] at mapped
      exact failed_mapped (unmapped mapped.2) failed
  | requested env nowNs here delivered =>
      rw [SenderMapped, here] at mapped
      have kept := quiet_request sender.ctx nowNs
      exact ⟨kept.ring.trans mapped.1, kept.negotDone.trans mapped.2⟩
  | ackFailed env deadline received code next here arrived failed =>
      rw [SenderMapped, here] at mapped
      exact failed_mapped (unmapped mapped.2) failed
  | polled env deadline here quiet => exact mapped
  | ackUnmappable env deadline frame code next here arrived acknowledged failed =>
      rw [SenderMapped, here] at mapped
      exact failed_mapped ((unmapped mapped.2).same (quiet_ack sender.ctx).toSameMapping) failed
  | ackMapped env deadline frame attachedCtx here arrived acknowledged attached =>
      rw [SenderMapped, here] at mapped
      have given := map_gives_ring attached
      exact ⟨given.1, given.2.trans ((quiet_ack sender.ctx).negotDone.trans mapped.2)⟩
  | mappingFailed env before next here written short failed =>
      rw [SenderMapped, here] at mapped
      apply failed_mapped _ failed
      intro done
      exact absurd (mapped.2.symm.trans done) (by decide)
  | negotiated env before grown next here written room transmitted =>
      rw [SenderMapped, here] at mapped
      have held : grown.ring.isSome = true := (grow_keeps_ring room).1 ▸ mapped.1
      exact transmitted_mapped (fun _ => held) (fun _ => held) transmitted
  | pushAgain env tMeas ring here full blocks called =>
      rw [SenderMapped, here] at mapped
      exact mapped
  | pushed env tMeas rc here returned =>
      have held : sender.ctx.ring.isSome = true := by
        rcases here with here | here <;> rw [SenderMapped, here] at mapped <;> exact mapped
      exact (ringOnly held).same (finish_shm_retry_only sender.ctx sender.draft.size tMeas
        env.clock sender.ring.object.parks rc).toSameMapping
  | datagramSent env tMeas here =>
      rw [SenderMapped, here] at mapped
      exact mapped.same (finish_uds_retry_only sender.ctx sender.draft.size tMeas env.clock
        env.status).toSameMapping
  | ring action after foreign moved => exact mapped

end AdaptIpc.Endpoint

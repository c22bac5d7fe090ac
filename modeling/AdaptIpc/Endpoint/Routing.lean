import AdaptIpc.Endpoint.Retry

/-!
# What one step does to the classifier

Every step of a producer leaves the smoothed size and the decided route alone,
or is the classification of one message. The messages a producer has classified
are read off its attempts, and the classifier is always what they make it,
whatever was retried, refused or degraded in between.
-/

namespace AdaptIpc.Endpoint

open AdaptIpc.Ring AdaptIpc.Policy AdaptIpc.Library.Transition

set_option autoImplicit false

/-- The messages of the finished attempts that classified one, with the decided routes. -/
def classifiedMessages (attempts : List Attempt) : List (UInt64 × AdaptRoute) :=
  (attempts.filter Attempt.classified).map Attempt.message

def Sender.drafted (sender : Sender) : List (UInt64 × AdaptRoute) :=
  classifiedMessages sender.attempts ++
    if sender.draft.classified then [(sender.draft.size, sender.ctx.lastRoute)] else []

def Sender.messages (sender : Sender) : List (UInt64 × AdaptRoute) :=
  match sender.pc with
  | .idle _ => classifiedMessages sender.attempts
  | _ => sender.drafted

def SendPc.undecided : SendPc → Bool
  | .usedHead _ => true
  | .usedTail _ _ => true
  | .freeHead _ _ => true
  | .freeTail _ _ _ => true
  | _ => false

def Awaiting (admitted : UInt64 → Prop) (sender : Sender) : Prop :=
  sender.pc.undecided = true → sender.draft.classified = false ∧ admitted sender.draft.size

def admits (admitted : UInt64 → Prop) : SendAction → Prop
  | .call _ (some payload) => admitted (UInt64.ofNat payload.length)
  | _ => True

/-- From a context with the messages `seen`: nothing was classified, or one message of
an admitted size. -/
inductive Routed (admitted : UInt64 → Prop) (before : AdaptCtx) (seen : List (UInt64 × AdaptRoute))
    (next : Sender) : Prop where
  | kept (router : SameRouter before next.ctx) (messages : next.messages = seen) :
      Routed admitted before seen next
  | classified (ctx : AdaptCtx) (size now waitClock : UInt64) (welcome : admitted size)
      (config : SameConfig before ctx) (asked : SameRouter before ctx)
      (router : SameRouter (classify ctx size now waitClock) next.ctx)
      (messages : next.messages = seen ++ [(size, next.ctx.lastRoute)]) :
      Routed admitted before seen next

structure Continues (sender next : Sender) : Prop where
  router : SameRouter sender.ctx next.ctx
  messages : next.messages = sender.drafted
  decided : next.pc.undecided = false

section Steps

variable {sender next : Sender} {admitted : UInt64 → Prop}

theorem SameRouter.refl (ctx : AdaptCtx) : SameRouter ctx ctx := by constructor <;> rfl

theorem decided_awaits (decided : sender.pc.undecided = false) : Awaiting admitted sender := by
  intro undecided
  rw [decided] at undecided
  cases undecided

theorem busy_messages (busy : ∀ rc, sender.pc ≠ .idle rc) : sender.messages = sender.drafted := by
  cases here : sender.pc with
  | idle rc => exact absurd here (busy rc)
  | _ => simp only [Sender.messages, here]

theorem finish_continues (sender : Sender) (rc : Status) :
    Continues sender (sender.finish rc) where
  router := SameRouter.refl sender.ctx
  messages := by
    simp only [Sender.messages, Sender.finish, Sender.drafted, classifiedMessages, Sender.closed,
      List.filter_append, List.map_append, List.filter_singleton]
    cases sender.draft.classified <;> rfl
  decided := rfl

theorem Continues.after {ctx : AdaptCtx} {draft : Attempt}
    (continues : Continues { sender with ctx := ctx, draft := draft } next)
    (router : SameRouter sender.ctx ctx) (classified : draft.classified = sender.draft.classified)
    (payload : draft.payload = sender.draft.payload) : Continues sender next where
  router := router.trans continues.router
  messages := by
    rw [continues.messages, Sender.drafted, Sender.drafted, classified, router.lastRoute,
      Attempt.size, Attempt.size, payload]
  decided := continues.decided

theorem transmitted_continues {route : AdaptRoute} (transmitted : Transmitted sender route next) :
    Continues sender next := by
  cases transmitted with
  | push ring tMeas shm called =>
      have quiet := quiet_push sender ring tMeas
      have drafted : (sender.startPush ring tMeas).drafted = sender.drafted := by
        rw [Sender.drafted, quiet.lastRoute]
        rfl
      constructor
      · exact quiet.toSameRouter
      · rw [← drafted]
        apply busy_messages
        intro rc
        simp only [Sender.startPush]
        split <;> simp
      · simp only [Sender.startPush]
        split <;> rfl
  | datagram tMeas other =>
      have quiet := quiet_datagram sender tMeas
      have drafted : (sender.startDatagram tMeas).drafted = sender.drafted := by
        rw [Sender.drafted, quiet.lastRoute]
        rfl
      exact ⟨quiet.toSameRouter, drafted, rfl⟩

theorem failed_continues {hrc : Errno} (failed : HandshakeFailed sender hrc next) :
    Continues sender next := by
  have noted := (handshake_failed_retry_only sender.ctx sender.draft.size hrc).toSameRouter
  cases failed with
  | refused large => exact (finish_continues (sender.handshakeFailure hrc).2 _).after noted rfl rfl
  | degraded tMeas small =>
      have mailed := transmitted_continues
        (@Transmitted.datagram (sender.handshakeFailure hrc).2 .uds tMeas (by decide))
      exact mailed.after noted rfl rfl

theorem negotiate_continues (sender : Sender) (env : SendEnv) :
    Continues sender (sender.negotiate env) := by
  have named := (name_mapping_only sender.ctx env.pid env.negCounter).toSameRouter
  have drafted : (sender.negotiate env).drafted = sender.drafted := by
    simp only [Sender.drafted, Sender.negotiate, named.lastRoute]
  constructor
  · exact named
  · rw [← drafted]
    apply busy_messages
    intro rc
    simp only [Sender.negotiate]
    split <;> simp
  · simp only [Sender.negotiate]
    split <;> rfl

theorem decide_routed (sender : Sender) (now waitClock : UInt64) :
    let decided := (sender.decide now waitClock).2
    SameRouter sender.ctx decided.ctx ∧ decided.drafted = classifiedMessages sender.attempts ∨
      SameRouter (classify sender.ctx sender.draft.size now waitClock) decided.ctx ∧
        decided.drafted = classifiedMessages sender.attempts ++
          [(sender.draft.size, decided.ctx.lastRoute)] := by
  have guarded := (guard_retry_only (routeMessage sender.ctx sender.draft.size now waitClock).2
    (routeMessage sender.ctx sender.draft.size now waitClock).1 sender.draft.size).toSameRouter
  cases resumed : resumes sender.ctx sender.draft.size with
  | true =>
      apply Or.inl
      constructor
      · simpa only [Sender.decide, decide_resumed resumed] using guarded
      · simp [Sender.drafted, Sender.decide, resumed]
  | false =>
      apply Or.inr
      constructor
      · simpa only [Sender.decide, decide_fresh resumed] using guarded
      · have flag : (sender.decide now waitClock).2.draft.classified = true := by
          simp [Sender.decide, resumed]
        rw [Sender.drafted, if_pos flag]
        rfl

theorem dispatched_routed (welcome : admitted sender.draft.size)
    (dispatched : Dispatched sender next) :
    Routed admitted sender.ctx (classifiedMessages sender.attempts) next ∧
      next.pc.undecided = false := by
  have after : ∀ now waitClock, Continues (sender.decide now waitClock).2 next →
      Routed admitted sender.ctx (classifiedMessages sender.attempts) next ∧
        next.pc.undecided = false := by
    intro now waitClock continues
    refine ⟨?_, continues.decided⟩
    rcases decide_routed sender now waitClock with ⟨kept, none⟩ | ⟨asked, one⟩
    · exact .kept (kept.trans continues.router) (continues.messages.trans none)
    · apply Routed.classified sender.ctx sender.draft.size now waitClock welcome
        (SameConfig.refl _) (SameRouter.refl _) (asked.trans continues.router)
      rw [continues.messages, one, continues.router.lastRoute]
  cases dispatched with
  | tooLarge now waitClock refused => exact after now waitClock (finish_continues _ _)
  | negotiating now waitClock env route unmapped waiting =>
      exact after now waitClock (negotiate_continues _ env)
  | sent now waitClock route next decided ready transmitted =>
      exact after now waitClock (transmitted_continues transmitted)

theorem Routed.from {before middle : AdaptCtx} {seen : List (UInt64 × AdaptRoute)}
    (routed : Routed admitted middle seen next) (config : SameConfig before middle)
    (router : SameRouter before middle) : Routed admitted before seen next := by
  cases routed with
  | kept kept messages => exact .kept (router.trans kept) messages
  | classified ctx size now waitClock welcome settled asked moved messages =>
      exact .classified ctx size now waitClock welcome (config.trans settled)
        (router.trans asked) moved messages

theorem continues_routed {middle : Sender} {place : SendPc} (continues : Continues middle next)
    (here : sender.pc = place) (busy : ∀ rc, place ≠ .idle rc)
    (router : SameRouter sender.ctx middle.ctx) (same : middle.drafted = sender.drafted) :
    Awaiting admitted next ∧ Routed admitted sender.ctx sender.messages next := by
  constructor
  · exact decided_awaits continues.decided
  · apply Routed.kept (router.trans continues.router)
    rw [continues.messages, same, busy_messages (by rw [here]; exact busy)]

/-- Every step of a producer classifies at most one message, of an admitted size. -/
theorem move_routed {action : SendAction} (awaiting : Awaiting admitted sender)
    (welcome : admits admitted action) (move : SendMove sender action next) :
    Awaiting admitted next ∧ Routed admitted sender.ctx sender.messages next := by
  cases move with
  | rejected env data before code idle bad =>
      refine ⟨decided_awaits rfl, .kept (SameRouter.refl _) ?_⟩
      simp only [Sender.messages, idle]
  | opened env data before payload idle good mapped =>
      cases arguments_payload good
      refine ⟨fun _ => ⟨rfl, welcome⟩, .kept (SameRouter.refl _) ?_⟩
      simp [Sender.messages, idle, Sender.drafted, openAttempt]
  | openedUnmapped env data before payload next idle good unmapped dispatched =>
      cases arguments_payload good
      obtain ⟨routed, decided⟩ := dispatched_routed welcome dispatched
      have quiet := quiet_sample sender.ctx (openAttempt payload).size 0 env.clock
      constructor
      · exact decided_awaits decided
      · have seen : sender.messages = classifiedMessages sender.attempts := by
          simp only [Sender.messages, idle]
        rw [seen]
        exact routed.from quiet.toSameConfig quiet.toSameRouter
  | usedHead env now here =>
      have still := awaiting (by rw [here]; rfl)
      refine ⟨fun _ => still, .kept (SameRouter.refl _) ?_⟩
      simp only [Sender.messages, here, Sender.drafted]
  | usedTail env now head here =>
      have still := awaiting (by rw [here]; rfl)
      have quiet := quiet_sample sender.ctx sender.draft.size (head - sender.ring.object.tail) now
      refine ⟨fun _ => still, .kept quiet.toSameRouter ?_⟩
      simp only [Sender.messages, here, Sender.drafted, Sender.sample, still.1]
      rfl
  | freeHead env now occ here =>
      have still := awaiting (by rw [here]; rfl)
      refine ⟨fun _ => still, .kept (SameRouter.refl _) ?_⟩
      simp only [Sender.messages, here, Sender.drafted]
  | freeTail env now occ head cap next here dispatched =>
      have still := awaiting (by rw [here]; rfl)
      have quiet := quiet_monitor sender.ctx occ cap
      obtain ⟨routed, decided⟩ := @dispatched_routed
        { sender with ctx := monitorHealth sender.ctx occ cap } next admitted still.2 dispatched
      constructor
      · exact decided_awaits decided
      · have seen : sender.messages = classifiedMessages sender.attempts := by
          simp [Sender.messages, here, Sender.drafted, still.1]
        rw [seen]
        exact routed.from quiet.toSameConfig quiet.toSameRouter
  | requestFailed env nowNs code next here refused failed =>
      exact continues_routed (failed_continues failed) here (by simp) (SameRouter.refl _) rfl
  | requested env nowNs here delivered =>
      have quiet := quiet_request sender.ctx nowNs
      refine ⟨decided_awaits rfl, .kept quiet.toSameRouter ?_⟩
      simp only [Sender.messages, here, Sender.drafted, quiet.lastRoute]
  | ackFailed env deadline received code next here arrived failed =>
      exact continues_routed (failed_continues failed) here (by simp) (SameRouter.refl _) rfl
  | polled env deadline here quiet => exact ⟨awaiting, .kept (SameRouter.refl _) rfl⟩
  | ackUnmappable env deadline frame code next here arrived acknowledged failed =>
      have quiet := quiet_ack sender.ctx
      apply continues_routed (failed_continues failed) here (by simp) quiet.toSameRouter
      simp only [Sender.drafted, quiet.lastRoute]
  | ackMapped env deadline frame attachedCtx here arrived acknowledged attached =>
      have router := (quiet_ack sender.ctx).toSameRouter.trans
        (map_mapping_only attached).toSameRouter
      refine ⟨decided_awaits rfl, .kept router ?_⟩
      simp only [Sender.messages, here, Sender.drafted, router.lastRoute]
  | mappingFailed env before next here written short failed =>
      apply continues_routed (failed_continues failed) here (by simp) _ rfl
      constructor <;> rfl
  | negotiated env before grown next here written room transmitted =>
      have router := (grow_mapping_only room).toSameRouter
      apply continues_routed (transmitted_continues transmitted) here (by simp)
      · exact ⟨router.ewmaSize, router.lastRoute, router.decisions, router.routeSwitches⟩
      · simp only [Sender.drafted, router.lastRoute]
  | pushAgain env tMeas ring here full blocks called =>
      refine ⟨decided_awaits rfl, .kept (SameRouter.refl _) ?_⟩
      simp only [Sender.messages, here, Sender.drafted]
  | pushed env tMeas rc here returned =>
      have router := (finish_shm_retry_only sender.ctx sender.draft.size tMeas env.clock
        sender.ring.object.parks rc).toSameRouter
      have continues : Continues sender (sender.finishPush env tMeas rc) :=
        (finish_continues _ rc).after router rfl rfl
      rcases here with here | here <;>
        exact continues_routed continues here (by simp) (SameRouter.refl _) rfl
  | datagramSent env tMeas here =>
      have router := (finish_uds_retry_only sender.ctx sender.draft.size tMeas env.clock
        env.status).toSameRouter
      exact continues_routed ((finish_continues _ env.status).after router rfl rfl) here (by simp)
        (SameRouter.refl _) rfl
  | ring action after foreign moved =>
      refine ⟨awaiting, .kept (SameRouter.refl _) rfl⟩

theorem Routed.tally {before : AdaptCtx} {seen : List (UInt64 × AdaptRoute)}
    (routed : Routed admitted before seen next) (tally : Tally before seen)
    (config : SameConfig before next.ctx) : Tally next.ctx next.messages := by
  cases routed with
  | kept router messages =>
      rw [messages]
      exact tally.same config router
  | classified ctx size now waitClock welcome settled asked router messages =>
      have grown := (tally.same settled asked).classify size now waitClock
      rw [messages, router.lastRoute, classify_route]
      apply grown.same _ router
      have kept := classify_config ctx size now waitClock
      exact ⟨config.role.trans (settled.trans kept).role.symm,
        config.policy.trans (settled.trans kept).policy.symm,
        config.alpha.trans (settled.trans kept).alpha.symm,
        config.statsOn.trans (settled.trans kept).statsOn.symm,
        config.nonblockingSend.trans (settled.trans kept).nonblockingSend.symm,
        config.shmCapacity.trans (settled.trans kept).shmCapacity.symm⟩

end Steps

theorem classifier_tallies {cfg : AdaptConfig} {env : InitEnv} {sender : Sender}
    (reached : (sendMachine cfg env).Reachable sender) :
    Tally sender.ctx sender.messages ∧ Awaiting (fun _ => True) sender ∧
      SameConfig (blankContext .producer cfg env) sender.ctx := by
  apply Machine.invariant_of_reachable (sendMachine cfg env)
    (fun sender => Tally sender.ctx sender.messages ∧ Awaiting (fun _ => True) sender ∧
      SameConfig (blankContext .producer cfg env) sender.ctx) _ _ reached
  · intro start starts
    obtain ⟨accepted, ⟨before, idle⟩, none, _⟩ := starts
    have kept := (init_starts accepted).1
    refine ⟨?_, ?_, kept.toSameConfig⟩
    · apply Tally.same _ kept.toSameConfig kept.toSameRouter
      simp only [Sender.messages, idle, none]
      constructor <;> simp [classifiedMessages, smoothedSize, blankContext, zeroStats,
        routeChanges, lastOf, sizeDecisions]
    · exact decided_awaits (by rw [idle]; rfl)
  · intro before action after held stepped
    obtain ⟨tally, awaiting, config⟩ := held
    have move := send_step_move stepped
    have welcome : admits (fun _ => True) action := by
      cases action with
      | call env data => cases data <;> trivial
      | _ => trivial
    obtain ⟨waits, routed⟩ := move_routed awaiting welcome move
    have kept := move_config move
    exact ⟨routed.tally tally kept, waits, config.trans kept⟩

end AdaptIpc.Endpoint

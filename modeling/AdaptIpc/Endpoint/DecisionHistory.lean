import AdaptIpc.Endpoint.Routing
import AdaptIpc.Policy.DecisionLog

/-!
# The decision log is the history of a producer

With the log enabled every classification of a run writes one decision, and
nothing else does: not a resumed attempt, not an escalation, not a degraded
handshake. The numbers are consecutive from 1, each decision starts from the
route the one before it selected, and payloads and routes are those of the
classified messages. So the dump shows the latest of them, in order.
-/

namespace AdaptIpc.Endpoint

open AdaptIpc.Ring AdaptIpc.Policy AdaptIpc.Library.Transition

set_option autoImplicit false

structure SameLog (before after : AdaptCtx) : Prop where
  declog : after.declog = before.declog
  decisionSeq : after.decisionSeq = before.decisionSeq

section Frame

variable {ctx : AdaptCtx} {sender next : Sender}

theorem SameLog.refl (ctx : AdaptCtx) : SameLog ctx ctx := ⟨rfl, rfl⟩

theorem SameLog.trans {first second third : AdaptCtx} (early : SameLog first second)
    (late : SameLog second third) : SameLog first third where
  declog := late.declog.trans early.declog
  decisionSeq := late.decisionSeq.trans early.decisionSeq

theorem monitor_log (occ cap : UInt64) : SameLog ctx (monitorHealth ctx occ cap) := by
  simp only [monitorHealth, count_fields]
  exact ⟨rfl, rfl⟩

theorem request_log (nowNs : UInt64) : SameLog ctx (requestSent ctx nowNs) := by
  simp only [requestSent, count_fields]
  exact ⟨rfl, rfl⟩

theorem ack_log : SameLog ctx (ackReceived ctx) := by
  simp only [ackReceived, count_fields]
  exact ⟨rfl, rfl⟩

theorem name_log (pid : Nat) (negCounter : UInt32) : SameLog ctx (nameRing ctx pid negCounter) := by
  simp only [nameRing]
  split <;> exact ⟨rfl, rfl⟩

theorem map_log {env : MapEnv} {mapped : AdaptCtx}
    (attached : mapNegotiated env ctx = some (.ok mapped)) : SameLog ctx mapped := by
  simp only [mapNegotiated] at attached
  split at attached <;> cases attached
  exact ⟨rfl, rfl⟩

theorem grow_log {realloc : Bool} {grown : AdaptCtx} {cap : UInt64}
    (room : growRxbuf realloc ctx cap = some grown) : SameLog ctx grown := by
  rw [grow_context room]
  exact ⟨rfl, rfl⟩

theorem observe_log (route : AdaptRoute) (size tMeas now : UInt64) :
    SameLog ctx (observeCost ctx route size tMeas now) := by
  simp only [observeCost]
  split <;> exact ⟨rfl, rfl⟩

theorem finish_shm_log (size tMeas now parks : UInt64) (rc : Status) :
    SameLog ctx (finishShm ctx size tMeas now parks rc) := by
  have observed := @observe_log ctx .shm size tMeas now
  simp only [finishShm, count_fields]
  exact ⟨observed.declog, observed.decisionSeq⟩

theorem finish_uds_log (size tMeas now : UInt64) (rc : Status) :
    SameLog ctx (finishUds ctx size tMeas now rc) := by
  have observed := @observe_log ctx .uds size tMeas now
  simp only [finishUds]
  split <;> split
  · exact observed
  · exact SameLog.refl ctx
  · exact ⟨observed.declog, observed.decisionSeq⟩
  · exact ⟨rfl, rfl⟩

theorem guard_log (route : AdaptRoute) (size : UInt64) :
    SameLog ctx (guardRails ctx route size).2 := by
  simp only [guardRails, count_fields]
  split_ifs <;> exact ⟨rfl, rfl⟩

theorem handshake_failed_log (size : UInt64) (hrc : Errno) :
    SameLog ctx (handshakeFailed ctx size hrc).2 := by
  simp only [handshakeFailed, count_fields]
  split <;> exact ⟨rfl, rfl⟩

theorem push_log (ring : RingState) (tMeas : UInt64) :
    SameLog sender.ctx (sender.startPush ring tMeas).ctx := by
  simp only [Sender.startPush, count_fields]
  exact ⟨rfl, rfl⟩

theorem datagram_log (tMeas : UInt64) : SameLog sender.ctx (sender.startDatagram tMeas).ctx := by
  simp only [Sender.startDatagram, count_fields]
  exact ⟨rfl, rfl⟩

theorem transmitted_log {route : AdaptRoute} (transmitted : Transmitted sender route next) :
    SameLog sender.ctx next.ctx := by
  cases transmitted with
  | push ring tMeas shm called => exact push_log ring tMeas
  | datagram tMeas other => exact datagram_log tMeas

theorem failed_log {hrc : Errno} (failed : HandshakeFailed sender hrc next) :
    SameLog sender.ctx next.ctx := by
  have noted := @handshake_failed_log sender.ctx sender.draft.size hrc
  cases failed with
  | refused large => exact noted
  | degraded tMeas small => exact noted.trans (@datagram_log (sender.handshakeFailure hrc).2 tMeas)

end Frame

def recorded (d : AdaptDecision) : UInt64 × AdaptRoute := (d.payload, d.selected)

/-- The decisions of a log, as the messages of a producer make them. -/
structure Journal (ctx : AdaptCtx) (log : List AdaptDecision)
    (messages : List (UInt64 × AdaptRoute)) : Prop where
  logged : Logged ctx.declog log
  seq : ctx.decisionSeq = UInt64.ofNat log.length
  replays : log.map recorded = messages
  numbered : ∀ k d, log[k]? = some d → d.seq = UInt64.ofNat (k + 1)
  chained : ∀ k d, log[k]? = some d → d.current = lastOf ((log.take k).map AdaptDecision.selected)
  last : ctx.lastRoute = lastOf (log.map AdaptDecision.selected)

theorem Journal.same {before after : AdaptCtx} {log : List AdaptDecision}
    {messages : List (UInt64 × AdaptRoute)} (journal : Journal before log messages)
    (kept : SameLog before after) (last : after.lastRoute = before.lastRoute) :
    Journal after log messages where
  logged := by rw [kept.declog]; exact journal.logged
  seq := kept.decisionSeq.trans journal.seq
  replays := journal.replays
  numbered := journal.numbered
  chained := journal.chained
  last := last.trans journal.last

def classifiedRow (ctx : AdaptCtx) (size now waitClock : UInt64) : AdaptDecision :=
  { (adaptPolicyDecide ctx.policy ctx.cmcfg
      (decideInput { ctx with ewmaSize := ewmaUpdate ctx.ewmaSize ctx.alpha size } size now
        waitClock)).1 with seq := ctx.decisionSeq + 1 }

theorem classify_logs {ctx : AdaptCtx} (enabled : ctx.declog.enabled = true)
    (size now waitClock : UInt64) :
    (classify ctx size now waitClock).declog =
        adaptDeclogRecord ctx.declog (classifiedRow ctx size now waitClock) ∧
      (classify ctx size now waitClock).decisionSeq = ctx.decisionSeq + 1 := by
  simp only [classify, logDecision, enabled, if_true, count_fields, classifiedRow, and_self]

/-- A classification appends its row. -/
theorem Journal.classify {ctx : AdaptCtx} {log : List AdaptDecision}
    {messages : List (UInt64 × AdaptRoute)} (journal : Journal ctx log messages)
    (size now waitClock : UInt64) :
    Journal (classify ctx size now waitClock) (log ++ [classifiedRow ctx size now waitClock])
      (messages ++ [(size, (classify ctx size now waitClock).lastRoute)]) := by
  obtain ⟨declog, seq⟩ := classify_logs journal.logged.enabled size now waitClock
  have row := decide_records ctx.policy ctx.cmcfg
    (decideInput { ctx with ewmaSize := ewmaUpdate ctx.ewmaSize ctx.alpha size } size now waitClock)
  -- A row of the longer log is an old one or the new one behind all the old.
  have place : ∀ k d, (log ++ [classifiedRow ctx size now waitClock])[k]? = some d →
      (log[k]? = some d ∧ k < log.length) ∨
        (k = log.length ∧ d = classifiedRow ctx size now waitClock) := by
    intro k d found
    rcases Nat.lt_trichotomy k log.length with before | here | behind
    · rw [List.getElem?_append_left before] at found
      exact Or.inl ⟨found, before⟩
    · rw [here, List.getElem?_concat_length] at found
      exact Or.inr ⟨here, (Option.some.inj found).symm⟩
    · rw [List.getElem?_eq_none (by simp; omega)] at found
      cases found
  constructor
  case logged =>
    rw [declog]
    exact logged_record journal.logged _
  case seq =>
    rw [seq, journal.seq, List.length_append, List.length_singleton, UInt64.ofNat_add]
    rfl
  case replays =>
    rw [List.map_append, journal.replays]
    apply congrArg (messages ++ ·)
    rw [List.map_singleton, recorded, classify_route]
    exact congrArg (fun payload => [(payload, _)]) row.1
  case numbered =>
    intro k d found
    rcases place k d found with ⟨old, _⟩ | ⟨rfl, rfl⟩
    · exact journal.numbered k d old
    · rw [classifiedRow, journal.seq, UInt64.ofNat_add]
      rfl
  case chained =>
    intro k d found
    rcases place k d found with ⟨old, before⟩ | ⟨rfl, rfl⟩
    · rw [List.take_append_of_le_length (Nat.le_of_lt before)]
      exact journal.chained k d old
    · rw [List.take_left, ← journal.last]
      exact row.2
  case last =>
    rw [List.map_append, List.map_singleton, lastOf, List.getLast?_concat, classify_route]
    rfl

section Steps

variable {sender next : Sender}

def Sender.journalled (sender : Sender) : Prop :=
  ∃ log, Journal sender.ctx log sender.messages

theorem continues_journalled (journalled : ∃ log, Journal sender.ctx log sender.drafted)
    (continues : Endpoint.Continues sender next) (kept : SameLog sender.ctx next.ctx) :
    next.journalled := by
  obtain ⟨log, journal⟩ := journalled
  refine ⟨log, ?_⟩
  rw [continues.messages]
  exact journal.same kept continues.router.lastRoute

/-- The decision writes one row where it classifies. -/
theorem decide_journalled
    (journalled : ∃ log, Journal sender.ctx log (classifiedMessages sender.attempts))
    (now waitClock : UInt64) :
    ∃ log, Journal (sender.decide now waitClock).2.ctx log
      (sender.decide now waitClock).2.drafted := by
  obtain ⟨log, journal⟩ := journalled
  have guarded := guard_retry_only (routeMessage sender.ctx sender.draft.size now waitClock).2
    (routeMessage sender.ctx sender.draft.size now waitClock).1 sender.draft.size
  have kept := @guard_log (routeMessage sender.ctx sender.draft.size now waitClock).2
    (routeMessage sender.ctx sender.draft.size now waitClock).1 sender.draft.size
  have flag : (sender.decide now waitClock).2.draft.classified =
      !resumes sender.ctx sender.draft.size := rfl
  cases resumed : resumes sender.ctx sender.draft.size with
  | true =>
      rw [decide_resumed resumed] at guarded kept
      refine ⟨log, ?_⟩
      rw [Sender.drafted, flag, resumed]
      simp only [Sender.decide, decide_resumed resumed, Bool.not_true, Bool.false_eq_true,
        if_false, List.append_nil]
      exact journal.same kept guarded.lastRoute
  | false =>
      rw [decide_fresh resumed] at guarded kept
      refine ⟨log ++ [classifiedRow sender.ctx sender.draft.size now waitClock], ?_⟩
      rw [Sender.drafted, flag, resumed]
      simp only [Sender.decide, decide_fresh resumed, Bool.not_false, if_true]
      have written := (journal.classify sender.draft.size now waitClock).same kept
        guarded.lastRoute
      rw [← guarded.lastRoute] at written
      exact written

theorem dispatched_journalled
    (journalled : ∃ log, Journal sender.ctx log (classifiedMessages sender.attempts))
    (dispatched : Dispatched sender next) : next.journalled := by
  cases dispatched with
  | tooLarge now waitClock refused =>
      exact continues_journalled (decide_journalled journalled now waitClock)
        (finish_continues _ _) (SameLog.refl _)
  | negotiating now waitClock env route unmapped waiting =>
      exact continues_journalled (decide_journalled journalled now waitClock)
        (negotiate_continues _ env) (name_log env.pid env.negCounter)
  | sent now waitClock route next decided ready transmitted =>
      exact continues_journalled (decide_journalled journalled now waitClock)
        (transmitted_continues transmitted) (transmitted_log transmitted)

/-- Every step of a producer keeps the journal. -/
theorem move_journalled {action : SendAction} (journalled : sender.journalled)
    (awaiting : Awaiting (fun _ => True) sender) (move : SendMove sender action next) :
    next.journalled := by
  obtain ⟨log, journal⟩ := journalled
  cases move with
  | rejected env data before code idle bad =>
      simp only [Sender.messages, idle] at journal
      exact ⟨log, journal⟩
  | opened env data before payload idle good mapped =>
      simp only [Sender.messages, idle] at journal
      refine ⟨log, ?_⟩
      simpa [Sender.messages, Sender.drafted, openAttempt] using journal
  | openedUnmapped env data before payload next idle good unmapped dispatched =>
      simp only [Sender.messages, idle] at journal
      apply dispatched_journalled _ dispatched
      exact ⟨log, journal.same ⟨rfl, rfl⟩ rfl⟩
  | usedHead env now here =>
      simp only [Sender.messages, here] at journal
      exact ⟨log, journal⟩
  | usedTail env now head here =>
      simp only [Sender.messages, here] at journal
      exact ⟨log, journal.same ⟨rfl, rfl⟩ rfl⟩
  | freeHead env now occ here =>
      simp only [Sender.messages, here] at journal
      exact ⟨log, journal⟩
  | freeTail env now occ head cap next here dispatched =>
      have still := (awaiting (by rw [here]; rfl)).1
      simp only [Sender.messages, here, Sender.drafted, still, Bool.false_eq_true, if_false,
        List.append_nil] at journal
      have quiet := quiet_monitor sender.ctx occ cap
      apply dispatched_journalled _ dispatched
      exact ⟨log, journal.same (monitor_log occ cap) quiet.lastRoute⟩
  | requestFailed env nowNs code next here refused failed =>
      simp only [Sender.messages, here] at journal
      exact continues_journalled ⟨log, journal⟩ (failed_continues failed) (failed_log failed)
  | requested env nowNs here delivered =>
      simp only [Sender.messages, here] at journal
      have quiet := quiet_request sender.ctx nowNs
      refine ⟨log, ?_⟩
      simp only [Sender.messages, Sender.drafted, quiet.lastRoute]
      exact journal.same (request_log nowNs) quiet.lastRoute
  | ackFailed env deadline received code next here arrived failed =>
      simp only [Sender.messages, here] at journal
      exact continues_journalled ⟨log, journal⟩ (failed_continues failed) (failed_log failed)
  | polled env deadline here quiet => exact ⟨log, journal⟩
  | ackUnmappable env deadline frame code next here arrived acknowledged failed =>
      simp only [Sender.messages, here, Sender.drafted] at journal
      have quiet := quiet_ack sender.ctx
      refine continues_journalled ⟨log, ?_⟩ (failed_continues failed) (failed_log failed)
      simp only [Sender.drafted, quiet.lastRoute]
      exact journal.same ack_log quiet.lastRoute
  | ackMapped env deadline frame attachedCtx here arrived acknowledged attached =>
      simp only [Sender.messages, here, Sender.drafted] at journal
      have router := (quiet_ack sender.ctx).toSameRouter.trans
        (map_mapping_only attached).toSameRouter
      refine ⟨log, ?_⟩
      simp only [Sender.messages, Sender.drafted, router.lastRoute]
      exact journal.same (ack_log.trans (map_log attached)) router.lastRoute
  | mappingFailed env before next here written short failed =>
      simp only [Sender.messages, here] at journal
      exact continues_journalled
        ⟨log, @Journal.same _ { sender.ctx with ring := none } _ _ journal ⟨rfl, rfl⟩ rfl⟩
        (failed_continues failed) (failed_log failed)
  | negotiated env before grown next here written room transmitted =>
      simp only [Sender.messages, here] at journal
      have router := (grow_mapping_only room).toSameRouter
      have roomy := grow_log room
      have drafted : Sender.drafted { sender with ctx := { grown with negotDone := true } } =
          sender.drafted := by
        simp only [Sender.drafted, router.lastRoute]
      refine continues_journalled ⟨log, ?_⟩ (transmitted_continues transmitted)
        (transmitted_log transmitted)
      rw [drafted]
      exact journal.same ⟨roomy.declog, roomy.decisionSeq⟩ router.lastRoute
  | pushAgain env tMeas ring here full blocks called =>
      simp only [Sender.messages, here] at journal
      exact ⟨log, journal⟩
  | pushed env tMeas rc here returned =>
      have router := (finish_shm_retry_only sender.ctx sender.draft.size tMeas env.clock
        sender.ring.object.parks rc).toSameRouter
      have continues : Endpoint.Continues sender (sender.finishPush env tMeas rc) :=
        (finish_continues _ rc).after router rfl rfl
      have drafted : sender.messages = sender.drafted := by
        rcases here with here | here <;> simp only [Sender.messages, here]
      rw [drafted] at journal
      exact continues_journalled ⟨log, journal⟩ continues (finish_shm_log _ _ _ _ rc)
  | datagramSent env tMeas here =>
      have router := (finish_uds_retry_only sender.ctx sender.draft.size tMeas env.clock
        env.status).toSameRouter
      simp only [Sender.messages, here] at journal
      exact continues_journalled ⟨log, journal⟩
        ((finish_continues _ env.status).after router rfl rfl) (finish_uds_log _ _ _ env.status)
  | ring action after foreign moved => exact ⟨log, journal⟩

end Steps

theorem reachable_journalled {cfg : AdaptConfig} {env : InitEnv} {sender : Sender}
    (logging : env.decisionLog = true) (reached : (sendMachine cfg env).Reachable sender) :
    sender.journalled := by
  have joint : sender.journalled ∧ (sendMachine cfg env).Reachable sender := by
    apply Machine.invariant_of_reachable (sendMachine cfg env)
      (fun sender => sender.journalled ∧ (sendMachine cfg env).Reachable sender) _ _ reached
    · intro start starts
      refine ⟨⟨[], ?_⟩, Machine.reachable_initial starts⟩
      obtain ⟨accepted, ⟨before, idle⟩, none, _⟩ := starts
      have blank := (init_context accepted).1
      simp only [Sender.messages, idle, none]
      constructor
      case logged =>
        rw [blank]
        simp only [blankContext, logging]
        exact logged_start
      case seq => rw [blank]; rfl
      case replays => rfl
      case numbered => intro k d found; cases found
      case chained => intro k d found; cases found
      case last => rw [blank]; rfl
    · intro before action after held stepped
      have awaiting := (classifier_tallies held.2).2.1
      exact ⟨move_journalled held.1 awaiting (send_step_move stepped),
        Machine.reachable_step held.2 stepped⟩
  exact joint.1

/-- Between two calls the log holds one decision for each classified message, in order:
numbered from 1, with the payload and the selected route of the message, starting from
the route selected before. The dump shows the last 512 of them. -/
theorem log_replays_history {cfg : AdaptConfig} {env : InitEnv} {sender : Sender}
    {before : Option Status} (logging : env.decisionLog = true)
    (reached : (sendMachine cfg env).Reachable sender) (idle : sender.pc = .idle before) :
    ∃ log : List AdaptDecision, log.map recorded = classifiedMessages sender.attempts ∧
      (∀ k d, log[k]? = some d → d.seq = UInt64.ofNat (k + 1) ∧
        d.current = lastOf ((log.take k).map AdaptDecision.selected)) ∧
      declogRows sender.ctx.declog = log.drop (log.length - min log.length 512) := by
  obtain ⟨log, journal⟩ := reachable_journalled logging reached
  simp only [Sender.messages, idle] at journal
  exact ⟨log, journal.replays, fun k d found => ⟨journal.numbered k d found,
    journal.chained k d found⟩, logged_rows journal.logged⟩

def loggingEnv : InitEnv := { plainEnv with decisionLog := true }

def loggingContext : AdaptCtx := { plainContext 65536 with declog := enabledDeclog }

/-- Two calls of 3 bytes: two rows of the datagram route, the second from that route. -/
theorem log_replays_history_datagrams :
    ∃ sender rc, (sendMachine (plainConfig 65536) loggingEnv).run
        (startSender loggingContext pageRing) refusedThenSent = some sender ∧
      sender.pc = .idle rc ∧
      (declogRows sender.ctx.declog).map (fun d => (d.seq, d.current, recorded d)) =
        [(1, .none, (3, .uds)), (2, .uds, (3, .uds))] ∧
      ∃ log : List AdaptDecision, log.map recorded = classifiedMessages sender.attempts ∧
        declogRows sender.ctx.declog = log.drop (log.length - min log.length 512) := by
  have measured : ((sendMachine (plainConfig 65536) loggingEnv).run
      (startSender loggingContext pageRing) refusedThenSent).map
        (fun sender => (sender.pc.isIdle,
          (declogRows sender.ctx.declog).map fun d => (d.seq, d.current, recorded d))) =
      some (true, [(1, .none, (3, .uds)), (2, .uds, (3, .uds))]) := by decide +kernel
  obtain ⟨sender, ran, result⟩ := Option.map_eq_some_iff.mp measured
  obtain ⟨returned, rows⟩ := Prod.mk.inj result
  have reached := Machine.reachable_run (sendMachine (plainConfig 65536) loggingEnv)
    ⟨rfl, ⟨none, rfl⟩, rfl, rfl⟩ ran
  obtain ⟨rc, idle⟩ := SendPc.returned returned
  obtain ⟨log, replays, -, shown⟩ := log_replays_history rfl reached idle
  exact ⟨sender, rc, ran, idle, rows, log, replays, shown⟩

end AdaptIpc.Endpoint

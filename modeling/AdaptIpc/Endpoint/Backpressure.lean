import AdaptIpc.Endpoint.SendFrame

/-!
# Backpressure and the learned costs

`adapt_send` times its transport calls to learn what they cost, and its comments
keep backpressure out of what is learned: the parking retry and failed calls are
not to be measured. An audit of a run records for each call the context at its
start, after its decision and at its return, and what its first push answered.
The measurement of the SHM branch is made before the result is looked at, so a
timed first push that fails is learned from; no other failure is.
-/

namespace AdaptIpc.Endpoint

open AdaptIpc.Ring AdaptIpc.Policy AdaptIpc.Library.Transition

set_option autoImplicit false

def AdaptCtx.learned (ctx : AdaptCtx) : AdaptLearn × ℚ := (ctx.learn, ctx.rt.ewmaLatencyUs)

/-- The learned transport costs are the same; the crossover is derived from them by the
decisions. -/
structure SameTransports (before after : AdaptLearn) : Prop where
  clsMeanUs : after.clsMeanUs = before.clsMeanUs
  clsMeanB : after.clsMeanB = before.clsMeanB
  n : after.n = before.n
  fixedUs : after.fixedUs = before.fixedUs
  slopeUsPerB : after.slopeUsPerB = before.slopeUsPerB

theorem SameTransports.refl (l : AdaptLearn) : SameTransports l l := by constructor <;> rfl

theorem crossover_transports (l : AdaptLearn) (cfg : AdaptCostCfg) :
    SameTransports l (adaptLearnCrossover l cfg) := by
  simp only [adaptLearnCrossover]
  split
  · exact SameTransports.refl l
  · split
    · exact SameTransports.refl l
    · constructor <;> rfl

structure SameCosts (before after : AdaptCtx) : Prop extends
    SameTransports before.learn after.learn where
  ewmaLatencyUs : after.rt.ewmaLatencyUs = before.rt.ewmaLatencyUs

theorem SameCosts.of_learned {before after : AdaptCtx} (same : after.learned = before.learned) :
    SameCosts before after := by
  obtain ⟨learn, latency⟩ := Prod.mk.inj same
  refine ⟨?_, latency⟩
  rw [learn]
  exact SameTransports.refl before.learn

theorem SameCosts.trans {first second third : AdaptCtx} (early : SameCosts first second)
    (late : SameCosts second third) : SameCosts first third where
  clsMeanUs := late.clsMeanUs.trans early.clsMeanUs
  clsMeanB := late.clsMeanB.trans early.clsMeanB
  n := late.n.trans early.n
  fixedUs := late.fixedUs.trans early.fixedUs
  slopeUsPerB := late.slopeUsPerB.trans early.slopeUsPerB
  ewmaLatencyUs := late.ewmaLatencyUs.trans early.ewmaLatencyUs

/-- The classes of a transport: 0 and 1 those of UDS, 2 and 3 those of SHM. -/
def transportClass : AdaptRoute → Fin 4 → Prop
  | .none, _ => False
  | .uds, idx => baseClass idx = 0
  | .shm, idx => baseClass idx = 2

structure SameTransport (route : AdaptRoute) (before after : AdaptLearn) : Prop where
  clsMeanUs : ∀ idx, transportClass route idx → after.clsMeanUs idx = before.clsMeanUs idx
  clsMeanB : ∀ idx, transportClass route idx → after.clsMeanB idx = before.clsMeanB idx
  n : ∀ idx, transportClass route idx → after.n idx = before.n idx
  fixedUs : ∀ idx, transportClass route idx → after.fixedUs idx = before.fixedUs idx
  slopeUsPerB : ∀ idx, transportClass route idx →
    after.slopeUsPerB idx = before.slopeUsPerB idx

theorem SameTransport.refl (route : AdaptRoute) (l : AdaptLearn) : SameTransport route l l := by
  constructor <;> exact fun _ _ => rfl

theorem observe_class_apart {l : AdaptLearn} {cfg : AdaptCostCfg} {idx : Fin 4} (size : UInt64)
    (costUs : ℚ) {route : AdaptRoute}
    (apart : ∀ other, transportClass route other → other ≠ idx ∧ other ≠ otherClass idx) :
    SameTransport route l (observeClass l cfg idx size costUs) := by
  constructor <;> intro other inside <;> obtain ⟨here, mate⟩ := apart other inside <;>
    simp only [observeClass, refitClass] <;> split_ifs <;>
    simp only [Function.update_of_ne here, Function.update_of_ne mate]

theorem observe_apart (l : AdaptLearn) (cfg : AdaptCostCfg) {route observed : AdaptRoute}
    (other : route ≠ observed) (size : UInt64) (costUs : ℚ) :
    SameTransport route l (adaptLearnObserve l cfg observed size costUs) := by
  simp only [adaptLearnObserve]
  split
  · exact SameTransport.refl route l
  · cases observed with
    | none => exact SameTransport.refl route l
    | uds =>
        apply observe_class_apart
        cases route with
        | none => exact fun _ inside => inside.elim
        | uds => exact absurd rfl other
        | shm =>
            simp only [transportClass]
            split_ifs <;> decide
    | shm =>
        apply observe_class_apart
        cases route with
        | none => exact fun _ inside => inside.elim
        | uds =>
            simp only [transportClass]
            split_ifs <;> decide
        | shm => exact absurd rfl other

theorem learned_sample (ctx : AdaptCtx) (size occ now : UInt64) :
    (sampleContext ctx size occ now).learned = ctx.learned := by
  simp only [sampleContext, AdaptCtx.learned, adaptRtctxSample, sampleDrain]
  split_ifs <;> rfl

theorem learned_monitor (ctx : AdaptCtx) (occ cap : UInt64) :
    (monitorHealth ctx occ cap).learned = ctx.learned := by
  simp only [monitorHealth, count_fields]
  rfl

theorem learned_request (ctx : AdaptCtx) (nowNs : UInt64) :
    (requestSent ctx nowNs).learned = ctx.learned := by
  simp only [requestSent, count_fields]
  rfl

theorem learned_ack (ctx : AdaptCtx) : (ackReceived ctx).learned = ctx.learned := by
  simp only [ackReceived, count_fields]
  rfl

theorem learned_name (ctx : AdaptCtx) (pid : Nat) (negCounter : UInt32) :
    (nameRing ctx pid negCounter).learned = ctx.learned := by
  simp only [nameRing]
  split <;> rfl

theorem learned_map {env : MapEnv} {ctx mapped : AdaptCtx}
    (attached : mapNegotiated env ctx = some (.ok mapped)) : mapped.learned = ctx.learned := by
  simp only [mapNegotiated] at attached
  split at attached <;> cases attached
  rfl

theorem learned_grow {realloc : Bool} {ctx grown : AdaptCtx} {cap : UInt64}
    (room : growRxbuf realloc ctx cap = some grown) : grown.learned = ctx.learned := by
  rw [grow_context room]
  rfl

theorem learned_handshake_failed (ctx : AdaptCtx) (size : UInt64) (hrc : Errno) :
    (handshakeFailed ctx size hrc).2.learned = ctx.learned := by
  simp only [handshakeFailed, count_fields]
  split_ifs <;> rfl

theorem learned_guard (ctx : AdaptCtx) (route : AdaptRoute) (size : UInt64) :
    (guardRails ctx route size).2.learned = ctx.learned := by
  simp only [guardRails, count_fields]
  split_ifs <;> rfl

theorem learned_push (sender : Sender) (ring : RingState) (tMeas : UInt64) :
    (sender.startPush ring tMeas).ctx.learned = sender.ctx.learned := by
  simp only [Sender.startPush, count_fields]
  rfl

theorem learned_datagram (sender : Sender) (tMeas : UInt64) :
    (sender.startDatagram tMeas).ctx.learned = sender.ctx.learned := by
  simp only [Sender.startDatagram, count_fields]
  rfl

theorem decided_transports (policy : AdaptPolicyMode) (cfg : AdaptCostCfg) (input : DecideInput)
    {l : AdaptLearn} (given : input.learn.getD l = l) :
    SameTransports l ((adaptPolicyDecide policy cfg input).2.getD l) := by
  have same : SameTransports l (input.learn.getD l) := by
    rw [given]
    exact SameTransports.refl l
  cases policy with
  | fullAdaptive =>
      by_cases cold : coldStart cfg input = true
      · simp only [adaptPolicyDecide, cold, if_true]
        exact same
      · by_cases first : input.current = .none
        · simp only [adaptPolicyDecide, cold, first, if_true]
          exact same
        · simp only [adaptPolicyDecide, cold, first, if_false]
          cases learn : input.learn with
          | none => exact SameTransports.refl l
          | some held =>
              rw [learn] at given
              rw [← show held = l from given]
              exact crossover_transports held cfg
  | _ => exact same

theorem costs_classify (ctx : AdaptCtx) (size now waitClock : UInt64) :
    SameCosts ctx (classify ctx size now waitClock) := by
  let smoothed := { ctx with ewmaSize := ewmaUpdate ctx.ewmaSize ctx.alpha size }
  have given : (decideInput smoothed size now waitClock).learn.getD ctx.learn = ctx.learn := by
    simp only [decideInput]
    split <;> rfl
  have moved := decided_transports ctx.policy ctx.cmcfg
    (decideInput smoothed size now waitClock) given
  have fields : (classify ctx size now waitClock).learn =
      (adaptPolicyDecide ctx.policy ctx.cmcfg
        (decideInput smoothed size now waitClock)).2.getD ctx.learn ∧
      (classify ctx size now waitClock).rt = ctx.rt := by
    simp only [classify, logDecision, count_fields]
    split_ifs <;> exact ⟨rfl, rfl⟩
  constructor
  · rw [fields.1]
    exact moved
  · rw [fields.2]

theorem costs_decide (sender : Sender) (now waitClock : UInt64) :
    SameCosts sender.ctx (sender.decide now waitClock).2.ctx := by
  have guarded := SameCosts.of_learned (learned_guard
    (routeMessage sender.ctx sender.draft.size now waitClock).2
    (routeMessage sender.ctx sender.draft.size now waitClock).1 sender.draft.size)
  have routed : SameCosts sender.ctx
      (routeMessage sender.ctx sender.draft.size now waitClock).2 := by
    simp only [routeMessage]
    split
    · exact SameCosts.of_learned rfl
    · exact costs_classify sender.ctx sender.draft.size now waitClock
  exact routed.trans guarded

theorem learned_untimed (ctx : AdaptCtx) (size now parks : UInt64) (rc : Status) :
    (finishShm ctx size 0 now parks rc).learned = ctx.learned := by
  simp only [finishShm, observeCost, ne_eq, not_true, if_false, count_fields]
  rfl

theorem learned_refused (ctx : AdaptCtx) (size tMeas now : UInt64) {rc : Status}
    (failed : rc ≠ .ok ()) : (finishUds ctx size tMeas now rc).learned = ctx.learned := by
  simp only [finishUds, failed, if_false]
  split <;> rfl

theorem observe_cost_apart (ctx : AdaptCtx) {route observed : AdaptRoute}
    (other : route ≠ observed) (size tMeas now : UInt64) :
    SameTransport route ctx.learn (observeCost ctx observed size tMeas now).learn := by
  simp only [observeCost]
  split
  · exact observe_apart ctx.learn ctx.cmcfg other size _
  · exact SameTransport.refl route ctx.learn

theorem finish_shm_apart (ctx : AdaptCtx) (size tMeas now parks : UInt64) (rc : Status) :
    SameTransport .uds ctx.learn (finishShm ctx size tMeas now parks rc).learn := by
  simp only [finishShm, count_fields]
  exact observe_cost_apart ctx (by decide) size tMeas now

theorem finish_uds_apart (ctx : AdaptCtx) (size tMeas now : UInt64) (rc : Status) :
    SameTransport .shm ctx.learn (finishUds ctx size tMeas now rc).learn := by
  have observed := observe_cost_apart ctx (by decide : AdaptRoute.shm ≠ .uds) size tMeas now
  simp only [finishUds]
  split_ifs <;> first | exact observed | exact SameTransport.refl .shm ctx.learn

/-- One call: the context it found, the one its decision left, the one at its return, and
the answer of its first push. -/
structure Account where
  called : AdaptCtx
  decided : AdaptCtx
  firstPush : Option Status
  returned : AdaptCtx
  attempt : Attempt

structure Audit where
  sender : Sender
  called : AdaptCtx
  decided : AdaptCtx
  firstPush : Option Status
  accounts : List Account

def Audit.observe (audit : Audit) (action : SendAction) (next : Sender) : Audit :=
  match action with
  | .call _ _ =>
      { audit with called := audit.sender.ctx, decided := next.ctx, firstPush := none }
  | .step _ =>
      match audit.sender.pc with
      | .freeTail _ _ _ => { audit with decided := next.ctx }
      | .pushDirect _ => { audit with firstPush := pushResult audit.sender.ring }
      | .pushBlocking _ =>
          { audit with firstPush := audit.firstPush.or (pushResult audit.sender.ring) }
      | _ => audit
  | .ring _ => audit

def Audit.close (audit : Audit) (next : Sender) (attempt : Attempt) : Account where
  called := audit.called
  decided := audit.decided
  firstPush := audit.firstPush
  returned := next.ctx
  attempt := attempt

def Audit.record (audit : Audit) (action : SendAction) (next : Sender) : Audit :=
  let observed := audit.observe action next
  { observed with
    sender := next
    accounts := audit.accounts ++
      (next.attempts.drop audit.sender.attempts.length).map (observed.close next) }

def auditMachine (cfg : AdaptConfig) (env : InitEnv) : Machine Audit SendAction where
  initial audit := (sendMachine cfg env).initial audit.sender ∧ audit.firstPush = none ∧
    audit.accounts = []
  step audit action := (sendStep audit.sender action).map (audit.record action)

def Account.unmeasured (account : Account) : Prop :=
  account.returned.learned = account.decided.learned

/-- Backpressure stays out of the learned costs: a call whose first push failed, or that
failed on the ring, leaves them as they were; the SHM classes learn from a first push that
succeeded only, the UDS classes from a datagram that was sent, and the latency from either. -/
structure Lawful (account : Account) : Prop where
  decision : SameCosts account.called account.decided
  refused : (∃ code, account.firstPush = some (.error code)) ∨
    (account.attempt.transport = .shm ∧ ∃ code, account.attempt.result = .error code) →
    account.unmeasured
  observed : ¬account.unmeasured →
    (account.attempt.transport = .shm ∧ account.firstPush = some (.ok ())) ∨
      (account.attempt.transport = .uds ∧ account.attempt.result = .ok ())
  shmObserved : ¬SameTransport .shm account.decided.learn account.returned.learn →
    account.attempt.transport = .shm ∧ account.firstPush = some (.ok ())
  udsObserved : ¬SameTransport .uds account.decided.learn account.returned.learn →
    account.attempt.transport = .uds ∧ account.attempt.result = .ok ()

/-- The condition: no first push that is being timed has failed. -/
def timedPushSucceeds (sender : Sender) : SendAction → Bool
  | .step _ =>
      match sender.pc with
      | .pushDirect tMeas =>
          decide (tMeas = 0) || decide (pushResult sender.ring = some (.ok ()))
      | _ => true
  | _ => true

structure Underway (called decided ctx : AdaptCtx) : Prop where
  decision : SameCosts called decided
  unmeasured : ctx.learned = decided.learned

def AuditedAt (audit : Audit) : SendPc → Prop
  | .idle _ => True
  | .request _ => Underway audit.called audit.decided audit.sender.ctx ∧ audit.firstPush = none
  | .awaitAck _ => Underway audit.called audit.decided audit.sender.ctx ∧ audit.firstPush = none
  | .mapping => Underway audit.called audit.decided audit.sender.ctx ∧ audit.firstPush = none
  | .udsSend _ => Underway audit.called audit.decided audit.sender.ctx ∧ audit.firstPush = none ∧
      audit.sender.draft.transport = .uds
  | .pushDirect _ => Underway audit.called audit.decided audit.sender.ctx ∧ audit.firstPush = none ∧
      audit.sender.draft.transport = .shm
  | .pushBlocking tMeas => Underway audit.called audit.decided audit.sender.ctx ∧ tMeas = 0
  | _ => audit.sender.ctx.learned = audit.called.learned ∧ audit.firstPush = none

structure Audited (audit : Audit) : Prop where
  place : AuditedAt audit audit.sender.pc
  lawful : ∀ account ∈ audit.accounts, Lawful account

structure Proceeded (audit : Audit) (next : Sender) : Prop where
  place : AuditedAt { audit with sender := next } next.pc
  closed : ∀ attempt ∈ next.attempts.drop audit.sender.attempts.length,
    Lawful (audit.close next attempt)

theorem lawful_unmeasured {account : Account} (decision : SameCosts account.called account.decided)
    (same : account.unmeasured) : Lawful account := by
  have learn : account.returned.learn = account.decided.learn := congrArg Prod.fst same
  have kept : ∀ route, SameTransport route account.decided.learn account.returned.learn := by
    intro route
    rw [learn]
    exact SameTransport.refl route account.decided.learn
  exact ⟨decision, fun _ => same, fun measured => absurd same measured,
    fun measured => absurd (kept .shm) measured, fun measured => absurd (kept .uds) measured⟩

section Steps

variable {audit : Audit} {sender next : Sender}

theorem finish_proceeded {rc : Status} (attempts : sender.attempts = audit.sender.attempts)
    (lawful : Lawful (audit.close sender (sender.closed rc))) :
    Proceeded audit (sender.finish rc) where
  place := trivial
  closed := by
    intro attempt member
    have only : attempt = sender.closed rc := by
      simpa [Sender.finish, attempts] using member
    rw [only]
    exact lawful

theorem proceeded_open (attempts : next.attempts = audit.sender.attempts)
    (place : AuditedAt { audit with sender := next } next.pc) : Proceeded audit next where
  place := place
  closed := by
    intro attempt member
    simp [attempts] at member

theorem transmitted_proceeded {route : AdaptRoute}
    (attempts : sender.attempts = audit.sender.attempts)
    (underway : Underway audit.called audit.decided sender.ctx)
    (unpushed : audit.firstPush = none) (transmitted : Transmitted sender route next) :
    Proceeded audit next := by
  cases transmitted with
  | push ring tMeas shm called untimed =>
      have still : Underway audit.called audit.decided (sender.startPush ring tMeas).ctx :=
        ⟨underway.decision, (learned_push sender ring tMeas).trans underway.unmeasured⟩
      refine proceeded_open attempts ?_
      cases direct : pushesDirectly sender.ctx with
      | true =>
          rw [start_push_direct ring tMeas direct]
          exact ⟨still, unpushed, rfl⟩
      | false =>
          have silent : sender.ctx.policy.measures = false := by
            simp only [pushesDirectly, Bool.or_eq_false_iff] at direct
            exact direct.2
          rw [start_push_blocking ring tMeas direct]
          exact ⟨still, untimed silent⟩
  | datagram tMeas other =>
      refine proceeded_open attempts ?_
      exact ⟨⟨underway.decision, (learned_datagram sender tMeas).trans underway.unmeasured⟩,
        unpushed, rfl⟩

theorem failed_proceeded {hrc : Errno} (attempts : sender.attempts = audit.sender.attempts)
    (underway : Underway audit.called audit.decided sender.ctx) (unpushed : audit.firstPush = none)
    (failed : HandshakeFailed sender hrc next) : Proceeded audit next := by
  have still : Underway audit.called audit.decided (sender.handshakeFailure hrc).2.ctx :=
    ⟨underway.decision,
      (learned_handshake_failed sender.ctx sender.draft.size hrc).trans underway.unmeasured⟩
  cases failed with
  | refused large =>
      refine finish_proceeded attempts ?_
      exact lawful_unmeasured underway.decision still.unmeasured
  | degraded tMeas small =>
      exact @transmitted_proceeded audit (sender.handshakeFailure hrc).2 _ .uds attempts still
        unpushed (@Transmitted.datagram (sender.handshakeFailure hrc).2 .uds tMeas (by decide))

/-- A decision ends the wait for it, whatever it leads to. -/
theorem dispatched_proceeded (attempts : sender.attempts = audit.sender.attempts)
    (called : sender.ctx.learned = audit.called.learned) (unpushed : audit.firstPush = none)
    (dispatched : Dispatched sender next) :
    Proceeded { audit with decided := next.ctx } next := by
  have decision : ∀ {now waitClock : UInt64},
      next.ctx.learned = (sender.decide now waitClock).2.ctx.learned →
      SameCosts audit.called next.ctx := by
    intro now waitClock same
    exact (SameCosts.of_learned called).trans
      ((costs_decide sender now waitClock).trans (SameCosts.of_learned same))
  cases dispatched with
  | tooLarge now waitClock refused =>
      refine finish_proceeded attempts ?_
      exact lawful_unmeasured (decision rfl) rfl
  | negotiating now waitClock env route unmapped waiting =>
      have named := learned_name (sender.decide now waitClock).2.ctx env.pid env.negCounter
      refine proceeded_open attempts ?_
      have place : Underway audit.called ((sender.decide now waitClock).2.negotiate env).ctx
          ((sender.decide now waitClock).2.negotiate env).ctx ∧ audit.firstPush = none :=
        ⟨⟨decision named, rfl⟩, unpushed⟩
      simp only [Sender.negotiate] at place ⊢
      split <;> exact place
  | sent now waitClock route next decided mapped transmitted =>
      have same : next.ctx.learned = (sender.decide now waitClock).2.ctx.learned := by
        cases transmitted with
        | push ring tMeas shm entered untimed => exact learned_push _ ring tMeas
        | datagram tMeas other => exact learned_datagram _ tMeas
      have underway : Underway audit.called next.ctx (sender.decide now waitClock).2.ctx :=
        ⟨decision same, same.symm⟩
      exact @transmitted_proceeded { audit with decided := next.ctx }
        (sender.decide now waitClock).2 next route attempts underway unpushed transmitted

theorem observe_keeps (audit : Audit) (action : SendAction) (next : Sender) :
    (audit.observe action next).sender = audit.sender ∧
      (audit.observe action next).accounts = audit.accounts := by
  simp only [Audit.observe]
  split
  · exact ⟨rfl, rfl⟩
  · split <;> exact ⟨rfl, rfl⟩
  · exact ⟨rfl, rfl⟩

theorem proceeded_audited {action : SendAction} (audited : Audited audit)
    (proceeded : Proceeded (audit.observe action next) next) :
    Audited (audit.record action next) where
  place := proceeded.place
  lawful := by
    intro account member
    rcases List.mem_append.mp member with old | new
    · exact audited.lawful account old
    · obtain ⟨attempt, finished, rfl⟩ := List.mem_map.mp new
      apply proceeded.closed attempt
      rw [(observe_keeps audit action next).1]
      exact finished

/-- The end of the SHM branch: an untimed push was not measured, a timed one succeeded. -/
theorem pushed_lawful {env : SendEnv} {tMeas : UInt64} {rc : Status}
    (attempts : sender.attempts = audit.sender.attempts)
    (underway : Underway audit.called audit.decided sender.ctx)
    (good : tMeas = 0 ∨
      rc = .ok () ∧ audit.firstPush = some (.ok ()) ∧ sender.draft.transport = .shm) :
    Proceeded audit (sender.finishPush env tMeas rc) := by
  refine finish_proceeded attempts ?_
  rcases good with untimed | ⟨succeeded, first, shm⟩
  · apply lawful_unmeasured underway.decision
    rw [untimed]
    exact (learned_untimed _ _ _ _ _).trans underway.unmeasured
  · constructor
    · exact underway.decision
    · rintro (⟨code, failed⟩ | ⟨_, code, failed⟩)
      · have answer : audit.firstPush = some (.error code) := failed
        rw [first] at answer
        cases answer
      · have result : rc = .error code := failed
        rw [succeeded] at result
        cases result
    · exact fun _ => Or.inl ⟨shm, first⟩
    · exact fun _ => ⟨shm, first⟩
    · intro measured
      have learn : sender.ctx.learn = audit.decided.learn :=
        congrArg Prod.fst underway.unmeasured
      apply absurd _ measured
      have apart := finish_shm_apart sender.ctx sender.draft.size tMeas env.clock
        sender.ring.object.parks rc
      rw [learn] at apart
      exact apart

theorem mailed_lawful {env : SendEnv} {tMeas : UInt64}
    (attempts : sender.attempts = audit.sender.attempts)
    (underway : Underway audit.called audit.decided sender.ctx)
    (unpushed : audit.firstPush = none) (uds : sender.draft.transport = .uds) :
    Proceeded audit ({ sender with
      ctx := finishUds sender.ctx sender.draft.size tMeas env.clock env.status
      draft := { sender.draft with
        placed := if env.status = Except.ok () then some .uds else none } }.finish
      env.status) := by
  refine finish_proceeded attempts ?_
  by_cases succeeded : env.status = .ok ()
  · constructor
    · exact underway.decision
    · rintro (⟨code, failed⟩ | ⟨shm, _⟩)
      · have answer : audit.firstPush = some (.error code) := failed
        rw [unpushed] at answer
        cases answer
      · have other : sender.draft.transport = .shm := shm
        rw [uds] at other
        cases other
    · exact fun _ => Or.inr ⟨uds, succeeded⟩
    · intro measured
      have learn : sender.ctx.learn = audit.decided.learn :=
        congrArg Prod.fst underway.unmeasured
      apply absurd _ measured
      have apart := finish_uds_apart sender.ctx sender.draft.size tMeas env.clock env.status
      rw [learn] at apart
      exact apart
    · exact fun _ => ⟨uds, succeeded⟩
  · apply lawful_unmeasured underway.decision
    exact (learned_refused _ _ _ _ succeeded).trans underway.unmeasured

theorem move_audited {action : SendAction} (audited : Audited audit)
    (allowed : timedPushSucceeds audit.sender action = true)
    (move : SendMove audit.sender action next) : Audited (audit.record action next) := by
  have place := audited.place
  apply proceeded_audited audited
  cases move with
  | rejected env data before code idle bad => exact proceeded_open rfl trivial
  | opened env data before payload idle good mapped => exact proceeded_open rfl ⟨rfl, rfl⟩
  | openedUnmapped env data before payload next idle good unmapped dispatched =>
      have sampled := learned_sample audit.sender.ctx (openAttempt payload).size 0 env.clock
      exact @dispatched_proceeded
        { audit with called := audit.sender.ctx, firstPush := none }
        ({ audit.sender with draft := openAttempt payload }.sample 0 env.clock none) next rfl sampled
        rfl dispatched
  | usedHead env now here =>
      rw [here] at place
      simp only [Audit.observe, here]
      exact proceeded_open rfl place
  | usedTail env now head here =>
      rw [here] at place
      simp only [Audit.observe, here]
      exact proceeded_open rfl ⟨(learned_sample _ _ _ _).trans place.1, place.2⟩
  | freeHead env now occ here =>
      rw [here] at place
      simp only [Audit.observe, here]
      exact proceeded_open rfl place
  | freeTail env now occ head cap next here dispatched =>
      rw [here] at place
      simp only [Audit.observe, here]
      have monitored := (learned_monitor audit.sender.ctx occ cap).trans place.1
      exact @dispatched_proceeded audit
        { audit.sender with ctx := monitorHealth audit.sender.ctx occ cap } next rfl monitored place.2
        dispatched
  | requestFailed env nowNs code next here refused failed =>
      rw [here] at place
      simp only [Audit.observe, here]
      exact failed_proceeded rfl place.1 place.2 failed
  | requested env nowNs here delivered =>
      rw [here] at place
      simp only [Audit.observe, here]
      exact proceeded_open rfl ⟨⟨place.1.decision,
        (learned_request _ nowNs).trans place.1.unmeasured⟩, place.2⟩
  | ackFailed env deadline received code next here arrived failed =>
      rw [here] at place
      simp only [Audit.observe, here]
      exact failed_proceeded rfl place.1 place.2 failed
  | polled env deadline here quiet =>
      simp only [Audit.observe, here]
      exact proceeded_open rfl place
  | ackUnmappable env deadline frame code next here arrived acknowledged failed =>
      rw [here] at place
      simp only [Audit.observe, here]
      have still := (learned_ack audit.sender.ctx).trans place.1.unmeasured
      exact @failed_proceeded audit { audit.sender with ctx := ackReceived audit.sender.ctx } _ _
        rfl ⟨place.1.decision, still⟩ place.2 failed
  | ackMapped env deadline frame attachedCtx here arrived acknowledged attached =>
      rw [here] at place
      simp only [Audit.observe, here]
      have still := (learned_map attached).trans
        ((learned_ack audit.sender.ctx).trans place.1.unmeasured)
      exact proceeded_open rfl ⟨⟨place.1.decision, still⟩, place.2⟩
  | mappingFailed env before next here written short failed =>
      rw [here] at place
      simp only [Audit.observe, here]
      exact @failed_proceeded audit
        { audit.sender with ctx := { audit.sender.ctx with ring := none } } _ _ rfl
        ⟨place.1.decision, place.1.unmeasured⟩ place.2 failed
  | negotiated env before grown next here written room transmitted =>
      rw [here] at place
      simp only [Audit.observe, here]
      have still := (learned_grow room).trans place.1.unmeasured
      exact @transmitted_proceeded audit
        { audit.sender with ctx := { grown with negotDone := true } } _ _ rfl
        ⟨place.1.decision, still⟩ place.2 transmitted
  | pushAgain env tMeas ring here full blocks called =>
      rw [here] at place
      simp only [Audit.observe, here]
      have untimed : tMeas = 0 := by
        simpa [timedPushSucceeds, here, full] using allowed
      exact proceeded_open rfl ⟨place.1, untimed⟩
  | pushed env tMeas rc here returned =>
      rcases here with here | here
      · rw [here] at place
        simp only [Audit.observe, here]
        have good : tMeas = 0 ∨ rc = .ok () := by
          simpa [timedPushSucceeds, here, returned] using allowed
        exact pushed_lawful rfl place.1
          (good.imp_right fun succeeded => ⟨succeeded, by rw [returned, succeeded], place.2.2⟩)
      · rw [here] at place
        simp only [Audit.observe, here]
        exact pushed_lawful rfl place.1 (Or.inl place.2)
  | datagramSent env tMeas here =>
      rw [here] at place
      simp only [Audit.observe, here]
      exact mailed_lawful rfl place.1 place.2.1 place.2.2
  | ring action after foreign moved => exact proceeded_open rfl place

end Steps

theorem reachable_audited {cfg : AdaptConfig} {env : InitEnv} {sender : Sender}
    (reached : (sendMachine cfg env).Reachable sender) :
    ∃ audit, (auditMachine cfg env).Reachable audit ∧ audit.sender = sender := by
  apply Machine.invariant_of_reachable (sendMachine cfg env)
    (fun sender => ∃ audit, (auditMachine cfg env).Reachable audit ∧ audit.sender = sender) _ _
    reached
  · intro start starts
    exact ⟨⟨start, start.ctx, start.ctx, none, []⟩,
      Machine.reachable_initial ⟨starts, rfl, rfl⟩, rfl⟩
  · rintro before action after ⟨audit, audited, rfl⟩ stepped
    have recorded : (auditMachine cfg env).step audit action =
        some (audit.record action after) := congrArg (Option.map (audit.record action)) stepped
    exact ⟨audit.record action after, Machine.reachable_step audited recorded, rfl⟩

/-- As long as no first push that is being timed fails, backpressure stays out of what
is learned. -/
theorem backpressure_unlearned {cfg : AdaptConfig} {env : InitEnv} {audit : Audit}
    (reached : ((auditMachine cfg env).guarded fun audit action =>
      timedPushSucceeds audit.sender action).Reachable audit) :
    ∀ account ∈ audit.accounts, Lawful account := by
  have audited : Audited audit := by
    apply Machine.invariant_of_reachable ((auditMachine cfg env).guarded fun audit action =>
      timedPushSucceeds audit.sender action) Audited _ _ reached
    · rintro start ⟨⟨_, ⟨before, idle⟩, _⟩, _, none⟩
      constructor
      · rw [idle]
        trivial
      · rw [none]
        simp
    · intro before action after held stepped
      obtain ⟨allowed, stepped⟩ := Machine.guarded_step stepped
      obtain ⟨next, moved, rfl⟩ := Option.map_eq_some_iff.mp stepped
      exact move_audited held allowed (send_step_move moved)
  exact audited.lawful

def measuredConfig : AdaptConfig :=
  { plainConfig 4096 with policy := .costAware, nonblockingSend := true }

def measuredSender : Sender :=
  startSender { eagerContext with policy := .costAware, nonblockingSend := true } pageRing

def measuredAudit : Audit where
  sender := measuredSender
  called := measuredSender.ctx
  decided := measuredSender.ctx
  firstPush := none
  accounts := []

/-- One call on the SHM route whose push takes `count` steps and a second. -/
def timedCall (payload : List UInt8) (count : Nat) : List SendAction :=
  .call quietEnv (some payload) :: List.replicate 4 (.step quietEnv) ++
    List.replicate count (.ring .producer) ++ [.step { quietEnv with clock := 2000000000 }]

theorem measured_starts :
    (auditMachine measuredConfig eagerEnv).initial measuredAudit :=
  ⟨⟨rfl, ⟨none, rfl⟩, rfl, rfl⟩, rfl, rfl⟩

/-- A push that succeeds is learned from, as it should be. -/
theorem backpressure_unlearned_one_byte : ∃ account : Account,
    account.returned.learn.n 2 = 1 ∧ Lawful account := by
  have ran : (((auditMachine measuredConfig eagerEnv).guarded fun audit action =>
      timedPushSucceeds audit.sender action).run measuredAudit (timedCall [1] 9)).map
        (fun audit => audit.accounts.map fun account => account.returned.learn.n 2) =
      some [1] := by decide +kernel
  obtain ⟨audit, run, learned⟩ := Option.map_eq_some_iff.mp ran
  have reached := Machine.reachable_run ((auditMachine measuredConfig eagerEnv).guarded
    fun audit action => timedPushSucceeds audit.sender action) measured_starts run
  obtain ⟨account, member, count⟩ : ∃ account ∈ audit.accounts, account.returned.learn.n 2 = 1 := by
    cases accounts : audit.accounts with
    | nil => simp [accounts] at learned
    | cons account rest =>
        simp only [accounts, List.map_cons, List.cons.injEq] at learned
        exact ⟨account, List.mem_cons_self, learned.1⟩
  exact ⟨account, count, backpressure_unlearned reached account member⟩

/-- The second push finds the ring full, the call returns `-EAGAIN`, and the second it
took is counted as the cost of an SHM send. -/
theorem full_ring_is_learned : ∃ audit account,
    (auditMachine measuredConfig eagerEnv).Reachable audit ∧ account ∈ audit.accounts ∧
      account.firstPush = some (.error .eagain) ∧ account.attempt.result = .error .eagain ∧
      account.decided.learn.n 3 = 0 ∧ account.returned.learn.n 3 = 1 ∧ ¬Lawful account := by
  have ran : ((auditMachine measuredConfig eagerEnv).run measuredAudit
      (timedCall [1] 9 ++ timedCall (List.replicate 4087 0) 2)).map
        (fun audit => audit.accounts.map fun account => (account.firstPush,
          account.attempt.result, account.decided.learn.n 3, account.returned.learn.n 3)) =
      some [(some (.ok ()), .ok (), 0, 0), (some (.error .eagain), .error .eagain, 0, 1)] := by
    decide +kernel
  obtain ⟨audit, run, facts⟩ := Option.map_eq_some_iff.mp ran
  have reached := Machine.reachable_run (auditMachine measuredConfig eagerEnv) measured_starts run
  rcases accounts : audit.accounts with _ | ⟨first, _ | ⟨account, rest⟩⟩
  · simp [accounts] at facts
  · simp [accounts] at facts
  · simp only [accounts, List.map_cons, List.cons.injEq, Prod.mk.injEq] at facts
    obtain ⟨push, result, before, after⟩ := facts.2.1
    refine ⟨audit, account, reached, by rw [accounts]; simp, push, result, before, after, ?_⟩
    intro lawful
    have same := lawful.refused (Or.inl ⟨.eagain, push⟩)
    have learn : account.returned.learn = account.decided.learn := congrArg Prod.fst same
    rw [learn, before] at after
    cases after

end AdaptIpc.Endpoint

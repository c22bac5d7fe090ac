import AdaptIpc.Endpoint.Retry
import AdaptIpc.Library.Ledger

/-!
# The counters of a producer against its history

With statistics on, each counter `adapt_send` keeps is the sum of what the single
attempts added to it: one send each, one on the transport it called, the framed
bytes it copied there, a decision where it classified its payload, an escalation
where a payload beyond a datagram was decided against the ring or a failed
handshake degraded to a datagram. The sums are those of the counters' own 64-bit
arithmetic.
-/

namespace AdaptIpc.Endpoint

open AdaptIpc.Ring AdaptIpc.Policy AdaptIpc.Library.Transition AdaptIpc.Library.Ledger

set_option autoImplicit false

inductive SendCounter where
  | sends
  | sendsShm
  | sendsUds
  | sendEscalations
  | sendCopyBytes
  | decisions
  deriving DecidableEq

def AdaptStats.sent (st : AdaptStats) : SendCounter → UInt64
  | .sends => st.sends
  | .sendsShm => st.sendsShm
  | .sendsUds => st.sendsUds
  | .sendEscalations => st.sendEscalations
  | .sendCopyBytes => st.sendCopyBytes
  | .decisions => st.decisions

def Attempt.adds (attempt : Attempt) : SendCounter → UInt64
  | .sends => 1
  | .sendsShm => one (attempt.transport = .shm)
  | .sendsUds => one (attempt.transport = .uds)
  | .sendEscalations =>
      one (attempt.classified && decide (attempt.lastRoute ≠ .shm) && oversize attempt.size) +
        one (attempt.handshake.isSome && decide (attempt.transport = .uds))
  | .sendCopyBytes => if attempt.transport = .none then 0 else attempt.size + 1
  | .decisions => one attempt.classified

def Sender.current (sender : Sender) : Attempt :=
  { sender.draft with lastRoute := sender.ctx.lastRoute }

def Sender.running (sender : Sender) (counter : SendCounter) : UInt64 :=
  match sender.pc with
  | .request _ => sender.current.adds counter
  | .awaitAck _ => sender.current.adds counter
  | .mapping => sender.current.adds counter
  | .pushDirect _ => if counter = .sendCopyBytes then 0 else sender.current.adds counter
  | .pushBlocking _ => if counter = .sendCopyBytes then 0 else sender.current.adds counter
  | .udsSend _ => sender.current.adds counter
  | _ => 0

def RouteFits (ctx : AdaptCtx) : Prop :=
  ctx.pendingRoute ≠ .none → ctx.pendingRoute ≠ .shm → oversize ctx.pendingSize = false

def Unsent (draft : Attempt) : Prop := draft.transport = .none ∧ draft.handshake = none

def DraftAt (ctx : AdaptCtx) (draft : Attempt) : SendPc → Prop
  | .idle _ => True
  | .request _ => Unsent draft ∧ ctx.pendingSize = draft.size
  | .awaitAck _ => Unsent draft ∧ ctx.pendingSize = draft.size
  | .mapping => Unsent draft ∧ ctx.pendingSize = draft.size
  | .pushDirect _ => draft.transport = .shm
  | .pushBlocking _ => draft.transport = .shm
  | .udsSend _ => draft.transport = .uds
  | _ => Unsent draft

def SilentFail (attempts : List Attempt) : Prop :=
  ∀ attempt ∈ attempts, attempt.transport = .none → ∃ code, attempt.result = .error code

structure Booked (sender : Sender) : Prop where
  on : sender.ctx.statsOn = true
  posted : ∀ counter, sender.ctx.st.sent counter =
    total Attempt.adds sender.attempts counter + sender.running counter
  draft : DraftAt sender.ctx sender.draft sender.pc
  pending : RouteFits sender.ctx
  silent : SilentFail sender.attempts

section Parts

variable {ctx : AdaptCtx} {counter : SendCounter}

theorem count_on (on : ctx.statsOn = true) (update : AdaptStats → AdaptStats) :
    ctx.count update = { ctx with st := update ctx.st } := by
  simp only [AdaptCtx.count, on, if_true]

theorem sent_monitor (occ cap : UInt64) :
    (monitorHealth ctx occ cap).st.sent counter = ctx.st.sent counter := by
  simp only [monitorHealth, count_fields]
  split <;> cases counter <;> rfl

theorem sent_request (nowNs : UInt64) :
    (requestSent ctx nowNs).st.sent counter = ctx.st.sent counter := by
  simp only [requestSent, count_fields]
  split <;> cases counter <;> rfl

theorem sent_ack : (ackReceived ctx).st.sent counter = ctx.st.sent counter := by
  simp only [ackReceived, count_fields]
  split <;> cases counter <;> rfl

theorem sent_name (pid : Nat) (negCounter : UInt32) :
    (nameRing ctx pid negCounter).st = ctx.st := by
  simp only [nameRing]
  split <;> rfl

theorem sent_map {env : MapEnv} {mapped : AdaptCtx}
    (attached : mapNegotiated env ctx = some (.ok mapped)) : mapped.st = ctx.st := by
  simp only [mapNegotiated] at attached
  split at attached <;> cases attached
  rfl

theorem sent_grow {realloc : Bool} {grown : AdaptCtx} {cap : UInt64}
    (room : growRxbuf realloc ctx cap = some grown) : grown.st = ctx.st := by
  rw [grow_context room]

theorem sent_observe (route : AdaptRoute) (size tMeas now : UInt64) :
    (observeCost ctx route size tMeas now).st = ctx.st ∧
      (observeCost ctx route size tMeas now).statsOn = ctx.statsOn := by
  simp only [observeCost]
  split <;> exact ⟨rfl, rfl⟩

theorem sent_classify (on : ctx.statsOn = true) (size now waitClock : UInt64) :
    (classify ctx size now waitClock).st.sent counter =
      ctx.st.sent counter + one (decide (counter = .decisions)) := by
  have logged : ∀ before d, (logDecision before d).st = before.st ∧
      (logDecision before d).statsOn = before.statsOn := by
    intro before d
    simp only [logDecision]
    split <;> exact ⟨rfl, rfl⟩
  simp only [classify]
  rw [count_on (by rw [(logged _ _).2]; exact on)]
  simp only [(logged _ _).1]
  cases counter <;> simp [AdaptStats.sent, one]

theorem sent_guard (on : ctx.statsOn = true) (route : AdaptRoute) (size : UInt64) :
    (guardRails ctx route size).2.st.sent counter =
      ctx.st.sent counter + one (decide (counter = .sends)) +
        one (decide (counter = .sendEscalations) && decide (route ≠ .shm) && oversize size) := by
  have still : ({ ctx with st := { ctx.st with sends := ctx.st.sends + 1 } } : AdaptCtx).statsOn =
      true := on
  simp only [guardRails, count_on on, count_on still]
  by_cases escalates : route ≠ .shm ∧ oversize size = true
  · rw [if_pos escalates, if_pos escalates]
    split <;> cases counter <;> simp [AdaptStats.sent, one, escalates.1, escalates.2]
  · have none : (decide (route ≠ .shm) && oversize size) = false := by
      simpa using escalates
    rw [if_neg escalates, if_neg escalates, Bool.and_assoc, none]
    split <;> cases counter <;> simp [AdaptStats.sent, one]

theorem sent_handshake_failed (on : ctx.statsOn = true) (size : UInt64) (hrc : Errno) :
    (handshakeFailed ctx size hrc).2.st.sent counter =
      ctx.st.sent counter + one (decide (counter = .sendEscalations) && !oversize size) := by
  simp only [handshakeFailed, count_on on]
  split <;> cases counter <;> simp_all [AdaptStats.sent, one]

theorem sent_push {sender : Sender} (on : sender.ctx.statsOn = true) (ring : RingState)
    (tMeas : UInt64) :
    (sender.startPush ring tMeas).ctx.st.sent counter =
      sender.ctx.st.sent counter + one (decide (counter = .sendsShm)) := by
  simp only [Sender.startPush, count_on on]
  cases counter <;> simp [AdaptStats.sent, one]

theorem sent_datagram {sender : Sender} (on : sender.ctx.statsOn = true) (tMeas : UInt64) :
    (sender.startDatagram tMeas).ctx.st.sent counter =
      sender.ctx.st.sent counter + one (decide (counter = .sendsUds)) +
        if counter = .sendCopyBytes then sender.draft.size + 1 else 0 := by
  simp only [Sender.startDatagram, count_on on]
  cases counter <;> simp [AdaptStats.sent, one, UInt64.add_assoc]

theorem sent_finish_shm (on : ctx.statsOn = true) (size tMeas now parks : UInt64) (rc : Status) :
    (finishShm ctx size tMeas now parks rc).st.sent counter =
      ctx.st.sent counter + if counter = .sendCopyBytes then size + 1 else 0 := by
  obtain ⟨still, on'⟩ := @sent_observe ctx .shm size tMeas now
  simp only [finishShm, count_on (on'.trans on), still]
  cases counter <;> simp [AdaptStats.sent, UInt64.add_assoc]

theorem sent_finish_uds (size tMeas now : UInt64) (rc : Status) :
    (finishUds ctx size tMeas now rc).st = ctx.st := by
  have still : ∀ observed : AdaptCtx, observed.st = ctx.st →
      (if rc = .error .econnrefused then observed
        else { observed with retryPending := false }).st = ctx.st := by
    intro observed same
    split <;> exact same
  simp only [finishUds]
  apply still
  split
  · exact (sent_observe .uds size tMeas now).1
  · rfl

end Parts

section Adds

variable {attempt : Attempt}

def copied (size : UInt64) (counter : SendCounter) : UInt64 :=
  if counter = .sendCopyBytes then size + 1 else 0

theorem adds_push (unsent : Unsent attempt) (counter : SendCounter) :
    ({ attempt with transport := .shm } : Attempt).adds counter =
      attempt.adds counter + one (decide (counter = .sendsShm)) + copied attempt.size counter := by
  cases counter <;> simp [Attempt.adds, copied, one, unsent.1, unsent.2, Attempt.size]

theorem adds_datagram (unsent : Unsent attempt) (counter : SendCounter) :
    ({ attempt with transport := .uds } : Attempt).adds counter =
      attempt.adds counter + one (decide (counter = .sendsUds)) + copied attempt.size counter := by
  cases counter <;> simp [Attempt.adds, copied, one, unsent.1, unsent.2, Attempt.size]

theorem adds_degraded (unsent : Unsent attempt) (hrc : Errno) (counter : SendCounter) :
    ({ attempt with transport := .uds, handshake := some hrc } : Attempt).adds counter =
      attempt.adds counter + one (decide (counter = .sendEscalations)) +
        one (decide (counter = .sendsUds)) + copied attempt.size counter := by
  cases counter <;> simp [Attempt.adds, copied, one, unsent.1, unsent.2, Attempt.size]

theorem adds_refused (unsent : Unsent attempt) (hrc : Errno) (counter : SendCounter) :
    ({ attempt with handshake := some hrc } : Attempt).adds counter = attempt.adds counter := by
  cases counter <;> simp [Attempt.adds, one, unsent.1, unsent.2, Attempt.size]

end Adds

section Steps

variable {sender next : Sender}

structure Decided (sender : Sender) : Prop where
  on : sender.ctx.statsOn = true
  posted : ∀ counter, sender.ctx.st.sent counter =
    total Attempt.adds sender.attempts counter + sender.current.adds counter
  draft : Unsent sender.draft
  stored : sender.ctx.pendingSize = sender.draft.size
  pending : RouteFits sender.ctx
  silent : SilentFail sender.attempts

theorem RouteFits.same {before after : AdaptCtx} (pending : RouteFits before)
    (same : SameRetry before after) : RouteFits after := by
  intro stored other
  rw [same.pendingRoute] at stored other
  rw [same.pendingSize]
  exact pending stored other

theorem Decided.unsent (decided : Decided sender) : Unsent sender.current := decided.draft

theorem Decided.same {ctx : AdaptCtx} (decided : Decided sender)
    (kept : MappingOnly sender.ctx ctx)
    (same : ∀ counter, ctx.st.sent counter = sender.ctx.st.sent counter) :
    Decided { sender with ctx := ctx } where
  on := kept.statsOn.trans decided.on
  posted counter := by
    simp only [Sender.current, kept.lastRoute]
    exact (same counter).trans (decided.posted counter)
  draft := decided.draft
  stored := kept.pendingSize.trans decided.stored
  pending := decided.pending.same kept.toSameRetry
  silent := decided.silent

theorem push_booked (decided : Decided sender) (ring : RingState) (tMeas : UInt64) :
    Booked (sender.startPush ring tMeas) := by
  have quiet := quiet_push sender ring tMeas
  have moved : (sender.startPush ring tMeas).current =
      { sender.current with transport := .shm } := by
    simp only [Sender.current, quiet.lastRoute]
    rfl
  have running : ∀ counter, (sender.startPush ring tMeas).running counter =
      if counter = .sendCopyBytes then 0
      else (sender.startPush ring tMeas).current.adds counter := by
    intro counter
    cases direct : pushesDirectly sender.ctx with
    | true => simp only [Sender.running, start_push_direct ring tMeas direct]
    | false => simp only [Sender.running, start_push_blocking ring tMeas direct]
  constructor
  · exact quiet.statsOn.trans decided.on
  · intro counter
    rw [sent_push decided.on, decided.posted counter, running counter, moved,
      adds_push decided.unsent, UInt64.add_assoc]
    congr 1
    cases counter <;> simp [Attempt.adds, copied, one, decided.unsent.1]
  · simp only [Sender.startPush]
    split <;> rfl
  · exact decided.pending.same quiet.toSameRetry
  · exact decided.silent

theorem datagram_booked (decided : Decided sender) (tMeas : UInt64) :
    Booked (sender.startDatagram tMeas) := by
  have quiet := quiet_datagram sender tMeas
  have moved : (sender.startDatagram tMeas).current =
      { sender.current with transport := .uds } := by
    simp only [Sender.current, quiet.lastRoute]
    rfl
  constructor
  · exact quiet.statsOn.trans decided.on
  · intro counter
    have running : (sender.startDatagram tMeas).running counter =
        (sender.startDatagram tMeas).current.adds counter := rfl
    rw [sent_datagram decided.on, decided.posted counter, running, moved,
      adds_datagram decided.unsent, UInt64.add_assoc, UInt64.add_assoc, UInt64.add_assoc]
    rfl
  · rfl
  · exact decided.pending.same quiet.toSameRetry
  · exact decided.silent

theorem transmitted_booked {route : AdaptRoute} (decided : Decided sender)
    (transmitted : Transmitted sender route next) : Booked next := by
  cases transmitted with
  | push ring tMeas shm called => exact push_booked decided ring tMeas
  | datagram tMeas other => exact datagram_booked decided tMeas

theorem finish_booked {rc : Status} (on : sender.ctx.statsOn = true)
    (posted : ∀ counter, sender.ctx.st.sent counter =
      total Attempt.adds sender.attempts counter + sender.current.adds counter)
    (pending : RouteFits sender.ctx) (silent : SilentFail sender.attempts)
    (failed : sender.draft.transport = .none → ∃ code, rc = .error code) :
    Booked (sender.finish rc) where
  on := on
  posted counter := by
    have running : (sender.finish rc).running counter = 0 := rfl
    have closed : (sender.closed rc).adds counter = sender.current.adds counter := by
      cases counter <;> rfl
    rw [running, UInt64.add_zero]
    simp only [Sender.finish, total_append, closed]
    exact posted counter
  draft := trivial
  pending := pending
  silent := by
    intro attempt member unsent
    rcases List.mem_append.mp member with old | new
    · exact silent attempt old unsent
    · rw [List.mem_singleton.mp new] at unsent ⊢
      exact failed unsent

theorem failed_booked {hrc : Errno} (decided : Decided sender)
    (failed : HandshakeFailed sender hrc next) : Booked next := by
  have kept := handshake_failed_retry_only sender.ctx sender.draft.size hrc
  have counted : ∀ counter, (sender.handshakeFailure hrc).2.ctx.st.sent counter =
      sender.ctx.st.sent counter +
        one (decide (counter = .sendEscalations) && !oversize sender.draft.size) :=
    fun counter => sent_handshake_failed decided.on sender.draft.size hrc
  have moved : (sender.handshakeFailure hrc).2.current =
      { sender.current with handshake := some hrc } := by
    simp only [Sender.current, Sender.handshakeFailure, kept.lastRoute]
  cases failed with
  | refused large =>
      apply finish_booked (kept.statsOn.trans decided.on)
      · intro counter
        rw [counted counter, moved, adds_refused decided.unsent, large, decided.posted counter]
        simp [one, Sender.handshakeFailure]
      · have same : (sender.handshakeFailure hrc).2.ctx =
            { sender.ctx with retryPending := true } := by
          simp only [Sender.handshakeFailure, handshakeFailed, large, if_true]
        rw [same]
        exact decided.pending
      · exact decided.silent
      · intro unsent
        exact ⟨_, rfl⟩
  | degraded tMeas small =>
      have on : (sender.handshakeFailure hrc).2.ctx.statsOn = true := kept.statsOn.trans decided.on
      have quiet := quiet_datagram (sender.handshakeFailure hrc).2 tMeas
      have sent : ((sender.handshakeFailure hrc).2.startDatagram tMeas).current =
          { sender.current with transport := .uds, handshake := some hrc } := by
        have transported : ((sender.handshakeFailure hrc).2.startDatagram tMeas).current =
            { (sender.handshakeFailure hrc).2.current with transport := .uds } := by
          simp only [Sender.current, quiet.lastRoute]
          rfl
        rw [transported, moved]
      have fits : RouteFits (sender.handshakeFailure hrc).2.ctx := by
        have size : (sender.handshakeFailure hrc).2.ctx.pendingSize = sender.ctx.pendingSize := by
          simp only [Sender.handshakeFailure, handshakeFailed, small, count_fields]
          rfl
        intro stored other
        rw [size, decided.stored]
        exact small
      constructor
      · exact quiet.statsOn.trans on
      · intro counter
        have running : ((sender.handshakeFailure hrc).2.startDatagram tMeas).running counter =
            ((sender.handshakeFailure hrc).2.startDatagram tMeas).current.adds counter := rfl
        rw [sent_datagram on, counted counter, decided.posted counter, running, sent,
          adds_degraded decided.unsent, small]
        simp only [Bool.not_false, Bool.and_true, UInt64.add_assoc]
        rfl
      · rfl
      · exact fits.same quiet.toSameRetry
      · exact decided.silent

structure Opened (sender : Sender) : Prop where
  on : sender.ctx.statsOn = true
  posted : ∀ counter, sender.ctx.st.sent counter = total Attempt.adds sender.attempts counter
  draft : Unsent sender.draft
  pending : RouteFits sender.ctx
  silent : SilentFail sender.attempts

theorem sent_route (opened : Opened sender) (now waitClock : UInt64) (counter : SendCounter) :
    (routeMessage sender.ctx sender.draft.size now waitClock).2.st.sent counter =
      sender.ctx.st.sent counter + one (decide (counter = .decisions) &&
        !resumes sender.ctx sender.draft.size) := by
  cases resumed : resumes sender.ctx sender.draft.size with
  | true => simp [routeMessage, resumed, one]
  | false =>
      simp only [routeMessage, resumed, Bool.not_false, Bool.and_true]
      exact sent_classify opened.on sender.draft.size now waitClock

theorem escalates_classified (pending : RouteFits sender.ctx) (now waitClock : UInt64) :
    (decide ((routeMessage sender.ctx sender.draft.size now waitClock).1 ≠ .shm) &&
        oversize sender.draft.size) =
      (!resumes sender.ctx sender.draft.size &&
        decide (decidedRoute sender.ctx sender.draft.size now waitClock ≠ .shm) &&
        oversize sender.draft.size) := by
  cases resumed : resumes sender.ctx sender.draft.size with
  | false => rw [decide_fresh resumed, Bool.not_false, Bool.true_and]
  | true =>
      rw [decide_resumed resumed, Bool.not_true, Bool.false_and, Bool.false_and]
      simp only [resumes, Bool.and_eq_true, decide_eq_true_eq] at resumed
      by_cases shm : sender.ctx.pendingRoute = .shm
      · simp [shm]
      · rw [← resumed.1.2, pending resumed.2 shm, Bool.and_false]

theorem decide_posted (opened : Opened sender) (now waitClock : UInt64) (counter : SendCounter) :
    (sender.decide now waitClock).2.ctx.st.sent counter =
      total Attempt.adds sender.attempts counter +
        (sender.decide now waitClock).2.current.adds counter := by
  have on : (routeMessage sender.ctx sender.draft.size now waitClock).2.statsOn = true := by
    cases resumed : resumes sender.ctx sender.draft.size with
    | true => rw [decide_resumed resumed]; exact opened.on
    | false =>
        rw [decide_fresh resumed]
        exact (classify_config sender.ctx sender.draft.size now waitClock).statsOn.trans opened.on
  have routed : resumes sender.ctx sender.draft.size = false →
      (sender.decide now waitClock).2.ctx.lastRoute =
        decidedRoute sender.ctx sender.draft.size now waitClock := by
    intro fresh
    have kept := (guard_retry_only (routeMessage sender.ctx sender.draft.size now waitClock).2
      (routeMessage sender.ctx sender.draft.size now waitClock).1 sender.draft.size).lastRoute
    rw [Sender.decide, kept, decide_fresh fresh, classify_route]
  have guarded := @sent_guard _ counter on
    (routeMessage sender.ctx sender.draft.size now waitClock).1 sender.draft.size
  rw [Bool.and_assoc, escalates_classified opened.pending, sent_route opened,
    opened.posted counter] at guarded
  refine guarded.trans ?_
  rw [UInt64.add_assoc, UInt64.add_assoc]
  congr 1
  have transport : (sender.decide now waitClock).2.current.transport = .none := opened.draft.1
  have handshake : (sender.decide now waitClock).2.current.handshake = none := opened.draft.2
  have classified : (sender.decide now waitClock).2.current.classified =
      !resumes sender.ctx sender.draft.size := rfl
  have route : (sender.decide now waitClock).2.current.lastRoute =
      (sender.decide now waitClock).2.ctx.lastRoute := rfl
  have size : (sender.decide now waitClock).2.current.size = sender.draft.size := rfl
  cases resumed : resumes sender.ctx sender.draft.size with
  | true =>
      cases counter <;> simp [Attempt.adds, one, transport, handshake, classified, resumed]
  | false =>
      cases counter <;>
        simp [Attempt.adds, one, transport, handshake, classified, resumed, route, routed resumed,
          size]

theorem decide_decided (opened : Opened sender) {now waitClock : UInt64} {route : AdaptRoute}
    (accepted : (sender.decide now waitClock).1 = .ok route) :
    Decided (sender.decide now waitClock).2 := by
  obtain ⟨sent, fits, retry, stored, pending⟩ := guard_accepts accepted
  constructor
  · exact (decide_config sender now waitClock).statsOn.trans opened.on
  · exact decide_posted opened now waitClock
  · exact opened.draft
  · exact stored
  · intro some other
    rw [Sender.decide] at some other ⊢
    rw [pending, sent] at other
    rw [stored]
    simp only [escalated] at other
    split at other
    · exact absurd rfl other
    · next stays =>
      cases large : oversize sender.draft.size with
      | false => rfl
      | true =>
          rw [escalated, if_neg stays] at sent
          exact absurd ⟨other, large⟩ stays
  · exact opened.silent

theorem refused_pending (opened : Opened sender) {now waitClock : UInt64} {code : Errno}
    (refused : (sender.decide now waitClock).1 = .error code) :
    RouteFits (sender.decide now waitClock).2.ctx := by
  have kept := (guard_refuses refused).2
  apply RouteFits.same _ kept
  cases resumed : resumes sender.ctx sender.draft.size with
  | true => rw [decide_resumed resumed]; exact opened.pending
  | false =>
      rw [decide_fresh resumed]
      intro stored
      exact absurd (classify_retry sender.ctx sender.draft.size now waitClock).2 stored

theorem negotiate_booked (decided : Decided sender) (env : SendEnv) :
    Booked (sender.negotiate env) := by
  have kept := name_mapping_only sender.ctx env.pid env.negCounter
  have named := decided.same kept (fun counter => by rw [sent_name])
  simp only [Sender.negotiate]
  split
  · exact ⟨named.on, named.posted, ⟨named.draft, named.stored⟩, named.pending,
      named.silent⟩
  · exact ⟨named.on, named.posted, ⟨named.draft, named.stored⟩, named.pending,
      named.silent⟩

theorem dispatched_booked (opened : Opened sender) (dispatched : Dispatched sender next) :
    Booked next := by
  cases dispatched with
  | tooLarge now waitClock refused =>
      apply finish_booked
      · exact (decide_config sender now waitClock).statsOn.trans opened.on
      · exact decide_posted opened now waitClock
      · exact refused_pending opened refused
      · exact opened.silent
      · intro unsent
        exact ⟨_, rfl⟩
  | negotiating now waitClock env route unmapped waiting =>
      exact negotiate_booked (decide_decided opened route) env
  | sent now waitClock route next decided ready transmitted =>
      exact transmitted_booked (decide_decided opened decided) transmitted

theorem pending_observe (pending : RouteFits sender.ctx) (route : AdaptRoute)
    (size tMeas now : UInt64) : RouteFits (observeCost sender.ctx route size tMeas now) := by
  simp only [observeCost]
  split <;> exact pending

theorem pushed_booked {env : SendEnv} {tMeas : UInt64} {rc : Status} (booked : Booked sender)
    (shm : sender.draft.transport = .shm)
    (running : ∀ counter, sender.running counter =
      if counter = .sendCopyBytes then 0 else sender.current.adds counter) :
    Booked (sender.finishPush env tMeas rc) := by
  have kept := finish_shm_retry_only sender.ctx sender.draft.size tMeas env.clock
    sender.ring.object.parks rc
  apply finish_booked (kept.statsOn.trans booked.on)
  · intro counter
    have counted := @sent_finish_shm sender.ctx counter booked.on sender.draft.size tMeas env.clock
      sender.ring.object.parks rc
    refine counted.trans ?_
    rw [booked.posted counter, running counter, UInt64.add_assoc]
    congr 1
    simp only [Sender.current, kept.lastRoute]
    cases counter <;> simp [Attempt.adds, shm, Attempt.size]
  · simp only [finishShm, count_fields]
    exact pending_observe booked.pending .shm sender.draft.size tMeas env.clock
  · exact booked.silent
  · intro unsent
    exact absurd (shm.symm.trans unsent) (by decide)

theorem datagram_sent_booked {env : SendEnv} {tMeas : UInt64} (booked : Booked sender)
    (uds : sender.draft.transport = .uds)
    (running : ∀ counter, sender.running counter = sender.current.adds counter) :
    Booked ({ sender with
      ctx := finishUds sender.ctx sender.draft.size tMeas env.clock env.status
      draft := { sender.draft with
        placed := if env.status = Except.ok () then some .uds else none } }.finish env.status) := by
  have kept := finish_uds_retry_only sender.ctx sender.draft.size tMeas env.clock env.status
  apply finish_booked (kept.statsOn.trans booked.on)
  · intro counter
    simp only [sent_finish_uds, Sender.current, kept.lastRoute]
    rw [booked.posted counter, running counter]
    cases counter <;> rfl
  · have observed := pending_observe booked.pending .uds sender.draft.size tMeas env.clock
    simp only [finishUds]
    split <;> split
    · exact observed
    · exact booked.pending
    · exact observed
    · exact booked.pending
  · exact booked.silent
  · intro unsent
    exact absurd (uds.symm.trans unsent) (by decide)

/-- Every step of a producer keeps its books. -/
theorem move_booked {action : SendAction} (booked : Booked sender)
    (move : SendMove sender action next) : Booked next := by
  have draft := booked.draft
  have posted := booked.posted
  cases move with
  | rejected env data before code idle bad =>
      simp only [Sender.running, idle] at posted
      exact ⟨booked.on, posted, trivial, booked.pending, booked.silent⟩
  | opened env data before payload idle good mapped =>
      simp only [Sender.running, idle] at posted
      exact ⟨booked.on, posted, ⟨rfl, rfl⟩, booked.pending, booked.silent⟩
  | openedUnmapped env data before payload next idle good unmapped dispatched =>
      simp only [Sender.running, idle, UInt64.add_zero] at posted
      have quiet := quiet_sample sender.ctx (openAttempt payload).size 0 env.clock
      apply dispatched_booked _ dispatched
      exact ⟨quiet.statsOn.trans booked.on, posted, ⟨rfl, rfl⟩,
        booked.pending.same quiet.toSameRetry, booked.silent⟩
  | usedHead env now here =>
      simp only [Sender.running, here] at posted
      rw [here] at draft
      exact ⟨booked.on, posted, draft, booked.pending, booked.silent⟩
  | usedTail env now head here =>
      simp only [Sender.running, here] at posted
      rw [here] at draft
      have quiet := quiet_sample sender.ctx sender.draft.size (head - sender.ring.object.tail) now
      exact ⟨quiet.statsOn.trans booked.on, posted, draft,
        booked.pending.same quiet.toSameRetry, booked.silent⟩
  | freeHead env now occ here =>
      simp only [Sender.running, here] at posted
      rw [here] at draft
      exact ⟨booked.on, posted, draft, booked.pending, booked.silent⟩
  | freeTail env now occ head cap next here dispatched =>
      simp only [Sender.running, here, UInt64.add_zero] at posted
      rw [here] at draft
      have quiet := quiet_monitor sender.ctx occ cap
      apply dispatched_booked _ dispatched
      exact ⟨quiet.statsOn.trans booked.on, fun counter => (sent_monitor occ cap).trans
        (posted counter), draft, booked.pending.same quiet.toSameRetry, booked.silent⟩
  | requestFailed env nowNs code next here refused failed =>
      simp only [Sender.running, here] at posted
      rw [here] at draft
      apply failed_booked _ failed
      exact ⟨booked.on, posted, draft.1, draft.2, booked.pending, booked.silent⟩
  | requested env nowNs here delivered =>
      simp only [Sender.running, here] at posted
      rw [here] at draft
      have quiet := quiet_request sender.ctx nowNs
      have decided := (Decided.mk booked.on posted draft.1 draft.2 booked.pending
        booked.silent).same
        quiet.mappingOnly (fun _ => sent_request nowNs)
      exact ⟨decided.on, decided.posted, ⟨decided.draft, decided.stored⟩, decided.pending,
        decided.silent⟩
  | ackFailed env deadline received code next here arrived failed =>
      simp only [Sender.running, here] at posted
      rw [here] at draft
      apply failed_booked _ failed
      exact ⟨booked.on, posted, draft.1, draft.2, booked.pending, booked.silent⟩
  | polled env deadline here quiet => exact booked
  | ackUnmappable env deadline frame code next here arrived acknowledged failed =>
      simp only [Sender.running, here] at posted
      rw [here] at draft
      apply failed_booked _ failed
      exact (Decided.mk booked.on posted draft.1 draft.2 booked.pending booked.silent).same
        (quiet_ack sender.ctx).mappingOnly (fun _ => sent_ack)
  | ackMapped env deadline frame mapped here arrived acknowledged attached =>
      simp only [Sender.running, here] at posted
      rw [here] at draft
      have decided := (Decided.mk booked.on posted draft.1 draft.2 booked.pending
        booked.silent).same
        ((quiet_ack sender.ctx).mappingOnly.trans (map_mapping_only attached))
        (fun _ => by rw [sent_map attached, sent_ack])
      exact ⟨decided.on, decided.posted, ⟨decided.draft, decided.stored⟩, decided.pending,
        decided.silent⟩
  | mappingFailed env before next here written short failed =>
      simp only [Sender.running, here] at posted
      rw [here] at draft
      apply failed_booked _ failed
      exact ⟨booked.on, posted, draft.1, draft.2, booked.pending, booked.silent⟩
  | negotiated env before grown next here written room transmitted =>
      simp only [Sender.running, here] at posted
      rw [here] at draft
      have decided := (Decided.mk booked.on posted draft.1 draft.2 booked.pending
        booked.silent).same
        (grow_mapping_only room) (fun counter => by rw [sent_grow room])
      apply transmitted_booked _ transmitted
      exact ⟨decided.on, decided.posted, decided.draft, decided.stored, decided.pending,
        decided.silent⟩
  | pushAgain env tMeas ring here full blocks called =>
      simp only [Sender.running, here] at posted
      rw [here] at draft
      exact ⟨booked.on, posted, draft, booked.pending, booked.silent⟩
  | pushed env tMeas rc here returned =>
      rcases here with here | here <;> rw [here] at draft <;>
        exact pushed_booked booked draft (fun counter => by simp only [Sender.running, here])
  | datagramSent env tMeas here =>
      rw [here] at draft
      exact datagram_sent_booked booked draft (fun counter => by simp only [Sender.running, here])
  | ring action after foreign moved =>
      exact ⟨booked.on, posted, draft, booked.pending, booked.silent⟩

end Steps

theorem reachable_booked {cfg : AdaptConfig} {env : InitEnv} {sender : Sender}
    (counting : env.stats = true) (reached : (sendMachine cfg env).Reachable sender) :
    Booked sender := by
  apply Machine.invariant_of_reachable (sendMachine cfg env) Booked _ _ reached
  · intro start starts
    obtain ⟨accepted, ⟨before, idle⟩, none, _⟩ := starts
    have blank := (init_context accepted).1
    constructor
    · rw [blank]
      exact counting
    · intro counter
      rw [blank, none]
      simp only [Sender.running, idle]
      cases counter <;> rfl
    · rw [idle]
      trivial
    · intro stored
      rw [blank] at stored
      exact absurd rfl stored
    · rw [none]
      intro attempt member
      cases member
  · intro before action after booked stepped
    exact move_booked booked (send_step_move stepped)

theorem adds_by_transport (attempt : Attempt) :
    attempt.adds .sends = attempt.adds .sendsShm + attempt.adds .sendsUds +
      one (decide (attempt.transport = .none)) := by
  simp only [Attempt.adds]
  cases attempt.transport <;> rfl

theorem total_by_transport (attempts : List Attempt) :
    total Attempt.adds attempts .sends =
      total Attempt.adds attempts .sendsShm + total Attempt.adds attempts .sendsUds +
        UInt64.ofNat (attempts.countP fun attempt => decide (attempt.transport = .none)) := by
  have silent := @total_count _ Unit UInt64 _ _
    (fun attempt _ => one (decide (attempt.transport = .none))) () _ (fun _ => rfl) attempts
  rw [← counted_word, ← silent]
  simp only [total, adds_by_transport]
  rw [List.sum_map_add, List.sum_map_add]

/-- Between two calls each counter is the sum over the calls so far. Every send is on
exactly one transport counter unless it failed before it called one. -/
theorem counters_sum_attempts {cfg : AdaptConfig} {env : InitEnv} {sender : Sender}
    {before : Option Status} (counting : env.stats = true)
    (reached : (sendMachine cfg env).Reachable sender) (idle : sender.pc = .idle before) :
    (∀ counter, sender.ctx.st.sent counter = total Attempt.adds sender.attempts counter) ∧
      sender.ctx.st.sends = sender.ctx.st.sendsShm + sender.ctx.st.sendsUds +
        UInt64.ofNat (sender.attempts.countP fun attempt => decide (attempt.transport = .none)) ∧
      ∀ attempt ∈ sender.attempts, attempt.transport = .none →
        ∃ code, attempt.result = .error code := by
  have booked := reachable_booked counting reached
  have sums : ∀ counter,
      sender.ctx.st.sent counter = total Attempt.adds sender.attempts counter := by
    intro counter
    have posted := booked.posted counter
    simp only [Sender.running, idle, UInt64.add_zero] at posted
    exact posted
  refine ⟨sums, ?_, booked.silent⟩
  have split := total_by_transport sender.attempts
  rw [← sums .sends, ← sums .sendsShm, ← sums .sendsUds] at split
  exact split

def countingEnv : InitEnv := { plainEnv with stats := true }

def countingContext : AdaptCtx := { plainContext 65536 with statsOn := true }

/-- Two calls of 3 bytes, the first refused by the socket: two sends, two datagrams of
4 framed bytes, two decisions. -/
theorem counters_sum_attempts_datagrams :
    ∃ sender rc, (sendMachine (plainConfig 65536) countingEnv).run
        (startSender countingContext pageRing) refusedThenSent = some sender ∧
      sender.pc = .idle rc ∧ sender.ctx.st.sent .sendCopyBytes = 8 ∧
      sender.ctx.st.sent .decisions = 2 ∧
      sender.ctx.st.sent .sendCopyBytes = total Attempt.adds sender.attempts .sendCopyBytes ∧
      sender.ctx.st.sends = sender.ctx.st.sendsShm + sender.ctx.st.sendsUds +
        UInt64.ofNat (sender.attempts.countP fun attempt =>
          decide (attempt.transport = .none)) := by
  have measured : ((sendMachine (plainConfig 65536) countingEnv).run
      (startSender countingContext pageRing) refusedThenSent).map
        (fun sender => (sender.pc.isIdle, sender.ctx.st.sent .sendCopyBytes,
          sender.ctx.st.sent .decisions)) = some (true, 8, 2) := by decide +kernel
  obtain ⟨sender, ran, result⟩ := Option.map_eq_some_iff.mp measured
  obtain ⟨returned, counted⟩ := Prod.mk.inj result
  obtain ⟨bytes, decisions⟩ := Prod.mk.inj counted
  have reached := Machine.reachable_run (sendMachine (plainConfig 65536) countingEnv)
    ⟨rfl, ⟨none, rfl⟩, rfl, rfl⟩ ran
  obtain ⟨rc, idle⟩ := SendPc.returned returned
  have sums := counters_sum_attempts rfl reached idle
  exact ⟨sender, rc, ran, idle, bytes, decisions, sums.1 .sendCopyBytes, sums.2.1⟩

end AdaptIpc.Endpoint

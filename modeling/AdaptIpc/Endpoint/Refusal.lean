import AdaptIpc.Endpoint.Retry
import AdaptIpc.Endpoint.SendRing
import AdaptIpc.Endpoint.SetupFrame
import AdaptIpc.Endpoint.Routing
import AdaptIpc.Endpoint.Drain
import AdaptIpc.Endpoint.Backpressure
import AdaptIpc.Ring.SizeCheck

/-!
# When a message is too large

The size guard rails of `adapt_send` are to fall back to the transport that can
carry a message. They escalate from UDS to the ring and never the other way, and
they compare with the configured capacity where the ring compares with the
rounded one. A docket of a run records for each call over a mapped ring the
transport it went for, so that its `-EMSGSIZE` can be judged.
-/

namespace AdaptIpc.Endpoint

open AdaptIpc.Ring AdaptIpc.Policy AdaptIpc.Library.Transition AdaptIpc.Library.Cursor

set_option autoImplicit false

/-- The transport a call goes for once the guard rails have escalated it. -/
def Sender.chosen (sender : Sender) (now waitClock : UInt64) : AdaptRoute :=
  escalated (routeMessage sender.ctx sender.draft.size now waitClock).1 sender.draft.size

/-- One call: whether it found a mapped ring, the transport it went for there, and how it
went. -/
structure Filing where
  mapped : Bool
  route : AdaptRoute
  attempt : Attempt

structure Docket where
  sender : Sender
  mapped : Bool
  route : AdaptRoute
  filings : List Filing

def Sender.monitored (sender : Sender) (occ head : UInt64) : Sender :=
  let cap := occ + (sender.ring.producerCapacity.size - (head - sender.ring.object.tail))
  { sender with ctx := monitorHealth sender.ctx occ cap }

def Docket.observe (docket : Docket) (action : SendAction) : Docket :=
  match action with
  | .call _ _ => { docket with mapped := docket.sender.ctx.ring.isSome, route := .none }
  | .step env =>
      match docket.sender.pc with
      | .freeTail now occ head =>
          { docket with route := (docket.sender.monitored occ head).chosen now env.waitClock }
      | _ => docket
  | .ring _ => docket

def Docket.record (docket : Docket) (action : SendAction) (next : Sender) : Docket :=
  let observed := docket.observe action
  { observed with
    sender := next
    filings := docket.filings ++
      (next.attempts.drop docket.sender.attempts.length).map fun attempt =>
        { mapped := observed.mapped, route := observed.route, attempt := attempt } }

def docketMachine (cfg : AdaptConfig) (env : InitEnv) : Machine Docket SendAction where
  initial docket := (sharedMachine cfg env).initial docket.sender ∧ docket.filings = []
  step docket action := (sendStep docket.sender action).map (docket.record action)

def Attempt.frame (attempt : Attempt) : Nat := attempt.payload.length + 1

/-- Payloads are at most `PTRDIFF_MAX` bytes, and the kernel never refuses a datagram of
at most `UDS_MAX_DGRAM` bytes for its size. -/
def ordinary (docket : Docket) : SendAction → Bool
  | .call _ (some payload) => decide (payload.length < 2 ^ 63)
  | .step env =>
      match docket.sender.pc with
      | .udsSend _ =>
          decide (docket.sender.draft.frame ≤ udsMaxDgram.toNat → env.status ≠ .error .emsgsize)
      | _ => true
  | _ => true

/-- Neither a datagram nor the ring carries the frame. -/
def Unsendable (capacity : RingCapacity) (attempt : Attempt) : Prop :=
  udsMaxDgram.toNat < attempt.frame ∧ capacity.bytes < attempt.frame + 8

/-- Both the guard rail and the ring let the frame pass. -/
def Passes (shmCapacity : UInt64) (capacity : RingCapacity) (attempt : Attempt) : Prop :=
  attempt.frame ≤ shmCapacity.toNat ∧ attempt.frame + 8 ≤ capacity.bytes

structure Filed (shmCapacity : UInt64) (capacity : RingCapacity) (filing : Filing) : Prop where
  datagram : filing.mapped = true → filing.route ≠ .shm →
    filing.attempt.result ≠ .error .emsgsize
  admitted : filing.mapped = true → filing.route = .shm →
    Passes shmCapacity capacity filing.attempt → filing.attempt.result ≠ .error .emsgsize
  refused : filing.mapped = true → filing.route = .shm →
    ¬Passes shmCapacity capacity filing.attempt →
      filing.attempt.result = .error .emsgsize ∨ filing.attempt.result = .error .eintr

theorem filed_unmapped {shmCapacity : UInt64} {capacity : RingCapacity} {filing : Filing}
    (unmapped : filing.mapped = false) : Filed shmCapacity capacity filing := by
  constructor
  all_goals
    intro mapped
    rw [unmapped] at mapped
    cases mapped

section Moves

variable {sender next : Sender}

theorem transmitted_ring {route : AdaptRoute} (transmitted : Transmitted sender route next) :
    next.ring.producerCapacity = sender.ring.producerCapacity := by
  cases transmitted with
  | push ring tMeas shm called =>
      exact (@same_capacity_step sender.ring ring (.callProducer _) called).1
  | datagram tMeas other => rfl

theorem failed_ring {hrc : Errno} (failed : HandshakeFailed sender hrc next) :
    next.ring.producerCapacity = sender.ring.producerCapacity := by
  cases failed with
  | refused large => rfl
  | degraded tMeas small => rfl

theorem dispatched_ring (dispatched : Dispatched sender next) :
    next.ring.producerCapacity = sender.ring.producerCapacity := by
  cases dispatched with
  | tooLarge now waitClock refused => rfl
  | negotiating now waitClock env route unmapped waiting => rfl
  | sent now waitClock route next decided ready transmitted =>
      have same := transmitted_ring transmitted
      exact same

/-- The producer's capacity is the one that belongs to the configuration throughout. -/
theorem move_capacity {action : SendAction} (fitted : Fitted sender.ctx sender.ring)
    (move : SendMove sender action next) :
    next.ring.producerCapacity = sender.ring.producerCapacity := by
  cases move with
  | openedUnmapped env data before payload next idle good unmapped dispatched =>
      have same := dispatched_ring dispatched
      exact same
  | freeTail env now occ head cap next here dispatched =>
      have same := dispatched_ring dispatched
      exact same
  | requestFailed env nowNs code next here refused failed => exact failed_ring failed
  | ackFailed env deadline received code next here arrived failed => exact failed_ring failed
  | ackUnmappable env deadline frame code next here arrived acknowledged failed =>
      have same := failed_ring failed
      exact same
  | ackMapped env deadline frame mapped here arrived acknowledged attached =>
      have same := attach_ring_same (fitted.same (quiet_ack sender.ctx).toSameConfig) attached
      have capacity := congrArg RingState.producerCapacity same
      exact capacity
  | mappingFailed env before next here written short failed =>
      have same := failed_ring failed
      exact same
  | negotiated env before grown next here written room transmitted =>
      have same := transmitted_ring transmitted
      exact same
  | pushAgain env tMeas ring here full blocks called =>
      exact (@same_capacity_step sender.ring ring (.callProducer _) called).1
  | ring action after foreign moved => exact (same_capacity_step moved).1
  | _ => rfl

/-- With a mapped ring the decision is followed by the guard rail or by the branch. -/
theorem dispatch_mapped {env : SendEnv} {now : UInt64}
    (mapped : sender.ctx.ring.isSome = true) (dispatched : sender.dispatch env now = some next) :
    (sender.chosen now env.waitClock = .shm ∧ sender.ctx.shmCapacity < sender.draft.size + 1 ∧
        next = (sender.decide now env.waitClock).2.finish (.error .emsgsize)) ∨
      (¬(sender.chosen now env.waitClock = .shm ∧
          sender.ctx.shmCapacity < sender.draft.size + 1) ∧
        Transmitted (sender.decide now env.waitClock).2 (sender.chosen now env.waitClock)
          next) := by
  have routed : (routeMessage sender.ctx sender.draft.size now env.waitClock).2.shmCapacity =
      sender.ctx.shmCapacity := by
    simp only [routeMessage]
    split
    · rfl
    · exact (classify_config _ _ _ _).shmCapacity
  have decided : (sender.decide now env.waitClock).1 =
      if sender.chosen now env.waitClock = .shm ∧
        sender.ctx.shmCapacity < sender.draft.size + 1 then .error .emsgsize
      else .ok (sender.chosen now env.waitClock) := by
    rw [← routed]
    exact guard_result _ _ _
  have held : (sender.decide now env.waitClock).2.ctx.ring ≠ none := by
    rw [(decide_mapping sender now env.waitClock).ring]
    intro none
    rw [none] at mapped
    cases mapped
  simp only [Sender.dispatch, decided] at dispatched
  by_cases refused : sender.chosen now env.waitClock = .shm ∧
      sender.ctx.shmCapacity < sender.draft.size + 1
  · rw [if_pos refused] at dispatched
    exact Or.inl ⟨refused.1, refused.2, (Option.some.inj dispatched).symm⟩
  · rw [if_neg refused] at dispatched
    have elsewhere : ¬(sender.chosen now env.waitClock = .shm ∧
        (sender.decide now env.waitClock).2.ctx.ring = none) := fun both => held both.2
    simp only [if_neg elsewhere] at dispatched
    exact Or.inr ⟨refused, transmit_transmitted dispatched⟩

end Moves

structure Sizable (payload : List UInt8) : Prop where
  nonempty : payload ≠ []
  short : payload.length < 2 ^ 63

structure InPush (route : AdaptRoute) (sender : Sender) : Prop where
  route : route = .shm
  sizable : Sizable sender.draft.payload
  railed : sender.draft.payload.length + 1 ≤ sender.ctx.shmCapacity.toNat
  sized : Sized sender.ring.producerCapacity (shmSegments sender.draft.payload)
    sender.ring.producer

def DocketAt (mapped : Bool) (route : AdaptRoute) (sender : Sender) : SendPc → Prop
  | .idle _ => True
  | .request _ => mapped = false
  | .awaitAck _ => mapped = false
  | .mapping => mapped = false
  | .udsSend _ => mapped = true → route ≠ .shm ∧ sender.draft.frame ≤ udsMaxDgram.toNat
  | .pushDirect _ => mapped = true → InPush route sender
  | .pushBlocking _ => mapped = true → InPush route sender
  | _ => mapped = true ∧ Sizable sender.draft.payload

structure Docketed (docket : Docket) : Prop where
  place : DocketAt docket.mapped docket.route docket.sender docket.sender.pc
  mapped : SenderMapped docket.sender
  fitted : Fitted docket.sender.ctx docket.sender.ring
  filed : ∀ filing ∈ docket.filings,
    Filed docket.sender.ctx.shmCapacity docket.sender.ring.producerCapacity filing

structure Handled (docket : Docket) (next : Sender) : Prop where
  place : DocketAt docket.mapped docket.route next next.pc
  closed : ∀ attempt ∈ next.attempts.drop docket.sender.attempts.length,
    Filed docket.sender.ctx.shmCapacity docket.sender.ring.producerCapacity
      { mapped := docket.mapped, route := docket.route, attempt := attempt }

section Steps

variable {docket : Docket} {sender next : Sender}

theorem sizable_admits {payload : List UInt8} (sizable : Sizable payload)
    (capacity : RingCapacity) :
    Checked capacity (shmSegments payload) ∧
      (Admits capacity (shmSegments payload) ↔ payload.length + 1 + 8 ≤ capacity.bytes) := by
  have length := segments_length payload
  have short := sizable.short
  rw [← length]
  apply admits_iff
  · simp [shmSegments, ShmSegment.isNull]
  · intro empty
    rw [empty] at length
    cases length
  · rw [length]
    omega

theorem guard_rail_iff {draft : Attempt} (sizable : Sizable draft.payload)
    (shmCapacity : UInt64) :
    shmCapacity < draft.size + 1 ↔ shmCapacity.toNat < draft.payload.length + 1 := by
  have short := sizable.short
  have sum : draft.size + 1 = cursor (draft.payload.length + 1) :=
    cursor_add draft.payload.length 1
  rw [sum, UInt64.lt_iff_toNat_lt, cursor_toNat _ (by omega)]

theorem handled_open (attempts : next.attempts = docket.sender.attempts)
    (place : DocketAt docket.mapped docket.route next next.pc) : Handled docket next where
  place := place
  closed := by
    intro attempt member
    simp [attempts] at member

theorem handled_finish {rc : Status} (attempts : sender.attempts = docket.sender.attempts)
    (filed : Filed docket.sender.ctx.shmCapacity docket.sender.ring.producerCapacity
      { mapped := docket.mapped, route := docket.route, attempt := sender.closed rc }) :
    Handled docket (sender.finish rc) where
  place := trivial
  closed := by
    intro attempt member
    have only : attempt = sender.closed rc := by
      simpa [Sender.finish, attempts] using member
    rw [only]
    exact filed

theorem handled_unmapped (unmapped : docket.mapped = false) (decided : next.pc.undecided = false) :
    Handled docket next where
  place := by
    have vacuous : ∀ {p : Prop}, docket.mapped = true → p := by
      intro p mapped
      rw [unmapped] at mapped
      cases mapped
    cases here : next.pc with
    | idle rc => trivial
    | request now => exact unmapped
    | awaitAck deadline => exact unmapped
    | mapping => exact unmapped
    | udsSend t => exact vacuous
    | pushDirect t => exact vacuous
    | pushBlocking t => exact vacuous
    | _ =>
        rw [here] at decided
        cases decided
  closed := fun attempt _ => filed_unmapped unmapped

theorem observe_docket (docket : Docket) (action : SendAction) :
    (docket.observe action).sender = docket.sender ∧
      (docket.observe action).filings = docket.filings := by
  simp only [Docket.observe]
  split
  · exact ⟨rfl, rfl⟩
  · split <;> exact ⟨rfl, rfl⟩
  · exact ⟨rfl, rfl⟩

theorem handled_docketed {action : SendAction} (docketed : Docketed docket)
    (move : SendMove docket.sender action next)
    (handled : Handled (docket.observe action) next) : Docketed (docket.record action next) := by
  have kept := move_config move
  have capacity := move_capacity docketed.fitted move
  have same := observe_docket docket action
  constructor
  · exact handled.place
  · exact move_mapped docketed.mapped move
  · have fitted := docketed.fitted.same kept
    rw [Fitted, ← capacity] at fitted
    exact fitted
  · intro filing member
    have sizes : (docket.record action next).sender.ctx.shmCapacity =
        docket.sender.ctx.shmCapacity := kept.shmCapacity
    have room : (docket.record action next).sender.ring.producerCapacity =
        docket.sender.ring.producerCapacity := capacity
    rw [sizes, room]
    rcases List.mem_append.mp member with old | new
    · exact docketed.filed filing old
    · obtain ⟨attempt, finished, rfl⟩ := List.mem_map.mp new
      have closed := handled.closed attempt (by rw [same.1]; exact finished)
      rw [same.1] at closed
      exact closed

theorem transmitted_handled (attempts : sender.attempts = docket.sender.attempts)
    (sizable : Sizable sender.draft.payload)
    (railed : docket.route = .shm → sender.draft.payload.length + 1 ≤ sender.ctx.shmCapacity.toNat)
    (small : docket.route ≠ .shm → sender.draft.frame ≤ udsMaxDgram.toNat)
    (transmitted : Transmitted sender docket.route next) : Handled docket next := by
  cases transmitted with
  | push ring tMeas shm called =>
      obtain ⟨_, entered⟩ := call_producer_entered called
      have checked := (sizable_admits sizable sender.ring.producerCapacity).1
      have inPush : InPush docket.route (sender.startPush ring tMeas) := by
        refine ⟨shm, sizable, ?_, ?_⟩
        · have config := (quiet_push sender ring tMeas).toSameConfig
          exact (railed shm).trans_eq (congrArg UInt64.toNat config.shmCapacity.symm)
        · rw [entered]
          simp only [Sender.startPush, shmCall]
          split
          · exact (call_sized checked).1
          · exact (call_sized checked).2
      refine handled_open attempts ?_
      cases direct : pushesDirectly sender.ctx with
      | true =>
          rw [start_push_direct ring tMeas direct]
          exact fun _ => inPush
      | false =>
          rw [start_push_blocking ring tMeas direct]
          exact fun _ => inPush
  | datagram tMeas other => exact handled_open attempts fun _ => ⟨other, small other⟩

theorem chosen_fits {now waitClock : UInt64} (sizable : Sizable sender.draft.payload)
    (other : sender.chosen now waitClock ≠ .shm) : sender.draft.frame ≤ udsMaxDgram.toNat := by
  by_contra exceeds
  have large : udsMaxDgram < sender.draft.size + 1 :=
    (guard_rail_iff sizable udsMaxDgram).mpr (Nat.not_le.mp exceeds)
  exact other (escalated_large _ (decide_eq_true large))

theorem decided_handled {env : SendEnv} {now : UInt64}
    (attempts : sender.attempts = docket.sender.attempts)
    (config : sender.ctx.shmCapacity = docket.sender.ctx.shmCapacity)
    (mapped : sender.ctx.ring.isSome = true) (sizable : Sizable sender.draft.payload)
    (route : docket.route = sender.chosen now env.waitClock)
    (dispatched : sender.dispatch env now = some next) : Handled docket next := by
  have size := guard_rail_iff sizable sender.ctx.shmCapacity
  rcases dispatch_mapped mapped dispatched with ⟨shm, exceeds, rfl⟩ | ⟨passed, transmitted⟩
  · refine handled_finish attempts ?_
    have large : ¬Passes docket.sender.ctx.shmCapacity docket.sender.ring.producerCapacity
        (Sender.closed (sender.decide now env.waitClock).2 (.error .emsgsize)) := by
      intro passes
      rw [config] at size exceeds
      exact absurd passes.1 (Nat.not_le.mpr (size.mp exceeds))
    constructor
    · exact fun _ other => absurd (route.trans shm) other
    · exact fun _ _ passes => absurd passes large
    · exact fun _ _ _ => Or.inl rfl
  · rw [← route] at transmitted passed
    refine @transmitted_handled docket (sender.decide now env.waitClock).2 next attempts
      sizable ?_ ?_ transmitted
    · intro shm
      rw [(decide_config sender now env.waitClock).shmCapacity]
      exact Nat.not_lt.mp fun exceeds => passed ⟨shm, size.mpr exceeds⟩
    · intro other
      have fits : sender.draft.frame ≤ udsMaxDgram.toNat := chosen_fits sizable (route ▸ other)
      exact fits

theorem free_tail_step {env : SendEnv} {now occ head : UInt64}
    (here : sender.pc = .freeTail now occ head) :
    sender.step env = (sender.monitored occ head).dispatch env now := by
  simp only [Sender.step, here, Sender.monitored]

theorem push_ring_step {action : RingAction} {after : RingState} {pc : SendPc}
    (place : docket.mapped = true → InPush docket.route sender)
    (foreign : action.entersProducer = false) (moved : ringStep sender.ring action = some after) :
    docket.mapped = true → InPush docket.route { sender with ring := after, pc := pc } := by
  intro mapped
  have push := place mapped
  have checked := (sizable_admits push.sizable sender.ring.producerCapacity).1
  exact ⟨push.route, push.sizable, push.railed, ring_step_sized checked push.sized foreign moved⟩

theorem pushed_handled {env : SendEnv} {tMeas : UInt64} {rc : Status}
    (inPush : docket.mapped = true → InPush docket.route docket.sender)
    (returned : pushResult docket.sender.ring = some rc) :
    Handled docket (docket.sender.finishPush env tMeas rc) := by
  refine handled_finish rfl ?_
  have idle : docket.sender.ring.producer = .idle (some rc) := by
    simp only [pushResult] at returned
    split at returned
    · next result place =>
      cases returned
      exact place
    · cases returned
  have answers : docket.mapped = true → Ring.Answers docket.sender.ring.producerCapacity
      (shmSegments docket.sender.draft.payload) rc := by
    intro mapped
    have sized := (inPush mapped).sized
    rw [idle] at sized
    exact sized
  have admits := fun mapped => (sizable_admits (inPush mapped).sizable
    docket.sender.ring.producerCapacity).2
  constructor
  · exact fun mapped other => absurd (inPush mapped).route other
  · intro mapped _ passes
    exact (answers mapped).admitted ((admits mapped).mpr passes.2)
  · intro mapped _ large
    apply (answers mapped).refused
    intro admitted
    exact large ⟨(inPush mapped).railed, (admits mapped).mp admitted⟩

theorem ordinary_call {env : SendEnv} {payload : List UInt8}
    (good : checkArguments docket.sender.ctx (some payload) = .ok payload)
    (allowed : ordinary docket (.call env (some payload)) = true) : Sizable payload :=
  ⟨arguments_nonempty good, of_decide_eq_true allowed⟩

theorem move_docketed {action : SendAction} (docketed : Docketed docket)
    (allowed : ordinary docket action = true)
    (stepped : sendStep docket.sender action = some next) :
    Docketed (docket.record action next) := by
  have move := send_step_move stepped
  have place := docketed.place
  have mapping := docketed.mapped
  apply handled_docketed docketed move
  cases move with
  | rejected env data before code idle bad => exact handled_open rfl trivial
  | opened env data before payload idle good mapped =>
      cases arguments_payload good
      exact handled_open rfl ⟨mapped, ordinary_call good allowed⟩
  | openedUnmapped env data before payload next idle good unmapped dispatched =>
      have none : docket.sender.ctx.ring.isSome = false := by rw [unmapped]; rfl
      obtain ⟨_, decided⟩ := @dispatched_routed _ _ (fun _ => True) trivial dispatched
      exact handled_unmapped none decided
  | usedHead env now here =>
      rw [here] at place
      simp only [Docket.observe, here]
      exact handled_open rfl place
  | usedTail env now head here =>
      rw [here] at place
      simp only [Docket.observe, here]
      exact handled_open rfl place
  | freeHead env now occ here =>
      rw [here] at place
      simp only [Docket.observe, here]
      exact handled_open rfl place
  | freeTail env now occ head cap next here dispatched =>
      rw [here] at place
      rw [SenderMapped, here] at mapping
      have decided : (docket.sender.monitored occ head).dispatch env now = some next :=
        (free_tail_step here).symm.trans stepped
      have quiet := quiet_monitor docket.sender.ctx occ
        (occ + (docket.sender.ring.producerCapacity.size -
          (head - docket.sender.ring.object.tail)))
      have held : (docket.sender.monitored occ head).ctx.ring.isSome = true :=
        (congrArg Option.isSome quiet.ring).trans mapping
      simp only [Docket.observe, here]
      exact @decided_handled
        { docket with route := (docket.sender.monitored occ head).chosen now env.waitClock }
        (docket.sender.monitored occ head) next env now rfl quiet.shmCapacity held place.2 rfl decided
  | requestFailed env nowNs code next here refused failed =>
      rw [here] at place
      simp only [Docket.observe, here]
      exact handled_unmapped place (failed_continues failed).decided
  | requested env nowNs here delivered =>
      rw [here] at place
      simp only [Docket.observe, here]
      exact handled_open rfl place
  | ackFailed env deadline received code next here arrived failed =>
      rw [here] at place
      simp only [Docket.observe, here]
      exact handled_unmapped place (failed_continues failed).decided
  | polled env deadline here quiet =>
      simp only [Docket.observe, here]
      exact handled_open rfl place
  | ackUnmappable env deadline frame code next here arrived acknowledged failed =>
      rw [here] at place
      simp only [Docket.observe, here]
      exact handled_unmapped place (failed_continues failed).decided
  | ackMapped env deadline frame attachedCtx here arrived acknowledged attached =>
      rw [here] at place
      simp only [Docket.observe, here]
      exact handled_open rfl place
  | mappingFailed env before next here written short failed =>
      rw [here] at place
      simp only [Docket.observe, here]
      exact handled_unmapped place (failed_continues failed).decided
  | negotiated env before grown next here written room transmitted =>
      rw [here] at place
      simp only [Docket.observe, here]
      exact handled_unmapped place (transmitted_continues transmitted).decided
  | pushAgain env tMeas ring here full blocks called =>
      rw [here] at place
      simp only [Docket.observe, here]
      refine handled_open rfl ?_
      intro mapped
      have inPush := place mapped
      have checked := (sizable_admits inPush.sizable docket.sender.ring.producerCapacity).1
      obtain ⟨_, entered⟩ := call_producer_entered called
      refine ⟨inPush.route, inPush.sizable, inPush.railed, ?_⟩
      rw [entered]
      exact (call_sized checked).2
  | pushed env tMeas rc here returned =>
      rcases here with here | here <;> rw [here] at place <;> simp only [Docket.observe, here] <;>
        exact pushed_handled place returned
  | datagramSent env tMeas here =>
      rw [here] at place
      have carried : docket.mapped = true → env.status ≠ .error .emsgsize := by
        intro mapped
        simp only [ordinary, here, decide_eq_true_eq] at allowed
        exact allowed (place mapped).2
      simp only [Docket.observe, here]
      refine handled_finish rfl ?_
      constructor
      · exact fun mapped _ => carried mapped
      · exact fun mapped _ _ => carried mapped
      · exact fun mapped shm _ => absurd shm (place mapped).1
  | ring action after foreign moved =>
      refine handled_open rfl ?_
      cases here : docket.sender.pc with
      | pushDirect t =>
          rw [here] at place
          exact push_ring_step place foreign moved
      | pushBlocking t =>
          rw [here] at place
          exact push_ring_step place foreign moved
      | _ =>
          rw [here] at place
          exact place

end Steps

theorem docket_reachable {cfg : AdaptConfig} {env : InitEnv} {docket : Docket}
    (reached : ((docketMachine cfg env).guarded ordinary).Reachable docket) : Docketed docket := by
  apply Machine.invariant_of_reachable ((docketMachine cfg env).guarded ordinary) Docketed _ _
    reached
  · rintro start ⟨⟨⟨accepted, ⟨before, idle⟩, _⟩, new⟩, none⟩
    refine ⟨?_, ?_, new.fitted, ?_⟩
    · rw [idle]
      trivial
    · rw [SenderMapped, idle]
      exact (init_starts accepted).2
    · rw [none]
      simp
  · intro before action after held stepped
    obtain ⟨allowed, stepped⟩ := Machine.guarded_step stepped
    obtain ⟨next, moved, rfl⟩ := Option.map_eq_some_iff.mp stepped
    exact move_docketed held allowed moved

/-- The calls whose `-EMSGSIZE` would be justified: the message goes for a datagram, both
limits let it pass, or no transport carries it. -/
def Sound (shmCapacity : UInt64) (capacity : RingCapacity) (filing : Filing) : Prop :=
  filing.route = .shm →
    Passes shmCapacity capacity filing.attempt ∨ Unsendable capacity filing.attempt

/-- A call over a mapped ring returns `-EMSGSIZE` only for what no transport carries, if
and, interrupted waits apart, only if its message is sound. -/
theorem emsgsize_justified_iff {cfg : AdaptConfig} {env : InitEnv} {docket : Docket}
    (reached : ((docketMachine cfg env).guarded ordinary).Reachable docket)
    {filing : Filing} (filed : filing ∈ docket.filings) (mapped : filing.mapped = true) :
    (Sound docket.sender.ctx.shmCapacity docket.sender.ring.producerCapacity filing →
      (filing.attempt.result = .error .emsgsize →
        Unsendable docket.sender.ring.producerCapacity filing.attempt)) ∧
    ((filing.attempt.result = .error .emsgsize →
        Unsendable docket.sender.ring.producerCapacity filing.attempt) →
      filing.attempt.result = .error .eintr ∨
        Sound docket.sender.ctx.shmCapacity docket.sender.ring.producerCapacity filing) := by
  have law := (docket_reachable reached).filed filing filed
  constructor
  · intro sound refused
    by_cases shm : filing.route = .shm
    · rcases sound shm with passes | unsendable
      · exact absurd refused (law.admitted mapped shm passes)
      · exact unsendable
    · exact absurd refused (law.datagram mapped shm)
  · intro justified
    by_cases shm : filing.route = .shm
    · by_cases passes : Passes docket.sender.ctx.shmCapacity docket.sender.ring.producerCapacity
          filing.attempt
      · exact Or.inr fun _ => Or.inl passes
      · rcases law.refused mapped shm passes with refused | interrupted
        · exact Or.inr fun _ => Or.inr (justified refused)
        · exact Or.inl interrupted
    · exact Or.inr fun route => absurd route shm

def refusedCall (payload : List UInt8) : List SendAction :=
  .call quietEnv (some payload) :: List.replicate 5 (.step quietEnv)

def measuredDocket : Docket where
  sender := measuredSender
  mapped := false
  route := .none
  filings := []

theorem docket_starts : (docketMachine measuredConfig eagerEnv).initial measuredDocket := by
  refine ⟨⟨⟨rfl, ⟨none, rfl⟩, rfl, rfl⟩, ?_⟩, rfl⟩
  constructor
  case consumer => exact Or.inr rfl
  all_goals rfl

/-- No transport carries five thousand bytes here. -/
theorem emsgsize_justified_5000_bytes : ∃ (docket : Docket) (filing : Filing),
    filing ∈ docket.filings ∧ filing.attempt.result = .error .emsgsize ∧
      Unsendable docket.sender.ring.producerCapacity filing.attempt := by
  have ran : (((docketMachine measuredConfig eagerEnv).guarded ordinary).run measuredDocket
      ((refusedCall (List.replicate 5000 0)).take 5)).map
        (fun docket => (docket.filings.map fun filing =>
          (filing.mapped, filing.attempt.result, filing.attempt.payload.length),
          docket.sender.ring.producerCapacity.bytes)) =
      some ([(true, .error .emsgsize, 5000)], 4096) := by
    decide +kernel
  obtain ⟨docket, run, facts⟩ := Option.map_eq_some_iff.mp ran
  have reached := Machine.reachable_run
    ((docketMachine measuredConfig eagerEnv).guarded ordinary) docket_starts run
  obtain ⟨filed, capacity⟩ := Prod.mk.inj facts
  rcases filings : docket.filings with _ | ⟨filing, rest⟩
  · simp [filings] at filed
  · simp only [filings, List.map_cons, List.cons.injEq, Prod.mk.injEq] at filed
    have member : filing ∈ docket.filings := by rw [filings]; exact List.mem_cons_self
    refine ⟨docket, filing, member, filed.1.2.1, ?_⟩
    refine (emsgsize_justified_iff reached member filed.1.1).1 ?_ filed.1.2.1
    intro _
    right
    constructor
    · rw [Attempt.frame, filed.1.2.2]
      decide
    · rw [Attempt.frame, filed.1.2.2, capacity]
      decide

/-- The decision is for the ring, whose records end eight bytes below its capacity, and the
message would have been carried by a datagram. -/
theorem datagram_sized_refusal : ∃ (docket : Docket) (filing : Filing),
    (docketMachine measuredConfig eagerEnv).Reachable docket ∧ filing ∈ docket.filings ∧
      filing.mapped = true ∧ filing.attempt.result = .error .emsgsize ∧
      filing.attempt.frame = 4091 ∧
      ¬Unsendable docket.sender.ring.producerCapacity filing.attempt := by
  have ran : ((docketMachine measuredConfig eagerEnv).run measuredDocket
      (refusedCall (List.replicate 4090 0))).map
        (fun docket => docket.filings.map fun filing =>
          (filing.mapped, filing.attempt.result, filing.attempt.payload.length)) =
      some [(true, .error .emsgsize, 4090)] := by
    decide +kernel
  obtain ⟨docket, run, filed⟩ := Option.map_eq_some_iff.mp ran
  have reached := Machine.reachable_run (docketMachine measuredConfig eagerEnv) docket_starts run
  rcases filings : docket.filings with _ | ⟨filing, rest⟩
  · simp [filings] at filed
  · simp only [filings, List.map_cons, List.cons.injEq, Prod.mk.injEq] at filed
    have member : filing ∈ docket.filings := by rw [filings]; exact List.mem_cons_self
    have frame : filing.attempt.frame = 4091 := by rw [Attempt.frame, filed.1.2.2]
    refine ⟨docket, filing, reached, member, filed.1.1, filed.1.2.1, frame, ?_⟩
    intro unsendable
    have exceeds := unsendable.1
    rw [frame] at exceeds
    exact absurd exceeds (by decide)

end AdaptIpc.Endpoint

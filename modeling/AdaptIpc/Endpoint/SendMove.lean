import AdaptIpc.Endpoint.Send

/-!
# What one step of `adapt_send` does

The steps of the producer endpoint, flattened: one constructor for each way a
step can go, with the guard it passed and the endpoint it leaves. Invariants of
`adapt_send` are proved over these moves and never unfold the step function.
-/

namespace AdaptIpc.Endpoint

open AdaptIpc.Ring AdaptIpc.Policy AdaptIpc.Library.Transition

set_option autoImplicit false

theorem start_push_direct {sender : Sender} (ring : RingState) (tMeas : UInt64)
    (direct : pushesDirectly sender.ctx = true) :
    (sender.startPush ring tMeas).pc = .pushDirect tMeas := by
  simp only [Sender.startPush, direct, if_true]

theorem start_push_blocking {sender : Sender} (ring : RingState) (tMeas : UInt64)
    (waits : pushesDirectly sender.ctx = false) :
    (sender.startPush ring tMeas).pc = .pushBlocking tMeas := by
  simp [Sender.startPush, waits]

inductive Transmitted (sender : Sender) (route : AdaptRoute) : Sender → Prop where
  | push (ring : RingState) (tMeas : UInt64) (shm : route = .shm)
      (called : callProducer sender.ring (shmCall sender.ctx sender.draft.payload) = some ring)
      (untimed : sender.ctx.policy.measures = false → tMeas = 0) :
      Transmitted sender route (sender.startPush ring tMeas)
  | datagram (tMeas : UInt64) (other : route ≠ .shm) :
      Transmitted sender route (sender.startDatagram tMeas)

theorem transmit_transmitted {sender next : Sender} {route : AdaptRoute} {now : UInt64}
    (sent : sender.transmit route now = some next) : Transmitted sender route next := by
  simp only [Sender.transmit] at sent
  split at sent
  · next shm =>
    obtain ⟨ring, called, rfl⟩ := Option.map_eq_some_iff.mp sent
    apply Transmitted.push ring _ shm called
    intro other
    rw [other]
    rfl
  · next other =>
    cases sent
    exact .datagram _ other

inductive HandshakeFailed (sender : Sender) (hrc : Errno) : Sender → Prop where
  | refused (large : oversize sender.draft.size = true) :
      HandshakeFailed sender hrc ((sender.handshakeFailure hrc).2.finish
        (.error (if hrc = .etimedout then .eagain else hrc)))
  | degraded (tMeas : UInt64) (small : oversize sender.draft.size = false) :
      HandshakeFailed sender hrc ((sender.handshakeFailure hrc).2.startDatagram tMeas)

theorem fail_handshake_failed {sender next : Sender} {hrc : Errno} {now : UInt64}
    (failed : sender.failHandshake hrc now = some next) : HandshakeFailed sender hrc next := by
  cases large : oversize sender.draft.size with
  | true =>
      have code : (sender.handshakeFailure hrc).1 =
          .error (if hrc = .etimedout then .eagain else hrc) := by
        simp only [Sender.handshakeFailure, handshakeFailed, large, if_true]
      simp only [Sender.failHandshake, code, Option.some.injEq] at failed
      rw [← failed]
      exact .refused large
  | false =>
      have route : (sender.handshakeFailure hrc).1 = .ok .uds := by
        simp [Sender.handshakeFailure, handshakeFailed, large]
      simp only [Sender.failHandshake, route] at failed
      cases transmit_transmitted failed with
      | push ring tMeas shm called => cases shm
      | datagram tMeas other => exact .degraded tMeas large

inductive Dispatched (sender : Sender) : Sender → Prop where
  | tooLarge (now waitClock : UInt64)
      (refused : (sender.decide now waitClock).1 = .error .emsgsize) :
      Dispatched sender ((sender.decide now waitClock).2.finish (.error .emsgsize))
  | negotiating (now waitClock : UInt64) (env : SendEnv)
      (route : (sender.decide now waitClock).1 = .ok .shm)
      (unmapped : (sender.decide now waitClock).2.ctx.ring = none)
      (waiting : (sender.decide now waitClock).2.ctx.negotDone = false) :
      Dispatched sender ((sender.decide now waitClock).2.negotiate env)
  | sent (now waitClock : UInt64) (route : AdaptRoute) (next : Sender)
      (decided : (sender.decide now waitClock).1 = .ok route)
      (mapped : route = .shm → (sender.decide now waitClock).2.ctx.ring = none →
        (sender.decide now waitClock).2.ctx.negotDone = true)
      (transmitted : Transmitted (sender.decide now waitClock).2 route next) :
      Dispatched sender next

theorem decide_refuses {sender : Sender} {now waitClock : UInt64} {code : Errno}
    (refused : (sender.decide now waitClock).1 = .error code) : code = .emsgsize := by
  simp only [Sender.decide, guardRails] at refused
  split at refused <;> split at refused <;> cases refused <;> rfl

theorem dispatch_dispatched {sender next : Sender} {env : SendEnv} {now : UInt64}
    (dispatched : sender.dispatch env now = some next) : Dispatched sender next := by
  simp only [Sender.dispatch] at dispatched
  split at dispatched
  · next code refused =>
    cases dispatched
    cases decide_refuses refused
    exact .tooLarge now env.waitClock refused
  · next route decided =>
    split at dispatched
    · next unmapped =>
      obtain ⟨rfl, none⟩ := unmapped
      simp only [Sender.ensureShm] at dispatched
      split at dispatched
      · next done =>
        exact .sent now env.waitClock .shm next decided (fun _ _ => done)
          (transmit_transmitted dispatched)
      · next waiting =>
        cases dispatched
        exact .negotiating now env.waitClock env decided none (by simpa using waiting)
    · next mapped =>
      apply Dispatched.sent now env.waitClock route next decided
      · intro shm none
        exact absurd ⟨shm, none⟩ mapped
      · exact transmit_transmitted dispatched

/-- One step of the endpoint, by the action that makes it. -/
inductive SendMove (sender : Sender) : SendAction → Sender → Prop where
  | rejected (env : SendEnv) (data : Option (List UInt8)) (before : Option Status) (code : Errno)
      (idle : sender.pc = .idle before) (bad : checkArguments sender.ctx data = .error code) :
      SendMove sender (.call env data) { sender with pc := .idle (some (.error code)) }
  | opened (env : SendEnv) (data : Option (List UInt8)) (before : Option Status)
      (payload : List UInt8) (idle : sender.pc = .idle before)
      (good : checkArguments sender.ctx data = .ok payload)
      (mapped : sender.ctx.ring.isSome = true) :
      SendMove sender (.call env data)
        { sender with draft := openAttempt payload, pc := .usedHead env.clock }
  | openedUnmapped (env : SendEnv) (data : Option (List UInt8)) (before : Option Status)
      (payload : List UInt8) (next : Sender) (idle : sender.pc = .idle before)
      (good : checkArguments sender.ctx data = .ok payload) (unmapped : sender.ctx.ring = none)
      (dispatched : Dispatched
        ({ sender with draft := openAttempt payload }.sample 0 env.clock none) next) :
      SendMove sender (.call env data) next
  | usedHead (env : SendEnv) (now : UInt64) (here : sender.pc = .usedHead now) :
      SendMove sender (.step env) { sender with pc := .usedTail now sender.ring.object.head }
  | usedTail (env : SendEnv) (now head : UInt64) (here : sender.pc = .usedTail now head) :
      SendMove sender (.step env) { sender.sample (head - sender.ring.object.tail) now
        (some sender.ring.object.tail) with
        pc := .freeHead now (head - sender.ring.object.tail) }
  | freeHead (env : SendEnv) (now occ : UInt64) (here : sender.pc = .freeHead now occ) :
      SendMove sender (.step env) { sender with pc := .freeTail now occ sender.ring.object.head }
  | freeTail (env : SendEnv) (now occ head cap : UInt64) (next : Sender)
      (here : sender.pc = .freeTail now occ head)
      (dispatched : Dispatched { sender with ctx := monitorHealth sender.ctx occ cap } next) :
      SendMove sender (.step env) next
  | requestFailed (env : SendEnv) (nowNs : UInt64) (code : Errno) (next : Sender)
      (here : sender.pc = .request nowNs) (refused : env.status = .error code)
      (failed : HandshakeFailed sender code next) :
      SendMove sender (.step env) next
  | requested (env : SendEnv) (nowNs : UInt64) (here : sender.pc = .request nowNs)
      (delivered : env.status = .ok ()) :
      SendMove sender (.step env) { sender with
        ctx := requestSent sender.ctx nowNs
        pc := .awaitAck (nowNs + adaptNegotDeadlineNs) }
  | ackFailed (env : SendEnv) (deadline : UInt64) (received code : Errno) (next : Sender)
      (here : sender.pc = .awaitAck deadline) (arrived : env.received = .error received)
      (failed : HandshakeFailed sender code next) :
      SendMove sender (.step env) next
  | polled (env : SendEnv) (deadline : UInt64) (here : sender.pc = .awaitAck deadline)
      (quiet : ∀ frame, env.received = .ok frame → isSetupAck frame = false) :
      SendMove sender (.step env) sender
  | ackUnmappable (env : SendEnv) (deadline : UInt64) (frame : List UInt8) (code : Errno)
      (next : Sender) (here : sender.pc = .awaitAck deadline)
      (arrived : env.received = .ok frame) (acknowledged : isSetupAck frame = true)
      (failed : HandshakeFailed { sender with ctx := ackReceived sender.ctx } code next) :
      SendMove sender (.step env) next
  | ackMapped (env : SendEnv) (deadline : UInt64) (frame : List UInt8) (mapped : AdaptCtx)
      (here : sender.pc = .awaitAck deadline) (arrived : env.received = .ok frame)
      (acknowledged : isSetupAck frame = true)
      (attached : mapNegotiated env.map (ackReceived sender.ctx) = some (.ok mapped)) :
      SendMove sender (.step env) { sender with
        ring := attachRing sender.ring mapped
        ctx := mapped
        pc := .mapping }
  | mappingFailed (env : SendEnv) (before : Option Status) (next : Sender)
      (here : sender.pc = .mapping) (written : sender.ring.producer = .idle before)
      (short : growRxbuf env.realloc sender.ctx sender.ctx.shmCapacity = none)
      (failed : HandshakeFailed { sender with ctx := { sender.ctx with ring := none } } .enomem
        next) :
      SendMove sender (.step env) next
  | negotiated (env : SendEnv) (before : Option Status) (grown : AdaptCtx) (next : Sender)
      (here : sender.pc = .mapping) (written : sender.ring.producer = .idle before)
      (room : growRxbuf env.realloc sender.ctx sender.ctx.shmCapacity = some grown)
      (transmitted : Transmitted { sender with ctx := { grown with negotDone := true } } .shm
        next) :
      SendMove sender (.step env) next
  | pushAgain (env : SendEnv) (tMeas : UInt64) (ring : RingState)
      (here : sender.pc = .pushDirect tMeas)
      (full : pushResult sender.ring = some (.error .eagain))
      (blocks : sender.ctx.nonblockingSend = false)
      (called : callProducer sender.ring
        (.pushScatterBlocking (shmSegments sender.draft.payload)) = some ring) :
      SendMove sender (.step env) { sender with ring := ring, pc := .pushBlocking tMeas }
  | pushed (env : SendEnv) (tMeas : UInt64) (rc : Status)
      (here : sender.pc = .pushDirect tMeas ∨ sender.pc = .pushBlocking tMeas)
      (returned : pushResult sender.ring = some rc) :
      SendMove sender (.step env) (sender.finishPush env tMeas rc)
  | datagramSent (env : SendEnv) (tMeas : UInt64) (here : sender.pc = .udsSend tMeas) :
      SendMove sender (.step env) ({ sender with
        ctx := finishUds sender.ctx sender.draft.size tMeas env.clock env.status
        draft := { sender.draft with
          placed := if env.status = Except.ok () then some .uds else none } }.finish env.status)
  | ring (action : RingAction) (after : RingState) (foreign : action.entersProducer = false)
      (moved : ringStep sender.ring action = some after) :
      SendMove sender (.ring action) { sender with ring := after }

theorem arguments_payload {ctx : AdaptCtx} {data : Option (List UInt8)} {payload : List UInt8}
    (good : checkArguments ctx data = .ok payload) : data = some payload := by
  simp only [checkArguments] at good
  split at good
  · cases good
  · split_ifs at good
    cases good
    rfl

theorem arguments_nonempty {ctx : AdaptCtx} {data : Option (List UInt8)} {payload : List UInt8}
    (good : checkArguments ctx data = .ok payload) : payload ≠ [] := by
  intro empty
  simp only [checkArguments] at good
  split at good
  · cases good
  · split_ifs at good with zero
    cases good
    exact zero (by rw [empty]; rfl)

theorem call_move {sender next : Sender} {env : SendEnv} {data : Option (List UInt8)}
    (called : sender.call env data = some next) : SendMove sender (.call env data) next := by
  simp only [Sender.call] at called
  split at called
  · next before idle =>
    split at called
    · next code bad =>
      cases called
      exact .rejected env data before code idle bad
    · next payload good =>
      split at called
      · next mapped =>
        cases called
        exact .opened env data before payload idle good mapped
      · next unmapped =>
        exact .openedUnmapped env data before payload next idle good (by simpa using unmapped)
          (dispatch_dispatched called)
  · cases called

/-- The steps of the wait for the ACK. -/
theorem await_move {sender next : Sender} {env : SendEnv} {deadline : UInt64}
    (here : sender.pc = .awaitAck deadline) (stepped : sender.step env = some next) :
    SendMove sender (.step env) next := by
  simp only [Sender.step, here] at stepped
  split at stepped
  · next code arrived =>
    split at stepped
    · split at stepped
      · exact .ackFailed env deadline code .etimedout next here arrived
          (fail_handshake_failed stepped)
      · cases stepped
        apply SendMove.polled env deadline here
        intro frame other
        rw [arrived] at other
        cases other
    · exact .ackFailed env deadline code code next here arrived (fail_handshake_failed stepped)
  · next frame arrived =>
    split at stepped
    · next acknowledged =>
      split at stepped
      · cases stepped
      · exact .ackUnmappable env deadline frame _ next here arrived acknowledged
          (fail_handshake_failed stepped)
      · next mapped attached =>
        cases stepped
        exact .ackMapped env deadline frame mapped here arrived acknowledged attached
    · next ignored =>
      cases stepped
      apply SendMove.polled env deadline here
      intro other same
      rw [arrived] at same
      cases same
      simpa using ignored

theorem mapping_move {sender next : Sender} {env : SendEnv} (here : sender.pc = .mapping)
    (stepped : sender.step env = some next) : SendMove sender (.step env) next := by
  simp only [Sender.step, here] at stepped
  split at stepped
  · next before written =>
    cases room : growRxbuf env.realloc sender.ctx sender.ctx.shmCapacity with
    | none =>
        simp only [finishMapping, room] at stepped
        exact .mappingFailed env before next here written room (fail_handshake_failed stepped)
    | some grown =>
        simp only [finishMapping, room] at stepped
        exact .negotiated env before grown next here written room (transmit_transmitted stepped)
  · cases stepped

theorem push_move {sender next : Sender} {env : SendEnv} {tMeas : UInt64}
    (here : sender.pc = .pushDirect tMeas) (stepped : sender.step env = some next) :
    SendMove sender (.step env) next := by
  simp only [Sender.step, here] at stepped
  split at stepped
  · cases stepped
  · next rc returned =>
    split at stepped
    · next again =>
      obtain ⟨ring, called, rfl⟩ := Option.map_eq_some_iff.mp stepped
      exact .pushAgain env tMeas ring here (again.2 ▸ returned) again.1 called
    · cases stepped
      exact .pushed env tMeas rc (Or.inl here) returned

theorem step_move {sender next : Sender} {env : SendEnv} (stepped : sender.step env = some next) :
    SendMove sender (.step env) next := by
  cases here : sender.pc with
  | idle before => simp [Sender.step, here] at stepped
  | usedHead now =>
      simp only [Sender.step, here, Option.some.injEq] at stepped
      rw [← stepped]
      exact .usedHead env now here
  | usedTail now head =>
      simp only [Sender.step, here, Option.some.injEq] at stepped
      rw [← stepped]
      exact .usedTail env now head here
  | freeHead now occ =>
      simp only [Sender.step, here, Option.some.injEq] at stepped
      rw [← stepped]
      exact .freeHead env now occ here
  | freeTail now occ head =>
      simp only [Sender.step, here] at stepped
      exact .freeTail env now occ head _ next here (dispatch_dispatched stepped)
  | request nowNs =>
      simp only [Sender.step, here] at stepped
      split at stepped
      · next code refused =>
        exact .requestFailed env nowNs code next here refused (fail_handshake_failed stepped)
      · next delivered =>
        cases stepped
        exact .requested env nowNs here delivered
  | awaitAck deadline => exact await_move here stepped
  | mapping => exact mapping_move here stepped
  | pushDirect tMeas => exact push_move here stepped
  | pushBlocking tMeas =>
      simp only [Sender.step, here] at stepped
      split at stepped
      · cases stepped
      · next rc returned =>
        cases stepped
        exact .pushed env tMeas rc (Or.inr here) returned
  | udsSend tMeas =>
      simp only [Sender.step, here, Option.some.injEq] at stepped
      rw [← stepped]
      exact .datagramSent env tMeas here

theorem send_step_move {sender next : Sender} {action : SendAction}
    (stepped : sendStep sender action = some next) : SendMove sender action next := by
  cases action with
  | call env data => exact call_move stepped
  | step env => exact step_move stepped
  | ring action =>
      simp only [sendStep] at stepped
      split at stepped
      · cases stepped
      · next foreign =>
        obtain ⟨after, moved, rfl⟩ := Option.map_eq_some_iff.mp stepped
        exact .ring action after (by simpa using foreign) moved

end AdaptIpc.Endpoint

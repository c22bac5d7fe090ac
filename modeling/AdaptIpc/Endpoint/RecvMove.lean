import AdaptIpc.Endpoint.Recv

/-!
# What one step of a receive call does

The steps of the consumer endpoint, flattened: one constructor for each way a
step can go, with the guard it passed and the endpoint it leaves. Invariants of
the receive calls are proved over these moves.
-/

namespace AdaptIpc.Endpoint

open AdaptIpc.Ring AdaptIpc.Policy AdaptIpc.Library.Transition

set_option autoImplicit false

def countLoop (st : AdaptStats) : AdaptStats := { st with recvLoopIters := st.recvLoopIters + 1 }

def countPoll (st : AdaptStats) : AdaptStats := { st with pollCalls := st.pollCalls + 1 }

def countTimeout (st : AdaptStats) : AdaptStats := { st with pollTimeouts := st.pollTimeouts + 1 }

def Receiver.counted (receiver : Receiver) (counter : AdaptStats → AdaptStats) : Receiver :=
  { receiver with ctx := receiver.ctx.count counter }

inductive Looped (receiver : Receiver) : Receiver → Prop where
  | polls (tmoInMsg : Nat) (ring : RingState) (mapped : receiver.ctx.ring.isSome = true)
      (called : callPop receiver.ring receiver.ctx.rxbufCap.toNat = some ring) :
      Looped receiver { receiver.counted countLoop with ring := ring, pc := .popping tmoInMsg }
  | waits (tmoInMsg : Nat) (unmapped : receiver.ctx.ring = none) :
      Looped receiver { receiver.counted countLoop with pc := .polling tmoInMsg }

theorem loop_looped {receiver next : Receiver} {tmoInMsg : Nat}
    (looped : receiver.loop tmoInMsg = some next) : Looped receiver next := by
  simp only [Receiver.loop] at looped
  split at looped
  · next mapped =>
    obtain ⟨ring, called, rfl⟩ := Option.map_eq_some_iff.mp looped
    exact .polls tmoInMsg ring mapped called
  · next unmapped =>
    cases looped
    exact .waits tmoInMsg (by simpa using unmapped)

/-- What `uds_recv_timeout` answers into a buffer of `maxSize` bytes. -/
inductive Received (env : RecvEnv) (receiver : Receiver) (maxSize : Nat) :
    Except Errno (List UInt8) → Receiver → Prop where
  | failed (code : Errno) (cause : env.failure = some code ∨ code = .einval) :
      Received env receiver maxSize (.error code) receiver
  | datagram (frame : List UInt8) (rest : List (List UInt8))
      (queued : receiver.inbox = frame :: rest) (room : 0 < maxSize) :
      Received env receiver maxSize
        (if frame.take maxSize = [] then .error .econnreset else .ok (frame.take maxSize))
        ({ receiver with inbox := rest }.note .uds frame)

theorem uds_received {receiver received : Receiver} {env : RecvEnv} {maxSize : Nat}
    {result : Except Errno (List UInt8)}
    (answered : receiver.udsRecvTimeout env maxSize = some (result, received)) :
    Received env receiver maxSize result received := by
  simp only [Receiver.udsRecvTimeout] at answered
  split at answered
  · cases answered
    exact .failed .einval (Or.inr rfl)
  · next room =>
    split at answered <;> cases answered
    · next failed => exact .failed _ (Or.inl failed)
    · next datagram rest _ queued => exact .datagram datagram rest queued (by omega)

/-- One step of the endpoint, by the action that makes it. -/
inductive RecvMove (receiver : Receiver) : RecvAction → Receiver → Prop where
  | rejected (buffer : Option Nat) (before : Option (Except Int (List UInt8))) (code : Errno)
      (idle : receiver.pc = .idle before) (bad : checkBuffer receiver.ctx buffer = .error code) :
      RecvMove receiver (.call .recv buffer)
        ((receiver.opened .recv buffer).finish (.error (intCode code)))
  | entered (buffer : Option Nat) (before : Option (Except Int (List UInt8))) (maxSize : Nat)
      (next : Receiver) (idle : receiver.pc = .idle before)
      (good : checkBuffer receiver.ctx buffer = .ok maxSize)
      (looped : Looped (receiver.opened .recv buffer) next) :
      RecvMove receiver (.call .recv buffer) next
  | rejectedUds (buffer : Option Nat) (before : Option (Except Int (List UInt8))) (code : Errno)
      (idle : receiver.pc = .idle before) (bad : checkBufferUds buffer = .error code) :
      RecvMove receiver (.call .recvUds buffer)
        ((receiver.opened .recvUds buffer).finish (.error (intCode code)))
  | enteredUds (buffer : Option Nat) (before : Option (Except Int (List UInt8))) (maxSize : Nat)
      (idle : receiver.pc = .idle before) (good : checkBufferUds buffer = .ok maxSize) :
      RecvMove receiver (.call .recvUds buffer)
        { receiver.opened .recvUds buffer with pc := .pollingUds }
  | popped (env : RecvEnv) (tmoInMsg : Nat) (result : Except Errno (List UInt8))
      (here : receiver.pc = .popping tmoInMsg) (returned : popResult receiver.ring = some result)
      (positive : 0 < intResult result) :
      RecvMove receiver (.step env) ((receiver.notePopped result).deliver (intResult result)
        (bufferBytes result) (countShm tmoInMsg))
  | popFailed (env : RecvEnv) (tmoInMsg : Nat) (result : Except Errno (List UInt8))
      (here : receiver.pc = .popping tmoInMsg) (returned : popResult receiver.ring = some result)
      (nonpositive : intResult result ≤ 0) (other : intResult result ≠ intCode .eagain) :
      RecvMove receiver (.step env)
        ((receiver.notePopped result).finish (.error (intResult result)))
  | popEmpty (env : RecvEnv) (tmoInMsg : Nat) (result : Except Errno (List UInt8))
      (here : receiver.pc = .popping tmoInMsg) (returned : popResult receiver.ring = some result)
      (empty : intResult result = intCode .eagain) :
      RecvMove receiver (.step env) { receiver.notePopped result with pc := .polling tmoInMsg }
  | served (env : RecvEnv) (tmoInMsg : Nat) (result : Except Errno (List UInt8))
      (received served next : Receiver) (here : receiver.pc = .polling tmoInMsg)
      (answered : Received env receiver receiver.ctx.rxbufCap.toNat result received)
      (more : 1 < intResult result) (control : isControl (bufferBytes result) = true)
      (handled : (received.counted countPoll).serve env (bufferBytes result) = some served)
      (looped : Looped served next) :
      RecvMove receiver (.step env) next
  | received (env : RecvEnv) (tmoInMsg : Nat) (result : Except Errno (List UInt8))
      (received : Receiver) (here : receiver.pc = .polling tmoInMsg)
      (answered : Received env receiver receiver.ctx.rxbufCap.toNat result received)
      (more : 1 < intResult result) (data : isControl (bufferBytes result) = false) :
      RecvMove receiver (.step env) ((received.counted countPoll).deliver (intResult result)
        (bufferBytes result) (countUds tmoInMsg))
  | pollFailed (env : RecvEnv) (tmoInMsg : Nat) (result : Except Errno (List UInt8))
      (received : Receiver) (here : receiver.pc = .polling tmoInMsg)
      (answered : Received env receiver receiver.ctx.rxbufCap.toNat result received)
      (nonpositive : intResult result ≤ 0) (other : intResult result ≠ intCode .eagain) :
      RecvMove receiver (.step env)
        ((received.counted countPoll).finish (.error (intResult result)))
  | pollQuiet (env : RecvEnv) (tmoInMsg : Nat) (result : Except Errno (List UInt8))
      (received next : Receiver) (here : receiver.pc = .polling tmoInMsg)
      (answered : Received env receiver receiver.ctx.rxbufCap.toNat result received)
      (nothing : intResult result = 1 ∨ intResult result = intCode .eagain)
      (looped : Looped ((received.counted countPoll).counted countTimeout) next) :
      RecvMove receiver (.step env) next
  | udsFailed (env : RecvEnv) (result : Except Errno (List UInt8)) (received : Receiver)
      (here : receiver.pc = .pollingUds)
      (answered : Received env receiver receiver.draft.maxSize result received)
      (nonpositive : intResult result ≤ 0) :
      RecvMove receiver (.step env) (received.finish (.error (intResult result)))
  | udsServed (env : RecvEnv) (result : Except Errno (List UInt8)) (received next : Receiver)
      (here : receiver.pc = .pollingUds)
      (answered : Received env receiver receiver.draft.maxSize result received)
      (positive : 0 < intResult result) (control : isControl (bufferBytes result) = true)
      (handled : received.serve env (bufferBytes result) = some next) :
      RecvMove receiver (.step env) next
  | udsTooLarge (env : RecvEnv) (result : Except Errno (List UInt8)) (received : Receiver)
      (here : receiver.pc = .pollingUds)
      (answered : Received env receiver receiver.draft.maxSize result received)
      (positive : 0 < intResult result) (data : isControl (bufferBytes result) = false)
      (large : received.draft.maxSize < (intResult result).toNat - 1) :
      RecvMove receiver (.step env) (received.finish (.error (intCode .emsgsize)))
  | udsReceived (env : RecvEnv) (result : Except Errno (List UInt8)) (received : Receiver)
      (here : receiver.pc = .pollingUds)
      (answered : Received env receiver receiver.draft.maxSize result received)
      (positive : 0 < intResult result) (data : isControl (bufferBytes result) = false)
      (fits : ¬received.draft.maxSize < (intResult result).toNat - 1) :
      RecvMove receiver (.step env)
        (received.finish (.ok (((bufferBytes result).drop 1).take ((intResult result).toNat - 1))))
  | ring (action : RingAction) (after : RingState) (foreign : action.entersConsumer = false)
      (moved : ringStep receiver.ring action = some after) :
      RecvMove receiver (.ring action) { receiver with ring := after }
  | arrived (datagram : List UInt8) :
      RecvMove receiver (.arrive datagram) { receiver with inbox := receiver.inbox ++ [datagram] }

section Moves

variable {receiver next : Receiver}

theorem call_recv_move {entry : RecvEntry} {buffer : Option Nat}
    (called : receiver.call entry buffer = some next) :
    RecvMove receiver (.call entry buffer) next := by
  simp only [Receiver.call] at called
  split at called
  · next before idle =>
    cases entry with
    | recv =>
        simp only at called
        split at called
        · next code bad =>
          cases called
          exact .rejected buffer before code idle bad
        · next maxSize good => exact .entered buffer before maxSize next idle good (loop_looped called)
    | recvUds =>
        simp only at called
        split at called
        · next code bad =>
          cases called
          exact .rejectedUds buffer before code idle bad
        · next maxSize good =>
          cases called
          exact .enteredUds buffer before maxSize idle good
  · cases called

theorem popping_move {env : RecvEnv} {tmoInMsg : Nat} (here : receiver.pc = .popping tmoInMsg)
    (stepped : receiver.step env = some next) : RecvMove receiver (.step env) next := by
  simp only [Receiver.step, here] at stepped
  split at stepped
  · cases stepped
  · next result returned =>
    split at stepped
    · next positive =>
      cases stepped
      exact .popped env tmoInMsg result here returned positive
    · next nonpositive =>
      split at stepped
      · next other =>
        cases stepped
        exact .popFailed env tmoInMsg result here returned (Int.not_lt.mp nonpositive) other
      · next empty =>
        cases stepped
        exact .popEmpty env tmoInMsg result here returned (not_not.mp empty)

theorem polling_move {env : RecvEnv} {tmoInMsg : Nat} (here : receiver.pc = .polling tmoInMsg)
    (stepped : receiver.step env = some next) : RecvMove receiver (.step env) next := by
  simp only [Receiver.step, here] at stepped
  split at stepped
  · cases stepped
  · next result received answered =>
    have answer := uds_received answered
    split at stepped
    · next more =>
      split at stepped
      · next control =>
        obtain ⟨served, handled, looped⟩ := Option.bind_eq_some_iff.mp stepped
        exact .served env tmoInMsg result received served next here answer more control handled
          (loop_looped looped)
      · next data =>
        cases stepped
        exact .received env tmoInMsg result received here answer more (by simpa using data)
    · next few =>
      split at stepped
      · next failed =>
        cases stepped
        exact .pollFailed env tmoInMsg result received here answer failed.1 failed.2
      · next quiet =>
        apply RecvMove.pollQuiet env tmoInMsg result received next here answer _
          (loop_looped stepped)
        by_cases positive : intResult result ≤ 0
        · exact Or.inr (not_not.mp fun other => quiet ⟨positive, other⟩)
        · exact Or.inl (by omega)

theorem polling_uds_move {env : RecvEnv} (here : receiver.pc = .pollingUds)
    (stepped : receiver.step env = some next) : RecvMove receiver (.step env) next := by
  simp only [Receiver.step, here] at stepped
  split at stepped
  · cases stepped
  · next result received answered =>
    have answer := uds_received answered
    split at stepped
    · next nonpositive =>
      cases stepped
      exact .udsFailed env result received here answer nonpositive
    · next positive =>
      have positive := Int.not_le.mp positive
      split at stepped
      · next control => exact .udsServed env result received next here answer positive control stepped
      · next data =>
        have data : isControl (bufferBytes result) = false := by simpa using data
        split at stepped
        · next large =>
          cases stepped
          exact .udsTooLarge env result received here answer positive data large
        · next fits =>
          cases stepped
          exact .udsReceived env result received here answer positive data fits

theorem recv_step_move {action : RecvAction} (stepped : recvStep receiver action = some next) :
    RecvMove receiver action next := by
  cases action with
  | call entry buffer => exact call_recv_move stepped
  | step env =>
      cases here : receiver.pc with
      | idle result => simp [recvStep, Receiver.step, here] at stepped
      | popping tmoInMsg => exact popping_move here stepped
      | polling tmoInMsg => exact polling_move here stepped
      | pollingUds => exact polling_uds_move here stepped
  | ring action =>
      simp only [recvStep] at stepped
      split at stepped
      · cases stepped
      · next foreign =>
        obtain ⟨after, moved, rfl⟩ := Option.map_eq_some_iff.mp stepped
        exact .ring action after (by simpa using foreign) moved
  | arrive datagram =>
      cases stepped
      exact .arrived datagram

end Moves

section Frames

variable {receiver next received : Receiver}

theorem looped_same (looped : Looped receiver next) :
    next.draft = receiver.draft ∧ next.receipts = receiver.receipts ∧
      next.inbox = receiver.inbox ∧ next.outbox = receiver.outbox := by
  cases looped <;> exact ⟨rfl, rfl, rfl, rfl⟩

theorem deliver_finishes (receiver : Receiver) (n : Int) (tmp : List UInt8)
    (counter : AdaptStats → AdaptStats) :
    ∃ ctx, receiver.deliver n tmp counter = { receiver with ctx := ctx }.finish
      (if receiver.draft.maxSize < n.toNat - 1 then .error (intCode .emsgsize)
      else .ok ((tmp.drop 1).take (n.toNat - 1))) := by
  simp only [Receiver.deliver]
  split
  · exact ⟨receiver.ctx, rfl⟩
  · exact ⟨_, rfl⟩

/-- The receiver after an answer: at most the head of the inbox is gone, and noted. -/
structure Taken (receiver received : Receiver) : Prop where
  ring : received.ring = receiver.ring
  ctx : received.ctx = receiver.ctx
  outbox : received.outbox = receiver.outbox
  pc : received.pc = receiver.pc
  receipts : received.receipts = receiver.receipts
  entry : received.draft.entry = receiver.draft.entry
  maxSize : received.draft.maxSize = receiver.draft.maxSize
  handled : received.draft.handled = receiver.draft.handled
  inbox : received.inbox ⊆ receiver.inbox

theorem received_taken {env : RecvEnv} {maxSize : Nat} {result : Except Errno (List UInt8)}
    (answered : Received env receiver maxSize result received) : Taken receiver received := by
  cases answered with
  | failed code cause => exact ⟨rfl, rfl, rfl, rfl, rfl, rfl, rfl, rfl, fun _ member => member⟩
  | datagram frame rest queued room =>
      refine ⟨rfl, rfl, rfl, rfl, rfl, rfl, rfl, rfl, ?_⟩
      rw [queued]
      exact List.subset_cons_self frame rest

structure Served (receiver served : Receiver) (frame : List UInt8) : Prop where
  inbox : served.inbox = receiver.inbox
  pc : served.pc = receiver.pc
  receipts : served.receipts = receiver.receipts
  draft : served.draft =
    { receiver.draft with handled := receiver.draft.handled ++ [frame] }

theorem serve_served {env : RecvEnv} {frame : List UInt8} {served : Receiver}
    (handled : receiver.serve env frame = some served) : Served receiver served frame := by
  obtain ⟨⟨ctx, ack⟩, _, rfl⟩ := Option.map_eq_some_iff.mp handled
  exact ⟨rfl, rfl, rfl, rfl⟩

end Frames

end AdaptIpc.Endpoint

import AdaptIpc.Endpoint.Handshake
import AdaptIpc.Endpoint.Placing

/-!
# The staging frame

The UDS branch of `adapt_send` copies the tag and the payload into a frame of
`UDS_MAX_DGRAM` bytes on its stack and does not look at the size again. The route
it goes by is a fresh decision, the one stored by an earlier attempt, or the
fallback from a failed handshake. What is stored for UDS fits the frame, and both
early returns leave the store so.
-/

namespace AdaptIpc.Endpoint

open AdaptIpc.Ring AdaptIpc.Policy AdaptIpc.Library.Transition

set_option autoImplicit false

/-- The calls pass at most `PTRDIFF_MAX` bytes. -/
def addressable : SendAction → Bool
  | .call _ (some payload) => decide (payload.length < 2 ^ 63)
  | _ => true

/-- `pending_route = UDS` only with a `pending_size` that fits the frame. -/
def PendingFits (ctx : AdaptCtx) : Prop :=
  ctx.pendingRoute = .uds → ctx.pendingSize.toNat + 1 ≤ udsMaxDgram.toNat

/-- The frame the UDS branch stages for a call. -/
def StagedFits (draft : Attempt) : Prop := (udsFrame draft.payload).length ≤ udsMaxDgram.toNat

/-- The running call by its place: a handshake goes on for the size that is stored. -/
def StagedAt (ctx : AdaptCtx) (draft : Attempt) : SendPc → Prop
  | .idle _ => True
  | .udsSend _ => StagedFits draft
  | .request _ => draft.payload.length < 2 ^ 63 ∧ ctx.pendingSize = draft.size
  | .awaitAck _ => draft.payload.length < 2 ^ 63 ∧ ctx.pendingSize = draft.size
  | .mapping => draft.payload.length < 2 ^ 63 ∧ ctx.pendingSize = draft.size
  | _ => draft.payload.length < 2 ^ 63

structure Staged (sender : Sender) : Prop where
  pending : PendingFits sender.ctx
  place : StagedAt sender.ctx sender.draft sender.pc

section Sizes

variable {draft : Attempt}

theorem small_stages (short : draft.payload.length < 2 ^ 63)
    (small : oversize draft.size = false) : StagedFits draft := by
  have framed := @framed_toNat draft (by omega)
  have fits : draft.size + 1 ≤ udsMaxDgram := by
    simpa [oversize] using small
  rw [UInt64.le_iff_toNat_le, framed] at fits
  exact fits

theorem staged_size (short : draft.payload.length < 2 ^ 63) (staged : StagedFits draft) :
    draft.size.toNat + 1 ≤ udsMaxDgram.toNat := by
  have word : draft.size.toNat = draft.payload.length := by
    simp only [Attempt.size, UInt64.toNat_ofNat']
    omega
  rw [word]
  exact staged

theorem PendingFits.same {before after : AdaptCtx} (pending : PendingFits before)
    (kept : SameRetry before after) : PendingFits after := by
  intro uds
  rw [kept.pendingSize]
  exact pending (kept.pendingRoute.symm.trans uds)

end Sizes

section Parts

variable {sender next : Sender}

theorem route_pending (now waitClock : UInt64) (pending : PendingFits sender.ctx) :
    PendingFits (routeMessage sender.ctx sender.draft.size now waitClock).2 := by
  cases resumed : resumes sender.ctx sender.draft.size with
  | true =>
      rw [decide_resumed resumed]
      exact pending
  | false =>
      rw [decide_fresh resumed]
      intro uds
      rw [(classify_retry _ _ _ _).2] at uds
      cases uds

theorem decide_pending_fits (now waitClock : UInt64) (short : sender.draft.payload.length < 2 ^ 63)
    (pending : PendingFits sender.ctx) : PendingFits (sender.decide now waitClock).2.ctx := by
  cases decided : (sender.decide now waitClock).1 with
  | error code =>
      have kept := (guard_refuses decided).2
      exact (route_pending now waitClock pending).same kept
  | ok route =>
      obtain ⟨_, _, _, size, stored⟩ := guard_accepts decided
      intro uds
      have sent : route = .uds := stored.symm.trans uds
      have small := (decide_admits decided).2 (by rw [sent]; decide)
      have fits := staged_size short (small_stages short small)
      rw [← size] at fits
      exact fits

theorem transmitted_staged {route : AdaptRoute} (pending : PendingFits sender.ctx)
    (short : sender.draft.payload.length < 2 ^ 63)
    (small : route ≠ .shm → oversize sender.draft.size = false)
    (transmitted : Transmitted sender route next) : Staged next := by
  cases transmitted with
  | push ring tMeas shm called =>
      constructor
      · exact pending.same (quiet_push sender ring tMeas).toSameRetry
      · simp only [Sender.startPush]
        split <;> exact short
  | datagram tMeas other =>
      constructor
      · exact pending.same (quiet_datagram sender tMeas).toSameRetry
      · exact small_stages short (small other)

theorem failed_staged {hrc : Errno} (pending : PendingFits sender.ctx)
    (short : sender.draft.payload.length < 2 ^ 63)
    (stored : sender.ctx.pendingSize = sender.draft.size)
    (failed : HandshakeFailed sender hrc next) : Staged next := by
  cases failed with
  | refused large =>
      constructor
      · simp only [Sender.handshakeFailure, handshakeFailed, large, if_true]
        exact pending
      · trivial
  | degraded tMeas small =>
      have staged := small_stages short small
      constructor
      · apply PendingFits.same _ (quiet_datagram (sender.handshakeFailure hrc).2 tMeas).toSameRetry
        intro uds
        have kept : (sender.handshakeFailure hrc).2.ctx.pendingSize = sender.ctx.pendingSize := by
          simp [Sender.handshakeFailure, handshakeFailed, small, count_fields]
        rw [kept, stored]
        exact staged_size short staged
      · exact staged

theorem dispatched_staged (pending : PendingFits sender.ctx)
    (short : sender.draft.payload.length < 2 ^ 63) (dispatched : Dispatched sender next) :
    Staged next := by
  cases dispatched with
  | tooLarge now waitClock refused => exact ⟨decide_pending_fits now waitClock short pending, trivial⟩
  | negotiating now waitClock env route unmapped waiting =>
      have named := name_mapping_only (sender.decide now waitClock).2.ctx env.pid env.negCounter
      obtain ⟨_, _, _, size, _⟩ := guard_accepts route
      have stored : (nameRing (sender.decide now waitClock).2.ctx env.pid
          env.negCounter).pendingSize = sender.draft.size := named.pendingSize.trans size
      constructor
      · exact (decide_pending_fits now waitClock short pending).same named.toSameRetry
      · simp only [Sender.negotiate]
        split <;> exact ⟨short, stored⟩
  | sent now waitClock route next decided mapped transmitted =>
      have small := (decide_admits decided).2
      exact transmitted_staged (decide_pending_fits now waitClock short pending) short small
        transmitted

end Parts

/-- No step of a send lets more than a frame's worth near the frame. -/
theorem move_staged {sender next : Sender} {action : SendAction} (staged : Staged sender)
    (allowed : addressable action = true) (move : SendMove sender action next) : Staged next := by
  have pending := staged.pending
  have place := staged.place
  cases move with
  | rejected env data before code idle bad => exact ⟨pending, trivial⟩
  | opened env data before payload idle good held =>
      rw [arguments_payload good, addressable, decide_eq_true_eq] at allowed
      exact ⟨pending, allowed⟩
  | openedUnmapped env data before payload next idle good none dispatched =>
      rw [arguments_payload good, addressable, decide_eq_true_eq] at allowed
      refine dispatched_staged ?_ allowed dispatched
      exact pending.same (quiet_sample _ _ _ _).toSameRetry
  | usedHead env now here =>
      rw [here] at place
      exact ⟨pending, place⟩
  | usedTail env now head here =>
      rw [here] at place
      exact ⟨pending.same (quiet_sample _ _ _ _).toSameRetry, place⟩
  | freeHead env now occ here =>
      rw [here] at place
      exact ⟨pending, place⟩
  | freeTail env now occ head cap next here dispatched =>
      rw [here] at place
      apply dispatched_staged ?_ ?_ dispatched
      · exact pending.same (quiet_monitor sender.ctx occ cap).toSameRetry
      · exact place
  | requestFailed env nowNs code next here refused failed =>
      rw [here] at place
      exact failed_staged pending place.1 place.2 failed
  | requested env nowNs here delivered =>
      rw [here] at place
      have quiet := quiet_request sender.ctx nowNs
      exact ⟨pending.same quiet.toSameRetry, place.1, quiet.pendingSize.trans place.2⟩
  | ackFailed env deadline received code next here arrived failed =>
      rw [here] at place
      exact failed_staged pending place.1 place.2 failed
  | polled env deadline here quiet => exact staged
  | ackUnmappable env deadline frame code next here arrived acknowledged failed =>
      rw [here] at place
      have quiet := quiet_ack sender.ctx
      apply failed_staged ?_ ?_ ?_ failed
      · exact pending.same quiet.toSameRetry
      · exact place.1
      · exact quiet.pendingSize.trans place.2
  | ackMapped env deadline frame mapped here arrived acknowledged attached =>
      rw [here] at place
      have kept := (quiet_ack sender.ctx).mappingOnly.trans (map_mapping_only attached)
      exact ⟨pending.same kept.toSameRetry, place.1, kept.pendingSize.trans place.2⟩
  | mappingFailed env before next here written short failed =>
      rw [here] at place
      apply failed_staged ?_ ?_ ?_ failed
      · exact pending
      · exact place.1
      · exact place.2
  | negotiated env before grown next here written room transmitted =>
      rw [here] at place
      have kept := pending.same (grow_mapping_only room).toSameRetry
      apply transmitted_staged ?_ ?_ ?_ transmitted
      · exact kept
      · exact place.1
      · exact fun other => absurd rfl other
  | pushAgain env tMeas ring here full blocks called =>
      rw [here] at place
      exact ⟨pending, place⟩
  | pushed env tMeas rc here returned =>
      refine ⟨?_, trivial⟩
      simp only [Sender.finishPush, Sender.finish, finishShm, observeCost, count_fields]
      split_ifs <;> exact pending
  | datagramSent env tMeas here =>
      refine ⟨?_, trivial⟩
      simp only [Sender.finish, finishUds, observeCost]
      split_ifs <;> exact pending
  | ring action after foreign moved => exact ⟨pending, place⟩

abbrev stagingMachine (cfg : AdaptConfig) (env : InitEnv) : Machine Sender SendAction :=
  (sendMachine cfg env).guarded fun _ => addressable

theorem staging_reachable {cfg : AdaptConfig} {env : InitEnv} {sender : Sender}
    (reached : (stagingMachine cfg env).Reachable sender) : Staged sender ∧ SenderMapped sender := by
  refine Machine.invariant_of_reachable (stagingMachine cfg env)
    (fun sender => Staged sender ∧ SenderMapped sender) ?_ ?_ reached
  · rintro start ⟨accepted, ⟨before, idle⟩, _⟩
    obtain ⟨blank, mapped⟩ := init_starts accepted
    have route : start.ctx.pendingRoute = .none := blank.pendingRoute
    refine ⟨⟨?_, ?_⟩, ?_⟩
    · intro uds
      rw [route] at uds
      cases uds
    · rw [idle]
      trivial
    · rw [SenderMapped, idle]
      exact mapped
  · rintro before action after ⟨staged, mapped⟩ stepped
    obtain ⟨allowed, stepped⟩ := Machine.guarded_step stepped
    have move := send_step_move stepped
    exact ⟨move_staged staged allowed move, move_mapped mapped move⟩

/-- The frame the UDS branch has staged fits its buffer, the SHM branch pushes with a
mapped ring, and a stored UDS route comes with a size that fits. -/
theorem staging_frame_fits (cfg : AdaptConfig) (env : InitEnv) {sender : Sender}
    (reached : (stagingMachine cfg env).Reachable sender) :
    (∀ tMeas, sender.pc = .udsSend tMeas →
      (udsFrame sender.draft.payload).length ≤ udsMaxDgram.toNat) ∧
    (∀ tMeas, sender.pc = .pushDirect tMeas ∨ sender.pc = .pushBlocking tMeas →
      sender.ctx.ring.isSome = true) ∧
    (sender.ctx.pendingRoute = .uds →
      sender.ctx.pendingSize.toNat + 1 ≤ udsMaxDgram.toNat) := by
  obtain ⟨staged, mapped⟩ := staging_reachable reached
  refine ⟨?_, ?_, staged.pending⟩
  · intro tMeas here
    have place := staged.place
    rw [here] at place
    exact place
  · rintro tMeas (here | here)
    · rw [SenderMapped, here] at mapped
      exact mapped
    · rw [SenderMapped, here] at mapped
      exact mapped

def SendPc.staged : SendPc → Option UInt64
  | .udsSend tMeas => some tMeas
  | _ => none

theorem staged_place {pc : SendPc} {tMeas : UInt64} (staged : pc.staged = some tMeas) :
    pc = .udsSend tMeas := by
  cases pc with
  | udsSend t => exact congrArg SendPc.udsSend (Option.some.inj staged)
  | _ => cases staged

/-- An oversize send whose handshake times out, and behind it a send of the largest payload
the frame holds, which waits for the same handshake. -/
def timedOutSends : List SendAction :=
  let late := { quietEnv with clock := 2000000000 }
  [.call quietEnv (some (List.replicate 5000 0)), .step quietEnv, .step late,
    .call quietEnv (some (List.replicate 4095 0)), .step late]

/-- The second of them is decided for the ring and falls back to the socket. -/
theorem degraded_send_fits : ∃ sender,
    (stagingMachine (plainConfig 8192) sharpEnv).Reachable sender ∧
      sender.ctx.lastRoute = .shm ∧ sender.draft.payload.length = 4095 ∧
      (udsFrame sender.draft.payload).length ≤ udsMaxDgram.toNat ∧
      sender.ctx.pendingSize.toNat + 1 ≤ udsMaxDgram.toNat := by
  have ran : ((stagingMachine (plainConfig 8192) sharpEnv).run lazySender
      timedOutSends).map (fun sender =>
        (sender.pc.staged, sender.ctx.lastRoute, sender.ctx.pendingRoute,
          sender.draft.payload.length)) = some (some 0, .shm, .uds, 4095) := by
    decide +kernel
  obtain ⟨sender, run, facts⟩ := Option.map_eq_some_iff.mp ran
  simp only [Prod.mk.injEq] at facts
  obtain ⟨here, decided, stored, length⟩ := facts
  have reached := Machine.reachable_run (stagingMachine (plainConfig 8192) sharpEnv)
    ⟨rfl, ⟨none, rfl⟩, rfl, rfl⟩ run
  have fits := staging_frame_fits (plainConfig 8192) sharpEnv reached
  exact ⟨sender, reached, decided, length, fits.1 0 (staged_place here), fits.2.2 stored⟩

end AdaptIpc.Endpoint

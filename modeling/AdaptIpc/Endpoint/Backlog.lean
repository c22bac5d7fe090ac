import AdaptIpc.Endpoint.SendRing
import AdaptIpc.Ring.Throttle

/-!
# The backlog of a blocking producer

Where `nonblocking_send` is 0 the sends of most policies go through the throttled
push. The cost-aware ones first try a direct push, to time it, and that push looks
for free space only. The ring never holds more than the high watermark and the last
record unless such a push finds it above the mark already.
-/

namespace AdaptIpc.Endpoint

open AdaptIpc.Ring AdaptIpc.Policy AdaptIpc.Library.Transition

set_option autoImplicit false

/-- The backlog of the ring: at most the high watermark and the last record. -/
def WithinWatermark (ring : RingState) : Prop :=
  (ring.object.head - ring.object.tail).toNat ≤
    (hwBytes ring.producerCapacity).toNat + ring.lastFootprint.toNat

/-- A timed first push publishes its record with at most the high-watermark bytes in use. -/
def publishesBelowMark (sender : Sender) : SendAction → Bool
  | .ring .producer =>
      match sender.ring.producer with
      | .copy (.direct _) [] _ =>
          !sender.ctx.policy.measures || decide (sender.ring.object.head -
            sender.ring.object.tail ≤ hwBytes sender.ring.producerCapacity)
      | _ => true
  | _ => true

theorem sleeper_below_mark {sender : Sender} {job : WaitJob}
    (asleep : sender.ring.producer = .asleep job) (action : SendAction) :
    publishesBelowMark sender action = true := by
  cases action with
  | ring moved => cases moved <;> simp [publishesBelowMark, asleep]
  | _ => rfl

structure BacklogHolds (sender : Sender) (head tail : Nat) (slots : List Slot) : Prop where
  ring : SendRing sender head tail slots
  mapped : SenderMapped sender
  backlog : Backlog sender.ring head tail
  blocks : sender.ctx.nonblockingSend = false
  timed : sender.ring.producer.direct = true → sender.ctx.policy.measures = true

section Steps

variable {sender next : Sender} {head tail : Nat} {slots : List Slot}

theorem calm_push {action : RingAction} (holds : BacklogHolds sender head tail slots)
    (below : publishesBelowMark sender (.ring action) = true) : CalmPush sender.ring action := by
  rintro call newHead rfl place
  have timed := holds.timed (by rw [place]; rfl)
  simp only [publishesBelowMark, place, timed, Bool.not_true, Bool.false_or,
    decide_eq_true_eq] at below
  exact below

/-- The endpoint's own steps add no bytes to the ring. -/
theorem own_backlog {after : RingState} {head' tail' : Nat} {slots' : List Slot}
    (holds : BacklogHolds sender head tail slots) (own : OwnRing sender after)
    (kept : RingInv after head' tail' slots') :
    Backlog after head' tail' ∧
      (after.producer.direct = true → sender.ctx.policy.measures = true) := by
  have before := holds.ring.inv.used_toNat
  have now := kept.used_toNat
  have throttled := holds.backlog.throttled
  have bounded := holds.backlog.bounded
  cases own with
  | untouched same =>
      rw [same] at now ⊢
      rw [before] at now
      rw [now] at throttled bounded
      exact ⟨⟨throttled, bounded⟩, holds.timed⟩
  | called call idle direct entered =>
      rw [entered] at now ⊢
      rw [before] at now
      rw [now] at bounded
      refine ⟨⟨call_start_throttled sender.ring.producerCapacity call, bounded⟩, ?_⟩
      intro pushes
      cases call with
      | push push =>
          have asked := direct push rfl
          simpa [pushesDirectly, holds.blocks] using asked
      | waitWritable => cases pushes
      | pushScatterBlocking segs => cases pushes
  | attached detached mapped =>
      rw [mapped] at now ⊢
      rw [before] at now
      rw [now] at bounded
      exact ⟨⟨trivial, bounded⟩, fun pushes => (by cases pushes)⟩

theorem move_backlog {action : SendAction} (holds : BacklogHolds sender head tail slots)
    (short : payloadsBelow action = true) (below : publishesBelowMark sender action = true)
    (move : SendMove sender action next) :
    ∃ head' tail' slots', BacklogHolds next head' tail' slots' := by
  obtain ⟨head', tail', slots', ring, effect⟩ :=
    move_advances holds.ring holds.mapped short move
  have config := move_config move
  have blocks := config.nonblockingSend.trans holds.blocks
  have mapped := move_mapped holds.mapped move
  refine ⟨head', tail', slots', ring, mapped, ?_, blocks, ?_⟩
  · rcases move_own holds.ring holds.mapped move with own | ⟨moved, rfl, foreign, stepped⟩
    · exact (own_backlog holds own ring.inv).1
    · exact ring_step_backlog holds.ring.inv holds.backlog (calm_push holds below) stepped
        ring.inv effect
  · rw [config.policy]
    rcases move_own holds.ring holds.mapped move with own | ⟨moved, rfl, foreign, stepped⟩
    · exact (own_backlog holds own ring.inv).2
    · exact fun direct => holds.timed (foreign_step_direct foreign stepped direct)

theorem above_mark_exceeds {action : SendAction} (holds : BacklogHolds sender head tail slots)
    (above : publishesBelowMark sender action = false)
    (stepped : sendStep sender action = some next) : ¬WithinWatermark next.ring := by
  cases action with
  | call env data => cases above
  | step env => cases above
  | ring moved =>
      cases moved with
      | producer =>
          obtain ⟨after, pushed, rfl⟩ := Option.map_eq_some_iff.mp stepped
          obtain ⟨call, newHead, place⟩ : ∃ call newHead,
              sender.ring.producer = .copy (.direct call) [] newHead := by
            simp only [publishesBelowMark] at above
            split at above
            · next call newHead place => exact ⟨call, newHead, place⟩
            · cases above
          simp only [publishesBelowMark, place, Bool.or_eq_false_iff, decide_eq_false_iff_not,
            UInt64.not_le] at above
          obtain ⟨head', tail', slots', kept, effect⟩ :=
            @ring_step_inv sender.ring after .producer head tail slots holds.ring.inv rfl pushed
          have exceeds := direct_push_exceeds holds.ring.inv place above.2 pushed kept effect
          rw [WithinWatermark, kept.used_toNat]
          exact Nat.not_le.mpr exceeds
      | _ => cases above

theorem backlog_within (holds : BacklogHolds sender head tail slots) :
    WithinWatermark sender.ring := by
  rw [WithinWatermark, holds.ring.inv.used_toNat]
  exact holds.backlog.bounded

end Steps

abbrev markedMachine (cfg : AdaptConfig) (env : InitEnv) : Machine Sender SendAction :=
  (sharedMachine cfg env).guarded fun sender action =>
    payloadsBelow action && publishesBelowMark sender action

theorem marked_reachable {cfg : AdaptConfig} {env : InitEnv} (blocks : cfg.nonblockingSend = false)
    {sender : Sender} (reached : (markedMachine cfg env).Reachable sender) :
    ∃ head tail slots, BacklogHolds sender head tail slots := by
  refine Machine.invariant_of_reachable (markedMachine cfg env)
    (fun sender => ∃ head tail slots, BacklogHolds sender head tail slots) ?_ ?_ reached
  · intro start starts
    obtain ⟨ring, mapped⟩ := shared_starts starts
    obtain ⟨⟨accepted, _⟩, new⟩ := starts
    have config := (init_starts accepted).1.toSameConfig
    refine ⟨0, 0, [], ring, mapped, ⟨?_, Nat.zero_le _⟩, ?_, ?_⟩
    · rw [new.producer]
      split <;> trivial
    · exact config.nonblockingSend.trans blocks
    · rw [new.producer]
      split <;> simp [ProducerPc.direct]
  · rintro before action after ⟨head, tail, slots, holds⟩ stepped
    obtain ⟨allowed, stepped⟩ := Machine.guarded_step stepped
    rw [Bool.and_eq_true] at allowed
    exact move_backlog holds allowed.1 allowed.2 (send_step_move stepped)

/-- The bound holds in every state of such a run, and the first step that leaves the
condition breaks it. -/
theorem backlog_bounded_iff (cfg : AdaptConfig) (env : InitEnv)
    (blocks : cfg.nonblockingSend = false) {sender : Sender}
    (reached : (markedMachine cfg env).Reachable sender) :
    WithinWatermark sender.ring ∧ ∀ action next, payloadsBelow action = true →
      (sharedMachine cfg env).step sender action = some next →
        (WithinWatermark next.ring ↔ publishesBelowMark sender action = true) := by
  obtain ⟨head, tail, slots, holds⟩ := marked_reachable blocks reached
  refine ⟨backlog_within holds, ?_⟩
  intro action next short stepped
  have move := send_step_move stepped
  constructor
  · intro within
    by_contra above
    exact above_mark_exceeds holds (by simpa using above) stepped within
  · intro below
    obtain ⟨_, _, _, kept⟩ := move_backlog holds short below move
    exact backlog_within kept

def timedConfig : AdaptConfig := { plainConfig 4096 with policy := .costAware }

def timedSender : Sender := startSender { eagerContext with policy := .costAware } pageRing

theorem timed_starts : (sharedMachine timedConfig eagerEnv).initial timedSender := by
  refine ⟨⟨rfl, ⟨none, rfl⟩, rfl, rfl⟩, ?_⟩
  constructor
  case consumer => exact Or.inr rfl
  all_goals rfl

def timedSend (payload : List UInt8) : List SendAction :=
  .call quietEnv (some payload) :: List.replicate 4 (.step quietEnv) ++
    List.replicate (payload.length + 8) (.ring .producer) ++ [.step quietEnv]

def throttledSend (payload : List UInt8) : List SendAction :=
  .call quietEnv (some payload) :: List.replicate 4 (.step quietEnv) ++
    [.ring .producer, .ring .producer, .step quietEnv] ++ List.replicate 6 (.ring .producer)

/-- 3305 bytes are in use when 2000 more are sent: the producer sleeps, and whatever happens
next keeps the bound. -/
theorem backlog_bounded_throttled : ∃ sender,
    (markedMachine timedConfig eagerEnv).Reachable sender ∧
      sender.ring.object.head - sender.ring.object.tail = 3305 ∧
      hwBytes sender.ring.producerCapacity = 3276 ∧
      sender.ring.producer = .asleep (.throttle (shmSegments (List.replicate 2000 0))) ∧
      WithinWatermark sender.ring ∧
      ∀ action next, payloadsBelow action = true →
        (sharedMachine timedConfig eagerEnv).step sender action = some next →
          WithinWatermark next.ring := by
  have ran : ((markedMachine timedConfig eagerEnv).run timedSender
      (timedSend (List.replicate 3300 0) ++ throttledSend (List.replicate 2000 0))).map
      (fun sender => (sender.ring.object.head - sender.ring.object.tail,
        hwBytes sender.ring.producerCapacity, sender.ring.producer.sleeper)) =
      some (3305, 3276, some (.throttle (shmSegments (List.replicate 2000 0)))) := by
    decide +kernel
  obtain ⟨sender, run, facts⟩ := Option.map_eq_some_iff.mp ran
  simp only [Prod.mk.injEq] at facts
  obtain ⟨used, mark, sleeps⟩ := facts
  have place := ProducerPc.asleep_of_sleeper sleeps
  have reached := Machine.reachable_run (markedMachine timedConfig eagerEnv) timed_starts run
  obtain ⟨within, steps⟩ := backlog_bounded_iff timedConfig eagerEnv rfl reached
  refine ⟨sender, reached, used, mark, place, within, ?_⟩
  intro action next short stepped
  exact (steps action next short stepped).mpr (sleeper_below_mark place action)

/-- 3305 bytes are in use, more than the mark of 3276, and one more byte is pushed
without a wait. -/
theorem timed_push_above_mark : ∃ sender,
    (sharedMachine timedConfig eagerEnv).Reachable sender ∧
      sender.ring.object.head - sender.ring.object.tail = 3311 ∧
      sender.ring.lastFootprint = 6 ∧ hwBytes sender.ring.producerCapacity = 3276 ∧
      ¬WithinWatermark sender.ring := by
  have ran : ((sharedMachine timedConfig eagerEnv).run timedSender
      (timedSend (List.replicate 3300 0) ++ timedSend [1])).map (fun sender =>
        (sender.ring.object.head - sender.ring.object.tail, sender.ring.lastFootprint,
          hwBytes sender.ring.producerCapacity)) = some (3311, 6, 3276) := by
    decide +kernel
  obtain ⟨sender, run, facts⟩ := Option.map_eq_some_iff.mp ran
  simp only [Prod.mk.injEq] at facts
  obtain ⟨used, footprint, mark⟩ := facts
  refine ⟨sender, Machine.reachable_run _ timed_starts run, used, footprint, mark, ?_⟩
  rw [WithinWatermark, used, footprint, mark]
  decide

end AdaptIpc.Endpoint

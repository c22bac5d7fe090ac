import AdaptIpc.Endpoint.Link
import AdaptIpc.Endpoint.Retry
import AdaptIpc.Endpoint.SendRing

/-!
# Where a send puts its frame

What one step of `adapt_send` adds to the finished calls and hands to the socket:
a call that returns 0 has put one frame on one transport and a call that fails
has put none, on every way through the handshake, the guard rails and the
fallbacks. A payload too long for every transport is refused before it gets near
one.
-/

namespace AdaptIpc.Endpoint

open AdaptIpc.Ring AdaptIpc.Policy AdaptIpc.Library.Cursor AdaptIpc.Library.Transition

set_option autoImplicit false

inductive Truthful (attempt : Attempt) : Prop where
  | failed (code : Errno) (result : attempt.result = .error code)
      (nowhere : attempt.placed = none)
  | ring (result : attempt.result = .ok ()) (placed : attempt.placed = some .shm)
  | socket (result : attempt.result = .ok ()) (placed : attempt.placed = some .uds)

def dataFrames (frames : List (List UInt8)) : List (List UInt8) :=
  frames.filter fun frame => !isControl frame

def Attempt.udsFrames (attempt : Attempt) : List (List UInt8) :=
  if attempt.placed = some .uds then [udsFrame attempt.payload] else []

def udsFrames (attempts : List Attempt) : List (List UInt8) :=
  attempts.flatMap Attempt.udsFrames

inductive Closes (sender : Sender) (action : SendAction) (next : Sender) : Prop where
  | running (attempts : next.attempts = sender.attempts)
      (silent : dataFrames (sender.datagrams action) = [])
  | closed (attempt : Attempt) (attempts : next.attempts = sender.attempts ++ [attempt])
      (truthful : Truthful attempt)
      (sent : dataFrames (sender.datagrams action) = attempt.udsFrames)

/-- The running call has placed nothing, and sends on the socket only what fits a
datagram. -/
def PlaceAt (draft : Attempt) : SendPc → Prop
  | .idle _ => True
  | .udsSend _ => draft.placed = none ∧ oversize draft.size = false
  | _ => draft.placed = none

section Steps

variable {sender next : Sender} {action : SendAction}

theorem PlaceAt.unplaced {draft : Attempt} {pc : SendPc} (place : PlaceAt draft pc)
    (busy : ∀ rc, pc ≠ .idle rc) : draft.placed = none := by
  cases pc with
  | idle rc => exact absurd rfl (busy rc)
  | udsSend t => exact place.1
  | _ => exact place

theorem unplaced_silent {attempt : Attempt} (nowhere : attempt.placed = none) :
    [] = attempt.udsFrames := by
  simp [Attempt.udsFrames, nowhere]

theorem silent_datagrams (elsewhere : ∀ t, sender.pc ≠ .udsSend t) :
    dataFrames (sender.datagrams action) = [] := by
  simp only [Sender.datagrams]
  split
  · split
    · split
      · rfl
      · next t here => exact absurd here (elsewhere t)
      · rfl
    · rfl
  · rfl

theorem transmitted_places {before : Sender} {route : AdaptRoute}
    (transmitted : Transmitted before route next) (unplaced : before.draft.placed = none)
    (small : route ≠ .shm → oversize before.draft.size = false) :
    next.attempts = before.attempts ∧ PlaceAt next.draft next.pc := by
  cases transmitted with
  | push ring tMeas shm called untimed =>
      refine ⟨rfl, ?_⟩
      simp only [Sender.startPush]
      split <;> exact unplaced
  | datagram tMeas other => exact ⟨rfl, unplaced, small other⟩

theorem failed_places {before : Sender} {hrc : Errno} (failed : HandshakeFailed before hrc next)
    (unplaced : before.draft.placed = none) (attempts : before.attempts = sender.attempts)
    (silent : dataFrames (sender.datagrams action) = []) :
    Closes sender action next ∧ PlaceAt next.draft next.pc := by
  cases failed with
  | refused large =>
      refine ⟨.closed _ (congrArg (· ++ [_]) attempts) (.failed _ rfl unplaced) ?_, trivial⟩
      exact silent.trans (unplaced_silent unplaced)
  | degraded tMeas small => exact ⟨.running attempts silent, unplaced, small⟩

theorem framed_toNat {draft : Attempt} (word : draft.payload.length + 1 < 2 ^ 64) :
    (draft.size + 1).toNat = draft.payload.length + 1 := by
  have sum : draft.size + 1 = cursor (draft.payload.length + 1) :=
    cursor_add draft.payload.length 1
  rw [sum, cursor_toNat _ word]

theorem decide_admits {before : Sender} {now waitClock : UInt64} {route : AdaptRoute}
    (decided : (before.decide now waitClock).1 = .ok route) :
    (route = .shm → ¬before.ctx.shmCapacity < before.draft.size + 1) ∧
      (route ≠ .shm → oversize before.draft.size = false) := by
  obtain ⟨same, fits, _⟩ := guard_accepts decided
  constructor
  · intro shm
    have capacity := (decide_config before now waitClock).shmCapacity
    have guarded := (guard_retry_only (routeMessage before.ctx before.draft.size now waitClock).2
      (routeMessage before.ctx before.draft.size now waitClock).1 before.draft.size).shmCapacity
    rw [← capacity, show (before.decide now waitClock).2.ctx.shmCapacity = _ from guarded]
    exact fits shm
  · intro other
    rw [same, escalated] at other
    split_ifs at other with large
    · exact absurd rfl other
    · exact Bool.not_eq_true _ ▸ fun exceeds => large ⟨other, exceeds⟩

theorem dispatched_places {before : Sender} (dispatched : Dispatched before next)
    (unplaced : before.draft.placed = none) (attempts : before.attempts = sender.attempts)
    (silent : dataFrames (sender.datagrams action) = []) :
    Closes sender action next ∧ PlaceAt next.draft next.pc := by
  cases dispatched with
  | tooLarge now waitClock refused =>
      refine ⟨.closed _ (congrArg (· ++ [_]) attempts) (.failed _ rfl unplaced) ?_, trivial⟩
      exact silent.trans (unplaced_silent unplaced)
  | negotiating now waitClock env route unmapped waiting =>
      refine ⟨.running attempts silent, ?_⟩
      simp only [Sender.negotiate]
      split <;> exact unplaced
  | sent now waitClock route next decided mapped transmitted =>
      have placed := transmitted_places transmitted unplaced (decide_admits decided).2
      exact ⟨.running (placed.1.trans attempts) silent, placed.2⟩

theorem move_places (place : PlaceAt sender.draft sender.pc)
    (move : SendMove sender action next) :
    Closes sender action next ∧ PlaceAt next.draft next.pc := by
  cases move with
  | rejected env data before code idle bad =>
      exact ⟨.running rfl (silent_datagrams (by simp [idle])), trivial⟩
  | opened env data before payload idle good held =>
      exact ⟨.running rfl (silent_datagrams (by simp [idle])), rfl⟩
  | openedUnmapped env data before payload next idle good none dispatched =>
      have silent : dataFrames (sender.datagrams (.call env data)) = [] := rfl
      exact dispatched_places dispatched rfl rfl silent
  | usedHead env now here =>
      rw [here] at place
      exact ⟨.running rfl (silent_datagrams (by simp [here])), place⟩
  | usedTail env now head here =>
      rw [here] at place
      exact ⟨.running rfl (silent_datagrams (by simp [here])), place⟩
  | freeHead env now occ here =>
      rw [here] at place
      exact ⟨.running rfl (silent_datagrams (by simp [here])), place⟩
  | freeTail env now occ head cap next here dispatched =>
      rw [here] at place
      exact dispatched_places dispatched place rfl (silent_datagrams (by simp [here]))
  | requestFailed env nowNs code next here refused failed =>
      rw [here] at place
      exact failed_places failed place rfl (silent_datagrams (by simp [here]))
  | requested env nowNs here delivered =>
      rw [here] at place
      exact ⟨.running rfl (silent_datagrams (by simp [here])), place⟩
  | ackFailed env deadline received code next here arrived failed =>
      rw [here] at place
      exact failed_places failed place rfl (silent_datagrams (by simp [here]))
  | polled env deadline here quiet =>
      exact ⟨.running rfl (silent_datagrams (by simp [here])), place⟩
  | ackUnmappable env deadline frame code next here arrived acknowledged failed =>
      rw [here] at place
      exact failed_places failed place rfl (silent_datagrams (by simp [here]))
  | ackMapped env deadline frame mapped here arrived acknowledged attached =>
      rw [here] at place
      exact ⟨.running rfl (silent_datagrams (by simp [here])), place⟩
  | mappingFailed env before next here written short failed =>
      rw [here] at place
      exact failed_places failed place rfl (silent_datagrams (by simp [here]))
  | negotiated env before grown next here written room transmitted =>
      rw [here] at place
      have placed := transmitted_places transmitted place (fun other => absurd rfl other)
      exact ⟨.running placed.1 (silent_datagrams (by simp [here])), placed.2⟩
  | pushAgain env tMeas ring here full blocks called =>
      rw [here] at place
      exact ⟨.running rfl (silent_datagrams (by simp [here])), place⟩
  | pushed env tMeas rc here returned =>
      have elsewhere : ∀ t, sender.pc ≠ .udsSend t := by
        intro t
        rcases here with here | here <;> simp [here]
      refine ⟨.closed _ rfl ?_ ?_, trivial⟩
      · cases rc with
        | ok => exact .ring rfl rfl
        | error code => exact .failed code rfl rfl
      · rw [silent_datagrams elsewhere]
        cases rc <;> rfl
  | datagramSent env tMeas here =>
      refine ⟨.closed _ rfl ?_ ?_, trivial⟩
      · cases sent : env.status with
        | ok => exact .socket rfl rfl
        | error code => exact .failed code rfl rfl
      · cases sent : env.status with
        | ok =>
            simp [Sender.datagrams, here, sent, dataFrames, Attempt.udsFrames, Sender.closed,
              uds_frame_data]
        | error code =>
            simp [Sender.datagrams, sent, dataFrames, Attempt.udsFrames, Sender.closed]
  | ring moved after foreign stepped => exact ⟨.running rfl rfl, place⟩

end Steps

def SendPc.observing : SendPc → Bool
  | .usedHead _ => true
  | .usedTail _ _ => true
  | .freeHead _ _ => true
  | .freeTail _ _ _ => true
  | _ => false

/-- The frame does not fit the length word of a record, but `size_t`. -/
structure TooLong (draft : Attempt) : Prop where
  long : 2 ^ 32 ≤ draft.payload.length + 1
  word : draft.payload.length + 1 < 2 ^ 64

/-- The ring invariant for any payload: one that is too long is only looked at, and the
ring is as it would be for a short one. -/
def Carries (sender : Sender) (head tail : Nat) (slots : List Slot) : Prop :=
  SendRing sender head tail slots ∨ (sender.pc.observing = true ∧ TooLong sender.draft ∧
    sender.draft.placed = none ∧
    SendRing { sender with draft := openAttempt [0] } head tail slots)

/-- The payloads of the calls are objects, whose sizes leave room for the tag. -/
def sizedPayload : SendAction → Bool
  | .call _ (some payload) => decide (payload.length + 1 < 2 ^ 64)
  | _ => true

section TooLong

variable {sender next : Sender} {head tail : Nat} {slots : List Slot}

theorem too_long_refused {before : Sender} (long : TooLong before.draft)
    (capacity : before.ctx.shmCapacity.toNat ≤ 2 ^ 30) (dispatched : Dispatched before next) :
    ∃ now waitClock, next = (before.decide now waitClock).2.finish (.error .emsgsize) := by
  have framed := framed_toNat long.word
  have large := long.long
  have refused : ∀ {now waitClock : UInt64} {route : AdaptRoute},
      (before.decide now waitClock).1 ≠ .ok route := by
    intro now waitClock route decided
    obtain ⟨ring, socket⟩ := decide_admits decided
    by_cases shm : route = .shm
    · have fits := ring shm
      rw [UInt64.lt_iff_toNat_lt, framed] at fits
      omega
    · have most : udsMaxDgram.toNat = 4096 := rfl
      have small := socket shm
      simp only [oversize, decide_eq_false_iff_not, UInt64.lt_iff_toNat_lt, framed, most] at small
      omega
  cases dispatched with
  | tooLarge now waitClock code => exact ⟨now, waitClock, rfl⟩
  | negotiating now waitClock env decided => exact absurd decided refused
  | sent now waitClock route next decided => exact absurd decided refused

theorem refused_carries {before : Sender} {short : Attempt} (dispatched : Dispatched before next)
    (long : TooLong before.draft) (unplaced : before.draft.placed = none)
    (capacity : before.ctx.shmCapacity.toNat ≤ 2 ^ 30)
    (ready : Ready { before with draft := short } head tail slots) :
    SendRing next head tail slots ∧ next.ring = before.ring := by
  obtain ⟨now, waitClock, rfl⟩ := too_long_refused long capacity dispatched
  have mapping := decide_mapping before now waitClock
  have decided : Ready { (before.decide now waitClock).2 with draft := short } head tail slots :=
    ready.noted (decide_config before now waitClock)
      (fun unmapped => mapping.ring.symm.trans unmapped) ready.opened
  exact ⟨Ready.finish_any decided unplaced, rfl⟩

theorem Ready.observes (ready : Ready sender head tail slots) (ring : next.ring = sender.ring)
    (config : SameConfig sender.ctx next.ctx) (mapping : next.ctx.ring = sender.ctx.ring)
    (attempts : next.attempts = sender.attempts) (opened : Open next.draft)
    (observing : next.pc.observing = true) : SendRing next head tail slots := by
  constructor
  · rw [ring]
    exact ready.inv
  · rw [ring]
    exact ready.fitted.same config
  · rintro (unmapped | here)
    · exact ready.vacant (mapping.symm.trans unmapped)
    · rw [here] at observing
      cases observing
  · have resting : next.ring.producer.resting = true ∧ next.ring.pushed = shmFrames next.attempts := by
      rw [ring, attempts]
      exact ⟨ready.resting, ready.pushed⟩
    cases here : next.pc <;> rw [here] at observing <;> first | exact resting | cases observing
  · exact Or.inr opened

theorem SendRing.observed (held : SendRing sender head tail slots)
    (observing : sender.pc.observing = true) : Ready sender head tail slots := by
  apply held.ready
  · intro place
    cases here : sender.pc <;> rw [here] at observing place <;> first | exact place | cases observing
  · intro rc idle
    rw [idle] at observing
    cases observing

theorem short_open : Open (openAttempt [0]) := ⟨rfl, by decide, by decide⟩

theorem arguments_short {ctx : AdaptCtx} {data : Option (List UInt8)} {payload : List UInt8}
    (good : checkArguments ctx data = .ok payload) : checkArguments ctx (some [0]) = .ok [0] := by
  simp only [checkArguments] at good ⊢
  split at good
  · cases good
  · split_ifs at good with empty role
    simp [role]

theorem long_call_carries {env : SendEnv} {payload : List UInt8}
    (held : SendRing sender head tail slots) (long : TooLong (openAttempt payload))
    (capacity : sender.ctx.shmCapacity.toNat ≤ 2 ^ 30)
    (move : SendMove sender (.call env (some payload)) next) :
    Carries next head tail slots ∧ next.ring = sender.ring := by
  cases move with
  | rejected env data before code idle bad => exact ⟨Or.inl (held.rejected idle), rfl⟩
  | opened env data before other idle good present =>
      cases arguments_payload good
      have ready := idle_ready idle held (arguments_short good) (by decide)
      refine ⟨Or.inr ⟨rfl, long, rfl, ?_⟩, rfl⟩
      exact ready.observes rfl (SameConfig.refl _) rfl rfl short_open rfl
  | openedUnmapped env data before other next idle good none dispatched =>
      cases arguments_payload good
      have ready := idle_ready idle held (arguments_short good) (by decide)
      have quiet := quiet_sample sender.ctx (openAttempt payload).size 0 env.clock
      have sampled : Ready { { sender with draft := openAttempt payload }.sample 0 env.clock
          Option.none with draft := openAttempt [0] } head tail slots :=
        ⟨ready.inv, ready.fitted.same quiet.toSameConfig, ready.vacant, ready.resting,
          ready.pushed, ready.opened⟩
      obtain ⟨kept, same⟩ := refused_carries dispatched long rfl capacity sampled
      exact ⟨Or.inl kept, same⟩

/-- It is looked at and then refused. -/
theorem observing_carries {action : SendAction} (observing : sender.pc.observing = true)
    (long : TooLong sender.draft) (unplaced : sender.draft.placed = none)
    (held : SendRing { sender with draft := openAttempt [0] } head tail slots)
    (capacity : sender.ctx.shmCapacity.toNat ≤ 2 ^ 30) (own : ∀ moved, action ≠ .ring moved)
    (move : SendMove sender action next) :
    Carries next head tail slots ∧ next.ring = sender.ring := by
  have ready := held.observed observing
  cases move with
  | usedHead env now here =>
      exact ⟨Or.inr ⟨rfl, long, unplaced, ready.observes rfl (SameConfig.refl _) rfl rfl short_open
        rfl⟩, rfl⟩
  | usedTail env now loaded here =>
      have quiet := quiet_sample sender.ctx sender.draft.size (loaded - sender.ring.object.tail) now
      exact ⟨Or.inr ⟨rfl, long, unplaced, ready.observes rfl quiet.toSameConfig quiet.ring rfl
        short_open rfl⟩, rfl⟩
  | freeHead env now occ here =>
      exact ⟨Or.inr ⟨rfl, long, unplaced, ready.observes rfl (SameConfig.refl _) rfl rfl short_open
        rfl⟩, rfl⟩
  | freeTail env now occ loaded cap next here dispatched =>
      have quiet := quiet_monitor sender.ctx occ cap
      have noted := ready.noted quiet.toSameConfig (fun gone => quiet.ring.symm.trans gone)
        ready.opened
      have bound : (monitorHealth sender.ctx occ cap).shmCapacity.toNat ≤ 2 ^ 30 := by
        rw [quiet.shmCapacity]
        exact capacity
      obtain ⟨kept, same⟩ := refused_carries dispatched long unplaced bound noted
      exact ⟨Or.inl kept, same⟩
  | rejected env data before code here => simp [here, SendPc.observing] at observing
  | opened env data before payload here => simp [here, SendPc.observing] at observing
  | openedUnmapped env data before payload next here =>
      simp [here, SendPc.observing] at observing
  | requestFailed env nowNs code next here => simp [here, SendPc.observing] at observing
  | requested env nowNs here => simp [here, SendPc.observing] at observing
  | ackFailed env deadline received code next here => simp [here, SendPc.observing] at observing
  | polled env deadline here => simp [here, SendPc.observing] at observing
  | ackUnmappable env deadline frame code next here => simp [here, SendPc.observing] at observing
  | ackMapped env deadline frame mapped here => simp [here, SendPc.observing] at observing
  | mappingFailed env before next here => simp [here, SendPc.observing] at observing
  | negotiated env before grown next here => simp [here, SendPc.observing] at observing
  | pushAgain env tMeas ring here => simp [here, SendPc.observing] at observing
  | pushed env tMeas rc here =>
      rcases here with here | here <;> simp [here, SendPc.observing] at observing
  | datagramSent env tMeas here => simp [here, SendPc.observing] at observing
  | ring moved => exact absurd rfl (own moved)

theorem Carries.moves {action : SendAction} (held : Carries sender head tail slots)
    (mapped : SenderMapped sender) (sized : sizedPayload action = true)
    (capacity : sender.ctx.shmCapacity.toNat ≤ 2 ^ 30) (own : ∀ moved, action ≠ .ring moved)
    (move : SendMove sender action next) :
    ∃ head' tail' slots', Carries next head' tail' slots' ∧
      RingEffect sender.ring next.ring head tail slots head' tail' slots' ∧
      OwnRing sender next.ring := by
  have untouched : Carries next head tail slots ∧ next.ring = sender.ring →
      ∃ head' tail' slots', Carries next head' tail' slots' ∧
        RingEffect sender.ring next.ring head tail slots head' tail' slots' ∧
        OwnRing sender next.ring := by
    rintro ⟨kept, same⟩
    exact ⟨head, tail, slots, kept, .quiet (by rw [same]) (by rw [same]) (by rw [same]),
      .untouched same⟩
  rcases held with held | ⟨observing, long, unplaced, held⟩
  · cases below : payloadsBelow action with
    | true =>
        obtain ⟨head', tail', slots', kept, effect⟩ := move_advances held mapped below move
        refine ⟨head', tail', slots', Or.inl kept, effect, ?_⟩
        rcases move_own held mapped move with same | ⟨moved, ring, _⟩
        · exact same
        · exact absurd ring (own moved)
    | false =>
        obtain ⟨env, payload, rfl, long⟩ : ∃ env payload, action = .call env (some payload) ∧
            2 ^ 32 ≤ payload.length + 1 := by
          simp only [payloadsBelow] at below
          split at below
          · next env payload =>
            exact ⟨env, payload, rfl, Nat.not_lt.mp (of_decide_eq_false below)⟩
          · cases below
        have word : payload.length + 1 < 2 ^ 64 := of_decide_eq_true sized
        exact untouched (long_call_carries held ⟨long, word⟩ capacity move)
  · exact untouched (observing_carries observing long unplaced held capacity own move)

theorem Carries.ring_moved {action : RingAction} {after : RingState} {head' tail' : Nat}
    {slots' : List Slot} (held : Carries sender head tail slots) (mapped : SenderMapped sender)
    (foreign : action.entersProducer = false) (moved : ringStep sender.ring action = some after)
    (inv : RingInv after head' tail' slots')
    (effect : RingEffect sender.ring after head tail slots head' tail' slots') :
    Carries { sender with ring := after } head' tail' slots' := by
  rcases held with held | ⟨observing, long, unplaced, held⟩
  · exact Or.inl (held.ring_moved mapped foreign moved inv effect)
  · have masked : SenderMapped { sender with draft := openAttempt [0] } := mapped
    exact Or.inr ⟨observing, long, unplaced, held.ring_moved masked foreign moved inv effect⟩

end TooLong

end AdaptIpc.Endpoint

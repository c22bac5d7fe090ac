import AdaptIpc.Endpoint.SendRing
import Mathlib.Data.List.Chain

/-!
# What the drain samples credit

`adapt_rtctx_sample` takes the occupancy behind the next push to be the one it
sees plus the payload, before the route and the outcome of the call are known.
The prediction is held against the positions of the ring: a call that puts its
frame there moves the head by more than was predicted, every other call leaves
the head where it was and the payload is later credited to the consumer.
-/

namespace AdaptIpc.Endpoint

open AdaptIpc.Ring AdaptIpc.Policy AdaptIpc.Library.Cursor AdaptIpc.Library.Transition

set_option autoImplicit false

structure SameCollector (before after : AdaptRtctx) : Prop extends SameDrain before after where
  lastNs : after.lastNs = before.lastNs
  prevOccBytes : after.prevOccBytes = before.prevOccBytes

section Collector

variable {first second third : AdaptRtctx}

theorem SameCollector.trans (early : SameCollector first second)
    (late : SameCollector second third) : SameCollector first third where
  toSameDrain := early.toSameDrain.trans late.toSameDrain
  lastNs := late.lastNs.trans early.lastNs
  prevOccBytes := late.prevOccBytes.trans early.prevOccBytes

theorem SameCollector.of_eq (same : second = first) : SameCollector first second := by
  rw [same]
  constructor
  · exact SameDrain.refl first
  · rfl
  · rfl

end Collector

theorem rt_observe (ctx : AdaptCtx) (route : AdaptRoute) (size tMeas now : UInt64) :
    SameCollector ctx.rt (observeCost ctx route size tMeas now).rt := by
  simp only [observeCost]
  split
  · constructor
    · constructor <;> rfl
    · rfl
    · rfl
  · exact SameCollector.of_eq rfl

theorem rt_monitor (ctx : AdaptCtx) (occ cap : UInt64) : (monitorHealth ctx occ cap).rt = ctx.rt := by
  simp only [monitorHealth, count_fields]

theorem rt_guard (ctx : AdaptCtx) (route : AdaptRoute) (size : UInt64) :
    (guardRails ctx route size).2.rt = ctx.rt := by
  simp only [guardRails, count_fields]
  split_ifs <;> rfl

theorem rt_classify (ctx : AdaptCtx) (size now waitClock : UInt64) :
    (classify ctx size now waitClock).rt = ctx.rt := by
  simp only [classify, logDecision, count_fields]
  split_ifs <;> rfl

theorem rt_decide (sender : Sender) (now waitClock : UInt64) :
    (sender.decide now waitClock).2.ctx.rt = sender.ctx.rt := by
  simp only [Sender.decide, rt_guard, routeMessage]
  split
  · rfl
  · exact rt_classify sender.ctx sender.draft.size now waitClock

theorem rt_handshake_failed (ctx : AdaptCtx) (size : UInt64) (hrc : Errno) :
    (handshakeFailed ctx size hrc).2.rt = ctx.rt := by
  simp only [handshakeFailed, count_fields]
  split_ifs <;> rfl

theorem rt_finish_shm (ctx : AdaptCtx) (size tMeas now parks : UInt64) (rc : Status) :
    SameCollector ctx.rt (finishShm ctx size tMeas now parks rc).rt := by
  have observed := rt_observe ctx .shm size tMeas now
  simp only [finishShm, count_fields]
  exact observed

theorem rt_finish_uds (ctx : AdaptCtx) (size tMeas now : UInt64) (rc : Status) :
    SameCollector ctx.rt (finishUds ctx size tMeas now rc).rt := by
  have observed := rt_observe ctx .uds size tMeas now
  simp only [finishUds]
  split_ifs <;> first | exact observed | exact SameCollector.of_eq rfl

theorem rt_name (ctx : AdaptCtx) (pid : Nat) (negCounter : UInt32) :
    (nameRing ctx pid negCounter).rt = ctx.rt := by
  simp only [nameRing]
  split <;> rfl

theorem rt_request (ctx : AdaptCtx) (nowNs : UInt64) : (requestSent ctx nowNs).rt = ctx.rt := by
  simp only [requestSent, count_fields]

theorem rt_ack (ctx : AdaptCtx) : (ackReceived ctx).rt = ctx.rt := by
  simp only [ackReceived, count_fields]

theorem rt_map {env : MapEnv} {ctx mapped : AdaptCtx}
    (attached : mapNegotiated env ctx = some (.ok mapped)) : mapped.rt = ctx.rt := by
  simp only [mapNegotiated] at attached
  split at attached <;> cases attached
  rfl

theorem rt_grow {realloc : Bool} {ctx grown : AdaptCtx} {cap : UInt64}
    (room : growRxbuf realloc ctx cap = some grown) : grown.rt = ctx.rt := by
  rw [grow_context room]

def SendPc.sampled : SendPc → Bool
  | .idle _ => false
  | .usedHead _ => false
  | .usedTail _ _ => false
  | _ => true

/-- A step inside a call behind its sample: the call goes on with its payload, or it
returns and is recorded. -/
structure Proceeds (sender next : Sender) : Prop where
  collector : SameCollector sender.ctx.rt next.ctx.rt
  observations : next.observations = sender.observations
  pushed : next.ring.pushed = sender.ring.pushed
  place : (next.pc.sampled = true ∧ next.attempts = sender.attempts ∧
      next.draft.payload = sender.draft.payload) ∨
    ((∃ rc, next.pc = .idle rc) ∧ ∃ last, next.attempts = sender.attempts ++ [last] ∧
      last.payload = sender.draft.payload)

section Steps

variable {sender next : Sender}

theorem Proceeds.after {ctx : AdaptCtx} {draft : Attempt}
    (proceeds : Proceeds { sender with ctx := ctx, draft := draft } next)
    (collector : SameCollector sender.ctx.rt ctx.rt)
    (payload : draft.payload = sender.draft.payload) : Proceeds sender next where
  collector := collector.trans proceeds.collector
  observations := proceeds.observations
  pushed := proceeds.pushed
  place := by
    rw [← payload]
    exact proceeds.place

theorem call_keeps_pushed {ring after : RingState} {call : ProducerCall}
    (called : callProducer ring call = some after) :
    after.pushed = ring.pushed ∧ after.object = ring.object := by
  obtain ⟨_, entered⟩ := call_producer_entered called
  rw [entered]
  exact ⟨rfl, rfl⟩

theorem finish_proceeds (sender : Sender) (rc : Status) : Proceeds sender (sender.finish rc) where
  collector := SameCollector.of_eq rfl
  observations := rfl
  pushed := rfl
  place := Or.inr ⟨⟨_, rfl⟩, _, rfl, rfl⟩

theorem datagram_proceeds (sender : Sender) (tMeas : UInt64) :
    Proceeds sender (sender.startDatagram tMeas) where
  collector := by
    apply SameCollector.of_eq
    simp only [Sender.startDatagram, count_fields]
  observations := rfl
  pushed := rfl
  place := Or.inl ⟨rfl, rfl, rfl⟩

theorem transmitted_proceeds {route : AdaptRoute} (transmitted : Transmitted sender route next) :
    Proceeds sender next := by
  cases transmitted with
  | push ring tMeas shm called =>
      constructor
      · apply SameCollector.of_eq
        simp only [Sender.startPush, count_fields]
      · rfl
      · exact (call_keeps_pushed called).1
      · apply Or.inl
        refine ⟨?_, rfl, rfl⟩
        simp only [Sender.startPush]
        split <;> rfl
  | datagram tMeas other => exact datagram_proceeds sender tMeas

theorem failed_proceeds {hrc : Errno} (failed : HandshakeFailed sender hrc next) :
    Proceeds sender next := by
  have collector : SameCollector sender.ctx.rt (sender.handshakeFailure hrc).2.ctx.rt :=
    SameCollector.of_eq (rt_handshake_failed sender.ctx sender.draft.size hrc)
  cases failed with
  | refused large => exact (finish_proceeds (sender.handshakeFailure hrc).2 _).after collector rfl
  | degraded tMeas small =>
      exact (datagram_proceeds (sender.handshakeFailure hrc).2 tMeas).after collector rfl

theorem dispatched_proceeds (dispatched : Dispatched sender next) : Proceeds sender next := by
  have collector : ∀ now waitClock,
      SameCollector sender.ctx.rt (sender.decide now waitClock).2.ctx.rt :=
    fun now waitClock => SameCollector.of_eq (rt_decide sender now waitClock)
  cases dispatched with
  | tooLarge now waitClock refused =>
      exact (finish_proceeds (sender.decide now waitClock).2 _).after (collector now waitClock) rfl
  | negotiating now waitClock env route unmapped waiting =>
      have named : Proceeds (sender.decide now waitClock).2
          ((sender.decide now waitClock).2.negotiate env) := by
        constructor
        · exact SameCollector.of_eq (rt_name _ env.pid env.negCounter)
        · rfl
        · rfl
        · apply Or.inl
          refine ⟨?_, rfl, rfl⟩
          simp only [Sender.negotiate]
          split <;> rfl
      exact named.after (collector now waitClock) rfl
  | sent now waitClock route next decided mapped transmitted =>
      exact (transmitted_proceeds transmitted).after (collector now waitClock) rfl

end Steps

/-- The payload length of the call that sampled last, and whether its frame is on the
ring by now. -/
def Sender.lastSent (sender : Sender) : Nat × Bool :=
  if sender.pc.sampled then
    (sender.draft.payload.length, Decidable.decide (sender.ring.pushed ≠ shmFrames sender.attempts))
  else
    match sender.attempts.getLast? with
    | some last => (last.payload.length, Decidable.decide (last.placed = some .shm))
    | none => (0, false)

/-- The observation of `word` was made at `seenHead` and `seenTail`; the head has since
moved by the frame that was sent, or not at all. -/
structure Prediction (sender : Sender) (word : UInt64) (seenHead seenTail head tail : Nat) : Prop where
  origin : word = cursor seenTail
  popped : seenTail ≤ tail
  ordered : seenTail ≤ seenHead
  room : seenHead ≤ seenTail + sender.ring.producerCapacity.bytes
  nonempty : 0 < sender.lastSent.1
  short : sender.lastSent.1 + 1 < 2 ^ 32
  predicted : sender.ctx.rt.prevOccBytes = ((seenHead - seenTail + sender.lastSent.1 : Nat) : ℚ)
  placed : sender.lastSent.2 = true →
    seenHead + sender.lastSent.1 ≤ head ∧ head < seenHead + 2 ^ 34
  unplaced : sender.lastSent.2 = false → head = seenHead

/-- What the collector remembers of the last sample, if that was of a mapped ring. -/
def Linked (sender : Sender) (head tail : Nat) : Prop :=
  match sender.observations.getLast? with
  | none => sender.ctx.rt.lastNs = 0
  | some seen => ∀ word, seen.tail = some word →
      ∃ seenHead seenTail, Prediction sender word seenHead seenTail head tail

def HeadLoaded (sender : Sender) : Prop :=
  ∀ now loaded, sender.pc = .usedTail now loaded → loaded = sender.ring.object.head

section Links

variable {sender next : Sender} {head tail head' tail' seenHead seenTail : Nat}
  {slots slots' : List Slot} {word : UInt64}

theorem gap_positive_iff (rc : AdaptRtctx) (now : UInt64) :
    0 < sampleGapNs rc now ↔ rc.lastNs ≠ 0 ∧ rc.lastNs < now := by
  simp only [sampleGapNs]
  by_cases later : rc.lastNs ≠ 0 ∧ rc.lastNs < now
  · have ordered : rc.lastNs ≤ now := Nat.le_of_lt later.2
    have positive : 0 < (now - rc.lastNs).toNat := by
      have below : rc.lastNs.toNat < now.toNat := later.2
      rw [UInt64.toNat_sub_of_le now rc.lastNs ordered]
      omega
    rw [if_pos later]
    exact ⟨fun _ => later, fun _ => by exact_mod_cast positive⟩
  · rw [if_neg later]
    exact ⟨fun positive => absurd positive (lt_irrefl 0), fun held => absurd held later⟩

theorem no_gap_no_credit {rc : AdaptRtctx} {now : UInt64} (occ : UInt64)
    (still : ¬(rc.lastNs ≠ 0 ∧ rc.lastNs < now)) : drainCredit rc occ now = 0 := by
  rw [← gap_positive_iff] at still
  simp only [drainCredit, still, false_and, if_false]

theorem Prediction.advance (link : Prediction sender word seenHead seenTail head tail)
    (inv : RingInv sender.ring head tail slots) :
    (cursor tail - word).toNat = tail - seenTail := by
  have ordered := inv.ordered
  have popped := link.popped
  have room := link.room
  have small := sender.ring.producerCapacity.bytes_le
  have near : tail - seenTail < 2 ^ 64 := by
    cases sent : sender.lastSent.2 with
    | true =>
        have moved := link.placed sent
        omega
    | false =>
        have same := link.unplaced sent
        omega
  rw [link.origin, cursor_sub tail seenTail popped, cursor_toNat _ near]

theorem Prediction.placed_credit_le (link : Prediction sender word seenHead seenTail head tail)
    (inv : RingInv sender.ring head tail slots) (placed : sender.lastSent.2 = true)
    (now : UInt64) :
    drainCredit sender.ctx.rt (cursor (head - tail)) now ≤ ((cursor tail - word).toNat : ℚ) := by
  have ordered := inv.ordered
  have popped := link.popped
  have seen := link.ordered
  have moved := (link.placed placed).1
  have small := sender.ring.producerCapacity.bytes_le
  have room := inv.room
  have occupied : (cursor (head - tail)).toNat = head - tail := cursor_toNat _ (by omega)
  rw [link.advance inv, drainCredit, occupied, link.predicted]
  split
  · have natural : seenHead - seenTail + sender.lastSent.1 ≤ (tail - seenTail) + (head - tail) := by
      omega
    have rational : ((seenHead - seenTail + sender.lastSent.1 : Nat) : ℚ) ≤
        ((tail - seenTail : Nat) : ℚ) + ((head - tail : Nat) : ℚ) := by
      exact_mod_cast natural
    linarith
  · exact Nat.cast_nonneg _

theorem Prediction.unplaced_credit (link : Prediction sender word seenHead seenTail head tail)
    (inv : RingInv sender.ring head tail slots) (unplaced : sender.lastSent.2 = false)
    {now : UInt64} (later : sender.ctx.rt.lastNs ≠ 0 ∧ sender.ctx.rt.lastNs < now) :
    drainCredit sender.ctx.rt (cursor (head - tail)) now =
      ((cursor tail - word).toNat : ℚ) + (sender.lastSent.1 : ℚ) := by
  have ordered := inv.ordered
  have popped := link.popped
  have seen := link.ordered
  have same := link.unplaced unplaced
  have nonempty := link.nonempty
  have small := sender.ring.producerCapacity.bytes_le
  have room := inv.room
  have occupied : (cursor (head - tail)).toNat = head - tail := cursor_toNat _ (by omega)
  have split : seenHead - seenTail + sender.lastSent.1 =
      (tail - seenTail) + sender.lastSent.1 + (head - tail) := by
    omega
  have whole : ((seenHead - seenTail + sender.lastSent.1 : Nat) : ℚ) =
      ((tail - seenTail : Nat) : ℚ) + (sender.lastSent.1 : ℚ) + ((head - tail : Nat) : ℚ) := by
    exact_mod_cast split
  have positive : (0 : ℚ) < (sender.lastSent.1 : ℚ) := by exact_mod_cast nonempty
  have advanced : (0 : ℚ) ≤ ((tail - seenTail : Nat) : ℚ) := Nat.cast_nonneg _
  have gap := (gap_positive_iff sender.ctx.rt now).mpr later
  rw [link.advance inv, drainCredit, occupied, link.predicted, whole,
    if_pos ⟨gap, by linarith⟩]
  ring

/-- The prediction is kept when the tail advances and the head moves by the frame in hand. -/
theorem Prediction.moves (link : Prediction sender word seenHead seenTail head tail)
    (collector : SameCollector sender.ctx.rt next.ctx.rt)
    (capacity : next.ring.producerCapacity.bytes = sender.ring.producerCapacity.bytes)
    (length : next.lastSent.1 = sender.lastSent.1) (popped : tail ≤ tail')
    (heads : (next.lastSent.2 = sender.lastSent.2 ∧ head' = head) ∨
      (sender.lastSent.2 = false ∧ next.lastSent.2 = true ∧
        ∃ frame : List UInt8, frame.length = sender.lastSent.1 + 1 ∧ Spans frame head head')) :
    Prediction next word seenHead seenTail head' tail' where
  origin := link.origin
  popped := Nat.le_trans link.popped popped
  ordered := link.ordered
  room := by
    rw [capacity]
    exact link.room
  nonempty := by
    rw [length]
    exact link.nonempty
  short := by
    rw [length]
    exact link.short
  predicted := by
    rw [collector.prevOccBytes, length]
    exact link.predicted
  placed := by
    intro placed
    rw [length]
    rcases heads with ⟨same, still⟩ | ⟨before, _, frame, framed, lower, upper⟩
    · rw [still]
      exact link.placed (same.symm.trans placed)
    · have stood := link.unplaced before
      have short := link.short
      omega
  unplaced := by
    intro unplaced
    rcases heads with ⟨same, still⟩ | ⟨_, after, _⟩
    · rw [still]
      exact link.unplaced (same.symm.trans unplaced)
    · exact absurd (after.symm.trans unplaced) (by decide)

theorem Linked.moves (linked : Linked sender head tail)
    (collector : SameCollector sender.ctx.rt next.ctx.rt)
    (observations : next.observations = sender.observations)
    (capacity : next.ring.producerCapacity.bytes = sender.ring.producerCapacity.bytes)
    (length : next.lastSent.1 = sender.lastSent.1) (popped : tail ≤ tail')
    (heads : (next.lastSent.2 = sender.lastSent.2 ∧ head' = head) ∨
      (sender.lastSent.2 = false ∧ next.lastSent.2 = true ∧
        ∃ frame : List UInt8, frame.length = sender.lastSent.1 + 1 ∧ Spans frame head head')) :
    Linked next head' tail' := by
  unfold Linked at linked ⊢
  rw [observations]
  split at linked
  · exact collector.lastNs.trans linked
  · intro word seen
    obtain ⟨seenHead, seenTail, link⟩ := linked word seen
    exact ⟨seenHead, seenTail, link.moves collector capacity length popped heads⟩

theorem proceeds_sent (proceeds : Proceeds sender next) (sampled : sender.pc.sampled = true)
    (held : SendRing next head tail slots) : next.lastSent = sender.lastSent := by
  rcases proceeds.place with ⟨sampling, attempts, payload⟩ | ⟨⟨rc, idle⟩, last, attempts, payload⟩
  · simp only [Sender.lastSent, sampling, sampled, if_true, attempts, payload, proceeds.pushed]
  · have place := held.place
    rw [idle] at place
    have pushed : sender.ring.pushed = shmFrames sender.attempts ++ last.shmFrames := by
      rw [← proceeds.pushed, place.2, attempts, shm_frames_append]
    have exceeds : next.pc.sampled = false := by rw [idle]; rfl
    simp only [Sender.lastSent, exceeds, sampled, if_true, attempts, List.getLast?_concat, payload,
      pushed, Attempt.shmFrames, Bool.false_eq_true, if_false]
    by_cases onRing : last.placed = some .shm <;> simp [onRing]

theorem proceeds_linked (linked : Linked sender head tail) (proceeds : Proceeds sender next)
    (sampled : sender.pc.sampled = true) (held : SendRing next head' tail' slots')
    (capacity : next.ring.producerCapacity.bytes = sender.ring.producerCapacity.bytes)
    (effect : RingEffect sender.ring next.ring head tail slots head' tail' slots') :
    Linked next head' tail' := by
  have sent := proceeds_sent proceeds sampled held
  apply linked.moves proceeds.collector proceeds.observations capacity
  · rw [sent]
  · exact effect.moved.1
  · exact Or.inl ⟨by rw [sent], effect.head_same proceeds.pushed⟩

theorem proceeds_head_loaded (proceeds : Proceeds sender next) : HeadLoaded next := by
  intro now loaded here
  rcases proceeds.place with ⟨sampling, _, _⟩ | ⟨⟨rc, idle⟩, _⟩
  · rw [here] at sampling
    cases sampling
  · rw [here] at idle
    cases idle

theorem fitted_bytes {before after : AdaptCtx} {ring grown : RingState}
    (config : SameConfig before after) (first : Fitted before ring)
    (second : Fitted after grown) : grown.producerCapacity.bytes = ring.producerCapacity.bytes := by
  have same := (second.symm.trans ((Fitted.same first config)))
  rw [← RingCapacity.size_toNat, ← RingCapacity.size_toNat, Option.some.inj same]

/-- The ring moves by itself; a record it takes in is the frame of the call. -/
theorem ring_linked {action : RingAction} {after : RingState} (linked : Linked sender head tail)
    (held : SendRing sender head tail slots)
    (foreign : action.entersProducer = false) (moved : ringStep sender.ring action = some after)
    (kept : SendRing { sender with ring := after } head' tail' slots')
    (effect : RingEffect sender.ring after head tail slots head' tail' slots') :
    Linked { sender with ring := after } head' tail' := by
  have capacity : after.producerCapacity.bytes = sender.ring.producerCapacity.bytes := by
    rw [(same_capacity_step moved).1]
  apply @Linked.moves sender { sender with ring := after } head tail head' tail' linked
    (SameCollector.of_eq rfl) rfl capacity _ effect.moved.1
  · rcases effect.moved.2 with ⟨pushed, same, _⟩ | ⟨record, pushed, spans, _⟩
    · left
      simp only [Sender.lastSent, pushed]
      exact ⟨trivial, same⟩
    · right
      have running := (ring_at_step held.place foreign moved).2
      have pushing : sender.pc.sampled = true ∧
          PushPlace sender.ring (shmFrame sender.draft.payload) (shmFrames sender.attempts) ∧
          PushPlace after (shmFrame sender.draft.payload) (shmFrames sender.attempts) := by
        have before := held.place
        have later := kept.place
        rcases running with same | ⟨t, here⟩ | ⟨t, here⟩
        · rw [same] at pushed
          exact absurd (congrArg List.length pushed) (by simp)
        · rw [here] at before
          simp only [here] at later
          rw [here]
          exact ⟨rfl, before, later⟩
        · rw [here] at before
          simp only [here] at later
          rw [here]
          exact ⟨rfl, before, later⟩
      obtain ⟨sampled, before, later⟩ := pushing
      have first : sender.ring.pushed = shmFrames sender.attempts ∧
          record = shmFrame sender.draft.payload := by
        cases later with
        | waiting place unpushed =>
            rw [pushed] at unpushed
            cases before with
            | waiting place stood =>
                rw [stood] at unpushed
                exact absurd (congrArg List.length unpushed) (by simp)
            | done place stood =>
                rw [stood] at unpushed
                exact absurd (congrArg List.length unpushed) (by simp)
        | done place finished =>
            rw [pushed] at finished
            cases before with
            | waiting place stood =>
                rw [stood] at finished
                exact ⟨stood, by simpa using finished⟩
            | done place stood =>
                rw [stood] at finished
                exact absurd (congrArg List.length finished) (by simp)
      simp only [Sender.lastSent, sampled, if_true, pushed, first.1]
      refine ⟨by simp, by simp, record, ?_, spans⟩
      rw [first.2]
      simp [shmFrame]
  · simp only [Sender.lastSent]
    split <;> rfl

/-- The sample of a mapped ring starts a new prediction. -/
theorem sample_linked {now : UInt64} (held : SendRing sender head tail slots)
    (here : sender.pc = .usedTail now sender.ring.object.head) (pc : SendPc)
    (sampled : pc.sampled = true) :
    Linked { sender.sample (sender.ring.object.head - sender.ring.object.tail) now
      (some sender.ring.object.tail) with pc := pc } head tail := by
  have opened := held.opened (by rw [here]; simp)
  have short := opened.short
  have place := held.place
  rw [here] at place
  have length : (shmFrame sender.draft.payload).length = sender.draft.payload.length + 1 := by
    simp [shmFrame]
  have sent : Sender.lastSent { sender.sample (sender.ring.object.head - sender.ring.object.tail)
      now (some sender.ring.object.tail) with pc := pc } =
      (sender.draft.payload.length, false) := by
    simp [Sender.lastSent, sampled, Sender.sample, place.2]
  simp only [Linked, Sender.sample, List.getLast?_concat]
  intro word seen
  cases seen
  refine ⟨head, tail, ?_⟩
  have size : sender.draft.size.toNat = sender.draft.payload.length :=
    cursor_toNat _ (by omega)
  simp only [Sender.sample] at sent
  constructor
  · exact held.inv.tailWord
  · exact Nat.le_refl _
  · exact held.inv.ordered
  · exact held.inv.room
  · rw [sent]
    exact List.length_pos_iff.mpr opened.nonempty
  · rw [sent]
    omega
  · rw [sent]
    simp only [sampleContext, adaptRtctxSample]
    rw [held.inv.used_toNat, size]
    push_cast
    rfl
  · intro placed
    rw [sent] at placed
    cases placed
  · exact fun _ => rfl

theorem unmapped_linked {occ now : UInt64} {opened : Sender}
    (proceeds : Proceeds (opened.sample occ now none) next) : Linked next head tail := by
  unfold Linked
  rw [proceeds.observations]
  simp only [Sender.sample, List.getLast?_concat]
  intro word seen
  cases seen

theorem waiting_linked (linked : Linked sender head tail) (ring : next.ring = sender.ring)
    (ctx : next.ctx = sender.ctx) (attempts : next.attempts = sender.attempts)
    (observations : next.observations = sender.observations)
    (before : sender.pc.sampled = false) (after : next.pc.sampled = false) :
    Linked next head tail := by
  have sent : next.lastSent = sender.lastSent := by
    simp only [Sender.lastSent, before, after, attempts, Bool.false_eq_true, if_false]
  apply linked.moves (SameCollector.of_eq (by rw [ctx])) observations
  · rw [ring]
  · rw [sent]
  · exact Nat.le_refl _
  · exact Or.inl ⟨by rw [sent], rfl⟩

inductive DrainMove (sender : Sender) : SendAction → Sender → Prop where
  | outside (action : SendAction) (next : Sender) (ring : next.ring = sender.ring)
      (ctx : next.ctx = sender.ctx) (attempts : next.attempts = sender.attempts)
      (observations : next.observations = sender.observations)
      (before : sender.pc.sampled = false) (after : next.pc.sampled = false)
      (loaded : HeadLoaded next) : DrainMove sender action next
  | unmapped (env : SendEnv) (data : Option (List UInt8)) (opened next : Sender)
      (unmapped : sender.ctx.ring = none) (proceeds : Proceeds (opened.sample 0 env.clock none) next)
      (observations : opened.observations = sender.observations) :
      DrainMove sender (.call env data) next
  | sampled (env : SendEnv) (now head : UInt64) (here : sender.pc = .usedTail now head) :
      DrainMove sender (.step env) { sender.sample (head - sender.ring.object.tail) now
        (some sender.ring.object.tail) with
        pc := .freeHead now (head - sender.ring.object.tail) }
  | proceeds (action : SendAction) (next : Sender) (sampled : sender.pc.sampled = true)
      (proceeds : Proceeds sender next) : DrainMove sender action next
  | ring (action : RingAction) (after : RingState) (foreign : action.entersProducer = false)
      (moved : ringStep sender.ring action = some after) :
      DrainMove sender (.ring action) { sender with ring := after }

theorem Proceeds.same {pc : SendPc} {ctx : AdaptCtx} (sampled : pc.sampled = true)
    (rt : ctx.rt = sender.ctx.rt) : Proceeds sender { sender with pc := pc, ctx := ctx } where
  collector := SameCollector.of_eq rt
  observations := rfl
  pushed := rfl
  place := Or.inl ⟨sampled, rfl, rfl⟩

theorem move_drain {action : SendAction} (move : SendMove sender action next) :
    DrainMove sender action next := by
  have loadless : ∀ {other : Sender} {rc : Option Status}, other.pc = .idle rc →
      HeadLoaded other := by
    intro other rc idle now loaded here
    rw [idle] at here
    cases here
  cases move with
  | rejected env data before code idle bad =>
      apply DrainMove.outside
      case before => rw [idle]; rfl
      case loaded => exact loadless rfl
      all_goals rfl
  | opened env data before payload idle good mapped =>
      apply DrainMove.outside
      case before => rw [idle]; rfl
      case loaded =>
        intro now loaded here
        cases here
      all_goals rfl
  | openedUnmapped env data before payload next idle good none dispatched =>
      exact .unmapped env data _ next none (dispatched_proceeds dispatched) rfl
  | usedHead env now here =>
      apply DrainMove.outside
      case before => rw [here]; rfl
      case loaded =>
        intro later loaded there
        cases there
        rfl
      all_goals rfl
  | usedTail env now head here => exact .sampled env now head here
  | freeHead env now occ here =>
      exact .proceeds _ _ (by rw [here]; rfl) (Proceeds.same rfl rfl)
  | freeTail env now occ head cap next here dispatched =>
      apply DrainMove.proceeds _ _ (by rw [here]; rfl)
      exact (dispatched_proceeds dispatched).after
        (SameCollector.of_eq (rt_monitor sender.ctx occ cap)) rfl
  | requestFailed env nowNs code next here refused failed =>
      exact .proceeds _ _ (by rw [here]; rfl) (failed_proceeds failed)
  | requested env nowNs here delivered =>
      exact .proceeds _ _ (by rw [here]; rfl) (Proceeds.same rfl (rt_request sender.ctx nowNs))
  | ackFailed env deadline received code next here arrived failed =>
      exact .proceeds _ _ (by rw [here]; rfl) (failed_proceeds failed)
  | polled env deadline here quiet =>
      exact .proceeds _ _ (by rw [here]; rfl) (Proceeds.same (by rw [here]; rfl) rfl)
  | ackUnmappable env deadline frame code next here arrived acknowledged failed =>
      apply DrainMove.proceeds _ _ (by rw [here]; rfl)
      exact (failed_proceeds failed).after (SameCollector.of_eq (rt_ack sender.ctx)) rfl
  | ackMapped env deadline frame mapped here arrived acknowledged attached =>
      apply DrainMove.proceeds _ _ (by rw [here]; rfl)
      constructor
      · exact SameCollector.of_eq ((rt_map attached).trans (rt_ack sender.ctx))
      · rfl
      · rfl
      · exact Or.inl ⟨rfl, rfl, rfl⟩
  | mappingFailed env before next here written short failed =>
      apply DrainMove.proceeds _ _ (by rw [here]; rfl)
      exact (failed_proceeds failed).after (SameCollector.of_eq rfl) rfl
  | negotiated env before grown next here written room transmitted =>
      apply DrainMove.proceeds _ _ (by rw [here]; rfl)
      have grown_rt : grown.rt = sender.ctx.rt := rt_grow room
      exact (transmitted_proceeds transmitted).after (SameCollector.of_eq grown_rt) rfl
  | pushAgain env tMeas ring here full blocks called =>
      apply DrainMove.proceeds _ _ (by rw [here]; rfl)
      exact ⟨SameCollector.of_eq rfl, rfl, (call_keeps_pushed called).1, Or.inl ⟨rfl, rfl, rfl⟩⟩
  | pushed env tMeas rc here returned =>
      have sampled : sender.pc.sampled = true := by
        rcases here with here | here <;> rw [here] <;> rfl
      apply DrainMove.proceeds _ _ sampled
      apply (finish_proceeds { sender with
        ctx := finishShm sender.ctx sender.draft.size tMeas env.clock sender.ring.object.parks rc
        draft := { sender.draft with
          placed := if rc = Except.ok () then some .shm else none } } rc).after
      · exact rt_finish_shm sender.ctx sender.draft.size tMeas env.clock _ rc
      · rfl
  | datagramSent env tMeas here =>
      apply DrainMove.proceeds _ _ (by rw [here]; rfl)
      apply (finish_proceeds { sender with
        ctx := finishUds sender.ctx sender.draft.size tMeas env.clock env.status
        draft := { sender.draft with
          placed := if env.status = Except.ok () then some .uds else none } } env.status).after
      · exact rt_finish_uds sender.ctx sender.draft.size tMeas env.clock env.status
      · rfl
  | ring action after foreign moved => exact .ring action after foreign moved

/-- Every step keeps the last sample linked to the cursors. -/
theorem move_linked {action : SendAction} (held : SendRing sender head tail slots)
    (linked : Linked sender head tail) (loaded : HeadLoaded sender)
    (move : SendMove sender action next) (kept : SendRing next head' tail' slots')
    (effect : RingEffect sender.ring next.ring head tail slots head' tail' slots') :
    Linked next head' tail' ∧ HeadLoaded next := by
  have capacity := fitted_bytes (move_config move) held.fitted kept.fitted
  have still : next.ring = sender.ring → head' = head ∧ tail' = tail := by
    intro same
    have first := held.inv.tailWord
    have second := kept.inv.tailWord
    have ordered := kept.inv.ordered
    have room := held.inv.room
    have small := sender.ring.producerCapacity.bytes_le
    have head_still := effect.head_same (by rw [same])
    rw [same, first] at second
    have near : tail' - tail < 2 ^ 64 := by omega
    exact ⟨head_still, (cursor_inj_of_near effect.moved.1 near second).symm⟩
  cases move_drain move with
  | outside action next ring ctx attempts observations before after reloaded =>
      have place := still ring
      rw [place.1, place.2]
      exact ⟨waiting_linked linked ring ctx attempts observations before after, reloaded⟩
  | unmapped env data opened next unmapped proceeds observations =>
      exact ⟨unmapped_linked proceeds, proceeds_head_loaded proceeds⟩
  | sampled env now seen here =>
      have place := still rfl
      have word := loaded now seen here
      subst word
      rw [place.1, place.2]
      constructor
      · exact sample_linked held here _ rfl
      · intro later other there
        cases there
  | proceeds action next sampled proceeds =>
      exact ⟨proceeds_linked linked proceeds sampled kept capacity effect,
        proceeds_head_loaded proceeds⟩
  | ring action after foreign moved =>
      constructor
      · exact ring_linked linked held foreign moved kept effect
      · intro now loadedHead here
        have place := held.place
        simp only at here
        rw [here] at place
        have same := (resting_step place.1 foreign moved).2.2
        exact (loaded now loadedHead here).trans same.symm

end Links

/-- Between two samples of a mapped ring, the later one credits at most the bytes by
which the tail has advanced. -/
def Covered (first second : Observation) : Prop :=
  ∀ before after, first.tail = some before → second.tail = some after →
    second.credit ≤ ((after - before).toNat : ℚ)

/-- The next sample credits a payload that never went to the ring: the last sample saw
a mapped ring, the call that took it put nothing there, and the clock has advanced. -/
def Sender.overlooks (sender : Sender) (now : UInt64) : Bool :=
  match sender.observations.getLast? with
  | some ⟨some _, _⟩ => !sender.lastSent.2 &&
      Decidable.decide (sender.ctx.rt.lastNs ≠ 0 ∧ sender.ctx.rt.lastNs < now)
  | _ => false

def accounted (sender : Sender) (action : SendAction) : Bool :=
  payloadsBelow action &&
    match action, sender.pc with
    | .step _, .usedTail now _ => !sender.overlooks now
    | _, _ => true

structure DrainInv (sender : Sender) (head tail : Nat) (slots : List Slot) : Prop where
  held : SendRing sender head tail slots
  mapped : SenderMapped sender
  linked : Linked sender head tail
  loaded : HeadLoaded sender

section Runs

variable {sender next : Sender} {head tail : Nat} {slots : List Slot}

theorem DrainInv.step {action : SendAction} (inv : DrainInv sender head tail slots)
    (short : payloadsBelow action = true) (stepped : sendStep sender action = some next) :
    ∃ head' tail' slots', DrainInv next head' tail' slots' := by
  have move := send_step_move stepped
  obtain ⟨head', tail', slots', kept, effect⟩ := move_advances inv.held inv.mapped short move
  have still := move_linked inv.held inv.linked inv.loaded move kept effect
  exact ⟨head', tail', slots', kept, move_mapped inv.mapped move, still.1, still.2⟩

theorem drain_starts {cfg : AdaptConfig} {env : InitEnv}
    (starts : (sharedMachine cfg env).initial sender) : DrainInv sender 0 0 [] := by
  have started := shared_starts starts
  obtain ⟨⟨accepted, ⟨before, idle⟩, _, observations⟩, _⟩ := starts
  refine ⟨started.1, started.2, ?_, ?_⟩
  · rw [Linked, observations]
    rw [(init_context accepted).1]
    rfl
  · intro now loaded here
    rw [idle] at here
    cases here

/-- Exactly an overlooked payload is credited beyond the advance of the tail. -/
theorem sample_covered_iff {now loaded : UInt64} {seen : Observation}
    (inv : DrainInv sender head tail slots) (here : sender.pc = .usedTail now loaded)
    (last : sender.observations.getLast? = some seen) :
    Covered seen ⟨some sender.ring.object.tail,
      drainCredit sender.ctx.rt (loaded - sender.ring.object.tail) now⟩ ↔
      sender.overlooks now = false := by
  have word := inv.loaded now loaded here
  subst word
  have linked := inv.linked
  rw [Linked, last] at linked
  have occupied := inv.held.inv.used
  rcases seen with ⟨_ | word, credit⟩
  · have nothing : sender.overlooks now = false := by simp only [Sender.overlooks, last]
    exact ⟨fun _ => nothing, fun _ before after first _ => by cases first⟩
  · obtain ⟨seenHead, seenTail, link⟩ := linked word rfl
    rw [occupied, inv.held.inv.tailWord]
    simp only [Sender.overlooks, last, Covered]
    constructor
    · intro covered
      by_contra overlooked
      simp only [Bool.not_eq_false, Bool.and_eq_true, Bool.not_eq_true', decide_eq_true_eq]
        at overlooked
      have credited := link.unplaced_credit inv.held.inv overlooked.1 overlooked.2
      have nonempty : (0 : ℚ) < (sender.lastSent.1 : ℚ) := by exact_mod_cast link.nonempty
      have bounded := covered word (cursor tail) rfl rfl
      rw [credited] at bounded
      linarith
    · intro counted before after first second
      cases first
      cases second
      by_cases later : sender.ctx.rt.lastNs ≠ 0 ∧ sender.ctx.rt.lastNs < now
      · have placed : sender.lastSent.2 = true := by simpa [later] using counted
        exact link.placed_credit_le inv.held.inv placed now
      · rw [no_gap_no_credit _ later]
        exact Nat.cast_nonneg _

theorem drain_guard {action : SendAction} (allowed : accounted sender action = true) :
    payloadsBelow action = true ∧
      ∀ now loaded env, action = .step env → sender.pc = .usedTail now loaded →
        sender.overlooks now = false := by
  simp only [accounted, Bool.and_eq_true] at allowed
  refine ⟨allowed.1, ?_⟩
  intro now loaded env step here
  have counted := allowed.2
  simp only [step, here, Bool.not_eq_true'] at counted
  exact counted

/-- The history of samples stays covered. -/
theorem move_covered {action : SendAction} (inv : DrainInv sender head tail slots)
    (covered : List.IsChain Covered sender.observations)
    (allowed : accounted sender action = true) (move : SendMove sender action next) :
    List.IsChain Covered next.observations := by
  have extended : ∀ seen : Observation,
      (∀ last ∈ sender.observations.getLast?, Covered last seen) →
        List.IsChain Covered (sender.observations ++ [seen]) := by
    intro seen linked
    rw [List.isChain_append]
    refine ⟨covered, List.isChain_singleton seen, ?_⟩
    intro last member first head
    cases head
    exact linked last member
  cases move_drain move with
  | outside action next ring ctx attempts observations before after loaded =>
      rw [observations]
      exact covered
  | unmapped env data opened next unmapped proceeds observations =>
      rw [proceeds.observations, Sender.sample, observations]
      apply extended
      intro last member before after first second
      cases second
  | sampled env now seen here =>
      have word := inv.loaded now seen here
      apply extended
      intro last member
      exact (sample_covered_iff inv here member).mpr ((drain_guard allowed).2 now seen env rfl here)
  | proceeds action next sampled proceeds =>
      rw [proceeds.observations]
      exact covered
  | ring action after foreign moved => exact covered

/-- The tail stands at `tail`, and calls are made on a mapped ring. -/
def stillAt (tail : UInt64) (sender : Sender) (action : SendAction) : Bool :=
  Decidable.decide (sender.ring.object.tail = tail) &&
    match action with
    | .call _ _ => sender.ctx.ring.isSome
    | _ => true

/-- While the tail stands where the last sample saw it, a step leaves the estimate alone. -/
theorem move_still {word : UInt64} {action : SendAction} (inv : DrainInv sender head tail slots)
    (observed : ∀ last ∈ sender.observations.getLast?, last.tail = some word)
    (allowed : accounted sender action = true) (still : stillAt word sender action = true)
    (move : SendMove sender action next) :
    SameDrain sender.ctx.rt next.ctx.rt ∧
      ∀ last ∈ next.observations.getLast?, last.tail = some word := by
  simp only [stillAt, Bool.and_eq_true, decide_eq_true_eq] at still
  cases move_drain move with
  | outside action next ring ctx attempts observations before after loaded =>
      rw [ctx, observations]
      exact ⟨SameDrain.refl _, observed⟩
  | unmapped env data opened next unmapped proceeds observations =>
      have mapped := still.2
      rw [unmapped] at mapped
      cases mapped
  | sampled env now seen here =>
      constructor
      · apply sample_without_credit
        rcases Option.eq_none_or_eq_some sender.observations.getLast? with first | ⟨last, before⟩
        · have linked := inv.linked
          rw [Linked, first] at linked
          rw [no_gap_no_credit _ (fun later => later.1 linked)]
        · have covered := (sample_covered_iff inv here before).mpr
            ((drain_guard allowed).2 now seen env rfl here)
          have bounded := covered word word (observed last before) (by rw [still.1])
          simpa using bounded
      · intro last member
        simp only [Sender.sample, List.getLast?_concat, Option.mem_def, Option.some.injEq] at member
        rw [← member, still.1]
  | proceeds action next sampled proceeds =>
      rw [proceeds.observations]
      exact ⟨proceeds.collector.toSameDrain, observed⟩
  | ring action after foreign moved => exact ⟨SameDrain.refl _, observed⟩

end Runs

theorem drain_reachable {cfg : AdaptConfig} {env : InitEnv} {sender : Sender}
    (reached : ((sharedMachine cfg env).guarded accounted).Reachable sender) :
    (∃ head tail slots, DrainInv sender head tail slots) ∧
      List.IsChain Covered sender.observations := by
  refine Machine.invariant_of_reachable ((sharedMachine cfg env).guarded accounted)
    (fun sender => (∃ head tail slots, DrainInv sender head tail slots) ∧
      List.IsChain Covered sender.observations) ?_ ?_ reached
  · intro start starts
    constructor
    · exact ⟨0, 0, [], drain_starts starts⟩
    · have none := starts.1.2.2.2
      rw [none]
      exact List.isChain_nil
  · rintro before action next ⟨⟨head, tail, slots, inv⟩, covered⟩ stepped
    obtain ⟨allowed, stepped⟩ := Machine.guarded_step stepped
    exact ⟨inv.step (drain_guard allowed).1 stepped,
      move_covered inv covered allowed (send_step_move stepped)⟩

theorem sampled_credited {sender next : Sender} {env : SendEnv} {now loaded : UInt64}
    (here : sender.pc = .usedTail now loaded)
    (stepped : sendStep sender (.step env) = some next) :
    ∃ credit, next.observations =
        sender.observations ++ [⟨some sender.ring.object.tail, credit⟩] ∧
      Credited sender.ctx.alpha now credit sender.ctx.rt next.ctx.rt := by
  simp only [sendStep, Sender.step, here, Option.some.injEq] at stepped
  rw [← stepped]
  exact ⟨_, rfl, sample_credited sender.ctx.rt sender.draft.size _ now sender.ctx.alpha⟩

/-- As long as no sample overlooks a payload, the samples credit the consumer at most
with what it has taken, and with nothing while it takes nothing. The credit of a sample
is what its drain estimate takes up. -/
theorem no_phantom_drain (cfg : AdaptConfig) (env : InitEnv) {sender : Sender}
    (reached : ((sharedMachine cfg env).guarded accounted).Reachable sender) :
    List.IsChain Covered sender.observations ∧
      (∀ (now loaded : UInt64) (answers : SendEnv) (next : Sender),
        sender.pc = .usedTail now loaded → sendStep sender (.step answers) = some next →
          ∃ credit, next.observations =
              sender.observations ++ [⟨some sender.ring.object.tail, credit⟩] ∧
            Credited sender.ctx.alpha now credit sender.ctx.rt next.ctx.rt) ∧
      ∀ (tail : UInt64) (later : Sender),
        (∀ last ∈ sender.observations.getLast?, last.tail = some tail) →
        ((sharedMachine cfg env).guarded fun sender action =>
          accounted sender action && stillAt tail sender action).ReachableFrom sender later →
        SameDrain sender.ctx.rt later.ctx.rt := by
  obtain ⟨held, covered⟩ := drain_reachable reached
  refine ⟨covered, ?_, ?_⟩
  · intro now loaded answers next here stepped
    exact sampled_credited here stepped
  intro tail later observed path
  have kept : (∃ head tail slots, DrainInv later head tail slots) ∧
      SameDrain sender.ctx.rt later.ctx.rt ∧
        ∀ last ∈ later.observations.getLast?, last.tail = some tail := by
    induction path with
    | refl => exact ⟨held, SameDrain.refl _, observed⟩
    | tail _ stepped ih =>
        obtain ⟨action, stepped⟩ := stepped
        obtain ⟨allowed, stepped⟩ := Machine.guarded_step stepped
        obtain ⟨⟨head, position, slots, inv⟩, same, seen⟩ := ih
        simp only [Bool.and_eq_true] at allowed
        have moved := move_still inv seen allowed.1 allowed.2 (send_step_move stepped)
        exact ⟨inv.step (drain_guard allowed.1).1 stepped, same.trans moved.1, moved.2⟩
  exact kept.2.1

def laterEnv : SendEnv := { quietEnv with clock := 2000000000 }

def datagramThenSample (second : SendEnv) : List SendAction :=
  [.call quietEnv (some [1]), .step quietEnv, .step quietEnv, .step quietEnv, .step quietEnv,
    .step quietEnv, .call second (some [1]), .step second, .step second]

theorem eager_starts : (sharedMachine (plainConfig 4096) eagerEnv).initial
    (startSender eagerContext pageRing) := by
  refine ⟨⟨eager_init, ⟨none, rfl⟩, rfl, rfl⟩, ?_⟩
  constructor
  case consumer => exact Or.inr rfl
  all_goals rfl

def ringBoundConfig : AdaptConfig := { plainConfig 4096 with policy := .costAware }

def ringBoundSender : Sender :=
  startSender { eagerContext with policy := .costAware } pageRing

def sampledByte (answers : SendEnv) : List SendAction :=
  [.call answers (some [1]), .step answers, .step answers]

def pushedByte (answers : SendEnv) : List SendAction :=
  [.step answers, .step answers] ++ List.replicate 9 (.ring .producer) ++ [.step answers]

def drainedOnce : List SendAction :=
  sampledByte quietEnv ++ pushedByte quietEnv ++
    .ring (.callPop 16) :: List.replicate 9 (.ring .consumer) ++ sampledByte laterEnv

def stalledAfter : List SendAction :=
  pushedByte laterEnv ++ sampledByte { quietEnv with clock := 3000000000 }

theorem ring_bound_starts :
    (sharedMachine ringBoundConfig eagerEnv).initial ringBoundSender := by
  refine ⟨⟨rfl, ⟨none, rfl⟩, rfl, rfl⟩, ?_⟩
  constructor
  case consumer => exact Or.inr rfl
  all_goals rfl

/-- The consumer has taken the first message when the second call samples a credit of its
byte; from there on it takes nothing, and the third call credits nothing. -/
theorem no_phantom_drain_stalled_after : ∃ drained later : Sender,
    drained.observations.map Observation.credit = [0, 1] ∧
      drained.ring.object.tail = 6 ∧ drained.ctx.rt.samples = 1 ∧
      List.IsChain Covered drained.observations ∧
      later.observations.map Observation.credit = [0, 1, 0] ∧
      SameDrain drained.ctx.rt later.ctx.rt := by
  let allowed := (sharedMachine ringBoundConfig eagerEnv).guarded accounted
  let still := (sharedMachine ringBoundConfig eagerEnv).guarded fun sender action =>
    accounted sender action && stillAt 6 sender action
  have ran : (allowed.run ringBoundSender drainedOnce).map (fun sender =>
      (sender.observations.map Observation.credit, sender.ring.object.tail,
        sender.ctx.rt.samples, sender.observations.getLast?.map Observation.tail)) =
      some ([0, 1], 6, 1, some (some 6)) := by decide +kernel
  have stays : ((allowed.run ringBoundSender drainedOnce).bind fun drained =>
      still.run drained stalledAfter).map (fun later =>
        later.observations.map Observation.credit) = some [0, 1, 0] := by decide +kernel
  obtain ⟨drained, run, facts⟩ := Option.map_eq_some_iff.mp ran
  rw [run, Option.bind_some] at stays
  obtain ⟨later, path, credits⟩ := Option.map_eq_some_iff.mp stays
  simp only [Prod.mk.injEq] at facts
  obtain ⟨seen, tail, samples, last⟩ := facts
  have reached := Machine.reachable_run allowed ring_bound_starts run
  obtain ⟨covered, _, unmoved⟩ := no_phantom_drain ringBoundConfig eagerEnv reached
  refine ⟨drained, later, seen, tail, samples, covered, credits, ?_⟩
  apply unmoved 6 later _ (Machine.reachable_from_run path)
  intro observed member
  rw [member] at last
  exact Option.some.inj last

/-- The consumer never moves, the only message went through UDS, and the next sample
takes its byte for a drain. -/
theorem stalled_consumer_is_credited : ∃ sender,
    (sharedMachine (plainConfig 4096) eagerEnv).Reachable sender ∧
      sender.ring.object.tail = 0 ∧ sender.ctx.rt.drainValid = true ∧
      sender.ctx.rt.samples = 1 ∧ ¬List.IsChain Covered sender.observations := by
  have ran : ((sharedMachine (plainConfig 4096) eagerEnv).run
      (startSender eagerContext pageRing) (datagramThenSample laterEnv)).map
        (fun sender => (sender.ring.object.tail, sender.ctx.rt.drainValid, sender.ctx.rt.samples)) =
      some (0, true, 1) := by
    decide +kernel
  have sampled : ((sharedMachine (plainConfig 4096) eagerEnv).run
      (startSender eagerContext pageRing) (datagramThenSample laterEnv)).map
        (fun sender => sender.observations.map fun seen => (seen.tail, seen.credit)) =
      some [(some 0, 0), (some 0, 1)] := by
    decide +kernel
  obtain ⟨sender, run, facts⟩ := Option.map_eq_some_iff.mp ran
  rw [run, Option.map_some, Option.some.injEq] at sampled
  simp only [Prod.mk.injEq] at facts
  refine ⟨sender, Machine.reachable_run _ eager_starts run, facts.1, facts.2.1, facts.2.2, ?_⟩
  intro covered
  rcases seen : sender.observations with _ | ⟨first, _ | ⟨second, rest⟩⟩
  · simp [seen] at sampled
  · simp [seen] at sampled
  · rw [seen] at sampled covered
    simp only [List.map_cons, List.cons.injEq, Prod.mk.injEq] at sampled
    have bounded := List.isChain_cons_cons.mp covered |>.1 0 0 sampled.1.1 sampled.2.1.1
    rw [sampled.2.1.2] at bounded
    exact absurd bounded (by decide +kernel)

end AdaptIpc.Endpoint

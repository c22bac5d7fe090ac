import AdaptIpc.Endpoint.Send
import AdaptIpc.Ring.Scatter

/-!
# The setup request frame

Generated names carry no NUL and fit their buffer, so `handle_control` reads
back the name the producer wrote. The capacity comes back exactly when it is at
most 2^30: above that the frame is dropped, or the 32-bit word names another
capacity. A consumer without a ring then maps the capacity it read and makes room
for its frames; one that holds a ring answers for whatever that is, so both sides
agree only if it has the producer's capacity and room for the producer's frames.
-/

namespace AdaptIpc.Endpoint

open AdaptIpc.Ring AdaptIpc.Policy AdaptIpc.Library.Bytes

set_option autoImplicit false

theorem decimal_no_nul (value : Nat) : 0 ∉ decimal value := by
  unfold decimal
  split
  · decide
  · intro zero
    simp only [List.mem_map, List.mem_reverse] at zero
    obtain ⟨digit, member, equal⟩ := zero
    have small : digit < 10 := Nat.digits_lt_base (by decide) member
    have value := congrArg UInt8.toNat equal
    simp only [UInt8.toNat_add, UInt8.toNat_ofNat', UInt8.toNat_ofNat] at value
    omega

theorem name_no_nul (pid : Nat) (negCounter : UInt32) : 0 ∉ generateShmName pid negCounter := by
  intro zero
  have whole := List.mem_of_mem_take zero
  simp only [List.mem_append, List.mem_singleton] at whole
  rcases whole with ((front | digits) | separator) | counter
  · exact absurd front (by decide)
  · exact decimal_no_nul pid digits
  · exact absurd separator (by decide)
  · exact decimal_no_nul _ counter

theorem name_length (pid : Nat) (negCounter : UInt32) :
    (generateShmName pid negCounter).length ≤ 63 := by
  simp only [generateShmName, List.length_take]
  omega

theorem name_starts_with_slash (pid : Nat) (negCounter : UInt32) :
    (generateShmName pid negCounter).head? = some 47 := by
  simp [generateShmName, shmNamePrefix]

theorem take_while_before_nul {name : List UInt8} (clean : 0 ∉ name) :
    (name ++ [0]).takeWhile (· ≠ 0) = name := by
  induction name with
  | nil => simp
  | cons first rest ih =>
      simp only [List.mem_cons, not_or] at clean
      have nonzero : first ≠ 0 := fun zero => clean.1 zero.symm
      simp only [List.cons_append, ne_eq, nonzero, not_false_eq_true, decide_true,
        List.takeWhile_cons_of_pos]
      rw [ih clean.2]

/-- What `handle_control` reads from the frame of any capacity and clean name. -/
theorem parse_setup_req_frame {name : List UInt8} (cap : UInt64) (clean : 0 ∉ name) :
    parseSetupReq (setupReqFrame cap name) =
      if cap.toUInt32 = 0 ∨ 2 ^ 30 < cap.toUInt32.toNat then none
      else some (cap.toUInt32, name) := by
  obtain ⟨b0, b1, b2, b3, bytes⟩ : ∃ b0 b1 b2 b3,
      leBytes 4 cap.toUInt32.toNat = [b0, b1, b2, b3] := ⟨_, _, _, _, rfl⟩
  have value : leValue [b0, b1, b2, b3] = cap.toUInt32.toNat := by
    rw [← bytes]
    exact le_value_bytes_of_lt 4 _ cap.toUInt32.toNat_lt
  have zeroWord : cap.toUInt32.toNat = 0 ↔ cap.toUInt32 = 0 := by
    rw [← UInt32.toNat_inj]
    rfl
  have terminated : (0 : UInt8) ∈ name ++ [0] := by simp
  have longEnough : ¬(name ++ [(0 : UInt8)]).length + 6 < 7 := by
    simp only [List.length_append, List.length_singleton]
    omega
  have frame : setupReqFrame cap name =
      adaptWireTagCtrl :: adaptCtrlShmSetupReq :: b0 :: b1 :: b2 :: b3 :: (name ++ [0]) := by
    simp only [setupReqFrame, bytes]
    simp
  rw [frame]
  simp only [parseSetupReq, List.length_cons, List.getElem?_cons_succ, List.getElem?_cons_zero,
    List.drop_succ_cons, List.drop_zero, List.take_succ_cons, List.take_zero, value, zeroWord,
    terminated, not_true_eq_false, if_false, take_while_before_nul clean, ne_eq, longEnough,
    UInt32.ofNat_toNat]
  rw [if_neg (by omega)]

/-- The frame round-trips exactly for the capacities `handle_control` admits. -/
theorem setup_req_round_trip {name : List UInt8} {cap : UInt64} (nonzero : cap ≠ 0)
    (clean : 0 ∉ name) :
    (∃ cap32, parseSetupReq (setupReqFrame cap name) = some (cap32, name) ∧
      cap32.toUInt64 = cap) ↔ cap.toNat ≤ 2 ^ 30 := by
  rw [parse_setup_req_frame cap clean]
  constructor
  · rintro ⟨cap32, read, same⟩
    split at read
    · cases read
    · next admitted =>
      cases read
      have narrow := congrArg UInt64.toNat same
      rw [UInt32.toNat_toUInt64] at narrow
      omega
  · intro small
    have word : cap.toUInt32.toNat = cap.toNat := by
      rw [UInt64.toNat_toUInt32]
      omega
    have positive : cap.toUInt32 ≠ 0 := by
      intro zero
      apply nonzero
      apply UInt64.toNat.inj
      rw [← word, zero]
      rfl
    refine ⟨cap.toUInt32, ?_, ?_⟩
    · rw [if_neg]
      rintro (zero | large)
      · exact positive zero
      · omega
    · apply UInt64.toNat.inj
      rw [UInt32.toNat_toUInt64, word]

theorem grow_keeps {realloc : Bool} {ctx grown : AdaptCtx} {cap : UInt64}
    (grew : growRxbuf realloc ctx cap = some grown) :
    grown.ring = ctx.ring ∧ grown.shmCapacity = ctx.shmCapacity ∧
      grown.negName = ctx.negName ∧ cap ≤ grown.rxbufCap := by
  rw [grow_context grew]
  exact ⟨rfl, rfl, rfl, (grow_covers grew).1⟩

theorem count_keeps (ctx : AdaptCtx) (update : AdaptStats → AdaptStats) :
    (ctx.count update).ring = ctx.ring ∧ (ctx.count update).rxbufCap = ctx.rxbufCap := by
  unfold AdaptCtx.count
  split <;> exact ⟨rfl, rfl⟩

theorem init_capacity {role : AdaptRole} {cfg : AdaptConfig} {env : InitEnv} {ctx : AdaptCtx}
    (accepted : adaptInit role cfg env = some (.ok ctx)) :
    ctx.shmCapacity = (if cfg.shmCapacity = 0 then 65536 else cfg.shmCapacity) ∧
      ctx.negName = [] := by
  have blank := (init_context accepted).1
  constructor
  · rw [blank]
    rfl
  · rw [blank]
    rfl

theorem errno_byte_nonzero (code : Errno) : UInt8.ofNat code.code ≠ 0 := by
  intro zero
  have value := congrArg UInt8.toNat zero
  have positive := code.positive
  have known := code.known
  simp only [UInt8.toNat_ofNat', UInt8.toNat_ofNat] at value
  omega

/-- A consumer that had no ring and acknowledges the request has mapped the named
object with the requested capacity and has room for records of that size. -/
theorem acknowledged_request {env : ControlEnv} {consumer attached : AdaptCtx} {cap : UInt64}
    {name : List UInt8} (small : cap.toNat ≤ 2 ^ 30) (nonzero : cap ≠ 0) (clean : 0 ∉ name)
    (unmapped : consumer.ring = none)
    (answered : handleControl env consumer (setupReqFrame cap name) =
      some (attached, some (setupAckFrame 0))) :
    ∃ capacity, ringMap env.map name cap = some (.ok capacity) ∧
      attached.ring = some { name := name, capacity := capacity } ∧ cap ≤ attached.rxbufCap := by
  obtain ⟨cap32, read, same⟩ := (setup_req_round_trip nonzero clean).mpr small
  simp only [handleControl, read, attachNamed, unmapped, same] at answered
  cases mapping : ringMap env.map name cap with
  | none => simp [mapping] at answered
  | some result =>
      cases result with
      | error code => simp [mapping, setupAckFrame, errno_byte_nonzero code] at answered
      | ok capacity =>
          simp only [mapping] at answered
          cases growing : growRxbuf env.realloc
              { consumer with ring := some { name := name, capacity := capacity } } cap with
          | none => simp [growing, setupAckFrame, errno_byte_nonzero Errno.enomem] at answered
          | some grown =>
              simp only [growing, if_true, Option.some.injEq, Prod.mk.injEq] at answered
              obtain ⟨ring, room⟩ := count_keeps grown fun st =>
                { st with shmSetupAcks := st.shmSetupAcks + 1 }
              obtain ⟨handle, _, _, covers⟩ := grow_keeps growing
              rw [← answered.1]
              exact ⟨capacity, rfl, ring.trans handle, room ▸ covers⟩

theorem negotiated_handle {env : MapEnv} {ctx mapped : AdaptCtx}
    (mapping : mapNegotiated env ctx = some (.ok mapped)) :
    ∃ capacity, mapped.ring = some { name := ctx.negName, capacity := capacity } ∧
      roundPow2 (if ctx.shmCapacity = 0 then 65536 else ctx.shmCapacity) = some capacity := by
  unfold mapNegotiated at mapping
  split at mapping
  · cases mapping
  · cases mapping
  · next capacity attaching =>
    cases mapping
    exact ⟨capacity, rfl, ring_map_capacity attaching⟩

/-- A payload that passes the guard rail of `adapt_send` and the size check of the
scatter push. -/
structure Pushable (shmCapacity : UInt64) (capacity : RingCapacity) (payload : List UInt8) :
    Prop where
  nonempty : payload ≠ []
  word : payload.length + 1 < 2 ^ 64
  guarded : ¬shmCapacity < UInt64.ofNat payload.length + 1
  checked : ∃ need, (PushCall.scatter (shmSegments payload)).need capacity = .ok need

def largestFrame (shmCapacity capacity : UInt64) : Nat :=
  let longest := min shmCapacity.toNat (capacity.toNat - 8)
  if longest < 2 then 0 else longest

theorem segments_length (payload : List UInt8) :
    (concatenation (shmSegments payload)).length = payload.length + 1 := by
  simp [concatenation, shmSegments, ShmSegment.content]

theorem pushable_iff {shmCapacity : UInt64} {capacity : RingCapacity} {payload : List UInt8}
    (small : shmCapacity.toNat ≤ 2 ^ 30) :
    Pushable shmCapacity capacity payload ↔
      1 ≤ payload.length ∧ payload.length + 1 < 2 ^ 64 ∧
        payload.length + 1 ≤ min shmCapacity.toNat (capacity.bytes - 8) := by
  have guard : payload.length + 1 < 2 ^ 64 →
      (¬shmCapacity < UInt64.ofNat payload.length + 1 ↔
        payload.length + 1 ≤ shmCapacity.toNat) := by
    intro word
    have one : (1 : UInt64).toNat = 1 := rfl
    rw [UInt64.lt_iff_toNat_lt, UInt64.toNat_add, UInt64.toNat_ofNat', one]
    omega
  have page := capacity.bytes_page
  have check : payload.length + 1 ≤ shmCapacity.toNat →
      ((∃ need, (PushCall.scatter (shmSegments payload)).need capacity = .ok need) ↔
        payload.length + 1 ≤ capacity.bytes - 8) := by
    intro within
    have length := segments_length payload
    have need := @scatter_need_eq capacity (shmSegments payload)
      (by simp [shmSegments, ShmSegment.isNull])
      (by simp [concatenation, shmSegments, ShmSegment.content]) (by omega)
    rw [length] at need
    rw [PushCall.need, need]
    by_cases large : capacity.bytes < payload.length + 1 + 8
    · rw [if_pos large]
      constructor
      · rintro ⟨need, accepted⟩
        cases accepted
      · intro fits
        omega
    · rw [if_neg large]
      constructor
      · intro _
        omega
      · exact fun _ => ⟨_, rfl⟩
  constructor
  · intro pushable
    have within := (guard pushable.word).mp pushable.guarded
    have fits := (check within).mp pushable.checked
    exact ⟨List.length_pos_iff.mpr pushable.nonempty, pushable.word, le_min within fits⟩
  · rintro ⟨positive, word, fits⟩
    have within := fits.trans (min_le_left _ _)
    exact ⟨List.length_pos_iff.mp positive, word, (guard word).mpr within,
      (check within).mpr (fits.trans (min_le_right _ _))⟩

theorem pop_refuses_iff (room : Nat) (payload : List UInt8) (tail head : UInt64) :
    checkLength room tail head (payload.length + 1) = .idle (some (.error .emsgsize)) ↔
      room < payload.length + 1 := by
  have framed : payload.length + 1 ≠ wrapSentinelLen := Nat.succ_ne_zero _
  by_cases short : room < payload.length + 1 <;> simp [checkLength, framed, short]

theorem frames_pop_iff {shmCapacity : UInt64} (small : shmCapacity.toNat ≤ 2 ^ 30)
    (capacity : RingCapacity) (room : Nat) :
    (∀ payload, Pushable shmCapacity capacity payload → ∀ tail head,
        checkLength room tail head (payload.length + 1) ≠ .idle (some (.error .emsgsize))) ↔
      largestFrame shmCapacity capacity.size ≤ room := by
  have size := capacity.size_toNat
  constructor
  · intro pops
    simp only [largestFrame, size]
    split
    · exact Nat.zero_le room
    · next long =>
      by_contra short
      have length : (List.replicate (min shmCapacity.toNat (capacity.bytes - 8) - 1)
          (0 : UInt8)).length + 1 = min shmCapacity.toNat (capacity.bytes - 8) := by
        rw [List.length_replicate]
        omega
      have pushable := (@pushable_iff shmCapacity capacity (List.replicate
        (min shmCapacity.toNat (capacity.bytes - 8) - 1) 0) small).mpr
        ⟨by omega, by omega, by omega⟩
      exact pops _ pushable 0 0 ((pop_refuses_iff _ _ _ _).mpr (by omega))
  · intro roomy payload pushable tail head refused
    obtain ⟨positive, _, fits⟩ := (pushable_iff small).mp pushable
    have short := (pop_refuses_iff _ _ _ _).mp refused
    simp only [largestFrame, size] at roomy
    rw [if_neg (by omega)] at roomy
    omega

/-- What the frame has to achieve for a producer context, a name and a consumer: it reads
back, and a handshake it completes leaves both with one capacity and the consumer with room
for every frame the producer can push. -/
def FrameAgrees (ctx : AdaptCtx) (name : List UInt8) (consumer : AdaptCtx) : Prop :=
  (∃ cap32, parseSetupReq (setupReqFrame ctx.shmCapacity name) = some (cap32, name) ∧
    cap32.toUInt64 = ctx.shmCapacity) ∧
  ∀ controlEnv mapEnv attached mapped,
    handleControl controlEnv consumer (setupReqFrame ctx.shmCapacity name) =
      some (attached, some (setupAckFrame 0)) →
    mapNegotiated mapEnv { ctx with negName := name } = some (.ok mapped) →
      ∃ capacity, mapped.ring.map RingHandle.capacity = some capacity ∧
        attached.ring.map RingHandle.capacity = some capacity ∧
        ∀ payload, Pushable ctx.shmCapacity (.ofSize capacity) payload → ∀ tail head,
          checkLength attached.rxbufCap.toNat tail head (payload.length + 1) ≠
            .idle (some (.error .emsgsize))

/-- A ring the consumer already holds has the producer's capacity, and its buffer room for
the producer's frames. -/
def HeldRingFits (shmCapacity : UInt64) (consumer : AdaptCtx) : Prop :=
  ∀ held, consumer.ring = some held →
    roundPow2 shmCapacity = some held.capacity ∧
      largestFrame shmCapacity held.capacity ≤ consumer.rxbufCap.toNat

section Agreement

variable {ctx consumer : AdaptCtx} {name : List UInt8}

theorem rounded_capacity (small : ctx.shmCapacity.toNat ≤ 2 ^ 30) :
    ∃ capacity : RingCapacity, roundPow2 ctx.shmCapacity = some capacity.size := by
  obtain ⟨capacity, rounded, _⟩ := round_pow2_spec (v := ctx.shmCapacity) (by omega)
  exact ⟨capacity, rounded⟩

theorem held_ring_answers {held : RingHandle} (nonzero : ctx.shmCapacity ≠ 0)
    (small : ctx.shmCapacity.toNat ≤ 2 ^ 30) (clean : 0 ∉ name)
    (mapped : consumer.ring = some held) (env : ControlEnv) :
    ∃ attached, handleControl env consumer (setupReqFrame ctx.shmCapacity name) =
        some (attached, some (setupAckFrame 0)) ∧
      attached.ring = some held ∧ attached.rxbufCap = consumer.rxbufCap := by
  obtain ⟨cap32, read, _⟩ := (setup_req_round_trip nonzero clean).mpr small
  obtain ⟨ring, room⟩ := count_keeps consumer fun st =>
    { st with shmSetupAcks := st.shmSetupAcks + 1 }
  refine ⟨_, ?_, ring.trans mapped, room⟩
  simp only [handleControl, read, attachNamed, mapped, if_true]

theorem succeeding_map_negotiates {capacity : UInt64} (slash : name.head? = some 47)
    (nonzero : ctx.shmCapacity ≠ 0) (rounded : roundPow2 ctx.shmCapacity = some capacity) :
    mapNegotiated MapEnv.succeeding { ctx with negName := name } =
      some (.ok { ctx with
        negName := name
        ring := some { name := name, capacity := capacity } }) := by
  have placed : mapObject MapEnv.succeeding capacity = .ok capacity := by
    simp only [mapObject, MapEnv.succeeding, bind, Except.bind, ite_self]
    rfl
  simp only [mapNegotiated, ringMap, slash, ne_eq, not_true, if_false, nonzero, rounded, placed]

theorem frame_agrees_held (nonzero : ctx.shmCapacity ≠ 0) (clean : 0 ∉ name)
    (slash : name.head? = some 47) (small : ctx.shmCapacity.toNat ≤ 2 ^ 30)
    (agrees : FrameAgrees ctx name consumer) : HeldRingFits ctx.shmCapacity consumer := by
  intro held mapped
  obtain ⟨capacity, rounded⟩ := rounded_capacity small
  obtain ⟨attached, answered, ring, room⟩ := held_ring_answers nonzero small clean mapped
    { map := MapEnv.succeeding, realloc := true }
  obtain ⟨size, own, its, pops⟩ := agrees.2 _ _ attached _ answered
    (succeeding_map_negotiates slash nonzero rounded)
  rw [ring] at its
  cases own
  have same : held.capacity = capacity.size := Option.some.inj its
  rw [of_size] at pops
  rw [same, rounded, ← room]
  exact ⟨rfl, (frames_pop_iff small capacity _).mp pops⟩

theorem held_frame_agrees (nonzero : ctx.shmCapacity ≠ 0) (clean : 0 ∉ name)
    (small : ctx.shmCapacity.toNat ≤ 2 ^ 30) (fits : HeldRingFits ctx.shmCapacity consumer) :
    FrameAgrees ctx name consumer := by
  refine ⟨(setup_req_round_trip nonzero clean).mpr small, ?_⟩
  intro controlEnv mapEnv attached mapped answered mapping
  obtain ⟨capacity, rounded⟩ := rounded_capacity small
  obtain ⟨size, handle, result⟩ := negotiated_handle mapping
  simp only [if_neg nonzero, rounded, Option.some.injEq] at result
  rw [← result] at handle
  refine ⟨capacity.size, by rw [handle]; rfl, ?_⟩
  rw [of_size, frames_pop_iff small]
  cases vacant : consumer.ring with
  | none =>
      obtain ⟨itsSize, attaching, itsHandle, room⟩ :=
        acknowledged_request small nonzero clean vacant answered
      have itsRounded := ring_map_capacity attaching
      simp only [if_neg nonzero, rounded, Option.some.injEq] at itsRounded
      rw [itsHandle, ← itsRounded]
      refine ⟨rfl, le_trans ?_ (UInt64.le_iff_toNat_le.mp room)⟩
      simp only [largestFrame]
      split
      · exact Nat.zero_le _
      · exact min_le_left _ _
  | some held =>
      obtain ⟨itsAttached, itsAnswer, ring, room⟩ :=
        held_ring_answers nonzero small clean vacant controlEnv
      rw [answered] at itsAnswer
      cases itsAnswer
      obtain ⟨itsRounded, roomy⟩ := fits held vacant
      rw [rounded, Option.some.injEq] at itsRounded
      rw [ring, room, itsRounded]
      exact ⟨rfl, roomy⟩

end Agreement

/-- For every consumer: the two sides agree exactly if the effective capacity is at most
2^30 and a ring the consumer already holds fits. -/
theorem setup_req_agreement_iff {cfg : AdaptConfig} {env : InitEnv} {ctx : AdaptCtx}
    (accepted : adaptInit .producer cfg env = some (.ok ctx)) (pid : Nat) (negCounter : UInt32)
    (consumer : AdaptCtx) :
    let shmCapacity := if cfg.shmCapacity = 0 then 65536 else cfg.shmCapacity
    FrameAgrees ctx (nameRing ctx pid negCounter).negName consumer ↔
      shmCapacity.toNat ≤ 2 ^ 30 ∧ HeldRingFits shmCapacity consumer := by
  obtain ⟨capacity, unnamed⟩ := init_capacity accepted
  have named : (nameRing ctx pid negCounter).negName = generateShmName pid negCounter := by
    simp [nameRing, unnamed]
  have nonzero : ctx.shmCapacity ≠ 0 := by
    rw [capacity]
    split
    · decide
    · assumption
  have clean := name_no_nul pid negCounter
  have slash := name_starts_with_slash pid negCounter
  dsimp only
  rw [named, ← capacity]
  constructor
  · intro agrees
    have small := (setup_req_round_trip nonzero clean).mp agrees.1
    exact ⟨small, frame_agrees_held nonzero clean slash small agrees⟩
  · rintro ⟨small, fits⟩
    exact held_frame_agrees nonzero clean small fits

def heldConsumer (capacity : UInt64) : AdaptCtx :=
  { blankContext .consumer (plainConfig capacity) eagerEnv with
    ring := some { name := adaptShmNameDefault, capacity := capacity }
    negotDone := true
    rxbufCap := capacity }

/-- The default capacity, for a consumer without a ring and for one that holds a ring of
that size; an 8192-byte producer does not agree with a consumer that holds 4096 bytes. -/
theorem setup_req_agreement_default :
    FrameAgrees (plainContext 0) (nameRing (plainContext 0) 4711 0).negName
        (blankContext .consumer (plainConfig 0) plainEnv) ∧
      FrameAgrees (plainContext 0) (nameRing (plainContext 0) 4711 0).negName
        (heldConsumer 65536) ∧
      ¬FrameAgrees (plainContext 8192) (nameRing (plainContext 8192) 4711 0).negName
        (heldConsumer 4096) := by
  refine ⟨?_, ?_, ?_⟩
  · apply (setup_req_agreement_iff (plain_init 0) 4711 0 _).mpr
    refine ⟨by decide, ?_⟩
    intro held mapped
    cases mapped
  · apply (setup_req_agreement_iff (plain_init 0) 4711 0 _).mpr
    refine ⟨by decide, ?_⟩
    intro held mapped
    cases mapped
    decide
  · intro agrees
    obtain ⟨_, fits⟩ := (setup_req_agreement_iff (plain_init 8192) 4711 0 _).mp agrees
    exact absurd (fits _ rfl).1 (by decide)

/-- A capacity just above 2^30 is refused, and 2^32 + 4096 is read as 4096: the
consumer then maps 4096 bytes where the producer maps 2^33. -/
theorem wide_capacity_is_lost :
    adaptInit .producer (plainConfig 1073741825) plainEnv =
        some (.ok (plainContext 1073741825)) ∧
      parseSetupReq (setupReqFrame (plainContext 1073741825).shmCapacity
        (generateShmName 4711 0)) = none ∧
    adaptInit .producer (plainConfig 4294971392) plainEnv =
        some (.ok (plainContext 4294971392)) ∧
      parseSetupReq (setupReqFrame (plainContext 4294971392).shmCapacity
        (generateShmName 4711 0)) = some (4096, generateShmName 4711 0) ∧
      ringMap MapEnv.succeeding (generateShmName 4711 0) 4096 = some (.ok 4096) ∧
      ringMap MapEnv.succeeding (generateShmName 4711 0) (plainContext 4294971392).shmCapacity =
        some (.ok 8589934592) := by
  have clean := name_no_nul 4711 0
  have slash := name_starts_with_slash 4711 0
  have narrowed : ∀ shmCapacity : UInt64, shmCapacity ≠ 0 →
      (plainContext shmCapacity).shmCapacity = shmCapacity := by
    intro shmCapacity nonzero
    simp [plainContext, blankContext, plainConfig, nonzero]
  rw [narrowed _ (by decide), narrowed _ (by decide), parse_setup_req_frame _ clean,
    parse_setup_req_frame _ clean]
  refine ⟨plain_init _, by decide, plain_init _, rfl, ?_, ?_⟩
  · simp only [ringMap, slash]
    decide
  · simp only [ringMap, slash]
    decide

end AdaptIpc.Endpoint

import AdaptIpc.Endpoint.Handshake
import AdaptIpc.Library.Stream

/-!
# The wait for the ACK

The loop of `producer_ensure_shm`, a round for each `uds_recv_timeout`. It compares
the clock with its deadline only behind a poll timeout: a frame that is no success
ACK starts the next round whatever the time is. So the first round past the
deadline is the last one unless that round, too, is handed a frame to ignore, or
the ACK comes for a capacity that `round_pow2` cannot round.
-/

namespace AdaptIpc.Endpoint

open AdaptIpc.Ring AdaptIpc.Policy AdaptIpc.Library.Transition

set_option autoImplicit false

/-- One round: the time it starts, what `uds_recv_timeout` returns, the clock reading
behind a timeout, and what the calls of `producer_map_ring` answer. -/
structure WaitRound where
  started : UInt64
  received : Except Errno (List UInt8)
  clock : UInt64
  map : MapEnv
  realloc : Bool

/-- How a round ends the wait: with an error, with the ring attached, or in `round_pow2`. -/
inductive WaitEnd where
  | failed (code : Errno) (ctx : AdaptCtx)
  | attached (ctx : AdaptCtx)
  | rounding

/-- One round of the loop; none goes on to the next. -/
def waitRound (deadline : UInt64) (ctx : AdaptCtx) (round : WaitRound) : Option WaitEnd :=
  match round.received with
  | .error code =>
      if code = .eagain then
        if deadline < round.clock then some (.failed .etimedout ctx) else none
      else some (.failed code ctx)
  | .ok frame =>
      if isSetupAck frame then
        match mapNegotiated round.map (ackReceived ctx) with
        | none => some .rounding
        | some (.error code) => some (.failed code (ackReceived ctx))
        | some (.ok mapped) => some (.attached mapped)
      else none

inductive WaitOutcome where
  | returned (rc : Status) (ctx : AdaptCtx)
  | hangs

def WaitEnd.outcome (realloc : Bool) : WaitEnd → WaitOutcome
  | .failed code ctx => .returned (.error code) ctx
  | .attached ctx => .returned (finishMapping realloc ctx).1 (finishMapping realloc ctx).2
  | .rounding => .hangs

def waitOutcome (deadline : UInt64) (ctx : AdaptCtx) (round : WaitRound) : Option WaitOutcome :=
  (waitRound deadline ctx round).map (WaitEnd.outcome round.realloc)

/-- How the wait has ended after `n` rounds, if it has. -/
def waitAfter (deadline : UInt64) (ctx : AdaptCtx) (rounds : ℕ → WaitRound) (n : ℕ) :
    Option WaitOutcome :=
  ended (waitOutcome deadline ctx) rounds n

def SendEnv.round (env : SendEnv) (started : UInt64) : WaitRound where
  started := started
  received := env.received
  clock := env.clock
  map := env.map
  realloc := env.realloc

/-- What `adapt_send` does with the result of `producer_ensure_shm`. -/
def Sender.afterWait (sender : Sender) (env : SendEnv) : WaitOutcome → Option Sender
  | .returned (.error code) ctx => { sender with ctx := ctx }.failHandshake code env.later
  | .returned (.ok ()) ctx => { sender with ctx := ctx }.transmit .shm env.later
  | .hangs => none

def Sender.afterRound (sender : Sender) (env : SendEnv) : Option WaitEnd → Option Sender
  | none => some sender
  | some (.attached ctx) =>
      some { sender with ring := attachRing sender.ring ctx, ctx := ctx, pc := .mapping }
  | some finished => sender.afterWait env (finished.outcome env.realloc)

theorem await_step_round {sender : Sender} {deadline : UInt64}
    (here : sender.pc = .awaitAck deadline) (env : SendEnv) (started : UInt64) :
    sender.step env =
      sender.afterRound env (waitRound deadline sender.ctx (env.round started)) := by
  simp only [Sender.step, here, waitRound, SendEnv.round]
  cases env.received with
  | error code =>
      by_cases quiet : code = .eagain
      · by_cases late : deadline < env.clock
        · simp only [quiet, late, if_true, Sender.afterRound, WaitEnd.outcome, Sender.afterWait]
        · simp only [quiet, late, if_true, if_false, Sender.afterRound]
      · simp only [quiet, if_false, Sender.afterRound, WaitEnd.outcome, Sender.afterWait]
  | ok frame =>
      cases acknowledged : isSetupAck frame with
      | false => simp only [acknowledged, Bool.false_eq_true, if_false, Sender.afterRound]
      | true =>
          cases mapNegotiated env.map (ackReceived sender.ctx) with
          | none => simp only [acknowledged, if_true, Sender.afterRound, WaitEnd.outcome,
              Sender.afterWait]
          | some result =>
              cases result with
              | error code => simp only [acknowledged, if_true, here, Sender.afterRound,
                  WaitEnd.outcome, Sender.afterWait]
              | ok mapped => simp only [acknowledged, if_true, Sender.afterRound]

theorem mapping_step_outcome {sender : Sender} {before : Option Status}
    (here : sender.pc = .mapping) (written : sender.ring.producer = .idle before)
    (env : SendEnv) :
    sender.step env =
      sender.afterWait env ((WaitEnd.attached sender.ctx).outcome env.realloc) := by
  simp only [Sender.step, here, written, WaitEnd.outcome]
  split
  · next code finished => simp only [finished, here, Sender.afterWait]
  · next finished => simp only [finished, here, Sender.afterWait]

/-- Where the ring name stands: chosen once, before the first request, with its slash. -/
structure RingNamed (sender : Sender) : Prop where
  slash : sender.ctx.negName = [] ∨ sender.ctx.negName.head? = some 47
  asking : ∀ nowNs, sender.pc = .request nowNs → sender.ctx.negName ≠ []
  waiting : ∀ deadline, sender.pc = .awaitAck deadline → sender.ctx.negName ≠ []

section Names

variable {sender next : Sender}

theorem NamedOnce.slash {before after : AdaptCtx} (once : NamedOnce before after)
    (slash : before.negName = [] ∨ before.negName.head? = some 47) :
    after.negName = [] ∨ after.negName.head? = some 47 := by
  rcases once with same | ⟨_, pid, negCounter, generated⟩
  · rw [same]
    exact slash
  · rw [generated]
    exact Or.inr (name_starts_with_slash pid negCounter)

theorem transmitted_elsewhere {route : AdaptRoute} (transmitted : Transmitted sender route next)
    (deadline : UInt64) : next.pc ≠ .awaitAck deadline := by
  cases transmitted with
  | push ring tMeas shm called =>
      simp only [Sender.startPush]
      split <;> simp
  | datagram tMeas other => simp [Sender.startDatagram]

theorem failed_elsewhere {hrc : Errno} (failed : HandshakeFailed sender hrc next)
    (deadline : UInt64) : next.pc ≠ .awaitAck deadline := by
  cases failed with
  | refused large => simp [Sender.finish]
  | degraded tMeas small => simp [Sender.startDatagram]

theorem dispatched_waiting (dispatched : Dispatched sender next) {deadline : UInt64}
    (here : next.pc = .awaitAck deadline) : next.ctx.negName ≠ [] := by
  cases dispatched with
  | tooLarge now waitClock refused => simp [Sender.finish] at here
  | negotiating now waitClock env route unmapped waiting =>
      exact (name_ring_named (sender.decide now waitClock).2.ctx env.pid env.negCounter).1
  | sent now waitClock route next decided mapped transmitted =>
      exact absurd here (transmitted_elsewhere transmitted deadline)

theorem move_waiting {action : SendAction} (named : RingNamed sender)
    (move : SendMove sender action next) {deadline : UInt64}
    (here : next.pc = .awaitAck deadline) : next.ctx.negName ≠ [] := by
  cases move with
  | openedUnmapped env data before payload next idle good none dispatched =>
      exact dispatched_waiting dispatched here
  | freeTail env now occ head cap next place dispatched => exact dispatched_waiting dispatched here
  | requestFailed env nowNs code next place refused failed =>
      exact absurd here (failed_elsewhere failed deadline)
  | requested env nowNs place delivered =>
      rw [(quiet_request sender.ctx nowNs).negName]
      exact named.asking nowNs place
  | ackFailed env before received code next place arrived failed =>
      exact absurd here (failed_elsewhere failed deadline)
  | polled env before place quiet => exact named.waiting deadline here
  | ackUnmappable env before frame code next place arrived acknowledged failed =>
      exact absurd here (failed_elsewhere failed deadline)
  | mappingFailed env before next place written short failed =>
      exact absurd here (failed_elsewhere failed deadline)
  | negotiated env before grown next place written room transmitted =>
      exact absurd here (transmitted_elsewhere transmitted deadline)
  | ring action after foreign moved => exact named.waiting deadline here
  | _ => cases here

theorem move_named {action : SendAction} (named : RingNamed sender)
    (move : SendMove sender action next) : RingNamed next := by
  have negotiates := move_negotiation move
  refine ⟨negotiates.named.slash named.slash, ?_, fun deadline => move_waiting named move⟩
  intro nowNs here
  rcases negotiates.requests nowNs here with before | chosen
  · have chosen := named.asking nowNs before
    rw [negotiates.named.kept chosen]
    exact chosen
  · exact chosen

end Names

theorem named_reachable {cfg : AdaptConfig} {env : InitEnv} {sender : Sender}
    (reached : (sendMachine cfg env).Reachable sender) : RingNamed sender ∧ SenderMapped sender := by
  refine Machine.invariant_of_reachable (sendMachine cfg env)
    (fun sender => RingNamed sender ∧ SenderMapped sender) ?_ ?_ reached
  · rintro start ⟨accepted, ⟨before, idle⟩, _⟩
    refine ⟨⟨Or.inl (init_capacity accepted).2, ?_, ?_⟩, ?_⟩
    · intro nowNs here
      rw [idle] at here
      cases here
    · intro deadline here
      rw [idle] at here
      cases here
    · rw [SenderMapped, idle]
      exact (init_starts accepted).2
  · rintro before action after ⟨named, mapped⟩ stepped
    have move := send_step_move stepped
    exact ⟨move_named named move, move_mapped mapped move⟩

def WaitRound.ignored (round : WaitRound) : Bool :=
  match round.received with
  | .ok frame => !isSetupAck frame
  | .error _ => false

def WaitRound.acknowledged (round : WaitRound) : Bool :=
  match round.received with
  | .ok frame => isSetupAck frame
  | .error _ => false

def WaitRound.passes (deadline : UInt64) (round : WaitRound) : Bool :=
  match round.received with
  | .ok frame => !isSetupAck frame
  | .error code => decide (code = .eagain) && !decide (deadline < round.clock)

section Rounds

variable {deadline : UInt64} {ctx : AdaptCtx} {round : WaitRound}

theorem ignored_passes (ignored : round.ignored = true) : round.passes deadline = true := by
  simp only [WaitRound.ignored] at ignored
  simp only [WaitRound.passes]
  split at ignored
  · exact ignored
  · cases ignored

theorem round_passes_iff :
    waitOutcome deadline ctx round = none ↔ round.passes deadline = true := by
  simp only [waitOutcome, Option.map_eq_none_iff, waitRound, WaitRound.passes]
  cases round.received with
  | error code =>
      by_cases quiet : code = .eagain
      · by_cases late : deadline < round.clock
        · simp [quiet, late]
        · simp [quiet, late]
      · simp [quiet]
  | ok frame =>
      cases acknowledged : isSetupAck frame with
      | false => simp [acknowledged]
      | true =>
          simp only [acknowledged, if_true, Bool.not_true, Bool.false_eq_true, iff_false]
          split <;> simp

/-- `ring_map` does not come back from rounding a capacity above 2^63. -/
theorem map_negotiated_none_iff {env : MapEnv} (slash : ctx.negName.head? = some 47) :
    mapNegotiated env ctx = none ↔ 2 ^ 63 < ctx.shmCapacity.toNat := by
  have rounds : mapNegotiated env ctx = none ↔
      roundPow2 (if ctx.shmCapacity = 0 then 65536 else ctx.shmCapacity) = none := by
    simp only [mapNegotiated, ringMap, slash, ne_eq, not_true, if_false]
    cases roundPow2 (if ctx.shmCapacity = 0 then 65536 else ctx.shmCapacity) with
    | none => simp
    | some cap => cases made : mapObject env cap <;> simp [made]
  rw [rounds]
  constructor
  · intro diverges
    by_contra small
    have fits : (if ctx.shmCapacity = 0 then 65536 else ctx.shmCapacity).toNat ≤ 2 ^ 63 := by
      split
      · decide
      · exact Nat.not_lt.mp small
    obtain ⟨capacity, rounded, _⟩ := round_pow2_spec fits
    rw [rounded] at diverges
    cases diverges
  · intro large
    have nonzero : ctx.shmCapacity ≠ 0 := by
      intro zero
      rw [zero] at large
      exact absurd large (by decide)
    rw [if_neg nonzero]
    exact round_pow2_diverges large 64

theorem round_hangs_iff (slash : ctx.negName.head? = some 47) :
    waitOutcome deadline ctx round = some .hangs ↔
      round.acknowledged = true ∧ 2 ^ 63 < ctx.shmCapacity.toNat := by
  have quiet := quiet_ack ctx
  have capacity : (ackReceived ctx).shmCapacity = ctx.shmCapacity := quiet.shmCapacity
  have named : (ackReceived ctx).negName.head? = some 47 := by
    rw [quiet.negName]
    exact slash
  have hangs := @map_negotiated_none_iff (ackReceived ctx) round.map named
  rw [capacity] at hangs
  rw [← hangs]
  simp only [waitOutcome, waitRound, WaitRound.acknowledged]
  cases round.received with
  | error code =>
      by_cases timeout : code = .eagain
      · by_cases late : deadline < round.clock
        · simp [timeout, late, WaitEnd.outcome]
        · simp [timeout, late]
      · simp [timeout, WaitEnd.outcome]
  | ok frame =>
      cases acknowledged : isSetupAck frame with
      | false => simp [acknowledged]
      | true =>
          cases mapNegotiated round.map (ackReceived ctx) with
          | none => simp [acknowledged, WaitEnd.outcome]
          | some result => cases result <;> simp [acknowledged, WaitEnd.outcome]

def WaitRound.maps (ctx : AdaptCtx) (round : WaitRound) (after : AdaptCtx) : Prop :=
  round.acknowledged = true ∧
    ∃ mapped, mapNegotiated round.map (ackReceived ctx) = some (.ok mapped) ∧
      finishMapping round.realloc mapped = (.ok (), after)

structure RoundSettled (ctx : AdaptCtx) (round : WaitRound) (rc : Status) (after : AdaptCtx) :
    Prop where
  mapped : rc = .ok () → round.maps ctx after ∧ after.negotDone = true ∧ after.ring.isSome = true
  unmapped : rc ≠ .ok () → after.negotDone = false ∧ after.ring = none

theorem error_settled {code : Errno} {after : AdaptCtx} (waiting : after.negotDone = false)
    (unmapped : after.ring = none) : RoundSettled ctx round (.error code) after where
  mapped := fun ok => absurd ok (by simp)
  unmapped := fun _ => ⟨waiting, unmapped⟩

theorem round_settles {rc : Status} {after : AdaptCtx} (waiting : ctx.negotDone = false)
    (unmapped : ctx.ring = none)
    (returns : waitOutcome deadline ctx round = some (.returned rc after)) :
    RoundSettled ctx round rc after := by
  have quiet := quiet_ack ctx
  obtain ⟨finished, ends, outcome⟩ := Option.map_eq_some_iff.mp returns
  simp only [waitRound] at ends
  split at ends
  · next code failed =>
    have same : after = ctx ∧ ∃ failure, rc = .error failure := by
      split_ifs at ends
      all_goals
        cases ends
        cases outcome
        exact ⟨rfl, _, rfl⟩
    obtain ⟨rfl, failure, rfl⟩ := same
    exact error_settled waiting unmapped
  · next frame arrived =>
    split at ends
    · next acknowledged =>
      split at ends
      · cases ends
        cases outcome
      · cases ends
        cases outcome
        exact error_settled (quiet.negotDone.trans waiting) (quiet.ring.trans unmapped)
      · next mapped attached =>
        cases ends
        cases outcome
        have given := map_gives_ring attached
        cases room : growRxbuf round.realloc mapped mapped.shmCapacity with
        | none =>
            have left : finishMapping round.realloc mapped =
                (.error .enomem, { mapped with ring := none }) := by
              simp only [finishMapping, room]
            rw [left]
            exact error_settled (given.2.trans (quiet.negotDone.trans waiting)) rfl
        | some grown =>
            have left : finishMapping round.realloc mapped =
                (.ok (), { grown with negotDone := true }) := by
              simp only [finishMapping, room]
            rw [left]
            refine ⟨fun _ => ⟨⟨?_, mapped, attached, left⟩, rfl, ?_⟩, fun failed => absurd rfl failed⟩
            · simp only [WaitRound.acknowledged, arrived, acknowledged]
            · exact (congrArg Option.isSome (grow_keeps_ring room).1).trans given.1
    · cases ends

end Rounds

def ClockOrdered (rounds : ℕ → WaitRound) : Prop :=
  ∀ n, (rounds n).started ≤ (rounds n).clock ∧ (rounds n).clock ≤ (rounds (n + 1)).started

/-- The first round that starts after `now + ADAPT_NEGOT_DEADLINE_MS`. -/
structure FirstLate (nowNs : UInt64) (rounds : ℕ → WaitRound) (last : ℕ) : Prop where
  late : nowNs.toNat + adaptNegotDeadlineNs.toNat < (rounds last).started.toNat
  first : ∀ n, n < last →
    (rounds n).started.toNat ≤ nowNs.toNat + adaptNegotDeadlineNs.toNat

/-- The wait returns by the end of that round, with a mapped ring behind a success ACK or
with nothing mapped. -/
def WaitBounded (nowNs : UInt64) (ctx : AdaptCtx) (rounds : ℕ → WaitRound) (last : ℕ) : Prop :=
  ∃ n, n ≤ last ∧ ∃ rc after,
    waitAfter (nowNs + adaptNegotDeadlineNs) ctx rounds (n + 1) = some (.returned rc after) ∧
      RoundSettled ctx (rounds n) rc after

/-- Frames to ignore and timeouts in time, and a frame to ignore in the first late round. -/
def Flooded (nowNs : UInt64) (rounds : ℕ → WaitRound) (last : ℕ) : Prop :=
  (∀ n, n < last → (rounds n).passes (nowNs + adaptNegotDeadlineNs) = true) ∧
    (rounds last).ignored = true

/-- The success ACK ends the wait of a producer whose capacity `round_pow2` cannot round. -/
def Unroundable (nowNs : UInt64) (shmCapacity : UInt64) (rounds : ℕ → WaitRound) (last : ℕ) :
    Prop :=
  2 ^ 63 < shmCapacity.toNat ∧ ∃ n, n ≤ last ∧ (rounds n).acknowledged = true ∧
    ∀ i, i < n → (rounds i).passes (nowNs + adaptNegotDeadlineNs) = true

section Wait

variable {nowNs : UInt64} {ctx : AdaptCtx} {rounds : ℕ → WaitRound} {last : ℕ}

theorem late_round_ends (ordered : ClockOrdered rounds) (late : FirstLate nowNs rounds last)
    (heard : (rounds last).ignored = false) :
    (rounds last).passes (nowNs + adaptNegotDeadlineNs) = false := by
  have start := late.late
  have clock := (ordered last).1
  have word := (rounds last).started.toNat_lt
  have deadline : (nowNs + adaptNegotDeadlineNs).toNat =
      nowNs.toNat + adaptNegotDeadlineNs.toNat := by
    rw [UInt64.toNat_add, Nat.mod_eq_of_lt (by omega)]
  have passed : nowNs + adaptNegotDeadlineNs < (rounds last).clock := by
    rw [UInt64.le_iff_toNat_le] at clock
    rw [UInt64.lt_iff_toNat_lt, deadline]
    omega
  simp only [WaitRound.ignored] at heard
  simp only [WaitRound.passes]
  split
  · next frame arrived =>
    simp only [arrived] at heard
    exact heard
  · simp [passed]

theorem first_end (stops : ∃ n, n ≤ last ∧ (rounds n).passes (nowNs + adaptNegotDeadlineNs) = false) :
    ∃ n, n ≤ last ∧ (∀ i, i < n → (rounds i).passes (nowNs + adaptNegotDeadlineNs) = true) ∧
      ∃ outcome, waitOutcome (nowNs + adaptNegotDeadlineNs) ctx (rounds n) = some outcome ∧
        waitAfter (nowNs + adaptNegotDeadlineNs) ctx rounds (n + 1) = some outcome := by
  classical
  have found := Nat.find_spec stops
  have quiet : ∀ i, i < Nat.find stops →
      (rounds i).passes (nowNs + adaptNegotDeadlineNs) = true := by
    intro i before
    by_contra other
    apply Nat.find_min stops before
    exact ⟨Nat.le_trans (Nat.le_of_lt before) found.1, Bool.not_eq_true _ ▸ other⟩
  have ending : waitOutcome (nowNs + adaptNegotDeadlineNs) ctx (rounds (Nat.find stops)) ≠ none := by
    intro passing
    rw [round_passes_iff.mp passing] at found
    cases found.2
  obtain ⟨outcome, ends⟩ := Option.ne_none_iff_exists'.mp ending
  refine ⟨Nat.find stops, found.1, quiet, outcome, ends, ?_⟩
  apply ended_some_iff.mpr
  exact ⟨Nat.find stops, Nat.lt_succ_self _, ends, fun i before => round_passes_iff.mpr (quiet i before)⟩

theorem flooded_waits (flooded : Flooded nowNs rounds last) :
    ∀ n, n ≤ last → waitAfter (nowNs + adaptNegotDeadlineNs) ctx rounds (n + 1) = none := by
  intro n within
  apply ended_none_iff.mpr
  intro i before
  apply round_passes_iff.mpr
  by_cases same : i = last
  · rw [same]
    exact ignored_passes flooded.2
  · exact flooded.1 i (by omega)

end Wait

/-- From any state the loop can be in, and for any rounds with a first late one: the wait is
bounded by it unless that round and all before it are passed over, or an unroundable
capacity meets its ACK. -/
theorem handshake_wait_bounded_iff (cfg : AdaptConfig) (env : InitEnv) {sender : Sender}
    {nowNs : UInt64} (reached : (sendMachine cfg env).Reachable sender)
    (here : sender.pc = .awaitAck (nowNs + adaptNegotDeadlineNs)) {rounds : ℕ → WaitRound}
    {last : ℕ} (ordered : ClockOrdered rounds) (late : FirstLate nowNs rounds last) :
    WaitBounded nowNs sender.ctx rounds last ↔
      ¬Flooded nowNs rounds last ∧ ¬Unroundable nowNs sender.ctx.shmCapacity rounds last := by
  obtain ⟨named, mapped⟩ := named_reachable reached
  rw [SenderMapped, here] at mapped
  obtain ⟨unmapped, waiting⟩ := mapped
  have slash : sender.ctx.negName.head? = some 47 := by
    rcases named.slash with unnamed | slash
    · exact absurd unnamed (named.waiting _ here)
    · exact slash
  constructor
  · rintro ⟨n, within, rc, after, returned, settled⟩
    constructor
    · intro flooded
      rw [flooded_waits flooded n within] at returned
      cases returned
    · rintro ⟨large, k, reaches, acknowledged, quiet⟩
      have hangs := (@round_hangs_iff (nowNs + adaptNegotDeadlineNs) sender.ctx (rounds k)
        slash).mpr ⟨acknowledged, large⟩
      obtain ⟨i, before, ends, first⟩ := ended_some_iff.mp returned
      rcases Nat.lt_trichotomy i k with earlier | rfl | later
      · rw [round_passes_iff.mpr (quiet i earlier)] at ends
        cases ends
      · rw [hangs] at ends
        cases ends
      · rw [first k later] at hangs
        cases hangs
  · rintro ⟨dry, roundable⟩
    have stops : ∃ n, n ≤ last ∧
        (rounds n).passes (nowNs + adaptNegotDeadlineNs) = false := by
      by_contra passing
      have all : ∀ n, n ≤ last →
          (rounds n).passes (nowNs + adaptNegotDeadlineNs) = true := by
        intro n within
        by_contra other
        exact passing ⟨n, within, Bool.not_eq_true _ ▸ other⟩
      apply dry
      refine ⟨fun n before => all n (Nat.le_of_lt before), ?_⟩
      by_contra heard
      have ends := late_round_ends ordered late (Bool.not_eq_true _ ▸ heard)
      rw [all last (Nat.le_refl last)] at ends
      cases ends
    obtain ⟨n, within, quiet, outcome, ends, ended⟩ := @first_end nowNs sender.ctx rounds last stops
    cases outcome with
    | hangs =>
        obtain ⟨acknowledged, large⟩ := (round_hangs_iff slash).mp ends
        exact absurd ⟨large, n, within, acknowledged, quiet⟩ roundable
    | returned rc after =>
        exact ⟨n, within, rc, after, ended, round_settles waiting unmapped ends⟩

def SendPc.ackDeadline : SendPc → Option UInt64
  | .awaitAck deadline => some deadline
  | _ => none

theorem ack_deadline_place {pc : SendPc} {deadline : UInt64}
    (waits : pc.ackDeadline = some deadline) : pc = .awaitAck deadline := by
  cases pc with
  | awaitAck set => exact congrArg SendPc.awaitAck (Option.some.inj waits)
  | _ => cases waits

theorem waiting_sender : ∃ sender,
    (sendMachine (plainConfig 8192) sharpEnv).Reachable sender ∧
      sender.pc = .awaitAck (1000000000 + adaptNegotDeadlineNs) ∧
      sender.ctx.shmCapacity = 8192 := by
  have ran : ((sendMachine (plainConfig 8192) sharpEnv).run lazySender
      [.call quietEnv (some (List.replicate 5000 1)), .step quietEnv]).map (fun sender =>
        (sender.pc.ackDeadline, sender.ctx.shmCapacity)) =
      some (some (1000000000 + adaptNegotDeadlineNs), 8192) := by
    decide +kernel
  obtain ⟨sender, run, facts⟩ := Option.map_eq_some_iff.mp ran
  simp only [Prod.mk.injEq] at facts
  obtain ⟨waits, capacity⟩ := facts
  have reached := Machine.reachable_run (sendMachine (plainConfig 8192) sharpEnv)
    ⟨rfl, ⟨none, rfl⟩, rfl, rfl⟩ run
  exact ⟨sender, reached, ack_deadline_place waits, capacity⟩

def lateRounds (received : Except Errno (List UInt8)) (n : ℕ) : WaitRound where
  started := if n = 0 then 1000000000 else 2000000000
  received := received
  clock := if n = 0 then 1000000000 else 2000000000
  map := MapEnv.succeeding
  realloc := true

theorem late_rounds_ordered (received : Except Errno (List UInt8)) :
    ClockOrdered (lateRounds received) ∧ FirstLate 1000000000 (lateRounds received) 1 := by
  constructor
  · intro n
    constructor
    · exact UInt64.le_refl _
    · cases n with
      | zero => exact (by decide : (1000000000 : UInt64) ≤ 2000000000)
      | succ n => exact (by decide : (2000000000 : UInt64) ≤ 2000000000)
  · constructor
    · exact (by decide : (1000000000 : UInt64).toNat + adaptNegotDeadlineNs.toNat <
        (2000000000 : UInt64).toNat)
    · intro n before
      have zero : n = 0 := Nat.lt_one_iff.mp before
      rw [zero]
      exact (by decide : (1000000000 : UInt64).toNat ≤
        (1000000000 : UInt64).toNat + adaptNegotDeadlineNs.toNat)

theorem silent_wait_bounded : ∃ sender,
    (sendMachine (plainConfig 8192) sharpEnv).Reachable sender ∧
      sender.pc = .awaitAck (1000000000 + adaptNegotDeadlineNs) ∧
      WaitBounded 1000000000 sender.ctx (lateRounds (.error .eagain)) 1 := by
  obtain ⟨sender, reached, here, capacity⟩ := waiting_sender
  obtain ⟨ordered, late⟩ := late_rounds_ordered (.error .eagain)
  refine ⟨sender, reached, here, ?_⟩
  apply (handshake_wait_bounded_iff (plainConfig 8192) sharpEnv reached here ordered late).mpr
  constructor
  · intro flooded
    exact absurd flooded.2 (by decide)
  · intro unroundable
    rw [capacity] at unroundable
    exact absurd unroundable.1 (by decide)

def WaitsForever (nowNs : UInt64) (ctx : AdaptCtx) (rounds : ℕ → WaitRound) : Prop :=
  ∀ n, waitAfter (nowNs + adaptNegotDeadlineNs) ctx rounds n = none

/-- ACKs with the status of `-ENOMEM`, one in every round, keep the call in its loop. -/
theorem refusing_peer_holds_the_wait : ∃ sender,
    (sendMachine (plainConfig 8192) sharpEnv).Reachable sender ∧
      sender.pc = .awaitAck (1000000000 + adaptNegotDeadlineNs) ∧
      ClockOrdered (lateRounds (.ok (setupAckFrame 12))) ∧
      FirstLate 1000000000 (lateRounds (.ok (setupAckFrame 12))) 1 ∧
      ¬WaitBounded 1000000000 sender.ctx (lateRounds (.ok (setupAckFrame 12))) 1 ∧
      WaitsForever 1000000000 sender.ctx (lateRounds (.ok (setupAckFrame 12))) := by
  obtain ⟨sender, reached, here, _⟩ := waiting_sender
  obtain ⟨ordered, late⟩ := late_rounds_ordered (.ok (setupAckFrame 12))
  have forever : WaitsForever 1000000000 sender.ctx (lateRounds (.ok (setupAckFrame 12))) := by
    intro n
    apply ended_none_iff.mpr
    intro i before
    apply round_passes_iff.mpr
    rfl
  refine ⟨sender, reached, here, ordered, late, ?_, forever⟩
  rintro ⟨n, within, rc, after, returned, settled⟩
  rw [forever (n + 1)] at returned
  cases returned

end AdaptIpc.Endpoint

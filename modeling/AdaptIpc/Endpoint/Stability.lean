import AdaptIpc.Endpoint.Routing
import AdaptIpc.Library.Smoothing
import AdaptIpc.Library.Stream

/-!
# Stability of the size policies

Two laws of the routes that `adapt_send` decides by size. The hysteresis never
switches more often than the raw threshold: wherever the two routes differ, the
raw one has switched once more. And messages between the two thresholds settle
the route: the smoothed size enters the band after finitely many of them and
stays, and inside the band the decided route is sticky.
-/

namespace AdaptIpc.Endpoint

open AdaptIpc.Ring AdaptIpc.Policy AdaptIpc.Library.Transition AdaptIpc.Library.Smoothing

set_option autoImplicit false

/-- The routes of the hysteresis against those of the raw threshold: they end alike, or
the raw threshold has left SHM in the band, which the hysteresis has not. -/
inductive Follows (hysteresis raw : List AdaptRoute) : Prop where
  | agrees (same : hysteresis.getLast? = raw.getLast?)
      (count : routeChanges hysteresis ≤ routeChanges raw) : Follows hysteresis raw
  | lags (stays : hysteresis.getLast? = some .shm) (left : raw.getLast? = some .uds)
      (count : routeChanges hysteresis + 1 ≤ routeChanges raw) : Follows hysteresis raw

/-- Where both decide alike, the raw threshold switches whenever the hysteresis does, or
has switched once more before. -/
theorem follows_alike {hysteresis raw : List AdaptRoute} (follows : Follows hysteresis raw)
    (route : AdaptRoute) : Follows (hysteresis ++ [route]) (raw ++ [route]) := by
  apply Follows.agrees
  · simp
  · rw [route_changes_append, route_changes_append]
    cases follows with
    | agrees same count =>
        rw [same]
        omega
    | lags stays left count =>
        rw [stays, left]
        simp only [changeAfter]
        split_ifs <;> omega

theorem follows_apart {hysteresis raw : List AdaptRoute} (follows : Follows hysteresis raw)
    (stays : hysteresis.getLast? = some .shm) :
    Follows (hysteresis ++ [.shm]) (raw ++ [.uds]) := by
  apply Follows.lags
  · simp
  · simp
  · rw [route_changes_append, route_changes_append, stays]
    cases follows with
    | agrees same count =>
        rw [← same, stays]
        simp only [changeAfter, reduceCtorEq, if_true, if_false]
        omega
    | lags stays left count =>
        rw [left]
        simp only [changeAfter, if_true]
        omega

theorem follows_step {hysteresis raw : List AdaptRoute} (follows : Follows hysteresis raw)
    (ewmaSize : ℚ) :
    Follows (hysteresis ++ [sizeHysteresisRoute ewmaSize (lastOf hysteresis)])
      (raw ++ [sizeOnlyRoute ewmaSize]) := by
  by_cases high : adaptTauHigh ≤ ewmaSize
  · simp only [sizeHysteresisRoute, sizeOnlyRoute, high, if_true]
    exact follows_alike follows .shm
  · by_cases low : ewmaSize ≤ adaptTauLow
    · simp only [sizeHysteresisRoute, sizeOnlyRoute, high, low, if_true, if_false]
      exact follows_alike follows .uds
    · simp only [sizeHysteresisRoute, sizeOnlyRoute, high, low, if_false]
      by_cases stays : hysteresis.getLast? = some .shm
      · simp only [lastOf, stays, Option.getD_some, if_true]
        exact follows_apart follows stays
      · have other : lastOf hysteresis ≠ .shm := by
          intro shm
          simp only [lastOf] at shm
          cases final : hysteresis.getLast? with
          | none =>
              rw [final] at shm
              cases shm
          | some route =>
              rw [final] at shm stays
              exact stays (congrArg some shm)
        rw [if_neg other]
        exact follows_alike follows .uds

theorem size_decisions_follow (alpha : ℚ) (sizes : List UInt64) :
    Follows (sizeDecisions .sizeHysteresis alpha sizes).2
      (sizeDecisions .sizeOnly alpha sizes).2 := by
  induction sizes using List.reverseRecOn with
  | nil => exact .agrees rfl (Nat.le_refl _)
  | append_singleton sizes size ih =>
      rw [size_decisions_append, size_decisions_append]
      exact follows_step ih _

theorem follows_count {hysteresis raw : List AdaptRoute} (follows : Follows hysteresis raw) :
    routeChanges hysteresis ≤ routeChanges raw := by
  cases follows with
  | agrees same count => exact count
  | lags stays left count => exact Nat.le_of_succ_le count

theorem decided_routes {cfg : AdaptConfig} {env : InitEnv} {sender : Sender}
    (reached : (sendMachine cfg env).Reachable sender)
    (bySize : resolvePolicy cfg env = .sizeOnly ∨ resolvePolicy cfg env = .sizeHysteresis) :
    sender.messages.map Prod.snd = (sizeDecisions (resolvePolicy cfg env) (resolveAlpha env)
      (sender.messages.map Prod.fst)).2 := by
  obtain ⟨tally, _, config⟩ := classifier_tallies reached
  have policy : sender.ctx.policy = resolvePolicy cfg env := config.policy
  have alpha : sender.ctx.alpha = resolveAlpha env := config.alpha
  have decided := tally.bySize (by rw [policy]; exact bySize)
  rw [policy, alpha] at decided
  exact decided

/-- Two producers from the same configuration but for the policy, with the same messages
classified: the hysteresis has switched the route at most as often. -/
theorem hysteresis_switches_no_more {cfg : AdaptConfig} {env : InitEnv} {hysteresis raw : Sender}
    (calm : (sendMachine { cfg with policy := .sizeHysteresis } env).Reachable hysteresis)
    (plain : (sendMachine { cfg with policy := .sizeOnly } env).Reachable raw)
    (sizes : hysteresis.messages.map Prod.fst = raw.messages.map Prod.fst) :
    routeChanges (hysteresis.messages.map Prod.snd) ≤ routeChanges (raw.messages.map Prod.snd) := by
  have first := decided_routes calm (Or.inr rfl)
  have second := decided_routes plain (Or.inl rfl)
  rw [first, second, sizes]
  exact follows_count (size_decisions_follow (resolveAlpha env) _)

/-- A message of 5000 bytes, refused by the socket of the peer, and one of 2000 bytes,
each counted in full. -/
def largeThenMiddle : List SendAction :=
  [.call quietEnv (some (List.replicate 5000 0)),
    .step { quietEnv with status := .error .econnrefused },
    .call quietEnv (some (List.replicate 2000 0)),
    .step { quietEnv with status := .error .econnrefused }]

def unsmoothed (policy : AdaptPolicyMode) : Option Sender :=
  (sendMachine { plainConfig 65536 with policy := policy } { plainEnv with alpha := some 1 }).run
    (startSender { plainContext 65536 with policy := policy, alpha := 1 } pageRing)
    largeThenMiddle

theorem hysteresis_switches_no_more_large_then_middle :
    ∃ hysteresis raw, unsmoothed .sizeHysteresis = some hysteresis ∧
      unsmoothed .sizeOnly = some raw ∧ hysteresis.messages.map Prod.fst = [5000, 2000] ∧
      raw.messages.map Prod.snd = [.shm, .uds] ∧
      routeChanges (hysteresis.messages.map Prod.snd) ≤
        routeChanges (raw.messages.map Prod.snd) := by
  have calm : (unsmoothed .sizeHysteresis).map (fun sender => sender.messages.map Prod.fst) =
      some [5000, 2000] := by decide +kernel
  have plain : (unsmoothed .sizeOnly).map Sender.messages =
      some [(5000, .shm), (2000, .uds)] := by decide +kernel
  obtain ⟨hysteresis, ran, sizes⟩ := Option.map_eq_some_iff.mp calm
  obtain ⟨raw, ranRaw, messages⟩ := Option.map_eq_some_iff.mp plain
  have starts : ∀ policy, policy ≠ .default →
      (sendMachine { plainConfig 65536 with policy := policy }
        { plainEnv with alpha := some 1 }).initial
        (startSender { plainContext 65536 with policy := policy, alpha := 1 } pageRing) := by
    intro policy chosen
    refine ⟨?_, ⟨none, rfl⟩, rfl, rfl⟩
    cases policy with
    | default => exact absurd rfl chosen
    | _ => rfl
  refine ⟨hysteresis, raw, ran, ranRaw, sizes, by rw [messages]; rfl, ?_⟩
  apply hysteresis_switches_no_more (Machine.reachable_run _ (starts _ (by decide)) ran)
    (Machine.reachable_run _ (starts _ (by decide)) ranRaw)
  rw [sizes, messages]
  rfl

def Inside (ewmaSize : ℚ) : Prop := adaptTauLow < ewmaSize ∧ ewmaSize < adaptTauHigh

def insideBand (size : UInt64) : Prop := Inside size.toNat

structure Banded (ctx : AdaptCtx) : Prop where
  policy : ctx.policy = .sizeHysteresis ∨ ctx.policy = .queueAware
  positive : 0 < ctx.alpha
  proper : ctx.alpha < 1

/-- The decided route is kept by every message inside the band: UDS below the high
threshold, SHM above the low one where the queue is not asked. -/
inductive Sticky (ctx : AdaptCtx) : Prop where
  | uds (below : ctx.ewmaSize < adaptTauHigh) (route : ctx.lastRoute = .uds) : Sticky ctx
  | shm (above : adaptTauLow < ctx.ewmaSize) (route : ctx.lastRoute = .shm)
      (calm : ctx.policy = .sizeHysteresis ∨ ctx.ewmaSize < adaptTauHigh) : Sticky ctx

section Band

variable {ctx before after : AdaptCtx} {size : UInt64}

theorem Banded.same (banded : Banded before) (config : SameConfig before after) :
    Banded after := by
  constructor
  · rw [config.policy]
    exact banded.policy
  · rw [config.alpha]
    exact banded.positive
  · rw [config.alpha]
    exact banded.proper

theorem Sticky.same (sticky : Sticky before) (config : SameConfig before after)
    (router : SameRouter before after) : Sticky after := by
  cases sticky with
  | uds below route =>
      rw [← router.ewmaSize] at below
      exact .uds below (router.lastRoute.trans route)
  | shm above route calm =>
      rw [← router.ewmaSize] at above calm
      rw [← config.policy] at calm
      exact .shm above (router.lastRoute.trans route) calm

theorem decided_in_band (banded : Banded ctx) (now waitClock : UInt64)
    (calm : ctx.policy = .sizeHysteresis ∨
      ewmaUpdate ctx.ewmaSize ctx.alpha size < adaptTauHigh) :
    decidedRoute ctx size now waitClock =
      sizeHysteresisRoute (ewmaUpdate ctx.ewmaSize ctx.alpha size) ctx.lastRoute := by
  rcases banded.policy with policy | policy
  · rw [decidedRoute, policy]
    rfl
  · have below : ¬adaptTauHigh ≤ ewmaUpdate ctx.ewmaSize ctx.alpha size := by
      rcases calm with other | below
      · rw [policy] at other
        cases other
      · exact not_le.mpr below
    rw [decidedRoute, policy]
    simp only [adaptPolicyDecide, decideQueueAware, decideInput, if_neg below]

theorem classify_sticks (banded : Banded ctx) (size now waitClock : UInt64)
    (calm : ctx.policy = .sizeHysteresis ∨
      ewmaUpdate ctx.ewmaSize ctx.alpha size < adaptTauHigh) :
    Sticky (classify ctx size now waitClock) := by
  have route := decided_in_band banded now waitClock calm
  have policy := (classify_config ctx size now waitClock).policy
  rw [← classify_route] at route
  rw [← classify_ewma ctx size now waitClock, ← policy] at calm
  rw [← classify_ewma ctx size now waitClock] at route
  simp only [sizeHysteresisRoute] at route
  have ordered : adaptTauLow < adaptTauHigh := by decide +kernel
  split at route
  · next high => exact .shm (ordered.trans_le high) route calm
  · next high =>
    split at route
    · exact .uds (not_le.mp high) route
    · next low =>
      split at route
      · exact .shm (not_le.mp low) route calm
      · exact .uds (not_le.mp high) route

theorem sticky_classify (banded : Banded ctx) (inside : insideBand size) (now waitClock : UInt64)
    (sticky : Sticky ctx) :
    (classify ctx size now waitClock).lastRoute = ctx.lastRoute ∧
      Sticky (classify ctx size now waitClock) := by
  have above : adaptTauLow < ctx.ewmaSize → adaptTauLow < ewmaUpdate ctx.ewmaSize ctx.alpha size :=
    lt_smooth banded.positive banded.proper inside.1
  have below : ctx.ewmaSize < adaptTauHigh →
      ewmaUpdate ctx.ewmaSize ctx.alpha size < adaptTauHigh :=
    smooth_lt banded.positive banded.proper inside.2
  have calm : ctx.policy = .sizeHysteresis ∨
      ewmaUpdate ctx.ewmaSize ctx.alpha size < adaptTauHigh := by
    cases sticky with
    | uds low route => exact Or.inr (below low)
    | shm high route calm => exact calm.imp_right below
  refine ⟨?_, classify_sticks banded size now waitClock calm⟩
  rw [classify_route, decided_in_band banded now waitClock calm]
  simp only [sizeHysteresisRoute]
  cases sticky with
  | uds low route =>
      rw [if_neg (not_le.mpr (below low)), route]
      split <;> rfl
  | shm high route calm =>
      rw [if_neg (not_le.mpr (above high)), route, if_pos rfl]
      split <;> rfl

/-- How far a mean that may not have sticky is above the band: `k + 1` more messages
bring it down by enough. -/
def Ranked (ctx : AdaptCtx) : ℕ → Prop
  | 0 => Sticky ctx
  | k + 1 => Sticky ctx ∨ (1 - ctx.alpha) ^ k * (ctx.ewmaSize - (adaptTauHigh - 1)) < 1

/-- What one step of a producer does in a stream inside the band. -/
structure BandStep (before after : AdaptCtx) : Prop where
  inside : Inside before.ewmaSize → Inside after.ewmaSize
  sticky : Sticky before → after.lastRoute = before.lastRoute ∧ Sticky after
  switched : after.lastRoute ≠ before.lastRoute → after.policy = .sizeHysteresis → Sticky after
  keeps : ∀ k, Ranked before k → after.lastRoute = before.lastRoute → Ranked after k
  lowers : ∀ k, Ranked before (k + 1) → after.lastRoute ≠ before.lastRoute → Ranked after k

theorem Ranked.same {k : ℕ} (ranked : Ranked before k) (config : SameConfig before after)
    (router : SameRouter before after) : Ranked after k := by
  cases k with
  | zero => exact Sticky.same ranked config router
  | succ k =>
      rw [Ranked, router.ewmaSize, config.alpha]
      exact Or.imp_left (fun sticky => sticky.same config router) ranked

theorem band_kept (config : SameConfig before after) (router : SameRouter before after) :
    BandStep before after where
  inside := by
    rw [router.ewmaSize]
    exact id
  sticky := fun sticky => ⟨router.lastRoute, sticky.same config router⟩
  switched := fun other => absurd router.lastRoute other
  keeps := fun _ ranked _ => ranked.same config router
  lowers := fun _ _ other => absurd router.lastRoute other

theorem band_classified (banded : Banded ctx) (inside : insideBand size)
    (now waitClock : UInt64) : BandStep ctx (classify ctx size now waitClock) := by
  have ewma := classify_ewma ctx size now waitClock
  have config := classify_config ctx size now waitClock
  have natural : (size.toNat : ℚ) ≤ adaptTauHigh - 1 := by
    have below : (size.toNat : ℚ) < ((4096 : ℕ) : ℚ) := inside.2.trans_eq (by decide +kernel)
    have small : size.toNat ≤ 4095 := Nat.le_of_lt_succ (Nat.cast_lt.mp below)
    have word : (size.toNat : ℚ) ≤ ((4095 : ℕ) : ℚ) := Nat.cast_le.mpr small
    exact word.trans_eq (by decide +kernel)
  constructor
  · intro held
    rw [ewma]
    exact ⟨lt_smooth banded.positive banded.proper inside.1 held.1,
      smooth_lt banded.positive banded.proper inside.2 held.2⟩
  · exact sticky_classify banded inside now waitClock
  · intro _ policy
    rw [config.policy] at policy
    exact classify_sticks banded size now waitClock (Or.inl policy)
  · intro k ranked _
    cases k with
    | zero => exact (sticky_classify banded inside now waitClock ranked).2
    | succ k =>
        rcases ranked with sticky | close
        · exact Or.inl (sticky_classify banded inside now waitClock sticky).2
        · apply Or.inr
          rw [config.alpha, ewma]
          exact excess_smoothed banded.proper banded.positive natural
            (excess_stays banded.proper banded.positive one_pos close)
  · intro k ranked other
    rcases ranked with sticky | close
    · exact absurd (sticky_classify banded inside now waitClock sticky).1 other
    · cases k with
      | zero =>
          -- Within one of the bound, so below the high threshold from the next message on.
          rw [pow_zero, one_mul] at close
          have below : ctx.ewmaSize < adaptTauHigh := by linarith
          exact classify_sticks banded size now waitClock
            (Or.inr (smooth_lt banded.positive banded.proper inside.2 below))
      | succ k =>
          apply Or.inr
          rw [config.alpha, ewma]
          exact excess_smoothed banded.proper banded.positive natural close

theorem BandStep.between {first second : AdaptCtx} (moved : BandStep first second)
    (config : SameConfig before first) (router : SameRouter before first)
    (settings : SameConfig second after) (rest : SameRouter second after) :
    BandStep before after where
  inside := by
    rw [rest.ewmaSize, ← router.ewmaSize]
    exact moved.inside
  sticky := fun sticky => by
    have kept := moved.sticky (sticky.same config router)
    exact ⟨rest.lastRoute.trans (kept.1.trans router.lastRoute), kept.2.same settings rest⟩
  switched := by
    rw [rest.lastRoute, ← router.lastRoute, settings.policy]
    exact fun other policy => (moved.switched other policy).same settings rest
  keeps := by
    rw [rest.lastRoute, ← router.lastRoute]
    exact fun k ranked kept => (moved.keeps k (ranked.same config router) kept).same settings rest
  lowers := by
    rw [rest.lastRoute, ← router.lastRoute]
    exact fun k ranked other => (moved.lowers k (ranked.same config router) other).same settings rest

end Band

theorem SameConfig.symm {before after : AdaptCtx} (config : SameConfig before after) :
    SameConfig after before where
  role := config.role.symm
  policy := config.policy.symm
  alpha := config.alpha.symm
  statsOn := config.statsOn.symm
  nonblockingSend := config.nonblockingSend.symm
  shmCapacity := config.shmCapacity.symm

theorem routed_band_step {sender next : Sender} {seen : List (UInt64 × AdaptRoute)}
    (banded : Banded sender.ctx) (config : SameConfig sender.ctx next.ctx)
    (routed : Routed insideBand sender.ctx seen next) : BandStep sender.ctx next.ctx := by
  cases routed with
  | kept router messages => exact band_kept config router
  | classified ctx size now waitClock inside settled asked router messages =>
      have moved := band_classified (banded.same settled) inside now waitClock
      have kept := settled.trans (classify_config ctx size now waitClock)
      exact moved.between settled asked (kept.symm.trans config) router

/-- An infinite stream of messages with sizes strictly between the thresholds, from any
state between two calls: any smoothed size, route, ring and estimates. -/
structure BandStream (run : ℕ → Sender) (actions : ℕ → SendAction) : Prop where
  steps : Stream sendStep run actions
  idle : ∃ rc, (run 0).pc = .idle rc
  banded : Banded (run 0).ctx
  sizes : ∀ n, admits insideBand (actions n)

def Switches (run : ℕ → Sender) (n : ℕ) : Prop :=
  (run n).ctx.lastRoute ≠ .none ∧ (run (n + 1)).ctx.lastRoute ≠ (run n).ctx.lastRoute

section Streams

variable {run : ℕ → Sender} {actions : ℕ → SendAction}

theorem stream_calm (stream : BandStream run actions) (n : ℕ) :
    Banded (run n).ctx ∧ (run n).ctx.policy = (run 0).ctx.policy ∧ Awaiting insideBand (run n) := by
  induction n with
  | zero =>
      obtain ⟨rc, idle⟩ := stream.idle
      exact ⟨stream.banded, rfl, decided_awaits (by rw [idle]; rfl)⟩
  | succ n ih =>
      obtain ⟨banded, policy, awaiting⟩ := ih
      have move := send_step_move (stream.steps n)
      have config := move_config move
      exact ⟨banded.same config, config.policy.trans policy,
        (move_routed awaiting (stream.sizes n) move).1⟩

theorem stream_step (stream : BandStream run actions) (n : ℕ) :
    BandStep (run n).ctx (run (n + 1)).ctx := by
  obtain ⟨banded, _, awaiting⟩ := stream_calm stream n
  have move := send_step_move (stream.steps n)
  exact routed_band_step banded (move_config move) (move_routed awaiting (stream.sizes n) move).2

theorem sticky_forever (stream : BandStream run actions) {n : ℕ} (sticky : Sticky (run n).ctx) :
    ∀ later, n ≤ later → ¬Switches run later := by
  have forever := holds_from sticky fun m _ held => ((stream_step stream m).sticky held).2
  intro later after switches
  exact switches.2 ((stream_step stream later).sticky (forever later after)).1

theorem inside_sticks {ctx : AdaptCtx} (inside : Inside ctx.ewmaSize)
    (decided : ctx.lastRoute ≠ .none) : Sticky ctx := by
  cases route : ctx.lastRoute with
  | none => exact absurd route decided
  | uds => exact .uds inside.2 route
  | shm => exact .shm inside.1 route (Or.inr inside.2)

/-- Once inside the band the smoothed size stays there and the decided route with it;
from any start the route changes finitely often, under the hysteresis at most once. -/
theorem deadband_stability (stream : BandStream run actions) :
    (∀ n, Inside (run n).ctx.ewmaSize →
      ∀ later, n ≤ later → Inside (run later).ctx.ewmaSize ∧ ¬Switches run later) ∧
    {n | Switches run n}.Finite ∧
    ((run 0).ctx.policy = .sizeHysteresis → {n | Switches run n}.Subsingleton) := by
  refine ⟨?_, ?_, ?_⟩
  · intro n inside later after
    have stays := holds_from inside (fun m _ held => (stream_step stream m).inside held) later after
    refine ⟨stays, ?_⟩
    intro switches
    exact sticky_forever stream (inside_sticks stays switches.1) later (Nat.le_refl _) switches
  · have banded := stream.banded
    obtain ⟨count, close⟩ := excess_contracts ((run 0).ctx.ewmaSize - (adaptTauHigh - 1))
      banded.proper banded.positive one_pos
    have ranked : Ranked (run 0).ctx (count + 1) := Or.inr close
    have finite : {n | 0 ≤ n ∧ ¬(run (n + 1)).ctx.lastRoute = (run n).ctx.lastRoute}.Finite := by
      apply @finitely_often _ (fun k n => Ranked (run n).ctx k) _ _ _ (count + 1) 0 ranked
      · intro n sticky other
        exact other ((stream_step stream n).sticky sticky).1
      · intro k n held same
        exact (stream_step stream n).keeps k held (not_not.mp same)
      · intro k n held other
        exact (stream_step stream n).lowers k held other
    apply finite.subset
    intro n switches
    exact ⟨Nat.zero_le n, switches.2⟩
  · intro policy
    have settles : ∀ n, Switches run n → Sticky (run (n + 1)).ctx := by
      intro n switches
      have same := (stream_calm stream (n + 1)).2.1
      exact (stream_step stream n).switched switches.2 (same.trans policy)
    intro first switchesFirst second switchesSecond
    rcases Nat.lt_trichotomy first second with before | same | after
    · exact absurd switchesSecond (sticky_forever stream (settles first switchesFirst) second before)
    · exact same
    · exact absurd switchesFirst (sticky_forever stream (settles second switchesSecond) first after)

end Streams

structure MailsInside (sender : Sender) : Prop where
  place : (∃ rc, sender.pc = .idle rc) ∨ ∃ tMeas, sender.pc = .udsSend tMeas
  role : sender.ctx.role = .producer
  banded : Banded sender.ctx
  ring : sender.ctx.ring = none
  inside : Inside sender.ctx.ewmaSize
  route : sender.ctx.lastRoute = .uds
  fresh : sender.ctx.retryPending = false

/-- Such a producer sends every message inside the band over UDS. -/
theorem inside_call_mails {sender : Sender} (mails : MailsInside sender) {rc : Option Status}
    (idle : sender.pc = .idle rc) {payload : List UInt8} (nonempty : payload.length ≠ 0)
    (inside : insideBand (UInt64.ofNat payload.length))
    (small : oversize (UInt64.ofNat payload.length) = false) :
    ∃ next, sendStep sender (.call quietEnv (some payload)) = some next ∧ MailsInside next := by
  let opened := { sender with draft := openAttempt payload }.sample 0 quietEnv.clock none
  have banded : Banded opened.ctx := mails.banded.same (quiet_sample _ _ _ _).toSameConfig
  have sticky : Sticky opened.ctx := .uds mails.inside.2 mails.route
  have unresumed : resumes opened.ctx opened.draft.size = false := by
    rw [resumes]
    exact congrArg (fun flag => flag && _ && _) mails.fresh
  have routed := @decide_fresh opened quietEnv.clock quietEnv.waitClock unresumed
  have step := band_classified banded inside quietEnv.clock quietEnv.waitClock
  have stays : (classify opened.ctx opened.draft.size quietEnv.clock
      quietEnv.waitClock).lastRoute = .uds := (step.sticky sticky).1.trans mails.route
  have accepted : (opened.decide quietEnv.clock quietEnv.waitClock).1 = .ok .uds := by
    have result := guard_result (classify opened.ctx opened.draft.size quietEnv.clock
      quietEnv.waitClock) .uds opened.draft.size
    have uds : escalated .uds opened.draft.size = .uds := by
      rw [escalated, if_neg]
      intro both
      exact absurd (both.2.symm.trans small) (by decide)
    rw [uds, if_neg (by simp)] at result
    rw [← classify_route, stays] at routed
    simp only [Sender.decide, routed]
    exact result
  have good : checkArguments sender.ctx (some payload) = .ok payload := by
    simp only [checkArguments, nonempty, mails.role, ne_eq, not_true, if_false]
  have dispatched : opened.dispatch quietEnv quietEnv.clock =
      some ((opened.decide quietEnv.clock quietEnv.waitClock).2.startDatagram
        (if (opened.decide quietEnv.clock quietEnv.waitClock).2.ctx.policy.measures then
          quietEnv.later else 0)) := by
    simp only [Sender.dispatch, accepted, reduceCtorEq, false_and, if_false, Sender.transmit]
  have called : sendStep sender (.call quietEnv (some payload)) = opened.dispatch quietEnv
      quietEnv.clock := by
    rw [sendStep, Sender.call]
    split
    · simp only [good, mails.ring, Option.isSome_none, Bool.false_eq_true, if_false]
      rfl
    · next other => exact absurd idle (other rc)
  have config := decide_config opened quietEnv.clock quietEnv.waitClock
  have mapping := decide_mapping opened quietEnv.clock quietEnv.waitClock
  have guarded := guard_retry_only
    (routeMessage opened.ctx opened.draft.size quietEnv.clock quietEnv.waitClock).2
    (routeMessage opened.ctx opened.draft.size quietEnv.clock quietEnv.waitClock).1
    opened.draft.size
  have ewma := guarded.ewmaSize.trans (congrArg (fun routed => routed.2.ewmaSize) routed)
  have route := guarded.lastRoute.trans (congrArg (fun routed => routed.2.lastRoute) routed)
  have pending := (guard_accepts accepted).2.2.1.trans
    (congrArg (fun routed => routed.2.retryPending) routed)
  have decided : Quiet (opened.decide quietEnv.clock quietEnv.waitClock).2.ctx _ :=
    quiet_datagram (opened.decide quietEnv.clock quietEnv.waitClock).2
      (if (opened.decide quietEnv.clock quietEnv.waitClock).2.ctx.policy.measures then
        quietEnv.later else 0)
  refine ⟨_, called.trans dispatched, Or.inr ⟨_, rfl⟩, ?_, ?_, ?_, ?_, ?_, ?_⟩
  · exact decided.role.trans (config.role.trans mails.role)
  · exact banded.same (config.trans decided.toSameConfig)
  · exact decided.ring.trans (mapping.ring.trans mails.ring)
  · rw [Inside, decided.ewmaSize.trans ewma]
    exact step.inside mails.inside
  · exact decided.lastRoute.trans (route.trans stays)
  · exact decided.retryPending.trans (pending.trans (classify_retry _ _ _ _).1)

theorem datagram_returns {sender : Sender} (mails : MailsInside sender) {tMeas : UInt64}
    (here : sender.pc = .udsSend tMeas) :
    ∃ next, sendStep sender (.step quietEnv) = some next ∧ MailsInside next := by
  have stepped : ∃ next, sender.step quietEnv = some next ∧ next.pc = .idle (some (.ok ())) ∧
      next.ctx = finishUds sender.ctx sender.draft.size tMeas quietEnv.clock (.ok ()) := by
    simp only [Sender.step, here]
    exact ⟨_, rfl, rfl, rfl⟩
  obtain ⟨next, stepped, idle, ctx⟩ := stepped
  have kept := finish_uds_retry_only sender.ctx sender.draft.size tMeas quietEnv.clock (.ok ())
  rw [← ctx] at kept
  refine ⟨next, stepped, Or.inl ⟨_, idle⟩, kept.role.trans mails.role,
    mails.banded.same kept.toSameConfig, kept.ring.trans mails.ring, ?_,
    kept.lastRoute.trans mails.route, ?_⟩
  · rw [Inside, kept.ewmaSize]
    exact mails.inside
  · rw [ctx]
    rfl

def middlePayload : List UInt8 := List.replicate 2000 0

def middleSender : Sender :=
  startSender { plainContext 65536 with
    policy := .queueAware, ewmaSize := 3000, lastRoute := .uds } pageRing

theorem deadband_stability_middle : ∃ run actions, BandStream run actions ∧
    run 0 = middleSender ∧ {n | Switches run n}.Finite ∧
    ∀ n, Inside (run n).ctx.ewmaSize ∧ ¬Switches run n := by
  have length : UInt64.ofNat middlePayload.length = 2000 := by
    rw [middlePayload, List.length_replicate]
    rfl
  have middle : insideBand 2000 := by constructor <;> decide +kernel
  have inside : insideBand (UInt64.ofNat middlePayload.length) := by
    rw [length]
    exact middle
  have banded : Banded middleSender.ctx := ⟨Or.inr rfl, by decide +kernel, by decide +kernel⟩
  have starts : MailsInside middleSender :=
    ⟨Or.inl ⟨none, rfl⟩, rfl, banded, rfl, by constructor <;> decide +kernel, rfl, rfl⟩
  have progress : ∀ sender, MailsInside sender → ∃ action next, admits insideBand action ∧
      sendStep sender action = some next ∧ MailsInside next := by
    intro sender mails
    rcases mails.place with ⟨rc, idle⟩ | ⟨tMeas, here⟩
    · obtain ⟨next, stepped, stays⟩ := inside_call_mails mails idle
        (by rw [middlePayload, List.length_replicate]; decide) inside (by rw [length]; rfl)
      exact ⟨.call quietEnv (some middlePayload), next, inside, stepped, stays⟩
    · obtain ⟨next, stepped, stays⟩ := datagram_returns mails here
      exact ⟨.step quietEnv, next, trivial, stepped, stays⟩
  obtain ⟨run, actions, first, stream, sizes⟩ := exists_stream progress starts
  have bandStream : BandStream run actions :=
    ⟨stream, by rw [first]; exact ⟨none, rfl⟩, by rw [first]; exact banded, sizes⟩
  have law := deadband_stability bandStream
  refine ⟨run, actions, bandStream, first, law.2.1, ?_⟩
  intro n
  apply law.1 0 _ n (Nat.zero_le n)
  rw [first]
  exact starts.inside

end AdaptIpc.Endpoint

import AdaptIpc.Endpoint.Stability

/-!
# The queue-aware policy against the hysteresis

The queue-aware policy asks the queue in one place only, at or above the high
threshold, and decides by size everywhere else. So over the same messages it is
on another route than the hysteresis only behind an escape: a message that fits
a datagram, left to the socket at or above the high threshold, after which the
smoothed size has not left the band. Each escape costs at most two switches.
-/

namespace AdaptIpc.Endpoint

open AdaptIpc.Ring AdaptIpc.Policy AdaptIpc.Library.Transition

set_option autoImplicit false

/-- What the queue-aware policy can decide at a smoothed size: only at or above the high
threshold is there a choice, and the queue makes it. -/
inductive QueueChoice (ewmaSize : ℚ) (current : AdaptRoute) (size : UInt64) : AdaptRoute → Prop
  | bySize (below : ewmaSize < adaptTauHigh) :
      QueueChoice ewmaSize current size (sizeHysteresisRoute ewmaSize current)
  | remains (high : adaptTauHigh ≤ ewmaSize) : QueueChoice ewmaSize current size .shm
  | escapes (high : adaptTauHigh ≤ ewmaSize) (fits : size + 1 ≤ udsMaxDgram) :
      QueueChoice ewmaSize current size .uds

theorem queue_choice {ctx : AdaptCtx} (queueAware : ctx.policy = .queueAware)
    (size now waitClock : UInt64) :
    QueueChoice (ewmaUpdate ctx.ewmaSize ctx.alpha size) ctx.lastRoute size
      (decidedRoute ctx size now waitClock) := by
  rw [decidedRoute, queueAware]
  by_cases high : adaptTauHigh ≤ ewmaUpdate ctx.ewmaSize ctx.alpha size
  · simp only [adaptPolicyDecide, decideQueueAware, decideInput, if_pos high]
    split
    · next escapes => exact .escapes high escapes.2
    · exact .remains high
  · simp only [adaptPolicyDecide, decideQueueAware, decideInput, if_neg high]
    exact .bySize (not_le.mp high)

def sizeAfter (alpha : ℚ) (messages : List (UInt64 × AdaptRoute)) : ℚ :=
  smoothedSize alpha (messages.map Prod.fst)

def routeAfter (messages : List (UInt64 × AdaptRoute)) : AdaptRoute :=
  lastOf (messages.map Prod.snd)

/-- The routes the hysteresis decides over the sizes of the same messages. -/
def calmRoutes (alpha : ℚ) (messages : List (UInt64 × AdaptRoute)) : List AdaptRoute :=
  (sizeDecisions .sizeHysteresis alpha (messages.map Prod.fst)).2

inductive QueueDecided (alpha : ℚ) : List (UInt64 × AdaptRoute) → Prop
  | none : QueueDecided alpha []
  | decided {seen : List (UInt64 × AdaptRoute)} {size : UInt64} {route : AdaptRoute}
      (before : QueueDecided alpha seen)
      (choice : QueueChoice (ewmaUpdate (sizeAfter alpha seen) alpha size) (routeAfter seen) size
        route) : QueueDecided alpha (seen ++ [(size, route)])

structure Escaped (alpha : ℚ) (messages : List (UInt64 × AdaptRoute)) : Prop where
  high : adaptTauHigh ≤ sizeAfter alpha messages
  route : routeAfter messages = .uds
  fits : ∃ message, messages.getLast? = some message ∧ message.1 + 1 ≤ udsMaxDgram

/-- The policies are apart since an escape, and the smoothed size has stayed in the band. -/
structure Apart (alpha : ℚ) (messages : List (UInt64 × AdaptRoute)) : Prop where
  route : routeAfter messages = .uds
  calm : lastOf (calmRoutes alpha messages) = .shm
  escape : ∃ escape, escape <+: messages ∧ Escaped alpha escape ∧
    ∀ middle, middle <+: messages → escape.length < middle.length →
      Inside (sizeAfter alpha middle)

def escapes (alpha : ℚ) (messages : List (UInt64 × AdaptRoute)) : ℚ × ℕ :=
  messages.foldl (fun seen message =>
    let ewmaSize := ewmaUpdate seen.1 alpha message.1
    let escape := adaptTauHigh ≤ ewmaSize ∧ message.2 = .uds
    (ewmaSize, if escape then seen.2 + 1 else seen.2)) (0, 0)

section Histories

variable {alpha : ℚ} {seen : List (UInt64 × AdaptRoute)} {size : UInt64} {route : AdaptRoute}

theorem size_after_append : sizeAfter alpha (seen ++ [(size, route)]) =
    ewmaUpdate (sizeAfter alpha seen) alpha size := by
  rw [sizeAfter, List.map_append, List.map_singleton, smoothed_append, ← sizeAfter]

theorem changes_append : routeChanges ((seen ++ [(size, route)]).map Prod.snd) =
    routeChanges (seen.map Prod.snd) + changeAfter (seen.map Prod.snd).getLast? route := by
  rw [List.map_append, List.map_singleton, route_changes_append]

theorem route_after_append : routeAfter (seen ++ [(size, route)]) = route := by
  simp [routeAfter, lastOf]

theorem calm_routes_append : calmRoutes alpha (seen ++ [(size, route)]) = calmRoutes alpha seen ++
    [sizeHysteresisRoute (ewmaUpdate (sizeAfter alpha seen) alpha size)
      (lastOf (calmRoutes alpha seen))] := by
  simp only [calmRoutes, sizeAfter, List.map_append, List.map_cons, List.map_nil,
    size_decisions_append, smoothed_append]
  rfl

theorem calm_after_append : lastOf (calmRoutes alpha (seen ++ [(size, route)])) =
    sizeHysteresisRoute (ewmaUpdate (sizeAfter alpha seen) alpha size)
      (lastOf (calmRoutes alpha seen)) := by
  rw [calm_routes_append]
  simp [lastOf]

theorem escapes_size (messages : List (UInt64 × AdaptRoute)) :
    (escapes alpha messages).1 = sizeAfter alpha messages := by
  induction messages using List.reverseRecOn with
  | nil => rfl
  | append_singleton seen message ih =>
      rw [size_after_append, ← ih]
      simp [escapes]

theorem escapes_append : (escapes alpha (seen ++ [(size, route)])).2 =
    if adaptTauHigh ≤ ewmaUpdate (sizeAfter alpha seen) alpha size ∧ route = .uds then
      (escapes alpha seen).2 + 1 else (escapes alpha seen).2 := by
  rw [← escapes_size]
  simp only [escapes, List.foldl_append, List.foldl_cons, List.foldl_nil]
  rfl

theorem last_of_decided {routes : List AdaptRoute} (decided : route ≠ .none)
    (last : lastOf routes = route) : routes.getLast? = some route := by
  rw [lastOf] at last
  cases final : routes.getLast? with
  | none =>
      rw [final] at last
      exact absurd last.symm decided
  | some other =>
      rw [final] at last
      exact congrArg some last

theorem decided_before {earlier messages : List (UInt64 × AdaptRoute)}
    (decided : QueueDecided alpha messages) (start : earlier <+: messages) :
    QueueDecided alpha earlier := by
  induction decided with
  | none =>
      rw [List.prefix_nil.mp start]
      exact .none
  | decided before choice ih =>
      rcases List.prefix_concat_iff.mp start with whole | shorter
      · rw [whole]
        exact .decided before choice
      · exact ih shorter

theorem escape_parts (high : adaptTauHigh ≤ ewmaUpdate (sizeAfter alpha seen) alpha size)
    (fits : size + 1 ≤ udsMaxDgram) : Apart alpha (seen ++ [(size, .uds)]) where
  route := route_after_append
  calm := by rw [calm_after_append, sizeHysteresisRoute, if_pos high]
  escape := by
    rw [← @size_after_append alpha seen size .uds] at high
    refine ⟨_, List.prefix_refl _, ⟨high, route_after_append, (size, .uds), by simp, fits⟩, ?_⟩
    intro middle within longer
    exact absurd (within.length_le) (Nat.not_le.mpr longer)

theorem apart_in_band (apart : Apart alpha seen)
    (inside : Inside (ewmaUpdate (sizeAfter alpha seen) alpha size)) :
    Apart alpha (seen ++ [(size, .uds)]) where
  route := route_after_append
  calm := by
    rw [calm_after_append, apart.calm, sizeHysteresisRoute, if_neg (not_le.mpr inside.2),
      if_neg (not_le.mpr inside.1), if_pos rfl]
  escape := by
    obtain ⟨escape, start, escaped, stays⟩ := apart.escape
    refine ⟨escape, start.trans (List.prefix_append _ _), escaped, ?_⟩
    intro middle within longer
    rcases List.prefix_concat_iff.mp within with whole | shorter
    · rw [whole, size_after_append]
      exact inside
    · exact stays middle shorter longer

inductive Compared (alpha : ℚ) (messages : List (UInt64 × AdaptRoute)) : Prop
  | together
      (same : (messages.map Prod.snd).getLast? = (calmRoutes alpha messages).getLast?)
      (count : routeChanges (messages.map Prod.snd) ≤
        routeChanges (calmRoutes alpha messages) + 2 * (escapes alpha messages).2) :
      Compared alpha messages
  | apart (apart : Apart alpha messages)
      (count : routeChanges (messages.map Prod.snd) + 1 ≤
        routeChanges (calmRoutes alpha messages) + 2 * (escapes alpha messages).2) :
      Compared alpha messages

theorem change_bounded (last : Option AdaptRoute) (route : AdaptRoute) :
    changeAfter last route ≤ 1 := by
  cases last with
  | none => exact Nat.zero_le 1
  | some last =>
      simp only [changeAfter]
      split <;> omega

theorem compared_alike (compared : Compared alpha seen)
    (alike : sizeHysteresisRoute (ewmaUpdate (sizeAfter alpha seen) alpha size)
      (lastOf (calmRoutes alpha seen)) = route) : Compared alpha (seen ++ [(size, route)]) := by
  have calm := @calm_routes_append alpha seen size route
  rw [alike] at calm
  have grows : (escapes alpha seen).2 ≤ (escapes alpha (seen ++ [(size, route)])).2 := by
    rw [escapes_append]
    split <;> omega
  apply Compared.together
  · rw [calm]
    simp
  · rw [calm, changes_append, route_changes_append]
    cases compared with
    | together same count =>
        rw [same]
        omega
    | apart apart count =>
        have bounded := change_bounded ((seen.map Prod.snd).getLast?) route
        omega

theorem compared_escape (compared : Compared alpha seen)
    (high : adaptTauHigh ≤ ewmaUpdate (sizeAfter alpha seen) alpha size)
    (fits : size + 1 ≤ udsMaxDgram) : Compared alpha (seen ++ [(size, .uds)]) := by
  apply Compared.apart (escape_parts high fits)
  have bounded := change_bounded ((seen.map Prod.snd).getLast?) .uds
  rw [escapes_append, if_pos ⟨high, rfl⟩, calm_routes_append, changes_append, route_changes_append]
  cases compared with
  | together same count => omega
  | apart apart count => omega

theorem compared_in_band (apart : Apart alpha seen)
    (count : routeChanges (seen.map Prod.snd) + 1 ≤
      routeChanges (calmRoutes alpha seen) + 2 * (escapes alpha seen).2)
    (inside : Inside (ewmaUpdate (sizeAfter alpha seen) alpha size)) :
    Compared alpha (seen ++ [(size, .uds)]) := by
  apply Compared.apart (apart_in_band apart inside)
  have stays : changeAfter ((seen.map Prod.snd).getLast?) .uds = 0 := by
    rw [last_of_decided (by decide) apart.route]
    rfl
  rw [escapes_append, if_neg fun both => absurd both.1 (not_le.mpr inside.2), calm_routes_append,
    changes_append, route_changes_append, stays]
  omega

/-- One more message: the policies part by an escape, stay as they are inside the band
and meet again outside of it. -/
theorem compared_step (compared : Compared alpha seen)
    (choice : QueueChoice (ewmaUpdate (sizeAfter alpha seen) alpha size) (routeAfter seen) size
      route) : Compared alpha (seen ++ [(size, route)]) := by
  cases choice with
  | remains high =>
      apply compared_alike compared
      rw [sizeHysteresisRoute, if_pos high]
  | escapes high fits => exact compared_escape compared high fits
  | bySize below =>
      cases compared with
      | together same count =>
          apply compared_alike (.together same count)
          rw [routeAfter, lastOf, lastOf, same]
      | apart apart count =>
          rw [apart.route]
          by_cases low : ewmaUpdate (sizeAfter alpha seen) alpha size ≤ adaptTauLow
          · have leaves : ∀ current, sizeHysteresisRoute
                (ewmaUpdate (sizeAfter alpha seen) alpha size) current = .uds := by
              intro current
              rw [sizeHysteresisRoute, if_neg (not_le.mpr below), if_pos low]
            rw [leaves]
            exact compared_alike (.apart apart count) (leaves _)
          · have stays : sizeHysteresisRoute
                (ewmaUpdate (sizeAfter alpha seen) alpha size) .uds = .uds := by
              rw [sizeHysteresisRoute, if_neg (not_le.mpr below), if_neg low, if_neg (by decide)]
            rw [stays]
            exact compared_in_band apart count ⟨not_le.mp low, below⟩

theorem queue_decided_compared {messages : List (UInt64 × AdaptRoute)}
    (decided : QueueDecided alpha messages) : Compared alpha messages := by
  induction decided with
  | none => exact .together rfl (Nat.zero_le _)
  | decided before choice ih => exact compared_step ih choice

end Histories

theorem queue_decided_step {sender next : Sender} {seen : List (UInt64 × AdaptRoute)}
    (queueAware : sender.ctx.policy = .queueAware) (tally : Tally sender.ctx seen)
    (decided : QueueDecided sender.ctx.alpha seen)
    (routed : Routed (fun _ => True) sender.ctx seen next) :
    QueueDecided sender.ctx.alpha next.messages := by
  cases routed with
  | kept router messages =>
      rw [messages]
      exact decided
  | classified ctx size now waitClock welcome config asked router messages =>
      have choice := queue_choice (config.policy.trans queueAware) size now waitClock
      rw [config.alpha, asked.ewmaSize, asked.lastRoute, tally.ewma, tally.last] at choice
      rw [messages, router.lastRoute, classify_route]
      exact .decided decided choice

theorem every_admitted (action : SendAction) : admits (fun _ => True) action := by
  cases action with
  | call env data => cases data <;> trivial
  | _ => trivial

theorem queue_aware_decides {cfg : AdaptConfig} {env : InitEnv} {sender : Sender}
    (queueAware : resolvePolicy cfg env = .queueAware)
    (reached : (sendMachine cfg env).Reachable sender) :
    QueueDecided (resolveAlpha env) sender.messages := by
  have tracked : (sendMachine cfg env).Reachable sender ∧
      QueueDecided (resolveAlpha env) sender.messages := by
    apply Machine.invariant_of_reachable (sendMachine cfg env)
      (fun sender => (sendMachine cfg env).Reachable sender ∧
        QueueDecided (resolveAlpha env) sender.messages) _ _ reached
    · intro start starts
      refine ⟨Machine.reachable_initial starts, ?_⟩
      obtain ⟨_, ⟨before, idle⟩, none, _⟩ := starts
      have fresh : start.messages = [] := by
        simp only [Sender.messages, idle, none]
        rfl
      rw [fresh]
      exact .none
    · intro before action after held stepped
      obtain ⟨earlier, decided⟩ := held
      obtain ⟨tally, awaiting, config⟩ := classifier_tallies earlier
      have alpha : before.ctx.alpha = resolveAlpha env := config.alpha
      have policy : before.ctx.policy = .queueAware := config.policy.trans queueAware
      have routed := (move_routed awaiting (every_admitted action) (send_step_move stepped)).2
      rw [← alpha] at decided ⊢
      exact ⟨Machine.reachable_step earlier stepped, queue_decided_step policy tally decided routed⟩
  exact tracked.2

/-- Over the same messages the queue-aware policy and the hysteresis end on one route, or
they are apart since an escape; and it switches at most twice more for each escape. -/
theorem queue_aware_parts_by_escape {cfg : AdaptConfig} {env : InitEnv} {sender : Sender}
    (queueAware : resolvePolicy cfg env = .queueAware)
    (reached : (sendMachine cfg env).Reachable sender) :
    (∀ seen, seen <+: sender.messages →
      routeAfter seen = lastOf (calmRoutes (resolveAlpha env) seen) ∨
        Apart (resolveAlpha env) seen) ∧
    routeChanges (sender.messages.map Prod.snd) ≤
      routeChanges (calmRoutes (resolveAlpha env) sender.messages) +
        2 * (escapes (resolveAlpha env) sender.messages).2 := by
  have decided := queue_aware_decides queueAware reached
  constructor
  · intro seen start
    cases queue_decided_compared (decided_before decided start) with
    | together same count =>
        left
        rw [routeAfter, lastOf, lastOf, same]
    | apart apart count => exact Or.inr apart
  · cases queue_decided_compared decided with
    | together same count => exact count
    | apart apart count => exact Nat.le_of_succ_le count

def freeSwitchEnv : InitEnv :=
  { eagerEnv with
    alpha := some (1 / 2)
    cost := { eagerEnv.cost with switchCostUs := some 0 } }

def backlogConfig : AdaptConfig := { plainConfig 4096 with policy := .queueAware }

def backlogContext : AdaptCtx :=
  { eagerContext with
    alpha := resolveAlpha freeSwitchEnv
    policy := .queueAware
    cmcfg := { eagerContext.cmcfg with switchCostUs := 0 } }

def sampledCall (size : ℕ) : List SendAction :=
  .call quietEnv (some (List.replicate size 0)) :: List.replicate 4 (.step quietEnv)

def backlogRun : Option Sender :=
  (sendMachine backlogConfig freeSwitchEnv).run (startSender backlogContext pageRing)
    (sampledCall 20000 ++ sampledCall 20000 ++ sampledCall 20000 ++
      sampledCall 1240 ++ List.replicate 1250 (.ring .producer) ++ [.step quietEnv] ++
      sampledCall 1 ++ [.step quietEnv] ++ sampledCall 1 ++ [.step quietEnv])

/-- The first byte escapes to the socket and the second, in the band, stays there. -/
theorem queue_aware_parts_by_escape_backlog : ∃ sender, backlogRun = some sender ∧
    sender.messages.map Prod.snd = [.shm, .shm, .shm, .shm, .uds, .uds] ∧
    Apart (resolveAlpha freeSwitchEnv) sender.messages := by
  have ran : backlogRun.map (fun sender => (sender.messages.map Prod.snd,
      calmRoutes (resolveAlpha freeSwitchEnv) sender.messages)) =
      some ([.shm, .shm, .shm, .shm, .uds, .uds], [.shm, .shm, .shm, .shm, .shm, .shm]) := by
    decide +kernel
  obtain ⟨sender, run, facts⟩ := Option.map_eq_some_iff.mp ran
  obtain ⟨routes, calm⟩ := Prod.mk.inj facts
  have starts : (sendMachine backlogConfig freeSwitchEnv).initial
      (startSender backlogContext pageRing) := ⟨rfl, ⟨none, rfl⟩, rfl, rfl⟩
  have law := queue_aware_parts_by_escape (rfl : resolvePolicy backlogConfig freeSwitchEnv = _)
    (Machine.reachable_run _ starts run)
  refine ⟨sender, run, routes, ?_⟩
  rcases law.1 sender.messages (List.prefix_refl _) with same | apart
  · rw [routeAfter, routes, calm] at same
    exact absurd same (by decide)
  · exact apart

end AdaptIpc.Endpoint

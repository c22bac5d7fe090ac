import AdaptIpc.Policy.Pressure

/-!
# A stationary input

Feeding the selected route back as the current one selects it again: the size
rules are sticky towards it, and in the cost comparison the switching cost is
lifted from it and charged to the other transport.
-/

namespace AdaptIpc.Policy

set_option autoImplicit false

/-- The input with another current route. -/
def DecideInput.at (input : DecideInput) (current : AdaptRoute) : DecideInput :=
  { input with current := current }

theorem size_hysteresis_idempotent (ewmaSize : ℚ) (current : AdaptRoute) :
    sizeHysteresisRoute ewmaSize (sizeHysteresisRoute ewmaSize current) =
      sizeHysteresisRoute ewmaSize current := by
  simp only [sizeHysteresisRoute]
  split_ifs <;> simp_all

theorem routes_agree {first second : AdaptRoute} (firstDecided : first ≠ .none)
    (secondDecided : second ≠ .none) (alike : first = .uds ↔ second = .uds) : first = second := by
  cases first <;> cases second <;> simp_all

theorem scores_at (fullAdaptive : Bool) (cfg : AdaptCostCfg) (input : DecideInput)
    (current : AdaptRoute) (occ : UInt64) (qShm : ℚ) :
    (scoreDecision fullAdaptive cfg (input.at current) occ qShm).scoreUds -
        (scoreDecision fullAdaptive cfg (input.at current) occ qShm).scoreShm =
      (scoreDecision fullAdaptive cfg (input.at .none) occ qShm).scoreUds -
        (scoreDecision fullAdaptive cfg (input.at .none) occ qShm).scoreShm +
        switchShift cfg current := by
  simp only [scoreDecision]
  rw [charged_difference, charged_difference, switch_difference, switch_difference]
  refine (add_right_comm _ _ _).trans ?_
  rw [show switchShift cfg (input.at .none).current = 0 from rfl, add_zero]
  rfl

theorem chosen_stays {margin advantage : ℚ} {cfg : AdaptCostCfg} (switchCost : 0 ≤ cfg.switchCostUs)
    (nonneg : 0 ≤ margin) (current : AdaptRoute) :
    (udsChosen margin (advantage + switchShift cfg current) current →
      udsChosen margin (advantage + switchShift cfg .uds) .uds) ∧
    (¬udsChosen margin (advantage + switchShift cfg current) current →
      ¬udsChosen margin (advantage + switchShift cfg .shm) .shm) := by
  cases current with
  | none =>
      simp only [udsChosen, switchShift, not_lt]
      exact ⟨fun less back => by linarith [back.1], fun more less => by linarith [less.1]⟩
  | shm =>
      simp only [udsChosen, switchShift]
      exact ⟨fun less back => by linarith [less.1, back.1], id⟩
  | uds =>
      simp only [udsChosen, switchShift, not_not]
      exact ⟨id, fun more less => by linarith [more.1, less.1]⟩

theorem compared_settles {fullAdaptive : Bool} {cfg : AdaptCostCfg}
    (switchCost : 0 ≤ cfg.switchCostUs) (margin : 0 ≤ cfg.marginUs) (input : DecideInput)
    (occ : UInt64) (qShm : ℚ) {selected : AdaptRoute}
    (selects : (chooseRoute cfg input (scoreDecision fullAdaptive cfg input occ qShm)).selected =
      selected) :
    (chooseRoute cfg (input.at selected)
      (scoreDecision fullAdaptive cfg (input.at selected) occ qShm)).selected = selected := by
  have same : input.at input.current = input := rfl
  have chosen := choose_uds_iff (scoreDecision fullAdaptive cfg input occ qShm) cfg input
  have score := scores_at fullAdaptive cfg input input.current occ qShm
  rw [same] at score
  rw [score, selects] at chosen
  have stays := @chosen_stays cfg.marginUs
    ((scoreDecision fullAdaptive cfg (input.at .none) occ qShm).scoreUds -
      (scoreDecision fullAdaptive cfg (input.at .none) occ qShm).scoreShm)
    cfg switchCost margin input.current
  have decided : selected ≠ .none := selects ▸ choose_selects cfg input _
  apply routes_agree (choose_selects _ _ _) decided
  rw [choose_uds_iff, scores_at]
  cases selected with
  | none => exact absurd rfl decided
  | shm =>
      refine iff_of_false (stays.2 ?_) (by simp)
      exact fun uds => absurd (chosen.mpr uds) (by simp)
  | uds => exact iff_of_true (stays.1 (chosen.mp rfl)) rfl

theorem escape_settles {policy : AdaptPolicyMode} {cfg : AdaptCostCfg} {input : DecideInput}
    {selected : AdaptRoute} (escapes : EscapesByPressure policy cfg input)
    (selects : (adaptPolicyDecide policy cfg input).1.selected = selected) :
    (adaptPolicyDecide policy cfg (input.at selected)).1.selected = selected := by
  have escapesAgain : EscapesByPressure policy cfg (input.at selected) := escapes
  have pressure : ringPressure policy cfg (input.at selected) = ringPressure policy cfg input := rfl
  have threshold : escapeThresholdUs cfg (input.at selected) = escapeThresholdUs cfg input := rfl
  have first := pressed_decides_uds_iff escapes
  have second := pressed_decides_uds_iff escapesAgain
  rw [selects] at first
  apply routes_agree (decide_selects _ _ _) (selects ▸ decide_selects policy cfg input)
  by_cases high : adaptTauHigh ≤ input.ewmaSize
  · have still : adaptTauHigh ≤ (input.at selected).ewmaSize := high
    rw [if_pos high] at first
    rw [second, if_pos still, pressure, threshold]
    exact first.symm
  · have still : ¬adaptTauHigh ≤ (input.at selected).ewmaSize := high
    rw [if_neg high] at first
    have bySize : selected = sizeHysteresisRoute input.ewmaSize input.current := by
      apply routes_agree (selects ▸ decide_selects policy cfg input) _ first
      rcases size_hysteresis_route input.ewmaSize input.current with route | route <;> simp [route]
    have sticky := size_hysteresis_idempotent input.ewmaSize input.current
    rw [← bySize] at sticky
    rw [second, if_neg still]
    exact iff_of_eq (congrArg (· = AdaptRoute.uds) sticky)

/-- A fixed input selects the route it has selected. -/
theorem stationary_input_settles (policy : AdaptPolicyMode) (cfg : AdaptCostCfg)
    (switchCost : 0 ≤ cfg.switchCostUs) (margin : 0 ≤ cfg.marginUs) (input : DecideInput)
    {selected : AdaptRoute} (selects : (adaptPolicyDecide policy cfg input).1.selected = selected) :
    (selected = .shm ∨ selected = .uds) ∧
      (adaptPolicyDecide policy cfg { input with current := selected }).1.selected = selected := by
  have decided : selected ≠ .none := selects ▸ decide_selects policy cfg input
  refine ⟨by cases selected <;> simp_all, ?_⟩
  cases policy with
  | sizeOnly => exact selects
  | default => exact compared_settles switchCost margin input _ _ selects
  | costAware => exact compared_settles switchCost margin input _ _ selects
  | sizeHysteresis =>
      rw [← selects]
      exact size_hysteresis_idempotent input.ewmaSize input.current
  | queueAware =>
      exact escape_settles (Or.inl rfl) selects
  | fullAdaptive =>
      cases cold : coldStart cfg input with
      | true => exact escape_settles (Or.inr ⟨rfl, cold⟩) selects
      | false =>
          simp only [adaptPolicyDecide, cold, Bool.false_eq_true, if_false] at selects
          simp only [adaptPolicyDecide]
          rw [show coldStart cfg { input with current := selected } = false from cold]
          exact compared_settles switchCost margin input _ _ selects

/-- The first route of a mapped ring with a draining consumer. -/
theorem stationary_input_settles_first_route :
    (adaptPolicyDecide .costAware adaptCostCfgDefaults drainingSituation).1.selected = .shm ∧
      (adaptPolicyDecide .costAware adaptCostCfgDefaults
        { drainingSituation with current := .shm }).1.selected = .shm := by
  have first : (adaptPolicyDecide .costAware adaptCostCfgDefaults drainingSituation).1.selected =
      .shm := by decide +kernel
  exact ⟨first, (stationary_input_settles .costAware adaptCostCfgDefaults (by decide) (by decide)
    drainingSituation first).2⟩

end AdaptIpc.Policy

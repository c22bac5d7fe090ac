import AdaptIpc.Policy.CostModel
import Mathlib.Tactic.Linarith
import Mathlib.Tactic.FieldSimp

/-!
# Noise and the switching margin

The stability argument of the cost comparison: estimates within `eps` of the same
true costs cannot make one evaluation switch to SHM and another back to UDS while
the margin exceeds `2 * eps`. A switch is an advantage beyond the margin, and the
advantage moves with the estimates except for the latency penalty, which is charged
as a whole to the transport that looks slower.
-/

namespace AdaptIpc.Policy

set_option autoImplicit false

def udsEstimate (cfg : AdaptCostCfg) (input : DecideInput) : ℚ :=
  let model := transportModel input.learn 0 cfg.udsFixedUs cfg.udsSlopeUsPerB
  model.1 + model.2 * input.payload.toNat

def queueEstimate (input : DecideInput) : ℚ :=
  adaptRtctxQueueWaitUs input.rt (match input.rt with | some rt => smoothedOcc rt | none => 0)
    input.waitClock

def shmEstimate (cfg : AdaptCostCfg) (input : DecideInput) : ℚ :=
  let model := transportModel input.learn 2 cfg.shmFixedUs cfg.shmSlopeUsPerB
  model.1 + model.2 * input.payload.toNat + queueEstimate input

/-- The SHM cost on top of sending and queueing: health and setup. -/
def shmExtra (policy : AdaptPolicyMode) (cfg : AdaptCostCfg) (input : DecideInput) : ℚ :=
  (if policy = .fullAdaptive then healthPenalty cfg input else 0) +
    (if input.shmMapped then 0 else cfg.setupCostUs)

def notifyDelay (cfg : AdaptCostCfg) (input : DecideInput) : ℚ :=
  if input.shmMapped then
    (if consumerActive input then cfg.shmActiveNotifyUs else cfg.shmNotifyFloorUs)
  else 0

/-- The latency penalty, counted for SHM where it is charged to UDS. -/
def penaltyShift (cfg : AdaptCostCfg) (latUds latShm : ℚ) : ℚ :=
  if latUds < latShm then -latencyPenalty cfg latUds latShm else latencyPenalty cfg latUds latShm

def switchShift (cfg : AdaptCostCfg) : AdaptRoute → ℚ
  | .shm => cfg.switchCostUs
  | .uds => -cfg.switchCostUs
  | .none => 0

def shmAdvantage (policy : AdaptPolicyMode) (cfg : AdaptCostCfg) (input : DecideInput) : ℚ :=
  udsEstimate cfg input - shmEstimate cfg input - shmExtra policy cfg input +
    switchShift cfg input.current +
    penaltyShift cfg (udsEstimate cfg input) (shmEstimate cfg input + notifyDelay cfg input)

theorem latency_penalty_nonneg {cfg : AdaptCostCfg} (weight : 0 ≤ cfg.latencyWeight)
    (latUds latShm : ℚ) : 0 ≤ latencyPenalty cfg latUds latShm := by
  simp only [latencyPenalty]
  split_ifs
  all_goals
    first
      | exact le_refl 0
      | exact mul_nonneg weight (by linarith)

def compared (policy : AdaptPolicyMode) (cfg : AdaptCostCfg) (input : DecideInput) :
    AdaptDecision :=
  scoreDecision (policy == .fullAdaptive) cfg input
    (match input.rt with | some rt => smoothedOcc rt | none => 0) (queueEstimate input)

theorem decide_compared {policy : AdaptPolicyMode} {cfg : AdaptCostCfg} {input : DecideInput}
    (compares : policy.measures = true)
    (warm : policy = .fullAdaptive → coldStart cfg input = false) :
    (adaptPolicyDecide policy cfg input).1 =
      chooseRoute cfg input (compared policy cfg input) := by
  cases policy with
  | costAware => rfl
  | fullAdaptive =>
      simp only [adaptPolicyDecide, warm rfl, Bool.false_eq_true, if_false]
      rfl
  | _ => cases compares

theorem charged_difference (penalty scoreUds scoreShm latUds latShm : ℚ) :
    (if 0 < penalty ∧ ¬latUds < latShm then scoreUds + penalty else scoreUds) -
        (if 0 < penalty ∧ latUds < latShm then scoreShm + penalty else scoreShm) =
      scoreUds - scoreShm +
        (if 0 < penalty then (if latUds < latShm then -penalty else penalty) else 0) := by
  by_cases charged : 0 < penalty
  · by_cases slower : latUds < latShm
    · simp only [charged, slower, not_true, and_false, and_self, if_true, if_false]
      ring
    · simp only [charged, slower, not_false_eq_true, and_self, and_false, if_true, if_false]
      ring
  · simp only [charged, false_and, if_false, add_zero]

theorem penalty_shift_charged {cfg : AdaptCostCfg} (weight : 0 ≤ cfg.latencyWeight)
    (latUds latShm : ℚ) :
    (if 0 < latencyPenalty cfg latUds latShm then
      (if latUds < latShm then -latencyPenalty cfg latUds latShm
        else latencyPenalty cfg latUds latShm) else 0) = penaltyShift cfg latUds latShm := by
  rcases (latency_penalty_nonneg weight latUds latShm).eq_or_lt with none | charged
  · simp [penaltyShift, ← none]
  · rw [if_pos charged, penaltyShift]

theorem switch_difference (cfg : AdaptCostCfg) (current : AdaptRoute) (costUds costShm : ℚ) :
    costUds + (if current = .uds then 0 else cfg.switchCostUs) -
        (costShm + (if current = .shm then 0 else cfg.switchCostUs)) =
      costUds - costShm + switchShift cfg current := by
  cases current <;> simp only [switchShift, reduceCtorEq, if_true, if_false] <;> ring

theorem compared_advantage (policy : AdaptPolicyMode) {cfg : AdaptCostCfg} (input : DecideInput)
    (weight : 0 ≤ cfg.latencyWeight) :
    (compared policy cfg input).scoreUds - (compared policy cfg input).scoreShm =
      shmAdvantage policy cfg input := by
  have latency : queueEstimate input + notifyDelay cfg input +
      (transportModel input.learn 2 cfg.shmFixedUs cfg.shmSlopeUsPerB).1 +
      (transportModel input.learn 2 cfg.shmFixedUs cfg.shmSlopeUsPerB).2 *
        input.payload.toNat = shmEstimate cfg input + notifyDelay cfg input := by
    simp only [shmEstimate]
    ring
  simp only [compared, scoreDecision]
  rw [charged_difference, penalty_shift_charged weight, switch_difference]
  have charged : ∀ score : ℚ, score +
      penaltyShift cfg (udsEstimate cfg input) (queueEstimate input + notifyDelay cfg input +
        (transportModel input.learn 2 cfg.shmFixedUs cfg.shmSlopeUsPerB).1 +
        (transportModel input.learn 2 cfg.shmFixedUs cfg.shmSlopeUsPerB).2 *
          input.payload.toNat) =
      score + penaltyShift cfg (udsEstimate cfg input)
        (shmEstimate cfg input + notifyDelay cfg input) := by
    intro score
    rw [latency]
  refine (charged _).trans ?_
  simp only [shmAdvantage, shmExtra, beq_iff_eq]
  simp only [udsEstimate, shmEstimate]
  ring

def udsChosen (marginUs advantage : ℚ) : AdaptRoute → Prop
  | .none => advantage < 0
  | .shm => advantage < 0 ∧ advantage < -marginUs
  | .uds => ¬(0 ≤ advantage ∧ marginUs < advantage)

section Switches

variable {cfg : AdaptCostCfg} {input : DecideInput} (d : AdaptDecision)

theorem choose_uds_iff (cfg : AdaptCostCfg) (input : DecideInput) :
    (chooseRoute cfg input d).selected = .uds ↔
      udsChosen cfg.marginUs (d.scoreUds - d.scoreShm) input.current := by
  by_cases cheaper : d.scoreShm ≤ d.scoreUds
  · have ahead : ¬d.scoreUds - d.scoreShm < 0 := by linarith
    cases current : input.current with
    | none => simp [chooseRoute, current, cheaper, udsChosen, ahead]
    | shm => simp [chooseRoute, current, cheaper, udsChosen, ahead]
    | uds =>
        simp only [chooseRoute, current, cheaper, udsChosen, reduceCtorEq, ne_eq,
          not_false_eq_true, if_true, if_false, scoreOf, sub_nonneg, true_and]
        by_cases worthwhile : d.scoreShm + cfg.marginUs < d.scoreUds
        · simp only [worthwhile, if_true, reduceCtorEq, false_iff, not_not]
          linarith
        · simp only [worthwhile, if_false, true_iff]
          intro exceeds
          exact worthwhile (by linarith)
  · have behind : d.scoreUds - d.scoreShm < 0 := by linarith
    cases current : input.current with
    | none => simp [chooseRoute, current, cheaper, udsChosen, behind]
    | shm =>
        simp only [chooseRoute, current, cheaper, udsChosen, reduceCtorEq, ne_eq,
          not_false_eq_true, if_true, if_false, scoreOf, behind, true_and]
        by_cases worthwhile : d.scoreUds + cfg.marginUs < d.scoreShm
        · simp only [worthwhile, if_true, true_iff]
          linarith
        · simp only [worthwhile, if_false, reduceCtorEq, false_iff]
          intro under
          exact worthwhile (by linarith)
    | uds => simp [chooseRoute, current, cheaper, udsChosen]

theorem choose_switches_shm_iff (margin : 0 < cfg.marginUs) (onUds : input.current = .uds) :
    (chooseRoute cfg input d).selected = .shm ↔ cfg.marginUs < d.scoreUds - d.scoreShm := by
  have other : (chooseRoute cfg input d).selected = .shm ↔
      ¬(chooseRoute cfg input d).selected = .uds := by
    have decided := choose_selects cfg input d
    cases selected : (chooseRoute cfg input d).selected with
    | none => exact absurd selected decided
    | shm => simp
    | uds => simp
  rw [other, choose_uds_iff, onUds, udsChosen, not_not]
  exact ⟨fun exceeds => exceeds.2, fun exceeds => ⟨by linarith, exceeds⟩⟩

theorem choose_switches_uds_iff (margin : 0 < cfg.marginUs) (onShm : input.current = .shm) :
    (chooseRoute cfg input d).selected = .uds ↔ d.scoreUds - d.scoreShm < -cfg.marginUs := by
  rw [choose_uds_iff, onShm, udsChosen]
  exact ⟨fun under => under.2, fun under => ⟨by linarith, under⟩⟩

end Switches

structure AllElseEqual (situation evaluation : DecideInput) : Prop where
  health : evaluation.health = situation.health
  shmMapped : evaluation.shmMapped = situation.shmMapped
  ewmaSize : evaluation.ewmaSize = situation.ewmaSize
  payload : evaluation.payload = situation.payload
  nowNs : evaluation.nowNs = situation.nowNs
  lastDrain : evaluation.rt.map AdaptRtctx.lastDrainNs = situation.rt.map AdaptRtctx.lastDrainNs

/-- An evaluation of the comparison in the situation whose estimates are within `eps` of the
true costs. -/
structure Observes (policy : AdaptPolicyMode) (cfg : AdaptCostCfg) (situation : DecideInput)
    (eps trueUds trueShm : ℚ) (evaluation : DecideInput) : Prop extends
    AllElseEqual situation evaluation where
  warm : policy = .fullAdaptive → coldStart cfg evaluation = false
  uds : |udsEstimate cfg evaluation - trueUds| ≤ eps
  shm : |shmEstimate cfg evaluation - trueShm| ≤ eps

/-- No two evaluations switch to opposite transports for noise alone. -/
def NoiseImmune (policy : AdaptPolicyMode) (cfg : AdaptCostCfg) (situation : DecideInput)
    (eps : ℚ) : Prop :=
  ∀ trueUds trueShm onUds onShm,
    Observes policy cfg situation eps trueUds trueShm onUds → onUds.current = .uds →
    Observes policy cfg situation eps trueUds trueShm onShm → onShm.current = .shm →
    ¬((adaptPolicyDecide policy cfg onUds).1.selected = .shm ∧
      (adaptPolicyDecide policy cfg onShm).1.selected = .uds)

def LatencyUncharged (cfg : AdaptCostCfg) : Prop :=
  cfg.qos = .throughput ∨ cfg.latencyBudgetUs ≤ 0 ∨ cfg.latencyWeight = 0

section Situations

variable {policy : AdaptPolicyMode} {cfg : AdaptCostCfg} {situation : DecideInput}

theorem uncharged_penalty (uncharged : LatencyUncharged cfg) (latUds latShm : ℚ) :
    penaltyShift cfg latUds latShm = 0 := by
  have none : latencyPenalty cfg latUds latShm = 0 := by
    simp only [latencyPenalty]
    rcases uncharged with throughput | unlimited | weightless
    · rw [if_neg fun charged => charged.1 throughput]
    · rw [if_neg fun charged => absurd charged.2 (not_lt.mpr unlimited)]
    · simp [weightless]
  simp [penaltyShift, none]

theorem same_extra {evaluation : DecideInput} (same : AllElseEqual situation evaluation) :
    shmExtra policy cfg evaluation = shmExtra policy cfg situation := by
  simp only [shmExtra, healthPenalty, same.health, same.shmMapped]

theorem same_notify {evaluation : DecideInput} (same : AllElseEqual situation evaluation) :
    notifyDelay cfg evaluation = notifyDelay cfg situation := by
  have active : consumerActive evaluation = consumerActive situation := by
    have drain := same.lastDrain
    simp only [consumerActive, same.nowNs]
    cases held : evaluation.rt with
    | none =>
        cases shared : situation.rt with
        | none => rfl
        | some rt => simp [held, shared] at drain
    | some rt =>
        cases shared : situation.rt with
        | none => simp [held, shared] at drain
        | some rt' =>
            have last : rt.lastDrainNs = rt'.lastDrainNs := by
              simpa [held, shared] using drain
            simp only [last]
  simp only [notifyDelay, same.shmMapped, active]

/-- An evaluation on UDS switches for an advantage beyond the margin, one on SHM for a
disadvantage beyond it. -/
theorem observes_switches (compares : policy.measures = true)
    (weight : 0 ≤ cfg.latencyWeight) (margin : 0 < cfg.marginUs) {eps trueUds trueShm : ℚ}
    {evaluation : DecideInput}
    (observes : Observes policy cfg situation eps trueUds trueShm evaluation) :
    (evaluation.current = .uds →
      ((adaptPolicyDecide policy cfg evaluation).1.selected = .shm ↔
        cfg.marginUs < shmAdvantage policy cfg evaluation)) ∧
    (evaluation.current = .shm →
      ((adaptPolicyDecide policy cfg evaluation).1.selected = .uds ↔
        shmAdvantage policy cfg evaluation < -cfg.marginUs)) := by
  rw [decide_compared compares observes.warm, ← compared_advantage policy evaluation weight]
  exact ⟨choose_switches_shm_iff _ margin, choose_switches_uds_iff _ margin⟩

/-- The margin argument: it holds as long as the evaluation on UDS is not charged more in
favour of SHM than the one on SHM. -/
theorem margin_absorbs_noise (compares : policy.measures = true)
    (weight : 0 ≤ cfg.latencyWeight) (switchCost : 0 ≤ cfg.switchCostUs) {eps : ℚ}
    (margin : 2 * eps < cfg.marginUs) {trueUds trueShm : ℚ} {onUds onShm : DecideInput}
    (seesUds : Observes policy cfg situation eps trueUds trueShm onUds)
    (fromUds : onUds.current = .uds)
    (seesShm : Observes policy cfg situation eps trueUds trueShm onShm)
    (fromShm : onShm.current = .shm)
    (charged : penaltyShift cfg (udsEstimate cfg onUds)
        (shmEstimate cfg onUds + notifyDelay cfg situation) ≤
      penaltyShift cfg (udsEstimate cfg onShm)
        (shmEstimate cfg onShm + notifyDelay cfg situation)) :
    ¬((adaptPolicyDecide policy cfg onUds).1.selected = .shm ∧
      (adaptPolicyDecide policy cfg onShm).1.selected = .uds) := by
  have noise : 0 ≤ eps := (abs_nonneg _).trans seesUds.uds
  have positive : 0 < cfg.marginUs := by linarith
  rintro ⟨toShm, toUds⟩
  have gain := ((observes_switches compares weight positive seesUds).1 fromUds).mp toShm
  have loss := ((observes_switches compares weight positive seesShm).2 fromShm).mp toUds
  simp only [shmAdvantage, same_extra seesUds.toAllElseEqual, same_notify seesUds.toAllElseEqual,
    fromUds, switchShift] at gain
  simp only [shmAdvantage, same_extra seesShm.toAllElseEqual, same_notify seesShm.toAllElseEqual,
    fromShm, switchShift] at loss
  have udsBelow := (abs_le.mp seesUds.uds).2
  have udsAbove := (abs_le.mp seesShm.uds).1
  have shmBelow := (abs_le.mp seesShm.shm).2
  have shmAbove := (abs_le.mp seesUds.shm).1
  linarith

def estimating (situation : DecideInput) (current : AdaptRoute) (costUds costShm : ℚ) :
    DecideInput :=
  { situation with
    current := current
    learn := some
      { clsMeanUs := fun _ => 0
        clsMeanB := fun _ => 0
        n := fun _ => 18446744073709551615
        fixedUs := fun i => if i.val < 2 then costUds else costShm - queueEstimate situation
        slopeUsPerB := fun _ => 0
        crossoverB := -1
        crossoverUpdates := 0 } }

theorem estimating_estimates (current : AdaptRoute) (costUds costShm : ℚ) :
    udsEstimate cfg (estimating situation current costUds costShm) = costUds ∧
      shmEstimate cfg (estimating situation current costUds costShm) = costShm := by
  have queue : queueEstimate (estimating situation current costUds costShm) =
      queueEstimate situation := rfl
  constructor
  · simp [udsEstimate, estimating, transportModel]
  · simp only [shmEstimate, queue]
    simp [estimating, transportModel]

theorem estimating_observes {eps trueUds trueShm costUds costShm : ℚ} (current : AdaptRoute)
    (uds : |costUds - trueUds| ≤ eps) (shm : |costShm - trueShm| ≤ eps) :
    Observes policy cfg situation eps trueUds trueShm
      (estimating situation current costUds costShm) := by
  have estimates := @estimating_estimates cfg situation current costUds costShm
  refine ⟨by constructor <;> rfl, ?_, ?_, ?_⟩
  · intro _
    have enough : ¬(18446744073709551615 : UInt64) < cfg.learnMinSamples.toUInt64 := by
      rw [UInt64.lt_iff_toNat_lt]
      have bound := UInt64.toNat_lt cfg.learnMinSamples.toUInt64
      have most : (18446744073709551615 : UInt64).toNat = 2 ^ 64 - 1 := by decide
      omega
    simp [coldStart, estimating, enough]
  · rw [estimates.1]
    exact uds
  · rw [estimates.2]
    exact shm

theorem charged_penalty (charged : ¬LatencyUncharged cfg) {latUds latShm : ℚ}
    (overShm : cfg.latencyBudgetUs < latShm)
    (overUds : cfg.latencyBudgetUs < latUds) :
    latencyPenalty cfg latUds latShm =
      cfg.latencyWeight * (max latUds latShm - cfg.latencyBudgetUs) := by
  simp only [LatencyUncharged, not_or, not_le] at charged
  have active : cfg.qos ≠ .throughput ∧ 0 < cfg.latencyBudgetUs := ⟨charged.1, charged.2.1⟩
  simp only [latencyPenalty, active, ne_eq, not_false_eq_true, and_self, if_true, overShm, overUds]
  congr 1
  split
  · rename_i larger
    rw [max_eq_left (by linarith)]
  · rename_i larger
    rw [max_eq_right (by linarith)]

/-- With any noise at all, two evaluations of equal predicted latency are charged on different
sides. -/
theorem charged_flips (compares : policy.measures = true)
    (weight : 0 ≤ cfg.latencyWeight) (switchCost : 0 ≤ cfg.switchCostUs) {eps : ℚ}
    (margin : 2 * eps < cfg.marginUs) (noise : 0 < eps) (charged : ¬LatencyUncharged cfg) :
    ¬NoiseImmune policy cfg situation eps := by
  have positive : 0 < cfg.marginUs := by linarith
  have weighs : 0 < cfg.latencyWeight := by
    have nonzero : cfg.latencyWeight ≠ 0 := fun zero => charged (Or.inr (Or.inr zero))
    exact lt_of_le_of_ne weight (Ne.symm nonzero)
  -- The common latency: far enough beyond the budget for the penalty to outweigh the rest.
  let bias := notifyDelay cfg situation - shmExtra policy cfg situation
  let overshoot := (|bias| + cfg.switchCostUs + cfg.marginUs + 1) / cfg.latencyWeight
  let latency := cfg.latencyBudgetUs + overshoot
  have product : cfg.latencyWeight * overshoot = |bias| + cfg.switchCostUs + cfg.marginUs + 1 :=
    mul_div_cancel₀ _ weighs.ne'
  have exceeds : 0 < overshoot := by
    have above := abs_nonneg bias
    exact div_pos (by linarith) weighs
  have biasAbove := le_abs_self bias
  have biasBelow := neg_abs_le bias
  let trueShm := latency - notifyDelay cfg situation
  let onUds := estimating situation .uds latency trueShm
  let onShm := estimating situation .shm latency (trueShm + eps)
  have seesUds : Observes policy cfg situation eps latency trueShm onUds :=
    estimating_observes .uds (by simp [noise.le]) (by simp [noise.le])
  have seesShm : Observes policy cfg situation eps latency trueShm onShm :=
    estimating_observes .shm (by simp [noise.le]) (by simp [abs_of_pos noise])
  have udsSide := @estimating_estimates cfg situation .uds latency trueShm
  have shmSide := @estimating_estimates cfg situation .shm latency (trueShm + eps)
  have udsLatency : trueShm + notifyDelay cfg situation = latency := sub_add_cancel _ _
  have shmLatency : trueShm + eps + notifyDelay cfg situation = latency + eps := by
    linarith
  intro immune
  apply immune latency trueShm onUds onShm seesUds rfl seesShm rfl
  constructor
  · apply ((observes_switches compares weight positive seesUds).1 rfl).mpr
    have shift : penaltyShift cfg latency latency = cfg.latencyWeight * overshoot := by
      rw [penaltyShift, if_neg (lt_irrefl latency),
        charged_penalty charged (by linarith) (by linarith), max_self]
      congr 1
      exact add_sub_cancel_left _ _
    rw [shmAdvantage, same_extra seesUds.toAllElseEqual, same_notify seesUds.toAllElseEqual,
      udsSide.1, udsSide.2, udsLatency, shift, product]
    have gain : latency - trueShm - shmExtra policy cfg situation = bias := by
      simp only [trueShm, bias]
      ring
    rw [gain, show switchShift cfg onUds.current = -cfg.switchCostUs from rfl]
    linarith
  · apply ((observes_switches compares weight positive seesShm).2 rfl).mpr
    have shift : penaltyShift cfg latency (latency + eps) =
        -(cfg.latencyWeight * overshoot + cfg.latencyWeight * eps) := by
      rw [penaltyShift, if_pos (by linarith), charged_penalty charged (by linarith) (by linarith),
        max_eq_right (by linarith)]
      simp only [latency]
      ring
    have extra : 0 < cfg.latencyWeight * eps := mul_pos weighs noise
    rw [shmAdvantage, same_extra seesShm.toAllElseEqual, same_notify seesShm.toAllElseEqual,
      shmSide.1, shmSide.2, shmLatency, shift, product]
    have gain : latency - (trueShm + eps) - shmExtra policy cfg situation = bias - eps := by
      simp only [trueShm, bias]
      ring
    rw [gain, show switchShift cfg onShm.current = cfg.switchCostUs from rfl]
    linarith

/-- The exact condition: there is no noise, or nothing can be charged for latency. -/
theorem noise_immune_iff (compares : policy.measures = true)
    (weight : 0 ≤ cfg.latencyWeight) (switchCost : 0 ≤ cfg.switchCostUs) {eps : ℚ}
    (margin : 2 * eps < cfg.marginUs) :
    NoiseImmune policy cfg situation eps ↔ eps ≤ 0 ∨ LatencyUncharged cfg := by
  constructor
  · intro immune
    by_contra neither
    obtain ⟨noise, charged⟩ := not_or.mp neither
    exact charged_flips compares weight switchCost margin (not_le.mp noise) charged immune
  · intro quiet trueUds trueShm onUds onShm seesUds fromUds seesShm fromShm
    apply margin_absorbs_noise compares weight switchCost margin seesUds fromUds seesShm fromShm
    rcases quiet with silent | uncharged
    · have exactUds : udsEstimate cfg onUds = udsEstimate cfg onShm := by
        have first := abs_le.mp (seesUds.uds.trans silent)
        have second := abs_le.mp (seesShm.uds.trans silent)
        linarith
      have exactShm : shmEstimate cfg onUds = shmEstimate cfg onShm := by
        have first := abs_le.mp (seesUds.shm.trans silent)
        have second := abs_le.mp (seesShm.shm.trans silent)
        linarith
      rw [exactUds, exactShm]
    · rw [uncharged_penalty uncharged, uncharged_penalty uncharged]

end Situations

def drainingSituation : DecideInput where
  rt := some { adaptRtctxInit 8 with lastDrainNs := 1000000 }
  learn := none
  health := none
  shmMapped := true
  ewmaSize := 1500
  current := .none
  payload := 1500
  nowNs := 2000000
  waitClock := 2000000

def budgetedCfg : AdaptCostCfg := { adaptCostCfgDefaults with latencyBudgetUs := 50 }

/-- Without a budget the default margin of five microseconds absorbs two of noise. -/
theorem noise_immune_default :
    NoiseImmune .costAware adaptCostCfgDefaults drainingSituation 2 := by
  have uncharged : LatencyUncharged adaptCostCfgDefaults := Or.inr (Or.inl (by decide))
  exact (noise_immune_iff rfl (by decide) (by decide) (by decide +kernel)).mpr (Or.inr uncharged)

/-- UDS looks as fast as SHM with its notification, a hundred microseconds, or faster by
one: the penalty of fifty makes the first evaluation leave UDS and the second return to it. -/
theorem latency_penalty_flips :
    ∃ onUds onShm : DecideInput,
      Observes .costAware budgetedCfg drainingSituation 1 100 95 onUds ∧
      onUds.current = .uds ∧
      (adaptPolicyDecide .costAware budgetedCfg onUds).1.selected = .shm ∧
      Observes .costAware budgetedCfg drainingSituation 1 100 95 onShm ∧
      onShm.current = .shm ∧
      (adaptPolicyDecide .costAware budgetedCfg onShm).1.selected = .uds ∧
      2 * 1 < budgetedCfg.marginUs := by
  refine ⟨estimating drainingSituation .uds 100 95, estimating drainingSituation .shm 100 96,
    ?_, rfl, by decide +kernel, ?_, rfl, by decide +kernel, by decide +kernel⟩
  · exact estimating_observes .uds (by decide +kernel) (by decide +kernel)
  · exact estimating_observes .shm (by decide +kernel) (by decide +kernel)

end AdaptIpc.Policy

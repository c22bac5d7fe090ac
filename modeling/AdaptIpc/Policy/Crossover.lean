import AdaptIpc.Policy.Learning

/-!
# The learned crossover

The crossover moves from clamped target to clamped target by the smoothing
factor, and a negative value means that nothing has been learned. With a factor
in the unit interval it stays in its clamp; any other factor, which the
environment may set, takes it out after two targets.
-/

namespace AdaptIpc.Policy

open AdaptIpc.Library.Smoothing AdaptIpc.Library.Transition

set_option autoImplicit false

def clampCrossover (cfg : AdaptCostCfg) (s : ℚ) : ℚ :=
  let s := if s < cfg.crossoverMinB then cfg.crossoverMinB else s
  if cfg.crossoverMaxB < s then cfg.crossoverMaxB else s

/-- The size at which the two learned lines meet. -/
def breakEven (l : AdaptLearn) : ℚ :=
  (l.fixedUs 2 - l.fixedUs 0) / (l.slopeUsPerB 0 - l.slopeUsPerB 2)

/-- All four classes have been observed often enough, and UDS is dearer by the byte. -/
def Comparable (cfg : AdaptCostCfg) (l : AdaptLearn) : Prop :=
  (∀ idx, cfg.learnMinSamples.toUInt64 ≤ l.n idx) ∧
    1 / 1000000000 < l.slopeUsPerB 0 - l.slopeUsPerB 2

theorem crossover_updates {cfg : AdaptCostCfg} {l : AdaptLearn} (comparable : Comparable cfg l) :
    adaptLearnCrossover l cfg =
      { l with
        crossoverB :=
          if l.crossoverB < 0 then clampCrossover cfg (breakEven l)
          else l.crossoverB + cfg.learnAlpha * (clampCrossover cfg (breakEven l) - l.crossoverB)
        crossoverUpdates := l.crossoverUpdates + 1 } := by
  have counted : ∀ idx, ¬l.n idx < cfg.learnMinSamples.toUInt64 := fun idx =>
    UInt64.not_lt.mpr (comparable.1 idx)
  simp only [adaptLearnCrossover, counted, or_self, if_false, not_le.mpr comparable.2]
  rfl

theorem crossover_moves (cfg : AdaptCostCfg) (l : AdaptLearn) :
    adaptLearnCrossover l cfg = l ∨ Comparable cfg l := by
  simp only [adaptLearnCrossover]
  split
  · exact Or.inl rfl
  · next counted =>
    split
    · exact Or.inl rfl
    · next cheaper =>
      simp only [not_or, UInt64.not_lt] at counted
      refine Or.inr ⟨?_, not_le.mp cheaper⟩
      obtain ⟨first, third, second, fourth⟩ := counted
      intro idx
      match idx with
      | 0 => exact first
      | 1 => exact second
      | 2 => exact third
      | 3 => exact fourth

theorem Observed.crossover {cfg : AdaptCostCfg} {l next : AdaptLearn}
    (observed : Observed cfg l next) : next.crossoverB = l.crossoverB := by
  cases observed <;> rfl

def LearnedCrossover (l : AdaptLearn) : Prop := 0 ≤ l.crossoverB

/-- The crossover is unlearned or in its clamp, and once learned it stays learned. -/
structure CrossoverClamped (cfg : AdaptCostCfg) : Prop where
  within : ∀ l, (learnMachine cfg).Reachable l → l.crossoverB = -1 ∨
    cfg.crossoverMinB ≤ l.crossoverB ∧ l.crossoverB ≤ cfg.crossoverMaxB
  stays : ∀ l later, (learnMachine cfg).Reachable l →
    (learnMachine cfg).ReachableFrom l later → LearnedCrossover l → LearnedCrossover later

section Clamp

variable {cfg : AdaptCostCfg}

theorem clamp_within (ordered : cfg.crossoverMinB ≤ cfg.crossoverMaxB) (s : ℚ) :
    cfg.crossoverMinB ≤ clampCrossover cfg s ∧ clampCrossover cfg s ≤ cfg.crossoverMaxB := by
  simp only [clampCrossover]
  split_ifs <;> constructor <;> linarith

/-- In the clamp, or unlearned. -/
def Within (cfg : AdaptCostCfg) (l : AdaptLearn) : Prop :=
  l.crossoverB = -1 ∨ cfg.crossoverMinB ≤ l.crossoverB ∧ l.crossoverB ≤ cfg.crossoverMaxB

theorem crossover_within (ordered : cfg.crossoverMinB ≤ cfg.crossoverMaxB)
    (nonneg : 0 ≤ cfg.crossoverMinB) (positive : 0 ≤ cfg.learnAlpha) (proper : cfg.learnAlpha ≤ 1)
    {l : AdaptLearn} (within : Within cfg l) :
    Within cfg (adaptLearnCrossover l cfg) ∧
      (LearnedCrossover l → LearnedCrossover (adaptLearnCrossover l cfg)) := by
  rcases crossover_moves cfg l with same | comparable
  · rw [same]
    exact ⟨within, id⟩
  · obtain ⟨low, high⟩ := clamp_within ordered (breakEven l)
    have moved : cfg.crossoverMinB ≤ (adaptLearnCrossover l cfg).crossoverB ∧
        (adaptLearnCrossover l cfg).crossoverB ≤ cfg.crossoverMaxB := by
      rw [crossover_updates comparable]
      dsimp only
      split
      · exact ⟨low, high⟩
      · next learned =>
        obtain ⟨above, below⟩ := within.resolve_left fun marker => learned (by rw [marker]; norm_num)
        have step : l.crossoverB +
            cfg.learnAlpha * (clampCrossover cfg (breakEven l) - l.crossoverB) =
            smooth cfg.learnAlpha (clampCrossover cfg (breakEven l)) l.crossoverB := by
          simp only [smooth]
          ring
        rw [step]
        exact ⟨le_smooth positive proper low above, smooth_le positive proper high below⟩
    exact ⟨Or.inr moved, fun _ => nonneg.trans moved.1⟩

theorem learn_step_within (ordered : cfg.crossoverMinB ≤ cfg.crossoverMaxB)
    (nonneg : 0 ≤ cfg.crossoverMinB) (positive : 0 ≤ cfg.learnAlpha) (proper : cfg.learnAlpha ≤ 1)
    {l : AdaptLearn} (within : Within cfg l) (action : LearnAction) :
    Within cfg (learnStep cfg l action) ∧
      (LearnedCrossover l → LearnedCrossover (learnStep cfg l action)) := by
  cases action with
  | observe transport size costUs =>
      have same := (learn_observed l cfg transport size costUs).crossover
      simp only [learnStep, Within, LearnedCrossover, same]
      exact ⟨within, id⟩
  | crossover => exact crossover_within ordered nonneg positive proper within

theorem proper_factor_clamps (ordered : cfg.crossoverMinB ≤ cfg.crossoverMaxB)
    (nonneg : 0 ≤ cfg.crossoverMinB) (positive : 0 ≤ cfg.learnAlpha)
    (proper : cfg.learnAlpha ≤ 1) : CrossoverClamped cfg := by
  have within : ∀ l, (learnMachine cfg).Reachable l → Within cfg l := by
    intro l reached
    apply Machine.invariant_of_reachable (learnMachine cfg) (Within cfg) _ _ reached
    · rintro start rfl
      exact Or.inl rfl
    · intro before action after held stepped
      cases stepped
      exact (learn_step_within ordered nonneg positive proper held action).1
  refine ⟨within, ?_⟩
  intro l later reached path learned
  induction path with
  | refl => exact learned
  | tail before stepped ih =>
      obtain ⟨action, stepped⟩ := stepped
      cases stepped
      exact (learn_step_within ordered nonneg positive proper
        (within _ (Machine.reachable_path reached before)) action).2 ih

end Clamp

structure FedBy (cfg : AdaptCostCfg) (idx : Fin 4) (size : UInt64) (count : ℕ)
    (l next : AdaptLearn) : Prop where
  path : (learnMachine cfg).ReachableFrom l next
  free : ∀ i, next.clsMeanUs i = 0
  fixedUs : next.fixedUs = l.fixedUs
  slopeUsPerB : next.slopeUsPerB = l.slopeUsPerB
  crossoverB : next.crossoverB = l.crossoverB
  mean : next.clsMeanB idx =
    smoothed cfg.learnAlpha (l.clsMeanB idx) (List.replicate count (size.toNat : ℚ))
  counted : min ((l.n idx).toNat + count) (2 ^ 64 - 1) ≤ (next.n idx).toNat
  others : ∀ i, i ≠ idx → next.clsMeanB i = l.clsMeanB i ∧ next.n i = l.n i

section Feeding

variable {cfg : AdaptCostCfg} {l : AdaptLearn} {idx : Fin 4} {transport : AdaptRoute}
  {size : UInt64}

theorem free_observation (free : ∀ i, l.clsMeanUs i = 0)
    (taken : observedClass transport size = some idx) :
    adaptLearnObserve l cfg transport size 0 = meanClass l cfg idx size 0 ∧
      ∀ i, (meanClass l cfg idx size 0).clsMeanUs i = 0 := by
  have still : ∀ i, (meanClass l cfg idx size 0).clsMeanUs i = 0 := by
    intro i
    by_cases here : i = idx
    · subst here
      simp [meanClass, smooth, free]
    · simp [meanClass, here, free]
  have flat : ¬Credible (fitFixed (meanClass l cfg idx size 0) idx)
      (fitSlope (meanClass l cfg idx size 0) idx) := by
    have slope : fitSlope (meanClass l cfg idx size 0) idx = 0 := by
      simp only [fitSlope, still, sub_self, zero_div]
    intro credible
    have steep := credible.1
    rw [slope] at steep
    exact absurd steep (by norm_num)
  refine ⟨?_, still⟩
  rw [learn_observe_class, if_neg (lt_irrefl 0), taken]
  dsimp only
  rw [observe_class_mean, refit_class_sets, if_neg fun held => flat held.2]

theorem fed (taken : observedClass transport size = some idx) (count : ℕ) :
    ∀ l : AdaptLearn, (∀ i, l.clsMeanUs i = 0) → ∃ next, FedBy cfg idx size count l next := by
  induction count with
  | zero =>
      intro l free
      exact ⟨l, .refl, free, rfl, rfl, rfl, rfl, Nat.min_le_left _ _, fun _ _ => ⟨rfl, rfl⟩⟩
  | succ count ih =>
      intro l free
      obtain ⟨next, feeds⟩ := ih l free
      obtain ⟨observed, still⟩ := @free_observation cfg next idx transport size feeds.free taken
      refine ⟨meanClass next cfg idx size 0, ?_, still, feeds.fixedUs, feeds.slopeUsPerB,
        feeds.crossoverB, ?_, ?_, ?_⟩
      · exact feeds.path.tail ⟨.observe transport size 0, congrArg some observed⟩
      · rw [List.replicate_succ, smoothed, ← feeds.mean]
        simp [meanClass]
      · have before := feeds.counted
        have word := (next.n idx).toNat_lt
        simp only [meanClass, Function.update_self]
        split
        · next room =>
          rw [UInt64.lt_iff_toNat_lt] at room
          rw [UInt64.toNat_add, show (1 : UInt64).toNat = 1 from rfl]
          have limit : (18446744073709551615 : UInt64).toNat = 18446744073709551615 := rfl
          omega
        · next full =>
          rw [UInt64.lt_iff_toNat_lt] at full
          have limit : (18446744073709551615 : UInt64).toNat = 18446744073709551615 := rfl
          omega
      · intro i other
        have kept := feeds.others i other
        simp only [meanClass, Function.update_of_ne other]
        exact kept

end Feeding

/-- Outside the unit interval some mean of equal sizes overshoots to the side of the
factor. -/
theorem overshooting_mean {a : ℚ} (improper : ¬(0 ≤ a ∧ a ≤ 1)) (least : ℕ) :
    ∃ count, least ≤ count ∧ 0 < startUp a (count + 1) / a ∧ 1 ≤ |startUp a (count + 1)| := by
  by_cases negative : a < 0
  · have growing : 1 < 1 - a := by linarith
    obtain ⟨enough, large⟩ := pow_unbounded_of_one_lt 2 growing
    refine ⟨max enough least, le_max_right _ _, ?_⟩
    have more : 2 < (1 - a) ^ (max enough least + 1) := large.trans_le
      (pow_le_pow_right₀ growing.le ((le_max_left _ _).trans (Nat.le_succ _)))
    have below : startUp a (max enough least + 1) ≤ -1 := by
      simp only [startUp]
      linarith
    refine ⟨div_pos_of_neg_of_neg (by linarith) negative, ?_⟩
    rw [abs_of_nonpos (by linarith)]
    linarith
  · have large : 1 < a := by
      by_contra small
      exact improper ⟨not_lt.mp negative, not_lt.mp small⟩
    refine ⟨2 * least, by omega, ?_⟩
    have alternates : (1 - a) ^ (2 * least + 1) ≤ 0 :=
      (Odd.pow_neg ⟨least, rfl⟩ (by linarith)).le
    have above : 1 ≤ startUp a (2 * least + 1) := by
      simp only [startUp]
      linarith
    refine ⟨div_pos (by linarith) (by linarith), ?_⟩
    rw [abs_of_nonneg (by linarith)]
    exact above

/-- A configuration that `adapt_cost_cfg_defaults` and `adapt_cost_cfg_from_env` produce. -/
def envCostCfg (env : CostEnv) : AdaptCostCfg := adaptCostCfgFromEnv adaptCostCfgDefaults env

/-- Every class has enough observations, all without a cost, and those of the large UDS
class are of one size; the lines are still the configured ones. -/
structure Primed (env : CostEnv) (count : ℕ) (l : AdaptLearn) : Prop where
  reached : (learnMachine (envCostCfg env)).Reachable l
  free : ∀ i, l.clsMeanUs i = 0
  fixedUs : l.fixedUs = (adaptLearnInit (envCostCfg env)).fixedUs
  slopeUsPerB : l.slopeUsPerB = (adaptLearnInit (envCostCfg env)).slopeUsPerB
  counted : ∀ i, (envCostCfg env).learnMinSamples.toUInt64 ≤ l.n i
  small : l.clsMeanB 0 = 0
  large : l.clsMeanB 1 =
    smoothed (envCostCfg env).learnAlpha 0 (List.replicate count 1025)

theorem primed_run (env : CostEnv) {count : ℕ}
    (enough : (envCostCfg env).learnMinSamples.toNat ≤ count) :
    ∃ l, Primed env count l ∧ l.crossoverB = -1 := by
  have word := (envCostCfg env).learnMinSamples.toNat_lt
  have target : (envCostCfg env).learnMinSamples.toUInt64.toNat =
      (envCostCfg env).learnMinSamples.toNat := UInt32.toNat_toUInt64 _
  have start : ∀ i, (adaptLearnInit (envCostCfg env)).clsMeanUs i = 0 := fun _ => rfl
  obtain ⟨first, feedsFirst⟩ := @fed (envCostCfg env) 0 .uds 0 rfl
    (envCostCfg env).learnMinSamples.toNat _ start
  obtain ⟨second, feedsSecond⟩ := @fed (envCostCfg env) 2 .shm 0 rfl
    (envCostCfg env).learnMinSamples.toNat first feedsFirst.free
  obtain ⟨third, feedsThird⟩ := @fed (envCostCfg env) 3 .shm 1025 rfl
    (envCostCfg env).learnMinSamples.toNat second feedsSecond.free
  obtain ⟨l, feeds⟩ := @fed (envCostCfg env) 1 .uds 1025 rfl count third feedsThird.free
  have path := ((feedsFirst.path.trans feedsSecond.path).trans feedsThird.path).trans feeds.path
  refine ⟨l, ⟨⟨_, rfl, path⟩, feeds.free, ?_, ?_, ?_, ?_, ?_⟩, ?_⟩
  · rw [feeds.fixedUs, feedsThird.fixedUs, feedsSecond.fixedUs, feedsFirst.fixedUs]
  · rw [feeds.slopeUsPerB, feedsThird.slopeUsPerB, feedsSecond.slopeUsPerB, feedsFirst.slopeUsPerB]
  · intro i
    rw [UInt64.le_iff_toNat_le, target]
    match i with
    | 0 =>
        have counted := feedsFirst.counted
        rw [(feeds.others 0 (by decide)).2, (feedsThird.others 0 (by decide)).2,
          (feedsSecond.others 0 (by decide)).2]
        omega
    | 1 =>
        have counted := feeds.counted
        omega
    | 2 =>
        have counted := feedsSecond.counted
        rw [(feeds.others 2 (by decide)).2, (feedsThird.others 2 (by decide)).2]
        omega
    | 3 =>
        have counted := feedsThird.counted
        rw [(feeds.others 3 (by decide)).2]
        omega
  · rw [(feeds.others 0 (by decide)).1, (feedsThird.others 0 (by decide)).1,
      (feedsSecond.others 0 (by decide)).1, feedsFirst.mean, smoothed_constant]
    simp [adaptLearnInit]
  · rw [feeds.mean, (feedsThird.others 1 (by decide)).1, (feedsSecond.others 1 (by decide)).1,
      (feedsFirst.others 1 (by decide)).1]
    rfl
  · rw [feeds.crossoverB, feedsThird.crossoverB, feedsSecond.crossoverB, feedsFirst.crossoverB]
    rfl

theorem first_target {env : CostEnv} {count : ℕ} {l : AdaptLearn} (primed : Primed env count l)
    (unlearned : l.crossoverB = -1) :
    Primed env count (adaptLearnCrossover l (envCostCfg env)) ∧
      (adaptLearnCrossover l (envCostCfg env)).crossoverB = 512 := by
  have fixed : l.fixedUs 2 - l.fixedUs 0 = 3 / 10 - 3 := by
    rw [primed.fixedUs]
    rfl
  have slope : l.slopeUsPerB 0 - l.slopeUsPerB 2 = 15 / 10000 - 4 / 10000 := by
    rw [primed.slopeUsPerB]
    rfl
  have lower : clampCrossover (envCostCfg env) (breakEven l) = 512 := by
    rw [breakEven, fixed, slope]
    change clampCrossover adaptCostCfgDefaults _ = 512
    decide +kernel
  have comparable : Comparable (envCostCfg env) l := by
    refine ⟨primed.counted, ?_⟩
    rw [slope]
    norm_num
  have marked : l.crossoverB < 0 := by
    rw [unlearned]
    norm_num
  have reached := Machine.reachable_step primed.reached
    (show (learnMachine (envCostCfg env)).step l .crossover = some _ from rfl)
  simp only [learnStep] at reached
  rw [crossover_updates comparable, if_pos marked, lower] at reached ⊢
  exact ⟨⟨reached, primed.free, primed.fixedUs, primed.slopeUsPerB, primed.counted, primed.small,
    primed.large⟩, rfl⟩

def barelySteeper : ℚ := 4 / 10000 + 3 / 10 / 1048576

/-- One observation with a cost fits the line through the origin with that slope. -/
theorem fitted_run {env : CostEnv} {count : ℕ} {l : AdaptLearn} (primed : Primed env count l)
    (ratio : 0 < startUp (envCostCfg env).learnAlpha (count + 1) / (envCostCfg env).learnAlpha)
    (apart : 1 ≤ |startUp (envCostCfg env).learnAlpha (count + 1)|) :
    ∃ costUs, adaptLearnObserve l (envCostCfg env) .uds 1025 costUs =
      setModel (meanClass l (envCostCfg env) 1 1025 costUs) 1 0 barelySteeper := by
  let a := (envCostCfg env).learnAlpha
  let mean := 1025 * startUp a (count + 1)
  let costUs := barelySteeper * (1025 * (startUp a (count + 1) / a))
  have nonzero : a ≠ 0 := by
    intro zero
    rw [show (envCostCfg env).learnAlpha = 0 from zero, div_zero] at ratio
    exact lt_irrefl 0 ratio
  have steep : 1 / 1000000 < barelySteeper := by norm_num [barelySteeper]
  have cost : 0 ≤ costUs :=
    mul_nonneg (by norm_num [barelySteeper]) (mul_nonneg (by norm_num) ratio.le)
  let observed := meanClass l (envCostCfg env) 1 1025 costUs
  have meanUs : observed.clsMeanUs 1 = barelySteeper * mean := by
    simp only [observed, meanClass, Function.update_self, primed.free, smooth, mul_zero, add_zero]
    change a * costUs = barelySteeper * mean
    simp only [costUs, mean]
    field_simp
  have meanB : observed.clsMeanB 1 = mean := by
    have again : smooth a 1025 (smoothed a 0 (List.replicate count 1025)) =
        smoothed a 0 (List.replicate (count + 1) 1025) := by
      rw [List.replicate_succ, smoothed]
    simp only [observed, meanClass, Function.update_self, primed.large]
    refine again.trans ?_
    rw [smoothed_constant]
    simp only [mean, startUp]
    ring
  have otherUs : observed.clsMeanUs 0 = 0 := by simp [observed, meanClass, primed.free]
  have otherB : observed.clsMeanB 0 = 0 := by simp [observed, meanClass, primed.small]
  have far : 128 < |mean| := by
    have grown : (1025 : ℚ) * 1 ≤ 1025 * |startUp a (count + 1)| :=
      mul_le_mul_of_nonneg_left apart (by norm_num)
    rw [abs_mul, abs_of_pos (by norm_num : (0 : ℚ) < 1025)]
    linarith
  have filled : mean ≠ 0 := by
    intro zero
    rw [zero, abs_zero] at far
    exact absurd far (by norm_num)
  have slope : fitSlope observed 1 = barelySteeper := by
    rw [fitSlope, show otherClass 1 = 0 from rfl, meanUs, meanB, otherUs, otherB, sub_zero, sub_zero,
      mul_div_assoc, div_self filled, mul_one]
  have fixed : fitFixed observed 1 = 0 := by
    rw [fitFixed, slope, meanUs, meanB, sub_self]
  have grows : (envCostCfg env).learnMinSamples.toUInt64 ≤ observed.n 1 :=
    UInt64.le_trans (primed.counted 1) (mean_class_counts l (envCostCfg env) 1 1025 costUs 1)
  have fits : Fittable (envCostCfg env) observed 1 := by
    refine ⟨primed.counted 0, grows, ?_⟩
    rw [show otherClass 1 = 0 from rfl, meanB, otherB, sub_zero]
    exact far
  refine ⟨costUs, ?_⟩
  rw [learn_observe_class, if_neg (not_lt.mpr cost)]
  change observeClass l (envCostCfg env) 1 1025 costUs = _
  rw [observe_class_mean, refit_class_sets, if_pos, slope, fixed]
  rw [slope, fixed]
  exact ⟨fits, steep, le_refl 0⟩

/-- The second target is the upper end of the clamp. -/
theorem second_target {env : CostEnv} {count : ℕ} {l : AdaptLearn} (primed : Primed env count l)
    (lower : l.crossoverB = 512)
    (ratio : 0 < startUp (envCostCfg env).learnAlpha (count + 1) / (envCostCfg env).learnAlpha)
    (apart : 1 ≤ |startUp (envCostCfg env).learnAlpha (count + 1)|) :
    ∃ later, (learnMachine (envCostCfg env)).ReachableFrom l later ∧
      later.crossoverB = 512 + (envCostCfg env).learnAlpha * (1048576 - 512) := by
  obtain ⟨costUs, fitted⟩ := fitted_run primed ratio apart
  let cfg := envCostCfg env
  let next := adaptLearnObserve l cfg .uds 1025 costUs
  have fixed : next.fixedUs 2 - next.fixedUs 0 = 3 / 10 - 0 := by
    rw [show next = _ from fitted]
    change l.fixedUs 2 - 0 = _
    rw [primed.fixedUs]
    rfl
  have slope : next.slopeUsPerB 0 - next.slopeUsPerB 2 = barelySteeper - 4 / 10000 := by
    rw [show next = _ from fitted]
    change barelySteeper - l.slopeUsPerB 2 = _
    rw [primed.slopeUsPerB]
    rfl
  have upper : clampCrossover cfg (breakEven next) = 1048576 := by
    rw [breakEven, fixed, slope]
    change clampCrossover adaptCostCfgDefaults _ = 1048576
    decide +kernel
  have comparable : Comparable cfg next := by
    refine ⟨?_, ?_⟩
    · intro idx
      rw [show next = _ from fitted]
      exact UInt64.le_trans (primed.counted idx) (mean_class_counts l cfg 1 1025 costUs idx)
    · rw [slope]
      norm_num [barelySteeper]
  have same : next.crossoverB = 512 := (learn_observed l cfg .uds 1025 costUs).crossover.trans lower
  have learned : ¬next.crossoverB < 0 := by
    rw [same]
    norm_num
  refine ⟨adaptLearnCrossover next cfg, ?_, ?_⟩
  · exact (Relation.ReflTransGen.single ⟨.observe .uds 1025 costUs, rfl⟩).tail ⟨.crossover, rfl⟩
  · rw [crossover_updates comparable, if_neg learned, upper]
    dsimp only
    rw [same]

/-- The law holds for exactly the factors in the unit interval. -/
theorem crossover_clamped_iff (env : CostEnv) :
    CrossoverClamped (envCostCfg env) ↔
      0 ≤ (envCostCfg env).learnAlpha ∧ (envCostCfg env).learnAlpha ≤ 1 := by
  constructor
  · intro law
    by_contra improper
    obtain ⟨count, enough, ratio, apart⟩ := overshooting_mean improper
      (envCostCfg env).learnMinSamples.toNat
    obtain ⟨start, unprimed, unlearned⟩ := primed_run env enough
    obtain ⟨primed, lower⟩ := first_target unprimed unlearned
    obtain ⟨later, path, upper⟩ := second_target primed lower ratio apart
    have learned : LearnedCrossover (adaptLearnCrossover start (envCostCfg env)) := by
      rw [LearnedCrossover, lower]
      norm_num
    have still : 0 ≤ later.crossoverB := law.stays _ later primed.reached path learned
    have inside : (512 : ℚ) ≤ later.crossoverB ∧ later.crossoverB ≤ 1048576 := by
      refine (law.within later (Machine.reachable_path primed.reached path)).resolve_left ?_
      intro forgotten
      rw [forgotten] at still
      exact absurd still (by norm_num)
    rw [upper] at inside
    exact improper ⟨by linarith [inside.1], by linarith [inside.2]⟩
  · rintro ⟨positive, proper⟩
    exact proper_factor_clamps (show (512 : ℚ) ≤ 1048576 by norm_num)
      (show (0 : ℚ) ≤ 512 by norm_num) positive proper

/-- `ADAPTIPC_LEARN_ALPHA=2` and `ADAPTIPC_MIN_SAMPLES=0`. -/
def doublingEnv : CostEnv where
  switchCostUs := none
  marginUs := none
  setupCostUs := none
  notifyFloorUs := none
  latencyBudgetUs := none
  minSamples := some 0
  learnAlpha := some 2

def doublingRun : List LearnAction :=
  [.crossover, .observe .uds 1025 (1025 * barelySteeper), .crossover]

theorem crossover_leaves_clamp : ¬CrossoverClamped (envCostCfg doublingEnv) := by
  intro law
  let final := doublingRun.foldl (learnStep (envCostCfg doublingEnv))
    (adaptLearnInit (envCostCfg doublingEnv))
  have reached : (learnMachine (envCostCfg doublingEnv)).Reachable final :=
    Machine.reachable_run _ rfl (show (learnMachine (envCostCfg doublingEnv)).run
      (adaptLearnInit (envCostCfg doublingEnv)) doublingRun = some final from rfl)
  have outside : final.crossoverB = 512 + 2 * (1048576 - 512) := by decide +kernel
  have learned : final.crossoverB ≠ -1 := by
    rw [outside]
    norm_num
  have inside : final.crossoverB ≤ 1048576 := ((law.within final reached).resolve_left learned).2
  rw [outside] at inside
  exact absurd inside (by norm_num)

end AdaptIpc.Policy

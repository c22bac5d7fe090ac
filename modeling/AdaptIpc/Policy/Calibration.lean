import AdaptIpc.Policy.Crossover

/-!
# Calibration against a linear truth

The class means start at zero and each has taken up only a part of the constant
term, which depends on the number of its observations. The line through them is
therefore never the true one once there is a constant term: the fixed cost it
reads is too small, and its slope is off as soon as the two classes were
observed unequally often.
-/

namespace AdaptIpc.Policy

open AdaptIpc.Library.Smoothing

set_option autoImplicit false

structure Line where
  fixedUs : ℚ
  slopeUsPerB : ℚ

def HasLine (l : AdaptLearn) (transport : AdaptRoute) (line : Line) : Prop :=
  ∀ i, baseClass i = transportBase transport →
    l.fixedUs i = line.fixedUs ∧ l.slopeUsPerB i = line.slopeUsPerB

def SameLine (l next : AdaptLearn) (transport : AdaptRoute) : Prop :=
  ∀ i, baseClass i = transportBase transport →
    next.fixedUs i = l.fixedUs i ∧ next.slopeUsPerB i = l.slopeUsPerB i

theorem SameLine.line {l next : AdaptLearn} {transport : AdaptRoute} {line : Line}
    (same : SameLine l next transport) : HasLine next transport line ↔ HasLine l transport line := by
  constructor
  · intro has i inside
    rw [← (same i inside).1, ← (same i inside).2]
    exact has i inside
  · intro has i inside
    rw [(same i inside).1, (same i inside).2]
    exact has i inside

theorem base_transport (transport : AdaptRoute) :
    baseClass (transportBase transport) = transportBase transport := by
  cases transport <;> rfl

theorem HasLine.unique {l : AdaptLearn} {transport : AdaptRoute} {first second : Line}
    (one : HasLine l transport first) (other : HasLine l transport second) : first = second := by
  obtain ⟨fixed, slope⟩ := one _ (base_transport transport)
  obtain ⟨fixed', slope'⟩ := other _ (base_transport transport)
  cases first
  cases second
  simp only [Line.mk.injEq]
  exact ⟨fixed.symm.trans fixed', slope.symm.trans slope'⟩

def fittedLine (l : AdaptLearn) (transport : AdaptRoute) : Line where
  fixedUs := fitFixed l (transportBase transport)
  slopeUsPerB := fitSlope l (transportBase transport)

theorem observed_class_base {transport : AdaptRoute} {size : UInt64} {idx : Fin 4}
    (taken : observedClass transport size = some idx) :
    transport ≠ .none ∧ baseClass idx = transportBase transport := by
  cases transport with
  | none => cases taken
  | uds =>
      cases taken
      exact ⟨by decide, by split <;> rfl⟩
  | shm =>
      cases taken
      exact ⟨by decide, by split <;> rfl⟩

theorem transport_base_injective {first second : AdaptRoute} (one : first ≠ .none)
    (other : second ≠ .none) (same : transportBase first = transportBase second) :
    first = second := by
  revert first second
  intro first second
  cases first <;> cases second <;> simp [transportBase]

theorem fit_slope_other (l : AdaptLearn) (idx : Fin 4) :
    fitSlope l (otherClass idx) = fitSlope l idx := by
  simp only [fitSlope, other_other]
  rw [← neg_sub (l.clsMeanUs idx), ← neg_sub (l.clsMeanB idx), neg_div_neg_eq]

theorem fit_fixed_other {l : AdaptLearn} {idx : Fin 4}
    (apart : l.clsMeanB idx - l.clsMeanB (otherClass idx) ≠ 0) :
    fitFixed l (otherClass idx) = fitFixed l idx := by
  have rise : fitSlope l idx * (l.clsMeanB idx - l.clsMeanB (otherClass idx)) =
      l.clsMeanUs idx - l.clsMeanUs (otherClass idx) := div_mul_cancel₀ _ apart
  simp only [fitFixed, fit_slope_other]
  linarith

theorem Fittable.apart {cfg : AdaptCostCfg} {l : AdaptLearn} {idx : Fin 4}
    (fits : Fittable cfg l idx) : l.clsMeanB idx - l.clsMeanB (otherClass idx) ≠ 0 := by
  intro zero
  have far := fits.2.2
  rw [zero, abs_zero] at far
  exact absurd far (by norm_num)

theorem Fittable.other {cfg : AdaptCostCfg} {l : AdaptLearn} {idx : Fin 4}
    (fits : Fittable cfg l idx) : Fittable cfg l (otherClass idx) := by
  refine ⟨?_, ?_, ?_⟩
  · rw [base_other]
    exact fits.1
  · rw [base_other]
    exact fits.2.1
  · rw [other_other, abs_sub_comm]
    exact fits.2.2

theorem fittable_base (cfg : AdaptCostCfg) (l : AdaptLearn) (idx : Fin 4) :
    Fittable cfg l idx ↔ Fittable cfg l (baseClass idx) := by
  rcases class_cases idx with base | other
  · rw [← base]
  · have mate : otherClass idx = baseClass idx := by
      conv_lhs => rw [other]
      exact other_other _
    constructor
    · intro fits
      rw [← mate]
      exact fits.other
    · intro fits
      rw [← mate] at fits
      have back := fits.other
      rwa [other_other] at back

theorem fit_base {cfg : AdaptCostCfg} {l : AdaptLearn} {idx : Fin 4} (fits : Fittable cfg l idx) :
    fitFixed l idx = fitFixed l (baseClass idx) ∧ fitSlope l idx = fitSlope l (baseClass idx) := by
  rcases class_cases idx with base | other
  · rw [← base]
    exact ⟨rfl, rfl⟩
  · have mate : otherClass idx = baseClass idx := by
      conv_lhs => rw [other]
      exact other_other _
    rw [← mate]
    exact ⟨(fit_fixed_other fits.apart).symm, (fit_slope_other l idx).symm⟩

theorem refit_reads (l : AdaptLearn) (cfg : AdaptCostCfg) (idx : Fin 4) :
    (refitClass l cfg idx).clsMeanUs = l.clsMeanUs ∧ (refitClass l cfg idx).clsMeanB = l.clsMeanB ∧
      (refitClass l cfg idx).n = l.n := by
  rw [refit_class_sets]
  split <;> exact ⟨rfl, rfl, rfl⟩

theorem fittable_refit (l : AdaptLearn) (cfg : AdaptCostCfg) (idx i : Fin 4) :
    Fittable cfg (refitClass l cfg idx) i ↔ Fittable cfg l i := by
  obtain ⟨meanUs, meanB, counts⟩ := refit_reads l cfg idx
  simp only [Fittable, meanB, counts]

theorem fit_refit (l : AdaptLearn) (cfg : AdaptCostCfg) (idx i : Fin 4) :
    fitFixed (refitClass l cfg idx) i = fitFixed l i ∧
      fitSlope (refitClass l cfg idx) i = fitSlope l i := by
  obtain ⟨meanUs, meanB, counts⟩ := refit_reads l cfg idx
  simp only [fitFixed, fitSlope, meanUs, meanB, and_self]

inductive LineStep (cfg : AdaptCostCfg) (transport : AdaptRoute) (l next : AdaptLearn)
    (own : Prop) : Prop where
  | kept (same : SameLine l next transport)
      (refused : own → Fittable cfg next (transportBase transport) →
        ¬Credible (fittedLine next transport).fixedUs (fittedLine next transport).slopeUsPerB)
  | fitted (mine : own) (fits : Fittable cfg next (transportBase transport))
      (credible : Credible (fittedLine next transport).fixedUs
        (fittedLine next transport).slopeUsPerB)
      (line : HasLine next transport (fittedLine next transport))

theorem set_model_other {l : AdaptLearn} {idx i : Fin 4} (fixed slope : ℚ)
    (apart : baseClass i ≠ baseClass idx) :
    (setModel l idx fixed slope).fixedUs i = l.fixedUs i ∧
      (setModel l idx fixed slope).slopeUsPerB i = l.slopeUsPerB i := by
  have outside : i ≠ idx := fun same => apart (congrArg baseClass same)
  have beside : i ≠ otherClass idx := fun same => apart (by rw [same, base_other])
  simp [setModel, outside, beside]

theorem set_model_own {l : AdaptLearn} {idx i : Fin 4} (fixed slope : ℚ)
    (inside : baseClass i = baseClass idx) :
    (setModel l idx fixed slope).fixedUs i = fixed ∧
      (setModel l idx fixed slope).slopeUsPerB i = slope := by
  have mates : ∀ i idx : Fin 4, baseClass i = baseClass idx → i = idx ∨ i = otherClass idx := by
    decide
  rcases mates i idx inside with same | other
  · subst same
    simp [setModel, (other_ne i).symm]
  · subst other
    simp [setModel]

/-- A refit of a class of the transport. -/
theorem refit_own (cfg : AdaptCostCfg) {l mean : AdaptLearn} {transport : AdaptRoute} {idx : Fin 4}
    (base : baseClass idx = transportBase transport) (lines : SameLine l mean transport)
    {own : Prop} (mine : own) : LineStep cfg transport l (refitClass mean cfg idx) own := by
  have reads := fit_refit mean cfg idx (transportBase transport)
  have fits := fittable_refit mean cfg idx (transportBase transport)
  have based := fittable_base cfg mean idx
  rw [base] at based
  by_cases held : Fittable cfg mean idx ∧ Credible (fitFixed mean idx) (fitSlope mean idx)
  · obtain ⟨fixed, slope⟩ := fit_base held.1
    rw [base] at fixed slope
    have line : fittedLine (refitClass mean cfg idx) transport =
        ⟨fitFixed mean idx, fitSlope mean idx⟩ := by
      simp only [fittedLine, reads.1, reads.2, fixed, slope]
    refine .fitted mine (fits.mpr (based.mp held.1)) ?_ ?_
    · rw [line]
      exact held.2
    · rw [line, refit_class_sets, if_pos held]
      intro i inside
      exact set_model_own _ _ (inside.trans base.symm)
  · refine .kept ?_ ?_
    · rw [refit_class_sets, if_neg held]
      exact lines
    · intro _ ready credible
      have there := based.mpr (fits.mp ready)
      obtain ⟨fixed, slope⟩ := fit_base there
      rw [base] at fixed slope
      simp only [fittedLine, reads.1, reads.2] at credible
      rw [← fixed, ← slope] at credible
      exact held ⟨there, credible⟩

theorem refit_foreign (cfg : AdaptCostCfg) (mean : AdaptLearn) {transport : AdaptRoute}
    {idx : Fin 4} (foreign : transportBase transport ≠ baseClass idx) :
    SameLine mean (refitClass mean cfg idx) transport := by
  intro i inside
  rw [refit_class_sets]
  split
  · apply set_model_other
    rw [inside]
    exact foreign
  · exact ⟨rfl, rfl⟩

theorem line_step (cfg : AdaptCostCfg) (l : AdaptLearn) {transport : AdaptRoute}
    (sends : transport ≠ .none) (observed : AdaptRoute) (size : UInt64) (costUs : ℚ) :
    LineStep cfg transport l (adaptLearnObserve l cfg observed size costUs)
      (0 ≤ costUs ∧ observed = transport) := by
  rw [learn_observe_class]
  split
  · next negative =>
    exact .kept (fun _ _ => ⟨rfl, rfl⟩) fun own => absurd own.1 (not_le.mpr negative)
  · next nonneg =>
    cases taken : observedClass observed size with
    | none =>
        refine .kept (fun _ _ => ⟨rfl, rfl⟩) ?_
        rintro ⟨_, rfl⟩
        cases observed with
        | none => exact absurd rfl sends
        | uds => cases taken
        | shm => cases taken
    | some idx =>
        obtain ⟨observes, base⟩ := observed_class_base taken
        by_cases mine : observed = transport
        · rw [mine] at base
          have lines : SameLine l (meanClass l cfg idx size costUs) transport := fun _ _ => ⟨rfl, rfl⟩
          exact refit_own cfg base lines ⟨not_lt.mp nonneg, mine⟩
        · have foreign : transportBase transport ≠ baseClass idx := by
            rw [base]
            intro same
            exact mine (transport_base_injective sends observes same).symm
          exact .kept (refit_foreign cfg (meanClass l cfg idx size costUs) foreign) fun own =>
            absurd own.2 mine

/-- The arguments of one `adapt_learn_observe`. -/
structure Observation where
  transport : AdaptRoute
  size : UInt64
  costUs : ℚ

def learnAfter (cfg : AdaptCostCfg) : List Observation → AdaptLearn
  | [] => adaptLearnInit cfg
  | newest :: older =>
      adaptLearnObserve (learnAfter cfg older) cfg newest.transport newest.size newest.costUs

def classSizes (idx : Fin 4) : List Observation → List ℚ
  | [] => []
  | newest :: older =>
      if observedClass newest.transport newest.size = some idx then
        (newest.size.toNat : ℚ) :: classSizes idx older
      else classSizes idx older

/-- Every observation of the transport costs what the line says. -/
def LinearCosts (transport : AdaptRoute) (truth : Line) (history : List Observation) : Prop :=
  ∀ observation ∈ history, observation.transport = transport →
    observation.costUs = truth.fixedUs + truth.slopeUsPerB * observation.size.toNat

def classWeight (cfg : AdaptCostCfg) (idx : Fin 4) (history : List Observation) : ℚ :=
  startUp cfg.learnAlpha (classSizes idx history).length

def classMean (cfg : AdaptCostCfg) (idx : Fin 4) (history : List Observation) : ℚ :=
  smoothed cfg.learnAlpha 0 (classSizes idx history)

theorem observe_means (l : AdaptLearn) (cfg : AdaptCostCfg) (transport : AdaptRoute)
    (size : UInt64) {costUs : ℚ} (i : Fin 4)
    (nonneg : observedClass transport size = some i → 0 ≤ costUs) :
    (adaptLearnObserve l cfg transport size costUs).clsMeanUs i =
        (if observedClass transport size = some i then
          smooth cfg.learnAlpha costUs (l.clsMeanUs i) else l.clsMeanUs i) ∧
      (adaptLearnObserve l cfg transport size costUs).clsMeanB i =
        (if observedClass transport size = some i then
          smooth cfg.learnAlpha (size.toNat : ℚ) (l.clsMeanB i) else l.clsMeanB i) := by
  rw [learn_observe_class]
  split
  · next negative =>
    have foreign : observedClass transport size ≠ some i := fun taken =>
      absurd (nonneg taken) (not_le.mpr negative)
    rw [if_neg foreign, if_neg foreign]
    exact ⟨rfl, rfl⟩
  · cases observedClass transport size with
    | none => exact ⟨rfl, rfl⟩
    | some idx =>
        obtain ⟨meanUs, meanB, _⟩ := refit_reads (meanClass l cfg idx size costUs) cfg idx
        simp only [observe_class_mean, meanUs, meanB, Option.some.injEq]
        by_cases here : idx = i
        · subst here
          simp [meanClass]
        · simp [meanClass, here, Ne.symm here]

section Truth

variable {cfg : AdaptCostCfg} {transport : AdaptRoute} {truth : Line}
  {newest : Observation} {older history : List Observation}

theorem LinearCosts.before (linear : LinearCosts transport truth (newest :: older)) :
    LinearCosts transport truth older := fun observation member =>
  linear observation (List.mem_cons_of_mem _ member)

theorem class_means_smoothed (sends : transport ≠ .none) (constant : 0 ≤ truth.fixedUs)
    (rising : 0 ≤ truth.slopeUsPerB) (linear : LinearCosts transport truth history) {i : Fin 4}
    (inside : baseClass i = transportBase transport) :
    (learnAfter cfg history).clsMeanB i = classMean cfg i history ∧
      (learnAfter cfg history).clsMeanUs i = smoothed cfg.learnAlpha 0
        ((classSizes i history).map fun size => truth.fixedUs + truth.slopeUsPerB * size) := by
  induction history with
  | nil => exact ⟨rfl, rfl⟩
  | cons newest older ih =>
      obtain ⟨meanB, meanUs⟩ := ih linear.before
      have cost : observedClass newest.transport newest.size = some i →
          newest.costUs = truth.fixedUs + truth.slopeUsPerB * newest.size.toNat := by
        intro taken
        obtain ⟨observes, base⟩ := observed_class_base taken
        apply linear newest (List.mem_cons_self ..)
        exact transport_base_injective observes sends (base.symm.trans inside)
      have nonneg : observedClass newest.transport newest.size = some i → 0 ≤ newest.costUs := by
        intro taken
        rw [cost taken]
        exact add_nonneg constant (mul_nonneg rising (Nat.cast_nonneg _))
      obtain ⟨newUs, newB⟩ :=
        observe_means (learnAfter cfg older) cfg newest.transport newest.size i nonneg
      rw [learnAfter, newUs, newB, meanB, meanUs]
      by_cases taken : observedClass newest.transport newest.size = some i
      · rw [if_pos taken, if_pos taken, cost taken]
        simp only [classMean, classSizes, taken, if_true, List.map_cons, smoothed, and_self]
      · rw [if_neg taken, if_neg taken]
        simp only [classMean, classSizes, taken, if_false, and_self]

theorem class_means (sends : transport ≠ .none) (constant : 0 ≤ truth.fixedUs)
    (rising : 0 ≤ truth.slopeUsPerB) (linear : LinearCosts transport truth history) {i : Fin 4}
    (inside : baseClass i = transportBase transport) :
    (learnAfter cfg history).clsMeanB i = classMean cfg i history ∧
      (learnAfter cfg history).clsMeanUs i =
        truth.fixedUs * classWeight cfg i history + truth.slopeUsPerB * classMean cfg i history := by
  obtain ⟨meanB, meanUs⟩ := @class_means_smoothed cfg transport truth history sends constant rising
    linear i inside
  exact ⟨meanB, meanUs.trans (smoothed_linear _ _ _ _)⟩

/-- The line that the refit reads from a linear truth. -/
def biasedLine (cfg : AdaptCostCfg) (transport : AdaptRoute) (truth : Line)
    (history : List Observation) : Line :=
  let small := transportBase transport
  let large := otherClass small
  let rise := classMean cfg large history - classMean cfg small history
  { fixedUs := truth.fixedUs * (classWeight cfg small history * classMean cfg large history -
      classWeight cfg large history * classMean cfg small history) / rise
    slopeUsPerB := truth.slopeUsPerB +
      truth.fixedUs * (classWeight cfg large history - classWeight cfg small history) / rise }

theorem fitted_biased (sends : transport ≠ .none) (constant : 0 ≤ truth.fixedUs)
    (rising : 0 ≤ truth.slopeUsPerB) (linear : LinearCosts transport truth history)
    (fits : Fittable cfg (learnAfter cfg history) (transportBase transport)) :
    fittedLine (learnAfter cfg history) transport = biasedLine cfg transport truth history ∧
      classMean cfg (otherClass (transportBase transport)) history -
        classMean cfg (transportBase transport) history ≠ 0 := by
  have inside := base_transport transport
  have means : ∀ i, baseClass i = transportBase transport →
      (learnAfter cfg history).clsMeanB i = classMean cfg i history ∧
        (learnAfter cfg history).clsMeanUs i = truth.fixedUs * classWeight cfg i history +
          truth.slopeUsPerB * classMean cfg i history := fun i own =>
    class_means sends constant rising linear own
  obtain ⟨smallB, smallUs⟩ := means _ inside
  obtain ⟨largeB, largeUs⟩ := means _ ((base_other (transportBase transport)).trans inside)
  have apart := fits.apart
  rw [smallB, largeB] at apart
  have rise : classMean cfg (otherClass (transportBase transport)) history -
      classMean cfg (transportBase transport) history ≠ 0 := by
    intro zero
    exact apart (by linarith)
  refine ⟨?_, rise⟩
  have slope : fitSlope (learnAfter cfg history) (transportBase transport) =
      (biasedLine cfg transport truth history).slopeUsPerB := by
    simp only [fitSlope, biasedLine, smallB, smallUs, largeB, largeUs]
    field_simp
    ring
  have fixed : fitFixed (learnAfter cfg history) (transportBase transport) =
      (biasedLine cfg transport truth history).fixedUs := by
    simp only [fitFixed, slope, biasedLine, smallB, smallUs]
    field_simp
    ring
  simp only [fittedLine, slope, fixed]

/-- With a constant term the line is never the true one. -/
theorem biased_wrong (proper : cfg.learnAlpha < 1) (constant : 0 < truth.fixedUs)
    (rise : classMean cfg (otherClass (transportBase transport)) history -
      classMean cfg (transportBase transport) history ≠ 0) :
    biasedLine cfg transport truth history ≠ truth := by
  intro recovered
  let small := classWeight cfg (transportBase transport) history
  let large := classWeight cfg (otherClass (transportBase transport)) history
  have slope : truth.slopeUsPerB + truth.fixedUs * (large - small) /
      (classMean cfg (otherClass (transportBase transport)) history -
        classMean cfg (transportBase transport) history) = truth.slopeUsPerB :=
    congrArg Line.slopeUsPerB recovered
  have equal : large = small := by
    have flat := add_eq_left.mp slope
    rcases div_eq_zero_iff.mp flat with product | zero
    · rcases mul_eq_zero.mp product with none | even
      · exact absurd none constant.ne'
      · exact sub_eq_zero.mp even
    · exact absurd zero rise
  have fixed : truth.fixedUs *
      (small * classMean cfg (otherClass (transportBase transport)) history -
        large * classMean cfg (transportBase transport) history) /
      (classMean cfg (otherClass (transportBase transport)) history -
        classMean cfg (transportBase transport) history) = truth.fixedUs :=
    congrArg Line.fixedUs recovered
  rw [equal, ← mul_sub, ← mul_assoc, mul_div_cancel_right₀ _ rise] at fixed
  have whole : small = 1 := by
    have unit : truth.fixedUs * small = truth.fixedUs * 1 := by
      rw [fixed, mul_one]
    exact mul_left_cancel₀ constant.ne' unit
  have partly : small < 1 := start_up_lt_one proper _
  exact absurd whole partly.ne

theorem biased_right (proportional : truth.fixedUs = 0) :
    biasedLine cfg transport truth history = truth := by
  cases truth
  cases proportional
  simp [biasedLine]

/-- The newest observation is of the transport and finds both classes ready for a fit. -/
def FindsReady (cfg : AdaptCostCfg) (transport : AdaptRoute) : List Observation → Prop
  | [] => False
  | newest :: older => newest.transport = transport ∧
      Fittable cfg (learnAfter cfg (newest :: older)) (transportBase transport)

def EverReady (cfg : AdaptCostCfg) (transport : AdaptRoute) : List Observation → Prop
  | [] => False
  | newest :: older => FindsReady cfg transport (newest :: older) ∨ EverReady cfg transport older

/-- Every observation that finds the classes ready leaves the true line. -/
def CalibrationExact (cfg : AdaptCostCfg) (transport : AdaptRoute) (truth : Line) :
    List Observation → Prop
  | [] => True
  | newest :: older =>
      (FindsReady cfg transport (newest :: older) →
        HasLine (learnAfter cfg (newest :: older)) transport truth) ∧
      CalibrationExact cfg transport truth older

/-- No observation that finds the classes ready reads a credible line from the truth. -/
def Refused (cfg : AdaptCostCfg) (transport : AdaptRoute) (truth : Line) :
    List Observation → Prop
  | [] => True
  | newest :: older =>
      (FindsReady cfg transport (newest :: older) →
        ¬Credible (biasedLine cfg transport truth (newest :: older)).fixedUs
          (biasedLine cfg transport truth (newest :: older)).slopeUsPerB) ∧
      Refused cfg transport truth older

theorem newest_line (sends : transport ≠ .none) (newest : Observation) (older : List Observation) :
    LineStep cfg transport (learnAfter cfg older) (learnAfter cfg (newest :: older))
      (0 ≤ newest.costUs ∧ newest.transport = transport) :=
  line_step cfg (learnAfter cfg older) sends newest.transport newest.size newest.costUs

theorem newest_cost (constant : 0 ≤ truth.fixedUs) (rising : 0 ≤ truth.slopeUsPerB)
    (linear : LinearCosts transport truth (newest :: older))
    (mine : newest.transport = transport) : 0 ≤ newest.costUs := by
  rw [linear newest (List.mem_cons_self ..) mine]
  exact add_nonneg constant (mul_nonneg rising (Nat.cast_nonneg _))

theorem refused_keeps (sends : transport ≠ .none) (constant : 0 ≤ truth.fixedUs)
    (rising : 0 ≤ truth.slopeUsPerB) (linear : LinearCosts transport truth history)
    (refused : Refused cfg transport truth history) :
    HasLine (learnAfter cfg history) transport truth ↔
      HasLine (adaptLearnInit cfg) transport truth := by
  induction history with
  | nil => exact Iff.rfl
  | cons newest older ih =>
      cases @newest_line cfg transport sends newest older with
      | kept same _ => exact same.line.trans (ih linear.before refused.2)
      | fitted mine fits credible line =>
          obtain ⟨biased, _⟩ := fitted_biased sends constant rising linear fits
          rw [biased] at credible
          exact absurd credible (refused.1 ⟨mine.2, fits⟩)

theorem exact_refused (sends : transport ≠ .none) (proper : cfg.learnAlpha < 1)
    (constant : 0 < truth.fixedUs) (rising : 0 ≤ truth.slopeUsPerB)
    (linear : LinearCosts transport truth history)
    (recovers : CalibrationExact cfg transport truth history) :
    Refused cfg transport truth history := by
  induction history with
  | nil => trivial
  | cons newest older ih =>
      refine ⟨?_, ih linear.before recovers.2⟩
      intro ready credible
      obtain ⟨biased, rise⟩ := fitted_biased sends constant.le rising linear ready.2
      rw [← biased] at credible
      cases @newest_line cfg transport sends newest older with
      | kept _ refused =>
          have cost := newest_cost constant.le rising linear ready.1
          exact refused ⟨cost, ready.1⟩ ready.2 credible
      | fitted mine fits _ line =>
          rw [biased] at line
          exact biased_wrong proper constant rise (line.unique (recovers.1 ready))

/-- If nothing was fitted although something was ready, the configured line was the true
one. -/
theorem exact_prior (sends : transport ≠ .none) (constant : 0 ≤ truth.fixedUs)
    (rising : 0 ≤ truth.slopeUsPerB) (linear : LinearCosts transport truth history)
    (recovers : CalibrationExact cfg transport truth history)
    (refused : Refused cfg transport truth history) (ready : EverReady cfg transport history) :
    HasLine (adaptLearnInit cfg) transport truth := by
  induction history with
  | nil => exact ready.elim
  | cons newest older ih =>
      rcases ready with now | before
      · exact (refused_keeps sends constant rising linear refused).mp (recovers.1 now)
      · exact ih linear.before recovers.2 refused.2 before

theorem refused_exact (sends : transport ≠ .none) (constant : 0 ≤ truth.fixedUs)
    (rising : 0 ≤ truth.slopeUsPerB) (linear : LinearCosts transport truth history)
    (refused : Refused cfg transport truth history)
    (prior : EverReady cfg transport history → HasLine (adaptLearnInit cfg) transport truth) :
    CalibrationExact cfg transport truth history := by
  induction history with
  | nil => trivial
  | cons newest older ih =>
      refine ⟨?_, ih linear.before refused.2 fun before => prior (Or.inr before)⟩
      intro ready
      exact (refused_keeps sends constant rising linear refused).mpr (prior (Or.inl ready))

theorem proportional_exact (sends : transport ≠ .none) (proportional : truth.fixedUs = 0)
    (steep : 1 / 1000000 < truth.slopeUsPerB) (linear : LinearCosts transport truth history) :
    CalibrationExact cfg transport truth history := by
  induction history with
  | nil => trivial
  | cons newest older ih =>
      refine ⟨?_, ih linear.before⟩
      intro ready
      have rising : 0 ≤ truth.slopeUsPerB := le_trans (by norm_num) steep.le
      obtain ⟨biased, _⟩ := fitted_biased sends proportional.ge rising linear ready.2
      rw [biased_right proportional] at biased
      cases @newest_line cfg transport sends newest older with
      | kept _ refused =>
          have cost := newest_cost proportional.ge rising linear ready.1
          rw [biased] at refused
          exact absurd ⟨steep, proportional.ge⟩ (refused ⟨cost, ready.1⟩ ready.2)
      | fitted mine fits _ line =>
          rw [biased] at line
          exact line

/-- The calibration of one transport is exact for proportional costs, and otherwise only
where it fits nothing and the configured line was the true one already. -/
theorem transport_exact_iff (sends : transport ≠ .none) (proper : cfg.learnAlpha < 1)
    (constant : 0 ≤ truth.fixedUs) (steep : 1 / 1000000 < truth.slopeUsPerB)
    (linear : LinearCosts transport truth history) :
    CalibrationExact cfg transport truth history ↔
      truth.fixedUs = 0 ∨ Refused cfg transport truth history ∧
        (EverReady cfg transport history → HasLine (adaptLearnInit cfg) transport truth) := by
  have rising : 0 ≤ truth.slopeUsPerB := le_trans (by norm_num) steep.le
  constructor
  · intro recovers
    by_cases proportional : truth.fixedUs = 0
    · exact Or.inl proportional
    · have refused := exact_refused sends proper (lt_of_le_of_ne constant (Ne.symm proportional))
        rising linear recovers
      exact Or.inr ⟨refused, exact_prior sends constant rising linear recovers refused⟩
  · rintro (proportional | ⟨refused, prior⟩)
    · exact proportional_exact sends proportional steep linear
    · exact refused_exact sends constant rising linear refused prior

theorem exact_stays (sends : transport ≠ .none)
    (recovers : CalibrationExact cfg transport truth history)
    (ready : EverReady cfg transport history) : HasLine (learnAfter cfg history) transport truth := by
  induction history with
  | nil => exact ready.elim
  | cons newest older ih =>
      rcases ready with now | before
      · exact recovers.1 now
      · cases @newest_line cfg transport sends newest older with
        | kept same _ => exact same.line.mpr (ih recovers.2 before)
        | fitted mine fits _ _ => exact recovers.1 ⟨mine.2, fits⟩

end Truth

/-- The size at which the two true lines meet. -/
def trueBreakEven (truth : AdaptRoute → Line) : ℚ :=
  ((truth .shm).fixedUs - (truth .uds).fixedUs) /
    ((truth .uds).slopeUsPerB - (truth .shm).slopeUsPerB)

/-- Every observation that finds the classes of its transport ready leaves the true line,
and with both transports fitted the break-even is the true one. -/
structure CalibrationRecovers (cfg : AdaptCostCfg) (truth : AdaptRoute → Line)
    (history : List Observation) : Prop where
  lines : ∀ transport, transport ≠ .none → CalibrationExact cfg transport (truth transport) history
  breakEven : EverReady cfg .uds history → EverReady cfg .shm history →
    breakEven (learnAfter cfg history) = trueBreakEven truth

section Law

variable {cfg : AdaptCostCfg} {truth : AdaptRoute → Line} {history : List Observation}

theorem exact_break_even
    (lines : ∀ transport, transport ≠ .none →
      CalibrationExact cfg transport (truth transport) history)
    (uds : EverReady cfg .uds history) (shm : EverReady cfg .shm history) :
    breakEven (learnAfter cfg history) = trueBreakEven truth := by
  obtain ⟨udsFixed, udsSlope⟩ := exact_stays (by decide) (lines .uds (by decide)) uds 0 rfl
  obtain ⟨shmFixed, shmSlope⟩ := exact_stays (by decide) (lines .shm (by decide)) shm 2 rfl
  rw [breakEven, udsFixed, udsSlope, shmFixed, shmSlope, trueBreakEven]

theorem calibration_recovers_iff (proper : cfg.learnAlpha < 1)
    (constant : ∀ transport, 0 ≤ (truth transport).fixedUs)
    (steep : ∀ transport, 1 / 1000000 < (truth transport).slopeUsPerB)
    (linear : ∀ transport, transport ≠ .none → LinearCosts transport (truth transport) history) :
    CalibrationRecovers cfg truth history ↔
      ∀ transport, transport ≠ .none →
        (truth transport).fixedUs = 0 ∨ Refused cfg transport (truth transport) history ∧
          (EverReady cfg transport history →
            HasLine (adaptLearnInit cfg) transport (truth transport)) := by
  have each : ∀ transport, transport ≠ .none →
      (CalibrationExact cfg transport (truth transport) history ↔ _) := fun transport sends =>
    transport_exact_iff sends proper (constant transport) (steep transport) (linear transport sends)
  constructor
  · intro recovers transport sends
    exact (each transport sends).mp (recovers.lines transport sends)
  · intro condition
    have lines : ∀ transport, transport ≠ .none →
        CalibrationExact cfg transport (truth transport) history := fun transport sends =>
      (each transport sends).mpr (condition transport sends)
    exact ⟨lines, exact_break_even lines⟩

end Law

/-- The defaults with `ADAPTIPC_MIN_SAMPLES=1`. -/
def oneSampleCfg : AdaptCostCfg := { adaptCostCfgDefaults with learnMinSamples := 1 }

def configuredTruth : AdaptRoute → Line
  | .shm => ⟨3 / 10, 4 / 10000⟩
  | _ => ⟨3, 15 / 10000⟩

def configuredCosts : List Observation :=
  [⟨.uds, 4096, 3 + 15 / 10000 * 4096⟩, ⟨.uds, 64, 3 + 15 / 10000 * 64⟩]

theorem calibration_unlearns :
    (∀ transport, transport ≠ .none →
        LinearCosts transport (configuredTruth transport) configuredCosts) ∧
      ¬CalibrationRecovers oneSampleCfg configuredTruth configuredCosts := by
  constructor
  · intro transport _ observation member same
    subst same
    simp only [configuredCosts, List.mem_cons, List.not_mem_nil, or_false] at member
    rcases member with newest | oldest
    · subst newest
      decide +kernel
    · subst oldest
      decide +kernel
  · intro recovers
    have ready : FindsReady oneSampleCfg .uds configuredCosts := ⟨rfl, by decide +kernel⟩
    have fixed := ((recovers.lines .uds (by decide)).1 ready 0 rfl).1
    exact absurd fixed (by decide +kernel)

def proportionalCosts : List Observation := [⟨.uds, 4096, 4096 / 500⟩, ⟨.uds, 64, 64 / 500⟩]

theorem calibration_recovers_iff_proportional :
    CalibrationRecovers oneSampleCfg (fun _ => ⟨0, 1 / 500⟩) proportionalCosts := by
  refine (calibration_recovers_iff (by decide +kernel) (fun _ => le_refl 0) (fun _ => ?_) ?_).mpr
    fun _ _ => Or.inl rfl
  · norm_num
  · intro transport _ observation member _
    simp only [proportionalCosts, List.mem_cons, List.not_mem_nil, or_false] at member
    rcases member with newest | oldest
    · subst newest
      decide +kernel
    · subst oldest
      decide +kernel

end AdaptIpc.Policy

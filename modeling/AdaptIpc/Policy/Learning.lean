import AdaptIpc.Policy.CostModel
import AdaptIpc.Library.Smoothing
import AdaptIpc.Library.Transition

/-!
# What one observation teaches

Each observation moves the two means of its class, and may refit the line of its
transport through the two class means. The refit is kept only where the line is
credible, and writes both classes of the transport at once.
-/

namespace AdaptIpc.Policy

open AdaptIpc.Library.Smoothing AdaptIpc.Library.Transition

set_option autoImplicit false

def transportBase : AdaptRoute → Fin 4
  | .shm => 2
  | _ => 0

def observedClass (transport : AdaptRoute) (size : UInt64) : Option (Fin 4) :=
  match transport with
  | .none => none
  | .uds => some (if size ≤ adaptLearnSmallMax then 0 else 1)
  | .shm => some (if size ≤ adaptLearnSmallMax then 2 else 3)

theorem other_other (idx : Fin 4) : otherClass (otherClass idx) = idx := by
  revert idx
  decide

theorem other_ne (idx : Fin 4) : otherClass idx ≠ idx := by
  revert idx
  decide

theorem base_other (idx : Fin 4) : baseClass (otherClass idx) = baseClass idx := by
  revert idx
  decide

theorem class_cases (idx : Fin 4) : idx = baseClass idx ∨ idx = otherClass (baseClass idx) := by
  revert idx
  decide

def meanClass (l : AdaptLearn) (cfg : AdaptCostCfg) (idx : Fin 4) (size : UInt64) (costUs : ℚ) :
    AdaptLearn :=
  { l with
    clsMeanUs := Function.update l.clsMeanUs idx
      (smooth cfg.learnAlpha costUs (l.clsMeanUs idx))
    clsMeanB := Function.update l.clsMeanB idx
      (smooth cfg.learnAlpha (size.toNat : ℚ) (l.clsMeanB idx))
    n := Function.update l.n idx
      (if l.n idx < 18446744073709551615 then l.n idx + 1 else l.n idx) }

def fitSlope (l : AdaptLearn) (idx : Fin 4) : ℚ :=
  (l.clsMeanUs idx - l.clsMeanUs (otherClass idx)) /
    (l.clsMeanB idx - l.clsMeanB (otherClass idx))

def fitFixed (l : AdaptLearn) (idx : Fin 4) : ℚ :=
  l.clsMeanUs idx - fitSlope l idx * l.clsMeanB idx

def Fittable (cfg : AdaptCostCfg) (l : AdaptLearn) (idx : Fin 4) : Prop :=
  cfg.learnMinSamples.toUInt64 ≤ l.n (baseClass idx) ∧
    cfg.learnMinSamples.toUInt64 ≤ l.n (otherClass (baseClass idx)) ∧
    128 < |l.clsMeanB idx - l.clsMeanB (otherClass idx)|

instance (cfg : AdaptCostCfg) (l : AdaptLearn) (idx : Fin 4) : Decidable (Fittable cfg l idx) :=
  inferInstanceAs (Decidable (_ ∧ _))

def Credible (fixed slope : ℚ) : Prop := 1 / 1000000 < slope ∧ 0 ≤ fixed

instance (fixed slope : ℚ) : Decidable (Credible fixed slope) :=
  inferInstanceAs (Decidable (_ ∧ _))

def setModel (l : AdaptLearn) (idx : Fin 4) (fixed slope : ℚ) : AdaptLearn :=
  { l with
    slopeUsPerB :=
      Function.update (Function.update l.slopeUsPerB idx slope) (otherClass idx) slope
    fixedUs := Function.update (Function.update l.fixedUs idx fixed) (otherClass idx) fixed }

theorem observe_class_mean (l : AdaptLearn) (cfg : AdaptCostCfg) (idx : Fin 4) (size : UInt64)
    (costUs : ℚ) :
    observeClass l cfg idx size costUs = refitClass (meanClass l cfg idx size costUs) cfg idx := rfl

theorem refit_class_sets (l : AdaptLearn) (cfg : AdaptCostCfg) (idx : Fin 4) :
    refitClass l cfg idx =
      if Fittable cfg l idx ∧ Credible (fitFixed l idx) (fitSlope l idx) then
        setModel l idx (fitFixed l idx) (fitSlope l idx)
      else l := by
  simp only [refitClass, Fittable, Credible, and_assoc]
  split
  · next enough =>
    split
    · next apart =>
      split
      · next steep =>
        split
        · next above => rw [if_pos ⟨enough.1, enough.2, apart, steep, above⟩]; rfl
        · next below => rw [if_neg fun held => below held.2.2.2.2]
      · next flat => rw [if_neg fun held => flat held.2.2.2.1]
    · next near => rw [if_neg fun held => near held.2.2.1]
  · next few => rw [if_neg fun held => few ⟨held.1, held.2.1⟩]

theorem learn_observe_class (l : AdaptLearn) (cfg : AdaptCostCfg) (transport : AdaptRoute)
    (size : UInt64) (costUs : ℚ) :
    adaptLearnObserve l cfg transport size costUs =
      if costUs < 0 then l
      else match observedClass transport size with
        | none => l
        | some idx => observeClass l cfg idx size costUs := by
  simp only [adaptLearnObserve]
  split
  · rfl
  · cases transport <;> rfl

theorem mean_class_counts (l : AdaptLearn) (cfg : AdaptCostCfg) (idx : Fin 4) (size : UInt64)
    (costUs : ℚ) (i : Fin 4) : l.n i ≤ (meanClass l cfg idx size costUs).n i := by
  by_cases here : i = idx
  · subst here
    simp only [meanClass, Function.update_self]
    split
    · next room =>
      rw [UInt64.lt_iff_toNat_lt] at room
      rw [UInt64.le_iff_toNat_le, UInt64.toNat_add, show (1 : UInt64).toNat = 1 from rfl]
      have limit : (18446744073709551615 : UInt64).toNat = 18446744073709551615 := rfl
      omega
    · exact UInt64.le_refl _
  · simp only [meanClass, Function.update_of_ne here]
    exact UInt64.le_refl _

/-- What an observation does: nothing, or the means of one class move, and with them
perhaps the line of its transport. -/
inductive Observed (cfg : AdaptCostCfg) (l : AdaptLearn) : AdaptLearn → Prop where
  | ignored : Observed cfg l l
  | counted (idx : Fin 4) (size : UInt64) (costUs : ℚ) (nonneg : 0 ≤ costUs) :
      Observed cfg l (meanClass l cfg idx size costUs)
  | refitted (idx : Fin 4) (size : UInt64) (costUs fixed slope : ℚ) (nonneg : 0 ≤ costUs)
      (credible : Credible fixed slope) :
      Observed cfg l (setModel (meanClass l cfg idx size costUs) idx fixed slope)

theorem learn_observed (l : AdaptLearn) (cfg : AdaptCostCfg) (transport : AdaptRoute)
    (size : UInt64) (costUs : ℚ) :
    Observed cfg l (adaptLearnObserve l cfg transport size costUs) := by
  rw [learn_observe_class]
  split
  · exact .ignored
  · next nonneg =>
    cases observedClass transport size with
    | none => exact .ignored
    | some idx =>
        simp only [observe_class_mean, refit_class_sets]
        split
        · next held => exact .refitted idx size costUs _ _ (not_lt.mp nonneg) held.2
        · exact .counted idx size costUs (not_lt.mp nonneg)

inductive LearnAction where
  | observe (transport : AdaptRoute) (size : UInt64) (costUs : ℚ)
  | crossover

def learnStep (cfg : AdaptCostCfg) (l : AdaptLearn) : LearnAction → AdaptLearn
  | .observe transport size costUs => adaptLearnObserve l cfg transport size costUs
  | .crossover => adaptLearnCrossover l cfg

def learnMachine (cfg : AdaptCostCfg) : Machine AdaptLearn LearnAction where
  initial l := l = adaptLearnInit cfg
  step l action := some (learnStep cfg l action)

end AdaptIpc.Policy

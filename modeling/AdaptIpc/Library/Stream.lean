import AdaptIpc.Library.Transition
import Mathlib.Data.Set.Finite.Basic
import Mathlib.Data.Finite.Prod
import Mathlib.Order.Interval.Finset.Nat

/-!
# Infinite runs

A stream is an infinite run of a step function with the actions it takes. What steps
keep from some time on holds ever after, and an event that uses up a rank each
time it happens happens finitely often. A loop over a stream of inputs ends with the
first one that ends it.
-/

namespace AdaptIpc.Library.Transition

set_option autoImplicit false

variable {State Action : Type*} {step : State → Action → Option State}

def Stream (step : State → Action → Option State) (run : ℕ → State) (actions : ℕ → Action) :
    Prop :=
  ∀ n, step (run n) (actions n) = some (run (n + 1))

theorem holds_from {p : ℕ → Prop} {start : ℕ} (now : p start)
    (keeps : ∀ n, start ≤ n → p n → p (n + 1)) : ∀ n, start ≤ n → p n := by
  intro n later
  induction n, later using Nat.le_induction with
  | base => exact now
  | succ n later ih => exact keeps n later ih

/-- An event that lowers the rank each time, and does not happen at rank 0, happens
finitely often. -/
theorem finitely_often {event : ℕ → Prop} {rank : ℕ → ℕ → Prop}
    (spent : ∀ n, rank 0 n → ¬event n)
    (keeps : ∀ k n, rank k n → ¬event n → rank k (n + 1))
    (lowers : ∀ k n, rank (k + 1) n → event n → rank k (n + 1))
    {k start : ℕ} (ranked : rank k start) : {n | start ≤ n ∧ event n}.Finite := by
  induction k generalizing start with
  | zero =>
      have forever := holds_from ranked fun n _ held => keeps 0 n held (spent n held)
      apply Set.finite_empty.subset
      rintro n ⟨later, happened⟩
      exact spent n (forever n later) happened
  | succ k ih =>
      by_cases happens : ∃ n, start ≤ n ∧ event n
      · classical
        have first := Nat.find_spec happens
        have quiet : ∀ n, start ≤ n → n < Nat.find happens → ¬event n := by
          intro n later before happened
          exact Nat.find_min happens before ⟨later, happened⟩
        have before_it : ∀ n, start ≤ n → n ≤ Nat.find happens → rank (k + 1) n := by
          intro n later
          induction n, later using Nat.le_induction with
          | base => exact fun _ => ranked
          | succ n later ih =>
              intro before
              exact keeps (k + 1) n (ih (Nat.le_of_succ_le before)) (quiet n later before)
        have after := ih (lowers k _ (before_it _ first.1 (Nat.le_refl _)) first.2)
        apply (after.insert (Nat.find happens)).subset
        rintro n ⟨later, happened⟩
        rcases Nat.lt_trichotomy n (Nat.find happens) with before | same | behind
        · exact absurd happened (quiet n later before)
        · exact Or.inl same
        · exact Or.inr ⟨behind, happened⟩
      · apply Set.finite_empty.subset
        rintro n ⟨later, happened⟩
        exact happens ⟨n, later, happened⟩

/-- Where every good state has an allowed step to a good state, a stream goes on from
each of them. -/
theorem exists_stream {good : State → Prop} {allowed : Action → Prop}
    (progress : ∀ state, good state →
      ∃ action next, allowed action ∧ step state action = some next ∧ good next)
    {state : State} (starts : good state) :
    ∃ run actions, run 0 = state ∧ Stream step run actions ∧ ∀ n, allowed (actions n) := by
  choose action next granted stepped stays using progress
  let walk : ℕ → { state // good state } := fun n =>
    Nat.rec ⟨state, starts⟩ (fun _ here => ⟨next here.1 here.2, stays here.1 here.2⟩) n
  refine ⟨fun n => (walk n).1, fun n => action (walk n).1 (walk n).2, rfl, ?_, ?_⟩
  · intro n
    exact stepped (walk n).1 (walk n).2
  · intro n
    exact granted (walk n).1 (walk n).2

section Rounds

variable {Input Result : Type*} {ends : Input → Option Result} {inputs : ℕ → Input}

/-- What a loop that takes one input a round has ended with after `n` rounds. -/
def ended (ends : Input → Option Result) (inputs : ℕ → Input) : ℕ → Option Result
  | 0 => none
  | n + 1 => (ended ends inputs n).or (ends (inputs n))

theorem ended_none_iff {n : ℕ} :
    ended ends inputs n = none ↔ ∀ i, i < n → ends (inputs i) = none := by
  induction n with
  | zero => simp [ended]
  | succ n ih =>
      rw [ended, Option.or_eq_none_iff, ih]
      constructor
      · rintro ⟨before, now⟩ i within
        rcases Nat.lt_succ_iff_lt_or_eq.mp within with earlier | rfl
        · exact before i earlier
        · exact now
      · intro all
        exact ⟨fun i earlier => all i (Nat.lt_succ_of_lt earlier), all n (Nat.lt_succ_self n)⟩

theorem ended_some_iff {n : ℕ} {result : Result} :
    ended ends inputs n = some result ↔
      ∃ i, i < n ∧ ends (inputs i) = some result ∧ ∀ j, j < i → ends (inputs j) = none := by
  induction n with
  | zero => simp [ended]
  | succ n ih =>
      rw [ended, Option.or_eq_some_iff, ih, ended_none_iff]
      constructor
      · rintro (⟨i, earlier, ending, first⟩ | ⟨quiet, now⟩)
        · exact ⟨i, Nat.lt_succ_of_lt earlier, ending, first⟩
        · exact ⟨n, Nat.lt_succ_self n, now, quiet⟩
      · rintro ⟨i, within, ending, first⟩
        rcases Nat.lt_succ_iff_lt_or_eq.mp within with earlier | rfl
        · exact Or.inl ⟨i, earlier, ending, first⟩
        · exact Or.inr ⟨first, ending⟩

end Rounds

end AdaptIpc.Library.Transition

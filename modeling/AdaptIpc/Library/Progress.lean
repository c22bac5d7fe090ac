import AdaptIpc.Library.Transition

/-!
# Progress against a schedule

A party is within a budget of its own steps when each of them spends at least
one, when nobody else's step adds any, and when the budget cannot run out
before the party is done. Then every run with as many of its steps passes
through a state where it is done; if moreover the party is never blocked, the
steps are there to be taken. This is the bounded form of wait-freedom.
-/

namespace AdaptIpc.Library.Transition

set_option autoImplicit false

namespace Machine

variable {State Action : Type*}

def Passes (machine : Machine State Action) (Property : State → Prop) (start : State)
    (schedule : List Action) : Prop :=
  ∃ done, done <+: schedule ∧ ∃ mid, machine.run start done = some mid ∧ Property mid

theorem passes_now (machine : Machine State Action) {Property : State → Prop} {state : State}
    (schedule : List Action) (holds : Property state) :
    machine.Passes Property state schedule :=
  ⟨[], List.nil_prefix, state, rfl, holds⟩

theorem passes_later {machine : Machine State Action} {Property : State → Prop}
    {state next : State} {action : Action} {rest : List Action}
    (stepped : machine.step state action = some next)
    (later : machine.Passes Property next rest) :
    machine.Passes Property state (action :: rest) := by
  obtain ⟨done, ⟨more, split⟩, mid, ran, holds⟩ := later
  refine ⟨action :: done, ⟨more, ?_⟩, mid, ?_, holds⟩
  · simp [split]
  · simp [run, stepped, ran]

structure Budgeted (machine : Machine State Action) (own : Action → Bool)
    (Within : State → Nat → Prop) (Done : State → Prop) : Prop where
  unspent : ∀ state, ¬ Within state 0
  spends : ∀ state budget action next, Within state budget →
    machine.step state action = some next →
      Done next ∨ ∃ rest, Within next rest ∧ rest + (if own action then 1 else 0) ≤ budget

variable {machine : Machine State Action} {own : Action → Bool}
variable {Within : State → Nat → Prop} {Done : State → Prop}

theorem Budgeted.passes (budgeted : machine.Budgeted own Within Done) {state final : State}
    {budget : Nat} {schedule : List Action} (within : Within state budget)
    (ran : machine.run state schedule = some final) (enough : budget ≤ schedule.countP own) :
    machine.Passes Done state schedule := by
  induction schedule generalizing state budget with
  | nil =>
      have none : budget = 0 := Nat.le_zero.mp enough
      rw [none] at within
      exact absurd within (budgeted.unspent state)
  | cons action rest ih =>
      simp only [run] at ran
      split at ran
      · next next stepped =>
        rcases budgeted.spends state budget action next within stepped with done | ⟨left, still, spent⟩
        · exact passes_later stepped (passes_now machine rest done)
        · rw [List.countP_cons] at enough
          exact passes_later stepped (ih still ran (by omega))
      · cases ran

theorem Budgeted.holds (budgeted : machine.Budgeted own Within Done) {state final : State}
    {budget : Nat} {schedule : List Action} (within : Within state budget)
    (ran : machine.run state schedule = some final) :
    machine.Passes Done state schedule ∨ ∃ left, left ≤ budget ∧ Within final left := by
  induction schedule generalizing state budget with
  | nil =>
      cases ran
      exact Or.inr ⟨budget, Nat.le_refl _, within⟩
  | cons action rest ih =>
      simp only [run] at ran
      split at ran
      · next next stepped =>
        rcases budgeted.spends state budget action next within stepped with done | ⟨left, still, spent⟩
        · exact Or.inl (passes_later stepped (passes_now machine rest done))
        · rcases ih still ran with passed | ⟨last, below, final⟩
          · exact Or.inl (passes_later stepped passed)
          · exact Or.inr ⟨last, by omega, final⟩
      · cases ran

theorem Budgeted.progress (budgeted : machine.Budgeted own Within Done) {state final : State}
    {budget : Nat} {schedule : List Action} (within : Within state budget)
    (ran : machine.run state schedule = some final) :
    machine.Passes Done state schedule ∨
      schedule.countP own < budget ∧ ∃ left, Within final left := by
  by_cases enough : budget ≤ schedule.countP own
  · exact Or.inl (budgeted.passes within ran enough)
  · rcases budgeted.holds within ran with passed | ⟨left, _, still⟩
    · exact Or.inl passed
    · exact Or.inr ⟨by omega, left, still⟩

end Machine

end AdaptIpc.Library.Transition

import Mathlib.Logic.Relation

/-!
# Machines, reachable states and simulations

A machine is a set of initial states and an executable partial step: an
interleaving is a list of actions, so one schedule can be replayed and every
schedule is quantified over by `Reachable`. The two rules used throughout are
the invariant rule and the forward simulation rule.
-/

namespace AdaptIpc.Library.Transition

set_option autoImplicit false

structure Machine (State Action : Type*) where
  initial : State → Prop
  step : State → Action → Option State

namespace Machine

variable {State Action : Type*}

def Next (machine : Machine State Action) (state next : State) : Prop :=
  ∃ action, machine.step state action = some next

def ReachableFrom (machine : Machine State Action) (start state : State) : Prop :=
  Relation.ReflTransGen machine.Next start state

def Reachable (machine : Machine State Action) (state : State) : Prop :=
  ∃ start, machine.initial start ∧ machine.ReachableFrom start state

def run (machine : Machine State Action) : State → List Action → Option State
  | state, [] => some state
  | state, action :: rest =>
      match machine.step state action with
      | some next => run machine next rest
      | none => none

/-- The machine whose steps are those the guard allows: an assumption on the
environment, or the condition a property is proved under. -/
def guarded (machine : Machine State Action) (allowed : State → Action → Bool) :
    Machine State Action where
  initial := machine.initial
  step state action := if allowed state action then machine.step state action else none

variable {machine : Machine State Action}

theorem reachable_initial {state : State} (starts : machine.initial state) :
    machine.Reachable state :=
  ⟨state, starts, Relation.ReflTransGen.refl⟩

theorem reachable_step {state next : State} {action : Action}
    (reached : machine.Reachable state) (stepped : machine.step state action = some next) :
    machine.Reachable next := by
  obtain ⟨start, starts, path⟩ := reached
  exact ⟨start, starts, path.tail ⟨action, stepped⟩⟩

theorem reachable_from_run {state final : State} {actions : List Action}
    (ran : machine.run state actions = some final) :
    machine.ReachableFrom state final := by
  induction actions generalizing state with
  | nil =>
      cases ran
      exact Relation.ReflTransGen.refl
  | cons action rest ih =>
      simp only [run] at ran
      split at ran
      · next next stepped =>
        exact Relation.ReflTransGen.head ⟨action, stepped⟩ (ih ran)
      · cases ran

theorem reachable_run (machine : Machine State Action) {state final : State}
    {actions : List Action} (starts : machine.initial state)
    (ran : machine.run state actions = some final) :
    machine.Reachable final :=
  ⟨state, starts, reachable_from_run ran⟩

theorem run_append (machine : Machine State Action) (state : State) (first second : List Action) :
    machine.run state (first ++ second) =
      (machine.run state first).bind fun mid => machine.run mid second := by
  induction first generalizing state with
  | nil => rfl
  | cons action rest ih =>
      simp only [List.cons_append, run]
      cases machine.step state action with
      | none => rfl
      | some next => exact ih next

/-- The invariant rule: what initial states have and steps keep, every
reachable state has. -/
theorem invariant_of_reachable (machine : Machine State Action) (Invariant : State → Prop)
    (starts : ∀ state, machine.initial state → Invariant state)
    (keeps : ∀ state action next, Invariant state →
      machine.step state action = some next → Invariant next)
    {state : State} (reached : machine.Reachable state) : Invariant state := by
  obtain ⟨start, initially, path⟩ := reached
  induction path with
  | refl => exact starts _ initially
  | tail _ stepped ih =>
      obtain ⟨action, stepped⟩ := stepped
      exact keeps _ action _ ih stepped

theorem guarded_step {allowed : State → Action → Bool} {state next : State} {action : Action}
    (stepped : (machine.guarded allowed).step state action = some next) :
    allowed state action = true ∧ machine.step state action = some next := by
  simp only [guarded] at stepped
  split at stepped
  · next granted => exact ⟨granted, stepped⟩
  · cases stepped

theorem reachable_of_guarded {allowed : State → Action → Bool} {state : State}
    (reached : (machine.guarded allowed).Reachable state) : machine.Reachable state := by
  refine invariant_of_reachable (machine.guarded allowed) machine.Reachable ?_ ?_ reached
  · exact fun _ starts => reachable_initial starts
  · exact fun _ _ _ before stepped => reachable_step before (guarded_step stepped).2

theorem reachable_from_mono {other : Machine State Action}
    (covers : ∀ state action next, machine.step state action = some next →
      other.step state action = some next)
    {start state : State} (path : machine.ReachableFrom start state) :
    other.ReachableFrom start state := by
  have moves : machine.Next ≤ other.Next := by
    intro before after moved
    obtain ⟨action, stepped⟩ := moved
    exact ⟨action, covers before action after stepped⟩
  exact Relation.ReflTransGen.mono moves _ _ path

theorem reachable_path {start state : State} (reached : machine.Reachable start)
    (path : machine.ReachableFrom start state) : machine.Reachable state := by
  obtain ⟨origin, starts, before⟩ := reached
  exact ⟨origin, starts, before.trans path⟩

end Machine

/-- A forward simulation with stuttering: one concrete step is matched by any
number of abstract ones. -/
structure Simulation {State Action Abstract Move : Type*}
    (concrete : Machine State Action) (abstract : Machine Abstract Move)
    (Related : State → Abstract → Prop) : Prop where
  starts : ∀ state, concrete.initial state →
    ∃ view, abstract.initial view ∧ Related state view
  steps : ∀ state action next view, Related state view →
    concrete.step state action = some next →
      ∃ after, abstract.ReachableFrom view after ∧ Related next after

theorem Simulation.reachable {State Action Abstract Move : Type*}
    {concrete : Machine State Action} {abstract : Machine Abstract Move}
    {Related : State → Abstract → Prop} (simulation : Simulation concrete abstract Related)
    {state : State} (reached : concrete.Reachable state) :
    ∃ view, abstract.Reachable view ∧ Related state view := by
  refine Machine.invariant_of_reachable concrete
    (fun state => ∃ view, abstract.Reachable view ∧ Related state view) ?_ ?_ reached
  · intro start initially
    obtain ⟨view, abstractly, related⟩ := simulation.starts start initially
    exact ⟨view, Machine.reachable_initial abstractly, related⟩
  · intro before action after ih stepped
    obtain ⟨view, ⟨start, abstractly, path⟩, related⟩ := ih
    obtain ⟨next, moves, linked⟩ := simulation.steps before action after view related stepped
    exact ⟨next, ⟨start, abstractly, path.trans moves⟩, linked⟩

end AdaptIpc.Library.Transition

import AdaptIpc.Library.Transition
import Mathlib.Data.Finset.Union

/-!
# Resources acquired and given back

A program leaves a trace of the resources it acquires and releases, and of the
named objects it creates and unlinks. Custody follows the resources from what is
held at the start; it fails where something held is acquired once more, so that
one copy is lost, and where something not held is released. What a trace never
mentions can be held around it. A name outlives the resources that were opened
under it: creating it again and unlinking it when it is gone change nothing, and
what is left of the names is followed apart.
-/

namespace AdaptIpc.Library.Custody

open AdaptIpc.Library.Transition

set_option autoImplicit false

inductive Use (Resource Name : Type*) where
  | acquire (resource : Resource)
  | release (resource : Resource)
  | create (name : Name)
  | unlink (name : Name)
  deriving DecidableEq

section Traces

variable {Resource Name : Type*} [DecidableEq Resource]

def Use.subject : Use Resource Name → Option Resource
  | .acquire resource => some resource
  | .release resource => some resource
  | _ => none

def Use.act (held : Finset Resource) : Use Resource Name → Option (Finset Resource)
  | .acquire resource => if resource ∈ held then none else some (insert resource held)
  | .release resource => if resource ∈ held then some (held.erase resource) else none
  | _ => some held

def custody (held : Finset Resource) : List (Use Resource Name) → Option (Finset Resource)
  | [] => some held
  | use :: rest => (use.act held).bind fun next => custody next rest

variable {held middle after around : Finset Resource}

theorem custody_append (first second : List (Use Resource Name)) :
    custody held (first ++ second) =
      (custody held first).bind fun middle => custody middle second := by
  induction first generalizing held with
  | nil => rfl
  | cons use rest ih =>
      simp only [List.cons_append, custody]
      cases use.act held with
      | none => rfl
      | some next => exact ih

theorem custody_chain {first second : List (Use Resource Name)}
    (early : custody held first = some middle) (late : custody middle second = some after) :
    custody held (first ++ second) = some after := by
  rw [custody_append, early]
  exact late

theorem act_around {use : Use Resource Name} (acted : use.act held = some after)
    (apart : ∀ resource ∈ use.subject, resource ∉ around) :
    use.act (held ∪ around) = some (after ∪ around) := by
  cases use with
  | acquire resource =>
      simp only [Use.act] at acted ⊢
      split at acted
      · cases acted
      · next free =>
        cases acted
        have outside : resource ∉ around := apart resource rfl
        have still : resource ∉ held ∪ around := by
          rw [Finset.mem_union]
          exact fun inside => inside.elim free outside
        rw [if_neg still, Finset.insert_union]
  | release resource =>
      simp only [Use.act] at acted ⊢
      split at acted
      · next taken =>
        cases acted
        have outside : resource ∉ around := apart resource rfl
        rw [if_pos (Finset.mem_union_left around taken), Finset.erase_union_distrib,
          Finset.erase_eq_of_notMem outside]
      · cases acted
  | create name =>
      cases acted
      rfl
  | unlink name =>
      cases acted
      rfl

theorem custody_around {trace : List (Use Resource Name)}
    (kept : custody held trace = some after)
    (apart : ∀ use ∈ trace, ∀ resource ∈ use.subject, resource ∉ around) :
    custody (held ∪ around) trace = some (after ∪ around) := by
  induction trace generalizing held with
  | nil =>
      cases kept
      rfl
  | cons use rest ih =>
      simp only [custody] at kept ⊢
      obtain ⟨next, acted, later⟩ := Option.bind_eq_some_iff.mp kept
      rw [act_around acted (apart use List.mem_cons_self)]
      exact ih later fun other member => apart other (List.mem_cons_of_mem use member)

end Traces

section Names

variable {Resource Name : Type*} [DecidableEq Name]

def Use.name (present : Finset Name) : Use Resource Name → Finset Name
  | .create name => insert name present
  | .unlink name => present.erase name
  | _ => present

/-- The names there are behind the trace. -/
def remaining (present : Finset Name) : List (Use Resource Name) → Finset Name
  | [] => present
  | use :: rest => remaining (use.name present) rest

def created : List (Use Resource Name) → Finset Name
  | [] => ∅
  | .create name :: rest => insert name (created rest)
  | _ :: rest => created rest

def Use.keeps : Use Resource Name → Bool
  | .unlink _ => false
  | _ => true

theorem remaining_append (present : Finset Name) (first second : List (Use Resource Name)) :
    remaining present (first ++ second) = remaining (remaining present first) second := by
  induction first generalizing present with
  | nil => rfl
  | cons use rest ih => exact ih (use.name present)

theorem created_append (first second : List (Use Resource Name)) :
    created (first ++ second) = created first ∪ created second := by
  induction first with
  | nil => rw [List.nil_append, created, Finset.empty_union]
  | cons use rest ih =>
      cases use with
      | create name => simp only [List.cons_append, created, ih, Finset.insert_union]
      | _ => exact ih

theorem remaining_kept {trace : List (Use Resource Name)} (present : Finset Name)
    (kept : ∀ use ∈ trace, use.keeps = true) :
    remaining present trace = present ∪ created trace := by
  induction trace generalizing present with
  | nil => rw [remaining, created, Finset.union_empty]
  | cons use rest ih =>
      have later := ih (use.name present) fun other member =>
        kept other (List.mem_cons_of_mem use member)
      have first := kept use List.mem_cons_self
      rw [remaining, later]
      cases use with
      | create name => rw [Use.name, created, Finset.insert_union, Finset.union_insert]
      | unlink name => cases first
      | _ => rfl

theorem created_resources {trace : List (Use Resource Name)}
    (resources : ∀ use ∈ trace, use.subject.isSome = true) : created trace = ∅ := by
  induction trace with
  | nil => rfl
  | cons use rest ih =>
      have later := ih fun other member => resources other (List.mem_cons_of_mem use member)
      have first := resources use List.mem_cons_self
      cases use with
      | acquire resource => exact later
      | release resource => exact later
      | create name => cases first
      | unlink name => cases first

omit [DecidableEq Name] in
theorem Use.keeps_resource {use : Use Resource Name} (resource : use.subject.isSome = true) :
    use.keeps = true := by
  cases use with
  | unlink name => cases resource
  | _ => rfl

theorem remaining_resources {trace : List (Use Resource Name)} (present : Finset Name)
    (resources : ∀ use ∈ trace, use.subject.isSome = true) :
    remaining present trace = present := by
  rw [remaining_kept present fun use member => Use.keeps_resource (resources use member),
    created_resources resources, Finset.union_empty]

end Names

section Machines

variable {State Action Resource Name : Type*}
variable {machine : Machine State Action}

def runUses (machine : Machine State Action)
    (uses : State → Action → List (Use Resource Name)) :
    State → List Action → List (Use Resource Name)
  | _, [] => []
  | state, action :: rest =>
      uses state action ++
        match machine.step state action with
        | some next => runUses machine uses next rest
        | none => []

theorem run_custody [DecidableEq Resource] {uses : State → Action → List (Use Resource Name)}
    {footprint : State → Finset Resource} {holds : State → Prop}
    (moves : ∀ state action next, holds state → machine.step state action = some next →
      holds next ∧ custody (footprint state) (uses state action) = some (footprint next))
    {state final : State} {actions : List Action} (held : holds state)
    (ran : machine.run state actions = some final) :
    holds final ∧
      custody (footprint state) (runUses machine uses state actions) =
        some (footprint final) := by
  induction actions generalizing state with
  | nil =>
      cases ran
      exact ⟨held, rfl⟩
  | cons action rest ih =>
      simp only [Machine.run] at ran
      split at ran
      · next next stepped =>
        obtain ⟨kept, moved⟩ := moves state action next held stepped
        obtain ⟨settled, later⟩ := ih kept ran
        refine ⟨settled, ?_⟩
        simp only [runUses, stepped]
        exact custody_chain moved later
      · cases ran

theorem run_remaining [DecidableEq Name] {uses : State → Action → List (Use Resource Name)}
    {leaves : State → Finset Name → Prop}
    (moves : ∀ state action next present, leaves state present →
      machine.step state action = some next →
        leaves next (remaining present (uses state action)))
    {state final : State} {actions : List Action} {present : Finset Name}
    (left : leaves state present) (ran : machine.run state actions = some final) :
    leaves final (remaining present (runUses machine uses state actions)) := by
  induction actions generalizing state present with
  | nil =>
      cases ran
      exact left
  | cons action rest ih =>
      simp only [Machine.run] at ran
      split at ran
      · next next stepped =>
        simp only [runUses, stepped, remaining_append]
        exact ih (moves state action next present left stepped) ran
      · cases ran

theorem run_keeps {uses : State → Action → List (Use Resource Name)}
    (kept : ∀ state action, ∀ use ∈ uses state action, use.keeps = true) (state : State)
    (actions : List Action) : ∀ use ∈ runUses machine uses state actions, use.keeps = true := by
  induction actions generalizing state with
  | nil =>
      intro use member
      cases member
  | cons action rest ih =>
      intro use member
      simp only [runUses] at member
      rcases List.mem_append.mp member with now | later
      · exact kept state action use now
      · split at later
        · next next stepped => exact ih next use later
        · cases later

end Machines

end AdaptIpc.Library.Custody

import AdaptIpc.Library.Stream

/-!
# Fair infinite runs

Weak fairness to a party: it does not stay enabled for ever without its turn.
A response rule: while a wait goes on, one party can always move and lowers a
rank when it does, and nobody raises the rank or takes the move from it; then
under fairness to every party the wait ends. Parties that take turns show that fair
runs exist.
-/

namespace AdaptIpc.Library.Transition

set_option autoImplicit false

section Fairness

variable {State Action Party : Type*} {step : State → Action → Option State}
variable {run : ℕ → State} {actions : ℕ → Action}

/-- Again and again the party moves, or none of its actions is enabled. -/
def WeaklyFair (step : State → Action → Option State) (own : Action → Bool) (run : ℕ → State)
    (actions : ℕ → Action) : Prop :=
  ∀ n, ∃ m, n ≤ m ∧
    (own (actions m) = true ∨ ∀ action, own action = true → step (run m) action = none)

/-- A wait whose helper can always move. A step ends the wait, lowers the rank, or is
not the helper's and leaves the helper its move. -/
structure Waits (step : State → Action → Option State) (own : Party → Action → Bool)
    (waiting : State → ℕ → Prop) (helper : State → Party)
    (ends : State → Action → State → Prop) : Prop where
  enabled : ∀ state rank, waiting state rank →
    ∃ action next, own (helper state) action = true ∧ step state action = some next
  moves : ∀ state rank action next, waiting state rank → step state action = some next →
    ends state action next ∨ (∃ lower, lower < rank ∧ waiting next lower) ∨
      waiting next rank ∧ helper next = helper state ∧ own (helper state) action = false

variable {own : Party → Action → Bool} {waiting : State → ℕ → Prop} {helper : State → Party}
variable {ends : State → Action → State → Prop}

/-- Up to the helper's next turn the wait has ended, or the rank has dropped, or the
helper is still to move. -/
theorem Waits.until_turn (waits : Waits step own waiting helper ends)
    (streams : Stream step run actions) {start rank : ℕ} (held : waiting (run start) rank)
    {turn : ℕ} (later : start ≤ turn) :
    (∃ m, start ≤ m ∧ ends (run m) (actions m) (run (m + 1))) ∨
      (∃ m lower, start ≤ m ∧ lower < rank ∧ waiting (run m) lower) ∨
      waiting (run turn) rank ∧ helper (run turn) = helper (run start) := by
  induction turn, later using Nat.le_induction with
  | base => exact Or.inr (Or.inr ⟨held, rfl⟩)
  | succ turn later ih =>
      rcases ih with ended | dropped | ⟨still, same⟩
      · exact Or.inl ended
      · exact Or.inr (Or.inl dropped)
      · rcases waits.moves (run turn) rank (actions turn) _ still (streams turn) with
          ended | ⟨lower, below, on⟩ | ⟨on, kept, _⟩
        · exact Or.inl ⟨turn, later, ended⟩
        · exact Or.inr (Or.inl ⟨turn + 1, lower, Nat.le_succ_of_le later, below, on⟩)
        · exact Or.inr (Or.inr ⟨on, kept.trans same⟩)

theorem Waits.response (waits : Waits step own waiting helper ends)
    (streams : Stream step run actions)
    (fair : ∀ party, WeaklyFair step (own party) run actions) {start rank : ℕ}
    (held : waiting (run start) rank) :
    ∃ m, start ≤ m ∧ ends (run m) (actions m) (run (m + 1)) := by
  induction rank using Nat.strong_induction_on generalizing start with
  | h rank ih =>
      obtain ⟨turn, later, taken⟩ := fair (helper (run start)) start
      rcases waits.until_turn streams held later with
        ended | ⟨m, lower, after, below, on⟩ | ⟨still, same⟩
      · exact ended
      · obtain ⟨last, beyond, ended⟩ := ih lower below on
        exact ⟨last, Nat.le_trans after beyond, ended⟩
      · have moved : own (helper (run start)) (actions turn) = true := by
          rcases taken with moved | stuck
          · exact moved
          · obtain ⟨action, next, owned, stepped⟩ := waits.enabled (run turn) rank still
            rw [same] at owned
            rw [stuck action owned] at stepped
            cases stepped
        rcases waits.moves (run turn) rank (actions turn) _ still (streams turn) with
          ended | ⟨lower, below, on⟩ | ⟨_, _, foreign⟩
        · exact ⟨turn, later, ended⟩
        · obtain ⟨last, beyond, ended⟩ := ih lower below on
          exact ⟨last, by omega, ended⟩
        · rw [same, moved] at foreign
          cases foreign

end Fairness

theorem stream_reachable {State Action : Type*} {machine : Machine State Action}
    {run : ℕ → State} {actions : ℕ → Action} (starts : machine.initial (run 0))
    (streams : Stream machine.step run actions) (n : ℕ) : machine.Reachable (run n) := by
  induction n with
  | zero => exact Machine.reachable_initial starts
  | succ n ih => exact Machine.reachable_step ih (streams n)

section Schedules

variable {State Action Party : Type*} {step : State → Action → Option State}
variable {own : Party → Action → Bool}

/-- Where somebody can always move, parties that take turns, each passing its turn on when
it has no move, give a fair stream. -/
theorem exists_fair_stream {good : State → Prop} {turns : ℕ → Party}
    (around : ∀ party n, ∃ m, n ≤ m ∧ turns m = party)
    (keeps : ∀ state action next, good state → step state action = some next → good next)
    (progress : ∀ state, good state →
      ∃ party action next, own party action = true ∧ step state action = some next)
    {state : State} (starts : good state) :
    ∃ run actions, run 0 = state ∧ Stream step run actions ∧
      (∀ party, WeaklyFair step (own party) run actions) ∧
      ∀ n, ∃ party, own party (actions n) = true := by
  have moves : ∀ n state, good state → ∃ action next, (∃ party, own party action = true) ∧
      step state action = some next ∧ (own (turns n) action = true ∨
        ∀ other, own (turns n) other = true → step state other = none) := by
    intro n state held
    by_cases stuck : ∀ other, own (turns n) other = true → step state other = none
    · obtain ⟨party, action, next, owned, stepped⟩ := progress state held
      exact ⟨action, next, ⟨party, owned⟩, stepped, Or.inr stuck⟩
    · simp only [not_forall] at stuck
      obtain ⟨action, owned, enabled⟩ := stuck
      obtain ⟨next, stepped⟩ := Option.ne_none_iff_exists'.mp enabled
      exact ⟨action, next, ⟨turns n, owned⟩, stepped, Or.inl owned⟩
  choose action next owned stepped turn using moves
  let walk : ℕ → { state // good state } := fun n =>
    Nat.rec ⟨state, starts⟩ (fun n here => ⟨next n here.1 here.2,
      keeps here.1 _ _ here.2 (stepped n here.1 here.2)⟩) n
  refine ⟨fun n => (walk n).1, fun n => action n (walk n).1 (walk n).2, rfl, ?_, ?_, ?_⟩
  · intro n
    exact stepped n (walk n).1 (walk n).2
  · intro party n
    obtain ⟨m, later, same⟩ := around party n
    refine ⟨m, later, ?_⟩
    rw [← same]
    exact turn m (walk m).1 (walk m).2
  · intro n
    exact owned n (walk n).1 (walk n).2

variable {machine : Machine State Action}

/-- Steps in front of a stream. -/
theorem stem_stream {run : ℕ → State} {actions : ℕ → Action} {start : State}
    {stem : List Action} (streams : Stream machine.step run actions)
    (ran : machine.run start stem = some (run 0)) :
    ∃ run' actions', run' 0 = start ∧ Stream machine.step run' actions' ∧
      (∀ n, run' (stem.length + n) = run n) ∧
      (∀ n, actions' (stem.length + n) = actions n) ∧
      ∀ i (inside : i < stem.length), actions' i = stem[i] := by
  induction stem generalizing start with
  | nil =>
      simp only [Machine.run, Option.some.injEq] at ran
      refine ⟨run, actions, ran.symm, streams, ?_, ?_, ?_⟩
      · exact fun n => by rw [List.length_nil, Nat.zero_add]
      · exact fun n => by rw [List.length_nil, Nat.zero_add]
      · exact fun i inside => absurd inside (Nat.not_lt_zero i)
  | cons action rest ih =>
      simp only [Machine.run] at ran
      split at ran
      · next next stepped =>
        obtain ⟨after, acts, starts, follows, states, moves, early⟩ := ih ran
        refine ⟨fun n => Nat.casesOn n start after, fun n => Nat.casesOn n action acts, rfl,
          ?_, ?_, ?_, ?_⟩
        · intro n
          cases n with
          | zero =>
              rw [← starts] at stepped
              exact stepped
          | succ n => exact follows n
        · intro n
          rw [List.length_cons, Nat.add_right_comm]
          exact states n
        · intro n
          rw [List.length_cons, Nat.add_right_comm]
          exact moves n
        · intro i inside
          cases i with
          | zero => rfl
          | succ i => exact early i (Nat.lt_of_succ_lt_succ inside)
      · cases ran

theorem WeaklyFair.behind {own : Action → Bool} {run run' : ℕ → State}
    {actions actions' : ℕ → Action} (fair : WeaklyFair step own run actions) (stem : ℕ)
    (states : ∀ n, run' (stem + n) = run n) (moves : ∀ n, actions' (stem + n) = actions n) :
    WeaklyFair step own run' actions' := by
  intro n
  obtain ⟨m, later, taken⟩ := fair n
  refine ⟨stem + m, Nat.le_trans later (Nat.le_add_left m stem), ?_⟩
  rw [moves, states]
  exact taken

end Schedules

end AdaptIpc.Library.Transition

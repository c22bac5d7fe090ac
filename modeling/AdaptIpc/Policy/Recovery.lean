import AdaptIpc.Policy.Debounce

/-!
# Recovery from BLOCKED

A blocked transport comes back to HEALTHY through DEGRADED or RECOVERING, never
directly, and each stage is paid for with `debounce` good samples without a bad
one among them: the good counter is cleared by every bad sample and by every
change of state, so it never exceeds the good samples since both.
-/

namespace AdaptIpc.Policy

set_option autoImplicit false

def stateAfter (debounce : UInt32) (history : List HealthSample) : AdaptHealthState :=
  (healthAfter debounce history).state

def returned (debounce : UInt32) (older : List HealthSample) (sample : HealthSample) : Bool :=
  (updateResult (healthAfter debounce older) sample).2

def returnedCount (debounce : UInt32) : List HealthSample → ℕ
  | [] => 0
  | sample :: older =>
      returnedCount debounce older + if returned debounce older sample = true then 1 else 0

def sinceChange (debounce : UInt32) : List HealthSample → List HealthSample
  | [] => []
  | sample :: older =>
      if stateAfter debounce (sample :: older) = stateAfter debounce older then
        sample :: sinceChange debounce older
      else []

/-- The samples after the update that last entered the state. -/
def sinceEntered (debounce : UInt32) (state : AdaptHealthState) :
    List HealthSample → List HealthSample
  | [] => []
  | sample :: older =>
      if stateAfter debounce (sample :: older) = state ∧ stateAfter debounce older ≠ state then []
      else sample :: sinceEntered debounce state older

def Visited (debounce : UInt32) (state : AdaptHealthState) : List HealthSample → Prop
  | [] => stateAfter debounce [] = state
  | sample :: older => stateAfter debounce (sample :: older) = state ∨ Visited debounce state older

def notBad (sample : HealthSample) : Bool := decide (sample.classify ≠ .bad)

/-- The newest samples up to the last bad one. -/
def calmStretch (samples : List HealthSample) : List HealthSample := samples.takeWhile notBad

def goodSamples (samples : List HealthSample) : ℕ := samples.countP (isClass .good)

theorem good_samples_cons (sample : HealthSample) (older : List HealthSample) :
    goodSamples (sample :: older) =
      goodSamples older + if sample.classify = .good then 1 else 0 := by
  simp only [goodSamples, List.countP_cons, isClass, decide_eq_true_eq]

theorem calm_stretch_calm {sample : HealthSample} (older : List HealthSample)
    (calm : sample.classify ≠ .bad) :
    calmStretch (sample :: older) = sample :: calmStretch older := by
  simp [calmStretch, notBad, calm]

structure RecoveryEarned (debounce : UInt32) : Prop where
  gradual : ∀ sample older, stateAfter debounce older = .blocked →
    stateAfter debounce (sample :: older) ≠ .healthy
  mapped : ∀ sample older, stateAfter debounce older ≠ .unavailable →
    stateAfter debounce (sample :: older) ≠ .unavailable
  earned : ∀ sample older, Visited debounce .blocked older →
    stateAfter debounce older ≠ .healthy → stateAfter debounce (sample :: older) = .healthy →
      debounce.toNat ≤ goodSamples (calmStretch (sample :: sinceChange debounce older))
  staged : ∀ sample older, stateAfter debounce older ≠ .recovering →
    stateAfter debounce (sample :: older) = .recovering → stateAfter debounce older = .blocked
  twice : ∀ sample older, stateAfter debounce older = .recovering →
    stateAfter debounce (sample :: older) = .healthy →
      Visited debounce .blocked older ∧
        2 * debounce.toNat ≤ goodSamples (sample :: sinceEntered debounce .blocked older)
  counted : ∀ history,
    (healthAfter debounce history).transitions = UInt32.ofNat (returnedCount debounce history)
  returns : ∀ sample older, returned debounce older sample = true ↔
    stateAfter debounce (sample :: older) ≠ stateAfter debounce older

/-- A step on the state, the return value and the counters: a kept state lets the good
counter grow by good samples only, a new one has a target that the counter paid for. -/
inductive Outcome (h : AdaptHealth) (sample : HealthSample) (next : AdaptHealth) (changed : Bool) :
    Prop where
  | kept (state : next.state = h.state) (silent : changed = false)
      (transitions : next.transitions = h.transitions)
      (counter : next.goodStreak = 0 ∨ sample.classify ≠ .bad ∧
        next.goodStreak.toNat ≤ h.goodStreak.toNat + if sample.classify = .good then 1 else 0)
  | entered (state : h.state ≠ next.state) (loud : changed = true)
      (transitions : next.transitions = h.transitions + 1) (counter : next.goodStreak = 0)
      (target : BadTarget h sample next.state ∨
        sample.classify = .good ∧ GoodTarget h next.state)

theorem step_outcome {h next : AdaptHealth} {sample : HealthSample} {changed : Bool}
    (stepped : HealthStep h sample (next, changed)) : Outcome h sample next changed := by
  cases stepped with
  | ignored cls =>
      have calm : sample.classify ≠ .bad := by
        rw [cls]
        decide
      exact .kept rfl rfl rfl (Or.inr ⟨calm, Nat.le_add_right _ _⟩)
  | badKept count cls once => exact .kept rfl rfl rfl (Or.inl rfl)
  | badEntered target cls leaves reached => exact .entered leaves rfl rfl rfl (Or.inl reached)
  | goodKept count cls once =>
      have calm : sample.classify ≠ .bad := by
        rw [cls]
        decide
      refine .kept rfl rfl rfl (Or.inr ⟨calm, ?_⟩)
      rw [if_pos cls]
      exact word_once once
  | goodEntered target cls leaves reached =>
      exact .entered leaves rfl rfl rfl (Or.inr ⟨cls, reached⟩)

theorem newest_outcome (debounce : UInt32) (sample : HealthSample) (older : List HealthSample) :
    Outcome (healthAfter debounce older) sample (healthAfter debounce (sample :: older))
      (returned debounce older sample) :=
  step_outcome (health_stepped (healthAfter debounce older) sample)

theorem healthy_entered {h next : AdaptHealth} {sample : HealthSample} {changed : Bool}
    (outcome : Outcome h sample next changed) (before : h.state ≠ .healthy)
    (mapped : h.state ≠ .unavailable) (healthy : next.state = .healthy) :
    h.state ≠ .blocked ∧ sample.classify = .good ∧ h.debounce ≤ h.goodStreak + 1 := by
  cases outcome with
  | kept state silent transitions counter => exact absurd (state.symm.trans healthy) before
  | entered state loud transitions counter target =>
      rw [healthy] at target
      rcases target with bad | ⟨good, target⟩
      · cases bad
      · cases target with
        | mapped first => exact absurd first mapped
        | healthy mapped unblocked long => exact ⟨unblocked, good, long⟩

theorem recovering_entered {h next : AdaptHealth} {sample : HealthSample} {changed : Bool}
    (outcome : Outcome h sample next changed) (before : h.state ≠ .recovering)
    (recovering : next.state = .recovering) :
    h.state = .blocked ∧ sample.classify = .good ∧ h.debounce ≤ h.goodStreak + 1 := by
  cases outcome with
  | kept state silent transitions counter => exact absurd (state.symm.trans recovering) before
  | entered state loud transitions counter target =>
      rw [recovering] at target
      rcases target with bad | ⟨good, target⟩
      · cases bad
      · cases target with
        | recovering blocked long => exact ⟨blocked, good, long⟩

theorem unavailable_left {h next : AdaptHealth} {sample : HealthSample} {changed : Bool}
    (outcome : Outcome h sample next changed) (mapped : h.state ≠ .unavailable) :
    next.state ≠ .unavailable := by
  intro unavailable
  cases outcome with
  | kept state silent transitions counter => exact mapped (state.symm.trans unavailable)
  | entered state loud transitions counter target =>
      rw [unavailable] at target
      rcases target with bad | ⟨good, target⟩
      · cases bad
      · cases target

section Runs

variable {debounce : UInt32} {sample : HealthSample} {older : List HealthSample}

theorem debounce_kept (positive : debounce ≠ 0) (history : List HealthSample) :
    (healthAfter debounce history).debounce = debounce := by
  induction history with
  | nil => simp [healthAfter, adaptHealthInit, positive]
  | cons sample older ih =>
      have stepped := health_stepped (healthAfter debounce older) sample
      change (updateResult (healthAfter debounce older) sample).1.debounce = debounce
      generalize updateResult (healthAfter debounce older) sample = result at stepped ⊢
      cases stepped <;> exact ih

theorem counter_within_calm (debounce : UInt32) (history : List HealthSample) :
    (healthAfter debounce history).goodStreak.toNat ≤
      goodSamples (calmStretch (sinceChange debounce history)) := by
  induction history with
  | nil => exact Nat.zero_le _
  | cons sample older ih =>
      cases newest_outcome debounce sample older with
      | kept state silent transitions counter =>
          rcases counter with cleared | ⟨calm, within⟩
          · rw [cleared]
            exact Nat.zero_le _
          · have still : stateAfter debounce (sample :: older) = stateAfter debounce older := state
            rw [sinceChange, if_pos still, calm_stretch_calm _ calm, good_samples_cons]
            exact within.trans (Nat.add_le_add_right ih _)
      | entered state loud transitions counter target =>
          rw [counter]
          exact Nat.zero_le _

theorem visited_mapped {history : List HealthSample} (visited : Visited debounce .blocked history) :
    stateAfter debounce history ≠ .unavailable := by
  induction history with
  | nil =>
      intro unavailable
      exact absurd (visited.symm.trans unavailable) (by decide)
  | cons sample older ih =>
      rcases visited with now | before
      · rw [now]
        decide
      · exact unavailable_left (newest_outcome debounce sample older) (ih before)

/-- What the stages after the last entry into BLOCKED have paid for so far. -/
structure StagesPaid (debounce : UInt32) (history : List HealthSample) : Prop where
  blocked : stateAfter debounce history = .blocked →
    (healthAfter debounce history).goodStreak.toNat ≤
      goodSamples (sinceEntered debounce .blocked history)
  recovering : stateAfter debounce history = .recovering → Visited debounce .blocked history ∧
    debounce.toNat + (healthAfter debounce history).goodStreak.toNat ≤
      goodSamples (sinceEntered debounce .blocked history)

theorem full_counter {h : AdaptHealth} (threshold : h.debounce = debounce)
    (long : h.debounce ≤ h.goodStreak + 1) : debounce.toNat ≤ h.goodStreak.toNat + 1 := by
  rw [threshold] at long
  exact le_trans (show debounce.toNat ≤ (h.goodStreak + 1).toNat from long)
    (word_succ_le h.goodStreak)

theorem since_entered_grows (still : ¬(stateAfter debounce (sample :: older) = .blocked ∧
    stateAfter debounce older ≠ .blocked)) :
    goodSamples (sinceEntered debounce .blocked (sample :: older)) =
      goodSamples (sinceEntered debounce .blocked older) +
        if sample.classify = .good then 1 else 0 := by
  rw [sinceEntered, if_neg still, good_samples_cons]

theorem stages_paid (positive : debounce ≠ 0) (history : List HealthSample) :
    StagesPaid debounce history := by
  induction history with
  | nil =>
      constructor
      · intro blocked
        exact Nat.zero_le _
      · intro recovering
        have start : stateAfter debounce [] = .unavailable := rfl
        exact absurd (start.symm.trans recovering) (by decide)
  | cons sample older ih =>
      have outcome := newest_outcome debounce sample older
      constructor
      · intro blocked
        cases outcome with
        | kept state silent transitions counter =>
            have before : stateAfter debounce older = .blocked := state.symm.trans blocked
            rw [since_entered_grows fun entered => entered.2 before]
            rcases counter with cleared | ⟨calm, within⟩
            · rw [cleared]
              exact Nat.zero_le _
            · exact within.trans (Nat.add_le_add_right (ih.blocked before) _)
        | entered state loud transitions counter target =>
            rw [counter]
            exact Nat.zero_le _
      · intro recovering
        have unblocked : ¬(stateAfter debounce (sample :: older) = .blocked ∧
            stateAfter debounce older ≠ .blocked) := fun entered =>
          absurd (entered.1.symm.trans recovering) (by decide)
        rw [since_entered_grows unblocked]
        cases outcome with
        | kept state silent transitions counter =>
            have before : stateAfter debounce older = .recovering := state.symm.trans recovering
            obtain ⟨visited, paid⟩ := ih.recovering before
            refine ⟨Or.inr visited, ?_⟩
            rcases counter with cleared | ⟨calm, within⟩
            · rw [cleared]
              have zero : (0 : UInt32).toNat = 0 := rfl
              omega
            · omega
        | entered state loud transitions counter target =>
            have before : stateAfter debounce older ≠ .recovering := fun same =>
              state (same.trans recovering.symm)
            obtain ⟨blocked, good, long⟩ :=
              recovering_entered (newest_outcome debounce sample older) before recovering
            have enough := full_counter (debounce_kept positive older) long
            have paid := ih.blocked blocked
            have zero : (0 : UInt32).toNat = 0 := rfl
            refine ⟨Or.inr ?_, ?_⟩
            · cases older with
              | nil => exact blocked
              | cons previous rest => exact Or.inl blocked
            · rw [counter, if_pos good]
              omega

theorem transitions_counted (debounce : UInt32) (history : List HealthSample) :
    (healthAfter debounce history).transitions = UInt32.ofNat (returnedCount debounce history) := by
  induction history with
  | nil => rfl
  | cons sample older ih =>
      cases newest_outcome debounce sample older with
      | kept state silent transitions counter =>
          rw [transitions, ih, returnedCount, silent]
          rfl
      | entered state loud transitions counter target =>
          rw [transitions, ih, returnedCount, loud, if_pos rfl, UInt32.ofNat_add]
          rfl

end Runs

/-- Recovery from BLOCKED is earned, whatever the samples. -/
theorem recovery_earned (debounce : UInt32) (positive : 1 ≤ debounce) : RecoveryEarned debounce := by
  have nonzero : debounce ≠ 0 := by
    intro zero
    rw [zero] at positive
    exact absurd positive (by decide)
  constructor
  case gradual =>
    intro sample older blocked healthy
    have before : stateAfter debounce older ≠ .healthy := by
      rw [blocked]
      decide
    have mapped : stateAfter debounce older ≠ .unavailable := by
      rw [blocked]
      decide
    exact (healthy_entered (newest_outcome debounce sample older) before mapped healthy).1 blocked
  case mapped =>
    intro sample older mapped
    exact unavailable_left (newest_outcome debounce sample older) mapped
  case earned =>
    intro sample older visited before healthy
    obtain ⟨_, good, long⟩ := healthy_entered (newest_outcome debounce sample older) before
      (visited_mapped visited) healthy
    have calm : sample.classify ≠ .bad := by
      rw [good]
      decide
    rw [calm_stretch_calm _ calm, good_samples_cons, if_pos good]
    exact (full_counter (debounce_kept nonzero older) long).trans
      (Nat.succ_le_succ (counter_within_calm debounce older))
  case staged =>
    intro sample older before recovering
    exact (recovering_entered (newest_outcome debounce sample older) before recovering).1
  case twice =>
    intro sample older recovering healthy
    have before : stateAfter debounce older ≠ .healthy := by
      rw [recovering]
      decide
    have mapped : stateAfter debounce older ≠ .unavailable := by
      rw [recovering]
      decide
    obtain ⟨_, good, long⟩ :=
      healthy_entered (newest_outcome debounce sample older) before mapped healthy
    obtain ⟨visited, paid⟩ := (stages_paid nonzero older).recovering recovering
    have enough := full_counter (debounce_kept nonzero older) long
    refine ⟨visited, ?_⟩
    rw [good_samples_cons, if_pos good]
    omega
  case counted => exact transitions_counted debounce
  case returns =>
    intro sample older
    cases newest_outcome debounce sample older with
    | kept state silent transitions counter =>
        rw [silent]
        exact iff_of_false (by decide) fun changed => changed state
    | entered state loud transitions counter target =>
        rw [loud]
        exact iff_of_true rfl fun same => state same.symm

def recoveringRun : List HealthSample :=
  [atPercent 0, atPercent 0, atPercent 0, atPercent 100, atPercent 100, atPercent 0]

theorem recovery_earned_two :
    2 * (2 : UInt32).toNat ≤
      goodSamples (atPercent 0 :: sinceEntered 2 .blocked recoveringRun) :=
  ((recovery_earned 2 (by decide)).twice (atPercent 0) recoveringRun (by decide +kernel)
    (by decide +kernel)).2

end AdaptIpc.Policy

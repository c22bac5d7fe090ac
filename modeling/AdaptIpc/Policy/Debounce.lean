import AdaptIpc.Policy.RuntimeContext
import AdaptIpc.Library.Streak

/-!
# The debounce of the health machine

`transport_health.c` promises that the state changes only after `debounce`
consecutive samples of one class. Its counters are not reset by a sample of
neither class, and from DEGRADED one sample at the blocked occupancy is enough;
in a run without these two the promise holds at every change.
-/

namespace AdaptIpc.Policy

open AdaptIpc.Library.Streak

set_option autoImplicit false

/-- The arguments of one `adapt_health_update_shm`. -/
structure HealthSample where
  occBytes : UInt64
  capacity : UInt64
  drainValid : Bool
  arrivalBps : ℚ
  drainBps : ℚ

def HealthSample.occFrac (sample : HealthSample) : ℚ :=
  Policy.occFrac sample.occBytes sample.capacity

def HealthSample.deficit (sample : HealthSample) : Prop :=
  0 < sample.occBytes ∧ sample.drainValid = true ∧ 0 < sample.arrivalBps ∧
    sample.drainBps < drainDeficitFrac * sample.arrivalBps

instance (sample : HealthSample) : Decidable sample.deficit :=
  inferInstanceAs (Decidable (_ ∧ _))

inductive SampleClass where
  | bad
  | good
  | other
  deriving DecidableEq

/-- The class of a sample; a deficit at a low occupancy counts as bad. -/
def HealthSample.classify (sample : HealthSample) : SampleClass :=
  if sample.capacity = 0 then .other
  else if degradedOccFrac ≤ sample.occFrac ∨ sample.deficit then .bad
  else if sample.occFrac ≤ recoveredOccFrac then .good
  else .other

def HealthSample.blocks (sample : HealthSample) : Bool :=
  decide (sample.capacity ≠ 0 ∧ blockedOccFrac ≤ sample.occFrac)

def justification : AdaptHealthState → SampleClass
  | .degraded => .bad
  | .blocked => .bad
  | _ => .good

def updateHealth (h : AdaptHealth) (sample : HealthSample) : AdaptHealth :=
  (adaptHealthUpdateShm h sample.occBytes sample.capacity sample.drainValid sample.arrivalBps
    sample.drainBps).1

def healthAfter (debounce : UInt32) : List HealthSample → AdaptHealth
  | [] => adaptHealthInit debounce
  | sample :: older => updateHealth (healthAfter debounce older) sample

def isClass (cls : SampleClass) (sample : HealthSample) : Bool := decide (sample.classify = cls)

/-- A sample that neither falls into a running streak without being of its class, nor
blocks a DEGRADED transport out of the blue. -/
def stepSafe (debounce : UInt32) (older : List HealthSample) (sample : HealthSample) : Bool :=
  let h := healthAfter debounce older
  (decide (sample.classify ≠ .other) || decide (debounce = 1) ||
    (decide (h.goodStreak = 0) && (decide (h.badStreak = 0) || decide (h.state = .degraded)))) &&
  (!sample.blocks || decide (h.state ≠ .degraded) ||
    decide (debounce.toNat ≤ streak (isClass .bad) older + 1))

def Safe (debounce : UInt32) : List HealthSample → Prop
  | [] => True
  | sample :: older => stepSafe debounce older sample = true ∧ Safe debounce older

instance decidableSafe (debounce : UInt32) :
    (history : List HealthSample) → Decidable (Safe debounce history)
  | [] => .isTrue trivial
  | sample :: older =>
      have := decidableSafe debounce older
      inferInstanceAs (Decidable (stepSafe debounce older sample = true ∧ Safe debounce older))

section Update

variable {h : AdaptHealth} {sample : HealthSample}

/-- A sample of a class moves only the counter of that class, up by at most one, and
clears the other; a change of state clears both. -/
structure Moved (counter other : AdaptHealth → UInt32) (h next : AdaptHealth)
    (threshold : Prop) : Prop where
  debounce : next.debounce = h.debounce
  cleared : other next = 0
  counted : next.state = h.state ∧ (counter next).toNat ≤ (counter h).toNat + 1 ∨
    counter next = 0 ∧ threshold

def enterState (h : AdaptHealth) (s : AdaptHealthState) : AdaptHealth :=
  { h with state := s, transitions := h.transitions + 1, badStreak := 0, goodStreak := 0 }

theorem set_state_moved (h : AdaptHealth) (s : AdaptHealthState) :
    setState h s = (h, false) ∨ h.state ≠ s ∧ setState h s = (enterState h s, true) := by
  unfold setState
  split
  · next different => exact Or.inr ⟨different, rfl⟩
  · exact Or.inl rfl

inductive BadTarget (h : AdaptHealth) (sample : HealthSample) : AdaptHealthState → Prop where
  | degraded (long : h.debounce ≤ h.badStreak + 1) : BadTarget h sample .degraded
  | blocked (blocks : sample.blocks = true)
      (long : h.debounce ≤ h.badStreak + 1 ∨ h.state = .degraded) : BadTarget h sample .blocked

inductive GoodTarget (h : AdaptHealth) : AdaptHealthState → Prop where
  | mapped (first : h.state = .unavailable) : GoodTarget h .healthy
  | recovering (blocked : h.state = .blocked) (long : h.debounce ≤ h.goodStreak + 1) :
      GoodTarget h .recovering
  | healthy (mapped : h.state ≠ .unavailable) (unblocked : h.state ≠ .blocked)
      (long : h.debounce ≤ h.goodStreak + 1) : GoodTarget h .healthy

/-- What one update does, with its return value. -/
inductive HealthStep (h : AdaptHealth) (sample : HealthSample) : AdaptHealth × Bool → Prop where
  | ignored (cls : sample.classify = .other) : HealthStep h sample (h, false)
  | badKept (count : UInt32) (cls : sample.classify = .bad)
      (once : count = h.badStreak ∨ count = h.badStreak + 1) :
      HealthStep h sample ({ h with goodStreak := 0, badStreak := count }, false)
  | badEntered (target : AdaptHealthState) (cls : sample.classify = .bad)
      (leaves : h.state ≠ target) (reached : BadTarget h sample target) :
      HealthStep h sample (enterState h target, true)
  | goodKept (count : UInt32) (cls : sample.classify = .good)
      (once : count = h.goodStreak ∨ count = h.goodStreak + 1) :
      HealthStep h sample ({ h with badStreak := 0, goodStreak := count }, false)
  | goodEntered (target : AdaptHealthState) (cls : sample.classify = .good)
      (leaves : h.state ≠ target) (reached : GoodTarget h target) :
      HealthStep h sample (enterState h target, true)

theorem bad_enters {target : AdaptHealthState} (cls : sample.classify = .bad)
    (reached : BadTarget h sample target) :
    HealthStep h sample
      (setState { h with goodStreak := 0, badStreak := h.badStreak + 1 } target) := by
  rcases set_state_moved { h with goodStreak := 0, badStreak := h.badStreak + 1 } target with
    stays | ⟨leaves, entered⟩
  · rw [stays]
    exact .badKept _ cls (Or.inr rfl)
  · rw [entered]
    exact .badEntered target cls leaves reached

theorem good_enters {target : AdaptHealthState} {count : UInt32} (cls : sample.classify = .good)
    (once : count = h.goodStreak ∨ count = h.goodStreak + 1) (reached : GoodTarget h target) :
    HealthStep h sample (setState { h with badStreak := 0, goodStreak := count } target) := by
  rcases set_state_moved { h with badStreak := 0, goodStreak := count } target with
    stays | ⟨leaves, entered⟩
  · rw [stays]
    exact .goodKept count cls once
  · rw [entered]
    exact .goodEntered target cls leaves reached

/-- The update of `sample`, with its return value. -/
def updateResult (h : AdaptHealth) (sample : HealthSample) : AdaptHealth × Bool :=
  adaptHealthUpdateShm h sample.occBytes sample.capacity sample.drainValid sample.arrivalBps
    sample.drainBps

theorem bad_stepped (cls : sample.classify = .bad) :
    HealthStep h sample (updateResult h sample) := by
  have own := cls
  simp only [HealthSample.classify] at cls
  split_ifs at cls with empty bad
  simp only [updateResult, adaptHealthUpdateShm, if_neg empty]
  by_cases full : blockedOccFrac ≤ sample.occFrac
  · have blocks : sample.blocks = true := decide_eq_true ⟨empty, full⟩
    simp only [HealthSample.occFrac] at full
    simp only [full, if_true]
    split
    · next long => exact bad_enters own (.blocked blocks long)
    · exact .badKept _ own (Or.inr rfl)
  · simp only [HealthSample.occFrac, HealthSample.deficit] at full bad
    simp only [full, bad, if_true, if_false]
    split
    · split
      · split
        · next long => exact bad_enters own (.degraded long)
        · exact .badKept _ own (Or.inr rfl)
      · exact .badKept _ own (Or.inl rfl)
    · split
      · next long => exact bad_enters own (.degraded long)
      · exact .badKept _ own (Or.inr rfl)

theorem blocked_above_degraded : degradedOccFrac ≤ blockedOccFrac := by
  unfold degradedOccFrac blockedOccFrac
  norm_num

theorem good_stepped (cls : sample.classify = .good) :
    HealthStep h sample (updateResult h sample) := by
  have own := cls
  simp only [HealthSample.classify] at cls
  split_ifs at cls with empty bad good
  rw [not_or] at bad
  have low : ¬blockedOccFrac ≤ sample.occFrac := fun high =>
    bad.1 (blocked_above_degraded.trans high)
  have calm := not_or.mpr bad
  simp only [HealthSample.occFrac, HealthSample.deficit] at low calm good
  simp only [updateResult, adaptHealthUpdateShm, if_neg empty, low, calm, good, if_true, if_false]
  split
  · next first => exact good_enters own (Or.inl rfl) (.mapped first)
  · next mapped =>
    split
    · split
      · next long =>
        split
        · next blocked => exact good_enters own (Or.inr rfl) (.recovering blocked long)
        · next unblocked => exact good_enters own (Or.inr rfl) (.healthy mapped unblocked long)
      · exact .goodKept _ own (Or.inr rfl)
    · exact .goodKept _ own (Or.inl rfl)

theorem other_stepped (cls : sample.classify = .other) : updateResult h sample = (h, false) := by
  simp only [HealthSample.classify] at cls
  simp only [updateResult, adaptHealthUpdateShm]
  split_ifs at cls with empty bad good
  · rw [if_pos empty]
  · rw [not_or] at bad
    have low : ¬blockedOccFrac ≤ sample.occFrac := fun high =>
      bad.1 (blocked_above_degraded.trans high)
    have calm := not_or.mpr bad
    rw [if_neg empty]
    simp only [HealthSample.occFrac, HealthSample.deficit] at low calm good
    simp only [low, calm, good, if_false]

theorem health_stepped (h : AdaptHealth) (sample : HealthSample) :
    HealthStep h sample (updateResult h sample) := by
  cases cls : sample.classify with
  | bad => exact bad_stepped cls
  | good => exact good_stepped cls
  | other =>
      rw [other_stepped cls]
      exact .ignored cls

theorem word_succ_le (count : UInt32) : (count + 1).toNat ≤ count.toNat + 1 := by
  rw [UInt32.toNat_add]
  exact Nat.mod_le _ _

theorem word_once {count : UInt32} {before : UInt32} (once : count = before ∨ count = before + 1) :
    count.toNat ≤ before.toNat + 1 := by
  rcases once with same | more
  · rw [same]
    exact Nat.le_succ _
  · rw [more]
    exact word_succ_le before

theorem update_other (cls : sample.classify = .other) : updateHealth h sample = h :=
  congrArg Prod.fst (other_stepped cls)

theorem update_bad (cls : sample.classify = .bad) :
    Moved AdaptHealth.badStreak AdaptHealth.goodStreak h (updateHealth h sample)
      (BadTarget h sample (updateHealth h sample).state) := by
  have stepped := health_stepped h sample
  change Moved _ _ h (updateResult h sample).1 (BadTarget h sample (updateResult h sample).1.state)
  generalize updateResult h sample = result at stepped ⊢
  cases stepped with
  | ignored other => exact absurd (other.symm.trans cls) (by decide)
  | badKept count _ once => exact ⟨rfl, rfl, Or.inl ⟨rfl, word_once once⟩⟩
  | badEntered target _ leaves reached => exact ⟨rfl, rfl, Or.inr ⟨rfl, reached⟩⟩
  | goodKept count good => exact absurd (good.symm.trans cls) (by decide)
  | goodEntered target good => exact absurd (good.symm.trans cls) (by decide)

theorem update_good (cls : sample.classify = .good) :
    Moved AdaptHealth.goodStreak AdaptHealth.badStreak h (updateHealth h sample)
      (GoodTarget h (updateHealth h sample).state) := by
  have stepped := health_stepped h sample
  change Moved _ _ h (updateResult h sample).1 (GoodTarget h (updateResult h sample).1.state)
  generalize updateResult h sample = result at stepped ⊢
  cases stepped with
  | ignored other => exact absurd (other.symm.trans cls) (by decide)
  | badKept count bad => exact absurd (bad.symm.trans cls) (by decide)
  | badEntered target bad => exact absurd (bad.symm.trans cls) (by decide)
  | goodKept count _ once => exact ⟨rfl, rfl, Or.inl ⟨rfl, word_once once⟩⟩
  | goodEntered target _ leaves reached => exact ⟨rfl, rfl, Or.inr ⟨rfl, reached⟩⟩

end Update

/-- The counters against the history: each is within the streak of its class, except
the bad one in DEGRADED, which nothing reads there. -/
structure CountersHold (debounce : UInt32) (history : List HealthSample) : Prop where
  threshold : (healthAfter debounce history).debounce = debounce
  bad : debounce = 1 ∨ (healthAfter debounce history).state = .degraded ∨
    (healthAfter debounce history).badStreak.toNat ≤ streak (isClass .bad) history
  good : debounce = 1 ∨
    (healthAfter debounce history).goodStreak.toNat ≤ streak (isClass .good) history

section Runs

variable {debounce : UInt32} {sample : HealthSample} {older : List HealthSample}

theorem counters_start (positive : debounce ≠ 0) : CountersHold debounce [] where
  threshold := by simp [healthAfter, adaptHealthInit, positive]
  bad := Or.inr (Or.inr (Nat.zero_le _))
  good := Or.inr (Nat.zero_le _)

theorem class_streak {cls : SampleClass} (same : sample.classify = cls) :
    streak (isClass cls) (sample :: older) = streak (isClass cls) older + 1 :=
  streak_extend older (decide_eq_true same)

theorem counters_step (held : CountersHold debounce older)
    (safe : stepSafe debounce older sample = true) : CountersHold debounce (sample :: older) := by
  cases cls : sample.classify with
  | other =>
      have same : healthAfter debounce (sample :: older) = healthAfter debounce older :=
        update_other cls
      have quiet : debounce = 1 ∨ (healthAfter debounce older).goodStreak = 0 ∧
          ((healthAfter debounce older).badStreak = 0 ∨
            (healthAfter debounce older).state = .degraded) := by
        simp only [stepSafe, cls, Bool.and_eq_true, Bool.or_eq_true, decide_eq_true_eq] at safe
        rcases safe.1 with (differs | one) | calm
        · exact absurd rfl differs
        · exact Or.inl one
        · exact Or.inr calm
      constructor
      · rw [same]
        exact held.threshold
      · rw [same]
        rcases quiet with one | ⟨_, zero | degraded⟩
        · exact Or.inl one
        · apply Or.inr
          rw [zero]
          exact Or.inr (Nat.zero_le _)
        · exact Or.inr (Or.inl degraded)
      · rw [same]
        rcases quiet with one | ⟨zero, _⟩
        · exact Or.inl one
        · apply Or.inr
          rw [zero]
          exact Nat.zero_le _
  | bad =>
      have moved := @update_bad (healthAfter debounce older) sample cls
      constructor
      · exact moved.debounce.trans held.threshold
      · rw [class_streak cls]
        rcases moved.counted with ⟨state, count⟩ | ⟨zero, _⟩
        · rcases held.bad with one | degraded | within
          · exact Or.inl one
          · exact Or.inr (Or.inl (state.trans degraded))
          · exact Or.inr (Or.inr (count.trans (Nat.succ_le_succ within)))
        · apply Or.inr
          apply Or.inr
          have cleared : (healthAfter debounce (sample :: older)).badStreak = 0 := zero
          rw [cleared]
          exact Nat.zero_le _
      · apply Or.inr
        have cleared : (healthAfter debounce (sample :: older)).goodStreak = 0 := moved.cleared
        rw [cleared]
        exact Nat.zero_le _
  | good =>
      have moved := @update_good (healthAfter debounce older) sample cls
      constructor
      · exact moved.debounce.trans held.threshold
      · apply Or.inr
        apply Or.inr
        have cleared : (healthAfter debounce (sample :: older)).badStreak = 0 := moved.cleared
        rw [cleared]
        exact Nat.zero_le _
      · rw [class_streak cls]
        rcases moved.counted with ⟨_, count⟩ | ⟨zero, _⟩
        · rcases held.good with one | within
          · exact Or.inl one
          · exact Or.inr (count.trans (Nat.succ_le_succ within))
        · apply Or.inr
          have cleared : (healthAfter debounce (sample :: older)).goodStreak = 0 := zero
          rw [cleared]
          exact Nat.zero_le _

theorem safe_counters {history : List HealthSample} (positive : debounce ≠ 0)
    (safe : Safe debounce history) : CountersHold debounce history := by
  induction history with
  | nil => exact counters_start positive
  | cons sample older ih => exact counters_step (ih safe.2) safe.1

theorem counted_streak {count : UInt32} {length : Nat} (reached : debounce ≤ count + 1)
    (within : debounce = 1 ∨ count.toNat ≤ length) : debounce.toNat ≤ length + 1 := by
  rcases within with one | within
  · rw [one]
    exact Nat.succ_le_succ (Nat.zero_le _)
  · have word : debounce.toNat ≤ (count + 1).toNat := reached
    exact word.trans ((word_succ_le count).trans (Nat.succ_le_succ within))

/-- Every change of state but the first comes after a streak of its class. -/
theorem change_after_streak (positive : debounce ≠ 0) (safe : Safe debounce (sample :: older))
    (changed : (healthAfter debounce (sample :: older)).state ≠
      (healthAfter debounce older).state)
    (later : ¬((healthAfter debounce older).state = .unavailable ∧
      (healthAfter debounce (sample :: older)).state = .healthy)) :
    debounce.toNat ≤ streak (isClass (justification
      (healthAfter debounce (sample :: older)).state)) (sample :: older) := by
  have held := safe_counters positive safe.2
  have own := safe.1
  cases cls : sample.classify with
  | other => exact absurd (congrArg AdaptHealth.state (update_other cls)) changed
  | bad =>
      rcases (@update_bad (healthAfter debounce older) sample cls).counted with
        ⟨same, _⟩ | ⟨_, target⟩
      · exact absurd same changed
      · change BadTarget _ sample (healthAfter debounce (sample :: older)).state at target
        generalize entered : (healthAfter debounce (sample :: older)).state = state at *
        cases target with
        | degraded long =>
            rw [justification, class_streak cls]
            apply counted_streak (le_of_eq_of_le held.threshold.symm long)
            rcases held.bad with one | stayed | within
            · exact Or.inl one
            · exact absurd stayed.symm changed
            · exact Or.inr within
        | blocked blocks long =>
            rw [justification, class_streak cls]
            by_cases degraded : (healthAfter debounce older).state = .degraded
            · simp only [stepSafe, blocks, degraded, Bool.and_eq_true, Bool.or_eq_true,
                decide_eq_true_eq] at own
              simpa using own.2
            · apply counted_streak (le_of_eq_of_le held.threshold.symm
                (long.resolve_right degraded))
              rcases held.bad with one | stayed | within
              · exact Or.inl one
              · exact absurd stayed degraded
              · exact Or.inr within
  | good =>
      rcases (@update_good (healthAfter debounce older) sample cls).counted with
        ⟨same, _⟩ | ⟨_, target⟩
      · exact absurd same changed
      · change GoodTarget _ (healthAfter debounce (sample :: older)).state at target
        generalize entered : (healthAfter debounce (sample :: older)).state = state at *
        cases target with
        | mapped first => exact absurd ⟨first, rfl⟩ later
        | recovering blocked long =>
            rw [show justification .recovering = .good from rfl, class_streak cls]
            exact counted_streak (le_of_eq_of_le held.threshold.symm long) held.good
        | healthy mapped unblocked long =>
            rw [show justification .healthy = .good from rfl, class_streak cls]
            exact counted_streak (le_of_eq_of_le held.threshold.symm long) held.good

end Runs

/-- The debounce law: at every change of state but the first, the last `debounce`
samples are of the class that justifies it; a sample unlike the one before it changes
nothing. -/
theorem debounce_law (debounce : UInt32) (positive : 1 ≤ debounce) (sample : HealthSample)
    (older : List HealthSample) (safe : Safe debounce (sample :: older))
    (changed : (healthAfter debounce (sample :: older)).state ≠
      (healthAfter debounce older).state)
    (later : ¬((healthAfter debounce older).state = .unavailable ∧
      (healthAfter debounce (sample :: older)).state = .healthy)) :
    debounce.toNat ≤ (sample :: older).length ∧
      (∀ recent ∈ (sample :: older).take debounce.toNat, recent.classify =
        justification (healthAfter debounce (sample :: older)).state) ∧
      (2 ≤ debounce → ∃ previous rest, older = previous :: rest ∧
        previous.classify = sample.classify) := by
  have nonzero : debounce ≠ 0 := by
    intro zero
    rw [zero] at positive
    exact absurd positive (by decide)
  obtain ⟨long, recent⟩ := recent_of_streak (change_after_streak nonzero safe changed later)
  have classes : ∀ recent ∈ (sample :: older).take debounce.toNat, recent.classify =
      justification (healthAfter debounce (sample :: older)).state := fun other member =>
    of_decide_eq_true (recent other member)
  refine ⟨long, classes, ?_⟩
  intro several
  have two : 2 ≤ debounce.toNat := several
  cases older with
  | nil => simp only [List.length_singleton] at long; omega
  | cons previous rest =>
      refine ⟨previous, rest, rfl, ?_⟩
      obtain ⟨more, split⟩ := Nat.exists_eq_add_of_le' two
      rw [split, List.take_succ_cons, List.take_succ_cons] at classes
      exact (classes previous (by simp)).trans (classes sample (by simp)).symm

def atPercent (percent : UInt64) : HealthSample where
  occBytes := percent
  capacity := 100
  drainValid := false
  arrivalBps := 0
  drainBps := 0

theorem debounce_law_two_high :
    (healthAfter 2 [atPercent 85, atPercent 85, atPercent 0]).state = .degraded ∧
      (atPercent 85).classify = .bad := by
  have law := (debounce_law 2 (by decide) (atPercent 85) [atPercent 85, atPercent 0]
    (by decide +kernel) (by decide +kernel) (by decide +kernel)).2.1
  have entered : (healthAfter 2 [atPercent 85, atPercent 85, atPercent 0]).state = .degraded := by
    decide +kernel
  rw [entered] at law
  exact ⟨entered, law (atPercent 85) (List.mem_cons_self ..)⟩

/-- One full sample behind an empty one blocks a DEGRADED transport whose debounce is
4, and two high samples degrade one of debounce 2 across a sample of neither class. -/
theorem outlier_changes_state :
    ((healthAfter 4 [atPercent 0, atPercent 85, atPercent 85, atPercent 85, atPercent 85,
        atPercent 0]).state = .degraded ∧
      (healthAfter 4 [atPercent 100, atPercent 0, atPercent 85, atPercent 85, atPercent 85,
        atPercent 85, atPercent 0]).state = .blocked ∧
      (atPercent 0).classify = .good) ∧
    (healthAfter 2 [atPercent 50, atPercent 85, atPercent 0]).state = .healthy ∧
      (healthAfter 2 [atPercent 85, atPercent 50, atPercent 85, atPercent 0]).state = .degraded ∧
      (atPercent 50).classify = .other := by
  decide +kernel

end AdaptIpc.Policy

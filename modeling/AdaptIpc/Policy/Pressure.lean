import AdaptIpc.Policy.Noise

/-!
# Pressure on the ring

How the predicted wait in the ring and the health penalty move a decision. More
backlog or a larger penalty never brings a message back to SHM. The escape from
a slow consumer is another matter: the prediction replaces a drain rate below
the floor by the floor, so it falls short of the backlog exactly where the
consumer was measured to be slower than that.
-/

namespace AdaptIpc.Policy

set_option autoImplicit false

/-- An estimate that `adapt_rtctx_queue_wait_us` trusts, with a positive rate. -/
structure ReliableDrain (rt : AdaptRtctx) (clock : UInt64) : Prop where
  samples : rt.minSamples ≤ rt.samples
  valid : rt.drainValid = true
  observed : rt.lastDrainNs ≠ 0
  past : rt.lastDrainNs ≤ clock
  recent : clock - rt.lastDrainNs < adaptDrainStaleNs
  positive : 0 < rt.ewmaDrainBps

def measuredBacklogUs (rt : AdaptRtctx) : ℚ :=
  ((smoothedOcc rt).toNat : ℚ) / rt.ewmaDrainBps * 1000000

theorem drain_floor_positive : 0 < adaptDrainFloorBps := by decide +kernel

theorem floored_quotient (trusted : ℚ) (occ : UInt64) :
    (if occ = 0 then (0 : ℚ)
      else (occ.toNat : ℚ) /
        (if trusted ≤ adaptDrainFloorBps then adaptDrainFloorBps else trusted) * 1000000) =
      (occ.toNat : ℚ) / max adaptDrainFloorBps trusted * 1000000 := by
  split
  · next empty =>
    rw [empty]
    simp
  · split
    · next slow => rw [max_eq_left slow]
    · next fast => rw [max_eq_right (not_le.mp fast).le]

theorem queue_wait_rate (rc : Option AdaptRtctx) (clock : UInt64) :
    ∃ rate, 0 < rate ∧ ∀ occ : UInt64,
      adaptRtctxQueueWaitUs rc occ clock = (occ.toNat : ℚ) / rate * 1000000 := by
  have positive : ∀ trusted : ℚ, 0 < max adaptDrainFloorBps trusted := fun trusted =>
    drain_floor_positive.trans_le (le_max_left _ trusted)
  cases rc with
  | none => exact ⟨_, positive 0, floored_quotient 0⟩
  | some rc => exact ⟨_, positive _, floored_quotient _⟩

theorem queue_wait_nonneg (rc : Option AdaptRtctx) (occ clock : UInt64) :
    0 ≤ adaptRtctxQueueWaitUs rc occ clock := by
  obtain ⟨rate, positive, wait⟩ := queue_wait_rate rc clock
  rw [wait]
  exact mul_nonneg (div_nonneg (Nat.cast_nonneg _) positive.le) (by norm_num)

theorem queue_wait_mono (rc : Option AdaptRtctx) (clock : UInt64) {occ more : UInt64}
    (grown : occ.toNat ≤ more.toNat) :
    adaptRtctxQueueWaitUs rc occ clock ≤ adaptRtctxQueueWaitUs rc more clock := by
  obtain ⟨rate, positive, wait⟩ := queue_wait_rate rc clock
  rw [wait, wait]
  apply mul_le_mul_of_nonneg_right _ (by norm_num)
  exact div_le_div_of_nonneg_right (Nat.cast_le.mpr grown) positive.le

theorem reliable_wait {rt : AdaptRtctx} {clock : UInt64} (reliable : ReliableDrain rt clock)
    (occ : UInt64) :
    adaptRtctxQueueWaitUs (some rt) occ clock =
      (occ.toNat : ℚ) / max adaptDrainFloorBps rt.ewmaDrainBps * 1000000 := by
  have trusted : rt.minSamples ≤ rt.samples ∧ rt.drainValid = true ∧ rt.lastDrainNs ≠ 0 ∧
      rt.lastDrainNs ≤ clock ∧ clock - rt.lastDrainNs < adaptDrainStaleNs :=
    ⟨reliable.samples, reliable.valid, reliable.observed, reliable.past, reliable.recent⟩
  simp only [adaptRtctxQueueWaitUs, if_pos trusted]
  exact floored_quotient rt.ewmaDrainBps occ

/-- The prediction falls short of the measured backlog behind every consumer slower than
the floor. -/
theorem wait_covers_backlog_iff {rt : AdaptRtctx} {clock : UInt64}
    (reliable : ReliableDrain rt clock) :
    measuredBacklogUs rt ≤ adaptRtctxQueueWaitUs (some rt) (smoothedOcc rt) clock ↔
      adaptDrainFloorBps ≤ rt.ewmaDrainBps ∨ smoothedOcc rt = 0 := by
  rw [reliable_wait reliable, measuredBacklogUs]
  constructor
  · intro covered
    by_contra neither
    obtain ⟨slow, filled⟩ := not_or.mp neither
    have below := not_le.mp slow
    have bytes : 0 < ((smoothedOcc rt).toNat : ℚ) := by
      apply Nat.cast_pos.mpr
      apply Nat.pos_of_ne_zero
      exact fun zero => filled (UInt64.toNat.inj zero)
    rw [max_eq_left below.le] at covered
    have shorter := div_lt_div_of_pos_left bytes reliable.positive below
    exact absurd covered (not_le.mpr (mul_lt_mul_of_pos_right shorter (by norm_num)))
  · rintro (fast | empty)
    · rw [max_eq_right fast]
    · simp [empty]

/-- The queue-aware policy, and the full-adaptive one while it learns. -/
def EscapesByPressure (policy : AdaptPolicyMode) (cfg : AdaptCostCfg) (input : DecideInput) : Prop :=
  policy = .queueAware ∨ policy = .fullAdaptive ∧ coldStart cfg input = true

/-- What is held against SHM: the predicted wait, and in the cold start the health. -/
def ringPressure (policy : AdaptPolicyMode) (cfg : AdaptCostCfg) (input : DecideInput) : ℚ :=
  queueEstimate input + if policy = .fullAdaptive then healthPenalty cfg input else 0

def escapeThresholdUs (cfg : AdaptCostCfg) (input : DecideInput) : ℚ :=
  adaptCostUds cfg input.payload + cfg.switchCostUs

theorem cold_decides_uds_iff (cfg : AdaptCostCfg) (input : DecideInput) :
    (decideSizeHysteresis true cfg input).selected = .uds ↔
      if adaptTauHigh ≤ input.ewmaSize then
        input.rt.isSome = true ∧
          escapeThresholdUs cfg input < queueEstimate input + healthPenalty cfg input ∧
          input.payload + 1 ≤ udsMaxDgram
      else sizeHysteresisRoute input.ewmaSize input.current = .uds := by
  simp only [decideSizeHysteresis, if_true, coldStartEscape, queueEstimate]
  by_cases high : adaptTauHigh ≤ input.ewmaSize
  · have shm : sizeHysteresisRoute input.ewmaSize input.current = .shm := by
      simp only [sizeHysteresisRoute, high, if_true]
    cases input.rt with
    | none => simp [shm, high]
    | some rt =>
        simp only [shm, high, and_self, if_true, escapeThresholdUs, Option.isSome_some, true_and]
        split
        · next escapes => exact iff_of_true rfl escapes
        · next stays => exact iff_of_false (by simp) stays
  · cases input.rt <;> simp only [high, and_false, if_false]

theorem queue_aware_decides_uds_iff (cfg : AdaptCostCfg) (input : DecideInput) (occ : UInt64)
    (qShm : ℚ) :
    (decideQueueAware cfg input occ qShm).selected = .uds ↔
      if adaptTauHigh ≤ input.ewmaSize then
        escapeThresholdUs cfg input < qShm ∧ input.payload + 1 ≤ udsMaxDgram
      else sizeHysteresisRoute input.ewmaSize input.current = .uds := by
  simp only [decideQueueAware]
  by_cases high : adaptTauHigh ≤ input.ewmaSize
  · simp only [high, if_true, escapeThresholdUs]
    split
    · next escapes => exact iff_of_true rfl escapes
    · next stays => exact iff_of_false (by simp) stays
  · simp only [high, if_false]

/-- Above the high threshold these policies select UDS exactly for a pressure beyond the
cost of the escape, where the message fits a datagram. -/
theorem pressed_decides_uds_iff {policy : AdaptPolicyMode} {cfg : AdaptCostCfg}
    {input : DecideInput} (escapes : EscapesByPressure policy cfg input) :
    (adaptPolicyDecide policy cfg input).1.selected = .uds ↔
      if adaptTauHigh ≤ input.ewmaSize then
        (policy = .fullAdaptive → input.rt.isSome = true) ∧
          escapeThresholdUs cfg input < ringPressure policy cfg input ∧
          input.payload + 1 ≤ udsMaxDgram
      else sizeHysteresisRoute input.ewmaSize input.current = .uds := by
  rcases escapes with rfl | ⟨rfl, cold⟩
  · simp only [adaptPolicyDecide, ringPressure, reduceCtorEq, if_false, add_zero, false_implies,
      true_and]
    exact queue_aware_decides_uds_iff cfg input _ _
  · simp only [adaptPolicyDecide, cold, if_true, ringPressure, forall_const]
    exact cold_decides_uds_iff cfg input

/-- The prediction covers the measured backlog, and a backlog that costs more than the
escape selects UDS. -/
structure EscapesSlowConsumer (policy : AdaptPolicyMode) (cfg : AdaptCostCfg) (input : DecideInput)
    (rt : AdaptRtctx) : Prop where
  covers : measuredBacklogUs rt ≤
    adaptRtctxQueueWaitUs (some rt) (smoothedOcc rt) input.waitClock
  selects : escapeThresholdUs cfg input < measuredBacklogUs rt →
    (adaptPolicyDecide policy cfg input).1.selected = .uds

theorem health_penalty_nonneg {cfg : AdaptCostCfg} (penalties : ∀ state, 0 ≤ cfg.healthPenaltyUs state)
    (input : DecideInput) : 0 ≤ healthPenalty cfg input := by
  simp only [healthPenalty]
  split
  · split
    · exact penalties _
    · exact le_refl 0
  · exact le_refl 0

/-- Slow consumers trigger the escape exactly where the measured rate is not below the
floor, or nothing is queued. -/
theorem slow_consumer_escapes_iff {policy : AdaptPolicyMode} {cfg : AdaptCostCfg}
    {input : DecideInput} {rt : AdaptRtctx} (penalties : ∀ state, 0 ≤ cfg.healthPenaltyUs state)
    (escapes : EscapesByPressure policy cfg input) (sampled : input.rt = some rt)
    (reliable : ReliableDrain rt input.waitClock) (fits : input.payload + 1 ≤ udsMaxDgram)
    (high : adaptTauHigh ≤ input.ewmaSize) :
    EscapesSlowConsumer policy cfg input rt ↔
      adaptDrainFloorBps ≤ rt.ewmaDrainBps ∨ smoothedOcc rt = 0 := by
  constructor
  · exact fun held => (wait_covers_backlog_iff reliable).mp held.covers
  · intro measured
    have covers := (wait_covers_backlog_iff reliable).mpr measured
    refine ⟨covers, ?_⟩
    intro slow
    rw [pressed_decides_uds_iff escapes, if_pos high]
    have penalty : 0 ≤ if policy = .fullAdaptive then healthPenalty cfg input else 0 := by
      split
      · exact health_penalty_nonneg penalties input
      · exact le_refl 0
    have queue : queueEstimate input =
        adaptRtctxQueueWaitUs (some rt) (smoothedOcc rt) input.waitClock := by
      simp only [queueEstimate, sampled]
    refine ⟨fun _ => by rw [sampled]; rfl, ?_, fits⟩
    rw [ringPressure, queue]
    linarith

/-- A consumer measured at `rate` bytes per second behind a backlog of `occ` bytes. -/
def measuredConsumer (rate occ : ℚ) : AdaptRtctx :=
  { adaptRtctxInit 8 with
    ewmaDrainBps := rate, ewmaOccBytes := occ, samples := 100, drainValid := true,
    lastDrainNs := 1000000 }

def behindConsumer (rate occ : ℚ) : DecideInput where
  rt := some (measuredConsumer rate occ)
  learn := none
  health := none
  shmMapped := true
  ewmaSize := 5000
  current := .shm
  payload := 100
  nowNs := 2000000
  waitClock := 2000000

theorem measured_consumer_reliable {rate : ℚ} (occ : ℚ) (positive : 0 < rate) :
    ReliableDrain (measuredConsumer rate occ) 2000000 where
  samples := show (8 : UInt32) ≤ 100 by decide
  valid := rfl
  observed := show (1000000 : UInt64) ≠ 0 by decide
  past := show (1000000 : UInt64) ≤ 2000000 by decide
  recent := show (2000000 : UInt64) - 1000000 < 5000000 by decide
  positive := positive

theorem slow_consumer_escapes_100_mbps :
    EscapesSlowConsumer .queueAware adaptCostCfgDefaults (behindConsumer 100000000 4000)
      (measuredConsumer 100000000 4000) :=
  (slow_consumer_escapes_iff defaults_non_negative.healthPenaltyUs (Or.inl rfl) rfl
    (measured_consumer_reliable 4000 (by norm_num)) (by decide) (by decide +kernel)).mpr
    (Or.inl (by decide +kernel))

/-- A thousand bytes at one megabyte per second are a backlog of a millisecond, predicted
as twenty microseconds: the message stays behind them. -/
theorem slow_consumer_overlooked :
    ReliableDrain (measuredConsumer 1000000 1000) (behindConsumer 1000000 1000).waitClock ∧
      (behindConsumer 1000000 1000).payload + 1 ≤ udsMaxDgram ∧
      adaptTauHigh ≤ (behindConsumer 1000000 1000).ewmaSize ∧
      measuredBacklogUs (measuredConsumer 1000000 1000) = 1000 ∧
      queueEstimate (behindConsumer 1000000 1000) = 20 ∧
      escapeThresholdUs adaptCostCfgDefaults (behindConsumer 1000000 1000) <
        measuredBacklogUs (measuredConsumer 1000000 1000) ∧
      (adaptPolicyDecide .queueAware adaptCostCfgDefaults
        (behindConsumer 1000000 1000)).1.selected = .shm := by
  refine ⟨measured_consumer_reliable 1000 (by norm_num), by decide, ?_⟩
  decide +kernel

theorem latency_penalty_max (cfg : AdaptCostCfg) (latUds latShm : ℚ) :
    latencyPenalty cfg latUds latShm =
      if cfg.qos ≠ .throughput ∧ 0 < cfg.latencyBudgetUs then
        cfg.latencyWeight *
          max (max (latUds - cfg.latencyBudgetUs) 0) (max (latShm - cfg.latencyBudgetUs) 0)
      else 0 := by
  have overshoot : ∀ lat : ℚ, (if cfg.latencyBudgetUs < lat then lat - cfg.latencyBudgetUs else 0) =
      max (lat - cfg.latencyBudgetUs) 0 := by
    intro lat
    split
    · next exceeds => rw [max_eq_left (by linarith)]
    · next within => rw [max_eq_right (by linarith)]
  have larger : ∀ first second : ℚ, (if second < first then first else second) =
      max first second := by
    intro first second
    split
    · next more => rw [max_eq_left more.le]
    · next less => rw [max_eq_right (not_lt.mp less)]
  simp only [latencyPenalty, overshoot, larger]

theorem penalty_shift_antitone {cfg : AdaptCostCfg} (weight : 0 ≤ cfg.latencyWeight) (latUds : ℚ)
    {latShm slower : ℚ} (grown : latShm ≤ slower) :
    penaltyShift cfg latUds slower ≤ penaltyShift cfg latUds latShm := by
  have nonneg := latency_penalty_nonneg weight latUds
  by_cases first : latUds < latShm
  · rw [penaltyShift, penaltyShift, if_pos first, if_pos (first.trans_le grown), neg_le_neg_iff,
      latency_penalty_max, latency_penalty_max]
    split
    · apply mul_le_mul_of_nonneg_left _ weight
      exact max_le_max (le_refl _) (max_le_max (by linarith) (le_refl _))
    · exact le_refl 0
  · rw [penaltyShift, penaltyShift, if_neg first]
    by_cases second : latUds < slower
    · rw [if_pos second]
      linarith [nonneg slower, nonneg latShm]
    · -- Charged to UDS before and after, for its own overshoot.
      have own : ∀ lat : ℚ, ¬latUds < lat →
          max (max (latUds - cfg.latencyBudgetUs) 0) (max (lat - cfg.latencyBudgetUs) 0) =
            max (latUds - cfg.latencyBudgetUs) 0 := by
        intro lat faster
        exact max_eq_left (max_le_max (by linarith) (le_refl _))
      rw [if_neg second, latency_penalty_max, latency_penalty_max, own _ first, own _ second]

structure MorePressure (policy : AdaptPolicyMode) (cfg later : AdaptCostCfg)
    (input next : DecideInput) : Prop where
  current : next.current = input.current
  ewmaSize : next.ewmaSize = input.ewmaSize
  payload : next.payload = input.payload
  sampled : next.rt.isSome = input.rt.isSome
  cold : coldStart later next = coldStart cfg input
  margin : later.marginUs = cfg.marginUs
  switchCost : later.switchCostUs = cfg.switchCostUs
  threshold : escapeThresholdUs later next = escapeThresholdUs cfg input
  uds : udsEstimate later next = udsEstimate cfg input
  notify : notifyDelay later next = notifyDelay cfg input
  charge : penaltyShift later = penaltyShift cfg
  weight : later.latencyWeight = cfg.latencyWeight
  pressure : ringPressure policy cfg input ≤ ringPressure policy later next
  shm : shmEstimate cfg input ≤ shmEstimate later next
  extra : shmExtra policy cfg input ≤ shmExtra policy later next

section MorePressure

variable {policy : AdaptPolicyMode} {cfg later : AdaptCostCfg} {input next : DecideInput}

theorem MorePressure.advantage (pressed : MorePressure policy cfg later input next)
    (weight : 0 ≤ cfg.latencyWeight) :
    shmAdvantage policy later next ≤ shmAdvantage policy cfg input := by
  have slower : shmEstimate cfg input + notifyDelay cfg input ≤
      shmEstimate later next + notifyDelay cfg input := by
    linarith [pressed.shm]
  have charged := penalty_shift_antitone weight (udsEstimate cfg input) slower
  have switched : switchShift later next.current = switchShift cfg input.current := by
    rw [pressed.current]
    cases input.current <;> simp only [switchShift, pressed.switchCost]
  simp only [shmAdvantage, pressed.uds, pressed.notify, pressed.charge, switched]
  linarith [pressed.shm, pressed.extra]

theorem uds_chosen_antitone {margin advantage less : ℚ} {current : AdaptRoute}
    (smaller : less ≤ advantage) (chosen : udsChosen margin advantage current) :
    udsChosen margin less current := by
  cases current with
  | none => exact smaller.trans_lt chosen
  | shm => exact ⟨smaller.trans_lt chosen.1, smaller.trans_lt chosen.2⟩
  | uds => exact fun back => chosen ⟨back.1.trans smaller, back.2.trans_le smaller⟩

theorem compared_uds_iff (compares : policy.measures = true) (weight : 0 ≤ cfg.latencyWeight)
    (warm : policy = .fullAdaptive → coldStart cfg input = false) :
    (adaptPolicyDecide policy cfg input).1.selected = .uds ↔
      udsChosen cfg.marginUs (shmAdvantage policy cfg input) input.current := by
  rw [decide_compared compares warm, choose_uds_iff, compared_advantage policy input weight]

/-- A stronger case against SHM never brings a message back from UDS. -/
theorem MorePressure.keeps_uds (pressed : MorePressure policy cfg later input next)
    (weight : 0 ≤ cfg.latencyWeight)
    (queued : policy = .queueAware ∨ policy.measures = true)
    (selects : (adaptPolicyDecide policy cfg input).1.selected = .uds) :
    (adaptPolicyDecide policy later next).1.selected = .uds := by
  by_cases escapes : EscapesByPressure policy cfg input
  · have escapesLater : EscapesByPressure policy later next := by
      rw [EscapesByPressure, pressed.cold]
      exact escapes
    rw [pressed_decides_uds_iff escapes] at selects
    rw [pressed_decides_uds_iff escapesLater, pressed.ewmaSize, pressed.current, pressed.payload,
      pressed.threshold, pressed.sampled]
    split
    · next high =>
      rw [if_pos high] at selects
      exact ⟨selects.1, selects.2.1.trans_le pressed.pressure, selects.2.2⟩
    · next low =>
      rw [if_neg low] at selects
      exact selects
  · obtain ⟨other, cold⟩ := not_or.mp escapes
    have compares := queued.resolve_left other
    have warm : policy = .fullAdaptive → coldStart cfg input = false := fun full => by
      simpa using fun held => cold ⟨full, held⟩
    have warmLater : policy = .fullAdaptive → coldStart later next = false := fun full =>
      pressed.cold.trans (warm full)
    rw [compared_uds_iff compares weight warm] at selects
    rw [compared_uds_iff compares (pressed.weight ▸ weight) warmLater, pressed.margin,
      pressed.current]
    exact uds_chosen_antitone (pressed.advantage weight) selects

end MorePressure

theorem smoothed_occ_mono {rt : AdaptRtctx} {more : ℚ} (grown : rt.ewmaOccBytes ≤ more)
    (addressable : more < 2 ^ 64) :
    (smoothedOcc rt).toNat ≤ (smoothedOcc { rt with ewmaOccBytes := more }).toNat := by
  have floors : ⌊rt.ewmaOccBytes⌋₊ ≤ ⌊more⌋₊ := Nat.floor_mono grown
  have small : ⌊more⌋₊ < 2 ^ 64 := by
    rw [Nat.floor_lt' (by decide)]
    exact_mod_cast addressable
  simp only [smoothedOcc]
  rw [UInt64.toNat_ofNat_of_lt' small, UInt64.toNat_ofNat_of_lt' (floors.trans_lt small)]
  exact floors

theorem backlog_presses (policy : AdaptPolicyMode) (cfg : AdaptCostCfg) {input : DecideInput}
    {rt : AdaptRtctx} {more : ℚ} (sampled : input.rt = some rt) (grown : rt.ewmaOccBytes ≤ more)
    (addressable : more < 2 ^ 64) :
    MorePressure policy cfg cfg input
      { input with rt := some { rt with ewmaOccBytes := more } } := by
  have wait : queueEstimate input ≤
      queueEstimate { input with rt := some { rt with ewmaOccBytes := more } } := by
    simp only [queueEstimate, sampled]
    exact queue_wait_mono (some rt) input.waitClock (smoothed_occ_mono grown addressable)
  constructor
  case sampled => simp [sampled]
  case notify =>
    have active : consumerActive { input with rt := some { rt with ewmaOccBytes := more } } =
        consumerActive input := by
      simp only [consumerActive]
      rw [sampled]
    simp only [notifyDelay, active]
  case pressure =>
    simp only [ringPressure]
    exact add_le_add wait (le_refl _)
  case shm =>
    simp only [shmEstimate]
    exact add_le_add (le_refl _) wait
  case extra => exact le_refl _
  all_goals rfl

theorem penalty_presses (policy : AdaptPolicyMode) (cfg : AdaptCostCfg) {input : DecideInput}
    {health : AdaptHealth} {more : ℚ} (monitored : input.health = some health)
    (grown : cfg.healthPenaltyUs health.state ≤ more) :
    MorePressure policy cfg
      { cfg with healthPenaltyUs := Function.update cfg.healthPenaltyUs health.state more }
      input input := by
  have penalty : healthPenalty cfg input ≤ healthPenalty
      { cfg with healthPenaltyUs := Function.update cfg.healthPenaltyUs health.state more }
      input := by
    simp only [healthPenalty, monitored, Function.update_self]
    split
    · exact grown
    · exact le_refl 0
  have held : ∀ fullAdaptive : Prop, ∀ [Decidable fullAdaptive],
      (if fullAdaptive then healthPenalty cfg input else 0) ≤
        if fullAdaptive then healthPenalty
          { cfg with healthPenaltyUs := Function.update cfg.healthPenaltyUs health.state more }
          input else 0 := by
    intro fullAdaptive _
    split
    · exact penalty
    · exact le_refl 0
  constructor
  case pressure => exact add_le_add (le_refl _) (held _)
  case shm => exact le_refl _
  case extra => exact add_le_add (held _) (le_refl _)
  all_goals rfl

/-- Decisions are monotone in the pressure on the ring: UDS stays selected when only the
smoothed occupancy grows, or only the penalty of the current health state. -/
theorem uds_survives_pressure {policy : AdaptPolicyMode}
    (queued : policy = .queueAware ∨ policy = .costAware ∨ policy = .fullAdaptive)
    {cfg : AdaptCostCfg} (nonneg : cfg.NonNegative) (input : DecideInput)
    (selects : (adaptPolicyDecide policy cfg input).1.selected = .uds) :
    (∀ rt more, input.rt = some rt → rt.ewmaOccBytes ≤ more → more < 2 ^ 64 →
      (adaptPolicyDecide policy cfg
        { input with rt := some { rt with ewmaOccBytes := more } }).1.selected = .uds) ∧
    (∀ health more, input.health = some health → cfg.healthPenaltyUs health.state ≤ more →
      (adaptPolicyDecide policy
        { cfg with healthPenaltyUs := Function.update cfg.healthPenaltyUs health.state more }
        input).1.selected = .uds) := by
  have mode : policy = .queueAware ∨ policy.measures = true := by
    rcases queued with rfl | rfl | rfl
    · exact Or.inl rfl
    · exact Or.inr rfl
    · exact Or.inr rfl
  constructor
  · intro rt more sampled grown addressable
    exact (backlog_presses policy cfg sampled grown addressable).keeps_uds nonneg.latencyWeight
      mode selects
  · intro health more monitored grown
    exact (penalty_presses policy cfg monitored grown).keeps_uds nonneg.latencyWeight mode selects

theorem uds_survives_pressure_double_backlog :
    (adaptPolicyDecide .queueAware adaptCostCfgDefaults
      (behindConsumer 50000000 8000)).1.selected = .uds :=
  (uds_survives_pressure (Or.inl rfl) defaults_non_negative (behindConsumer 50000000 4000)
    (by decide +kernel)).1 (measuredConsumer 50000000 4000) 8000 rfl (by norm_num [measuredConsumer])
    (by norm_num)

end AdaptIpc.Policy

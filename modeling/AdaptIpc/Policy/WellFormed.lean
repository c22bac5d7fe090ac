import AdaptIpc.Policy.Learning
import AdaptIpc.Policy.Pressure

/-!
# Well-formed estimators and records

The learned lines, the runtime context and the health machine are fed by three
different paths, in any order, and every decision reads all of them. A refit
keeps only credible lines and writes both classes of a transport at once, the
smoothed rates are means of non-negative values, and so every amount in a
decision record is non-negative under every policy.
-/

namespace AdaptIpc.Policy

open AdaptIpc.Library.Smoothing AdaptIpc.Library.Transition

set_option autoImplicit false

structure Estimators where
  learn : AdaptLearn
  rt : AdaptRtctx
  health : AdaptHealth

/-- A call of `adapt_policy_decide`, with the estimators it is given. -/
structure DecideCall where
  policy : AdaptPolicyMode
  withRt : Bool
  withLearn : Bool
  withHealth : Bool
  shmMapped : Bool
  ewmaSize : ℚ
  current : AdaptRoute
  payload : UInt64
  nowNs : UInt64
  waitClock : UInt64

def DecideCall.input (call : DecideCall) (s : Estimators) : DecideInput where
  rt := if call.withRt then some s.rt else none
  learn := if call.withLearn then some s.learn else none
  health := if call.withHealth then some s.health else none
  shmMapped := call.shmMapped
  ewmaSize := call.ewmaSize
  current := call.current
  payload := call.payload
  nowNs := call.nowNs
  waitClock := call.waitClock

def decideCall (cfg : AdaptCostCfg) (call : DecideCall) (s : Estimators) :
    AdaptDecision × Option AdaptLearn :=
  adaptPolicyDecide call.policy cfg (call.input s)

inductive EstimatorAction where
  | observe (transport : AdaptRoute) (size : UInt64) (costUs : ℚ)
  | sample (payload occBeforePush nowNs : UInt64)
  | update (occBytes capacity : UInt64) (drainValid : Bool) (arrivalBps drainBps : ℚ)
  | decide (call : DecideCall)

def estimatorStep (cfg : AdaptCostCfg) (alpha : ℚ) (s : Estimators) : EstimatorAction → Estimators
  | .observe transport size costUs =>
      { s with learn := adaptLearnObserve s.learn cfg transport size costUs }
  | .sample payload occBeforePush nowNs =>
      { s with rt := adaptRtctxSample s.rt payload occBeforePush nowNs alpha }
  | .update occBytes capacity drainValid arrivalBps drainBps =>
      { s with
        health := (adaptHealthUpdateShm s.health occBytes capacity drainValid arrivalBps
          drainBps).1 }
  | .decide call => { s with learn := (decideCall cfg call s).2.getD s.learn }

def estimatorMachine (cfg : AdaptCostCfg) (alpha : ℚ) : Machine Estimators EstimatorAction where
  initial s := s.learn = adaptLearnInit cfg ∧ (∃ minSamples, s.rt = adaptRtctxInit minSamples) ∧
    ∃ debounce, s.health = adaptHealthInit debounce
  step s action := some (estimatorStep cfg alpha s action)

structure LearnWellFormed (l : AdaptLearn) : Prop where
  paired : ∀ idx, l.fixedUs (otherClass idx) = l.fixedUs idx ∧
    l.slopeUsPerB (otherClass idx) = l.slopeUsPerB idx
  fixedUs : ∀ idx, 0 ≤ l.fixedUs idx
  slopeUsPerB : ∀ idx, 0 < l.slopeUsPerB idx

theorem learn_init_well_formed {cfg : AdaptCostCfg} (nonneg : cfg.NonNegative)
    (udsSlope : 0 < cfg.udsSlopeUsPerB) (shmSlope : 0 < cfg.shmSlopeUsPerB) :
    LearnWellFormed (adaptLearnInit cfg) := by
  constructor
  · intro idx
    match idx with
    | 0 => exact ⟨rfl, rfl⟩
    | 1 => exact ⟨rfl, rfl⟩
    | 2 => exact ⟨rfl, rfl⟩
    | 3 => exact ⟨rfl, rfl⟩
  · intro idx
    simp only [adaptLearnInit]
    split
    · exact nonneg.udsFixedUs
    · exact nonneg.shmFixedUs
  · intro idx
    simp only [adaptLearnInit]
    split
    · exact udsSlope
    · exact shmSlope

theorem other_written : ∀ idx i : Fin 4,
    (otherClass i = idx ∨ otherClass i = otherClass idx) ↔ (i = idx ∨ i = otherClass idx) := by
  decide

/-- A credible line keeps the entries paired. -/
theorem set_model_well_formed {l : AdaptLearn} (held : LearnWellFormed l) (idx : Fin 4)
    {fixed slope : ℚ} (credible : Credible fixed slope) :
    LearnWellFormed (setModel l idx fixed slope) := by
  have written : ∀ i, (setModel l idx fixed slope).fixedUs i =
        (if i = idx ∨ i = otherClass idx then fixed else l.fixedUs i) ∧
      (setModel l idx fixed slope).slopeUsPerB i =
        (if i = idx ∨ i = otherClass idx then slope else l.slopeUsPerB i) := by
    intro i
    by_cases other : i = otherClass idx
    · subst other
      simp [setModel]
    · by_cases same : i = idx
      · subst same
        simp [setModel, Function.update_of_ne other]
      · simp [setModel, other, same]
  constructor
  · intro i
    rw [(written _).1, (written _).2, (written i).1, (written i).2]
    simp only [other_written]
    split
    · exact ⟨rfl, rfl⟩
    · exact held.paired i
  · intro i
    rw [(written i).1]
    split
    · exact credible.2
    · exact held.fixedUs i
  · intro i
    rw [(written i).2]
    split
    · exact lt_trans (by norm_num) credible.1
    · exact held.slopeUsPerB i

theorem Observed.well_formed {cfg : AdaptCostCfg} {l next : AdaptLearn}
    (observed : Observed cfg l next) (held : LearnWellFormed l) : LearnWellFormed next := by
  cases observed with
  | ignored => exact held
  | counted idx size costUs nonneg => exact ⟨held.paired, held.fixedUs, held.slopeUsPerB⟩
  | refitted idx size costUs fixed slope nonneg credible =>
      have counted : LearnWellFormed (meanClass l cfg idx size costUs) :=
        ⟨held.paired, held.fixedUs, held.slopeUsPerB⟩
      exact set_model_well_formed counted idx credible

theorem LearnWellFormed.base_line {l : AdaptLearn} (held : LearnWellFormed l)
    {transport : AdaptRoute} {size : UInt64} {idx : Fin 4}
    (taken : observedClass transport size = some idx) :
    l.fixedUs (transportBase transport) = l.fixedUs idx ∧
      l.slopeUsPerB (transportBase transport) = l.slopeUsPerB idx := by
  have based : transportBase transport = idx ∨ transportBase transport = otherClass idx := by
    cases transport <;> simp only [observedClass, Option.some.injEq, reduceCtorEq] at taken
    all_goals
      subst taken
      split <;> decide
  rcases based with same | other
  · rw [same]
    exact ⟨rfl, rfl⟩
  · rw [other]
    exact held.paired idx

structure RtctxWellFormed (rt : AdaptRtctx) : Prop where
  ewmaArrivalBps : 0 ≤ rt.ewmaArrivalBps
  ewmaDrainBps : 0 ≤ rt.ewmaDrainBps
  ewmaOccBytes : 0 ≤ rt.ewmaOccBytes
  occupied : rt.ewmaOccBytes ≤ 18446744073709551615

theorem rtctx_init_well_formed (minSamples : UInt32) :
    RtctxWellFormed (adaptRtctxInit minSamples) := by
  constructor <;> simp [adaptRtctxInit]

theorem rate_nonneg {amount dtNs : ℚ} (some : 0 ≤ amount) (gap : 0 < dtNs) :
    0 ≤ amount / (dtNs / 1000000000) :=
  div_nonneg some (div_nonneg gap.le (by norm_num))

theorem sample_drain_well_formed {rc : AdaptRtctx} {alpha dtNs : ℚ} (held : RtctxWellFormed rc)
    (positive : 0 < alpha) (proper : alpha ≤ 1) (gap : 0 < dtNs) (occ now : UInt64) :
    RtctxWellFormed (sampleDrain rc occ now dtNs alpha) := by
  simp only [sampleDrain]
  split
  · next drained =>
    refine ⟨held.ewmaArrivalBps, ?_, held.ewmaOccBytes, held.occupied⟩
    exact smooth_nonneg positive.le proper (rate_nonneg (sub_nonneg.mpr drained.le) gap)
      held.ewmaDrainBps
  · exact held

theorem sample_well_formed {rc : AdaptRtctx} {alpha : ℚ} (held : RtctxWellFormed rc)
    (positive : 0 < alpha) (proper : alpha ≤ 1) (payload occ now : UInt64) :
    RtctxWellFormed (adaptRtctxSample rc payload occ now alpha) := by
  have light : 0 ≤ alpha * (1 / 4) := mul_nonneg positive.le (by norm_num)
  have lighter : alpha * (1 / 4) ≤ 1 := by linarith
  have bytes : (occ.toNat : ℚ) ≤ 18446744073709551615 := by
    have word := occ.toNat_lt
    have most : occ.toNat ≤ 18446744073709551615 := by omega
    exact_mod_cast most
  have finish : ∀ rated : AdaptRtctx, RtctxWellFormed rated →
      RtctxWellFormed { rated with
        ewmaOccBytes :=
          alpha * (1 / 4) * occ.toNat + (1 - alpha * (1 / 4)) * rated.ewmaOccBytes
        prevOccBytes := (occ.toNat : ℚ) + payload.toNat
        lastNs := now } := fun rated good =>
    ⟨good.ewmaArrivalBps, good.ewmaDrainBps,
      smooth_nonneg light lighter (Nat.cast_nonneg _) good.ewmaOccBytes,
      smooth_le light lighter bytes good.occupied⟩
  simp only [adaptRtctxSample]
  apply finish
  split
  · next gap =>
    apply sample_drain_well_formed _ positive proper gap
    exact ⟨smooth_nonneg positive.le proper (rate_nonneg (Nat.cast_nonneg _) gap)
      held.ewmaArrivalBps, held.ewmaDrainBps, held.ewmaOccBytes, held.occupied⟩
  · exact held

theorem RtctxWellFormed.smoothed_occ {rt : AdaptRtctx} (held : RtctxWellFormed rt) :
    (smoothedOcc rt).toNat = ⌊rt.ewmaOccBytes⌋₊ := by
  have floor : ⌊rt.ewmaOccBytes⌋₊ ≤ 18446744073709551615 := by
    apply Nat.floor_le_of_le
    exact_mod_cast held.occupied
  rw [smoothedOcc, UInt64.toNat_ofNat']
  exact Nat.mod_eq_of_lt (by omega)

structure RecordNonNegative (d : AdaptDecision) : Prop where
  occBytes : 0 ≤ d.occBytes
  costUds : 0 ≤ d.costUds
  costShm : 0 ≤ d.costShm
  queueWaitShmUs : 0 ≤ d.queueWaitShmUs
  switchCostUs : 0 ≤ d.switchCostUs
  setupCostUs : 0 ≤ d.setupCostUs
  healthPenaltyUs : 0 ≤ d.healthPenaltyUs
  latencyPenaltyUs : 0 ≤ d.latencyPenaltyUs
  scoreUds : 0 ≤ d.scoreUds
  scoreShm : 0 ≤ d.scoreShm

def LearnedWell (input : DecideInput) : Prop := ∀ l, input.learn = some l → LearnWellFormed l

theorem transport_model_nonneg {learn : Option AdaptLearn} (base : Fin 4) {fixed slope : ℚ}
    (learned : ∀ l, learn = some l → LearnWellFormed l) (above : 0 ≤ fixed) (rising : 0 ≤ slope) :
    0 ≤ (transportModel learn base fixed slope).1 ∧
      0 ≤ (transportModel learn base fixed slope).2 := by
  cases learn with
  | none => exact ⟨above, rising⟩
  | some l => exact ⟨(learned l rfl).fixedUs base, ((learned l rfl).slopeUsPerB base).le⟩

theorem choose_record {cfg : AdaptCostCfg} {input : DecideInput} {d : AdaptDecision}
    (held : RecordNonNegative d) : RecordNonNegative (chooseRoute cfg input d) := by
  have rerouted : ∀ selected reason,
      RecordNonNegative { d with selected := selected, reason := reason } := fun _ _ =>
    ⟨held.occBytes, held.costUds, held.costShm, held.queueWaitShmUs, held.switchCostUs,
      held.setupCostUs, held.healthPenaltyUs, held.latencyPenaltyUs, held.scoreUds, held.scoreShm⟩
  simp only [chooseRoute]
  split_ifs <;> exact rerouted _ _

theorem charged_nonneg (cost : ℚ) : 0 ≤ if 0 < cost then cost else 0 := by
  split
  · next positive => exact positive.le
  · exact le_refl 0

section Record

variable {cfg : AdaptCostCfg} (nonneg : cfg.NonNegative)

include nonneg

theorem cost_uds_nonneg (size : UInt64) : 0 ≤ adaptCostUds cfg size :=
  add_nonneg nonneg.udsFixedUs (mul_nonneg nonneg.udsSlopeUsPerB (Nat.cast_nonneg _))

theorem cost_shm_nonneg (size : UInt64) (queueWaitUs healthPenaltyUs : ℚ) (shmMapped : Bool) :
    0 ≤ adaptCostShm cfg size queueWaitUs healthPenaltyUs shmMapped := by
  have fixed := nonneg.shmFixedUs
  have bytes : 0 ≤ cfg.shmSlopeUsPerB * size.toNat :=
    mul_nonneg nonneg.shmSlopeUsPerB (Nat.cast_nonneg _)
  have wait := charged_nonneg queueWaitUs
  have health := charged_nonneg healthPenaltyUs
  have setup : 0 ≤ if shmMapped = true then 0 else cfg.setupCostUs := by
    split
    · exact le_refl 0
    · exact nonneg.setupCostUs
  simp only [adaptCostShm]
  linarith

theorem size_only_record (input : DecideInput) : RecordNonNegative (decideSizeOnly cfg input) := by
  have uds := cost_uds_nonneg nonneg input.payload
  have shm := cost_shm_nonneg nonneg input.payload 0 0 input.shmMapped
  constructor
  case costUds => exact uds
  case scoreUds => exact uds
  case costShm => exact shm
  case scoreShm => exact shm
  all_goals exact le_refl 0

theorem queue_aware_record (input : DecideInput) (occ : UInt64) {qShm : ℚ} (wait : 0 ≤ qShm) :
    RecordNonNegative (decideQueueAware cfg input occ qShm) := by
  have uds := cost_uds_nonneg nonneg input.payload
  have shm := cost_shm_nonneg nonneg input.payload qShm 0 input.shmMapped
  constructor
  case occBytes => exact Nat.cast_nonneg _
  case queueWaitShmUs => exact wait
  case costUds => exact uds
  case scoreUds => exact uds
  case costShm => exact shm
  case scoreShm => exact shm
  all_goals exact le_refl 0

theorem cold_start_escape_record {input : DecideInput} {d : AdaptDecision}
    (held : RecordNonNegative d) : RecordNonNegative (coldStartEscape cfg input d) := by
  simp only [coldStartEscape]
  split
  · exact held
  · next rt _ =>
    have wait := queue_wait_nonneg (some rt) (smoothedOcc rt) input.waitClock
    have health := health_penalty_nonneg nonneg.healthPenaltyUs input
    split
    · split <;>
        exact ⟨held.occBytes, held.costUds, held.costShm, wait, held.switchCostUs,
          held.setupCostUs, health, held.latencyPenaltyUs, held.scoreUds, held.scoreShm⟩
    · exact held

theorem size_hysteresis_record (fullAdaptive : Bool) (input : DecideInput) :
    RecordNonNegative (decideSizeHysteresis fullAdaptive cfg input) := by
  have uds := cost_uds_nonneg nonneg input.payload
  have priced : ∀ d, RecordNonNegative d → RecordNonNegative { d with
      scoreUds := adaptCostUds cfg input.payload
      costUds := adaptCostUds cfg input.payload
      scoreShm := adaptCostShm cfg input.payload d.queueWaitShmUs 0 input.shmMapped
      costShm := adaptCostShm cfg input.payload d.queueWaitShmUs 0 input.shmMapped } := by
    intro d held
    have shm := cost_shm_nonneg nonneg input.payload d.queueWaitShmUs 0 input.shmMapped
    exact ⟨held.occBytes, uds, shm, held.queueWaitShmUs, held.switchCostUs, held.setupCostUs,
      held.healthPenaltyUs, held.latencyPenaltyUs, uds, shm⟩
  have start : ∀ selected reason,
      RecordNonNegative { startDecision input with selected := selected, reason := reason } := by
    intro selected reason
    constructor <;> exact le_refl 0
  cases fullAdaptive with
  | false => exact priced _ (start _ _)
  | true => exact priced _ (cold_start_escape_record nonneg (start _ _))

theorem score_record (fullAdaptive : Bool) {input : DecideInput} (learned : LearnedWell input)
    (occ : UInt64) {qShm : ℚ} (wait : 0 ≤ qShm) :
    RecordNonNegative (scoreDecision fullAdaptive cfg input occ qShm) := by
  obtain ⟨fixedUds, slopeUds⟩ :=
    transport_model_nonneg 0 learned nonneg.udsFixedUs nonneg.udsSlopeUsPerB
  obtain ⟨fixedShm, slopeShm⟩ :=
    transport_model_nonneg 2 learned nonneg.shmFixedUs nonneg.shmSlopeUsPerB
  have bytes : (0 : ℚ) ≤ input.payload.toNat := Nat.cast_nonneg _
  have health : 0 ≤ if fullAdaptive = true then healthPenalty cfg input else 0 := by
    split
    · exact health_penalty_nonneg nonneg.healthPenaltyUs input
    · exact le_refl 0
  have setup : 0 ≤ if input.shmMapped = true then 0 else cfg.setupCostUs := by
    split
    · exact le_refl 0
    · exact nonneg.setupCostUs
  have switching : ∀ route, 0 ≤ if input.current = route then 0 else cfg.switchCostUs := by
    intro route
    split
    · exact le_refl 0
    · exact nonneg.switchCostUs
  have uds := add_nonneg fixedUds (mul_nonneg slopeUds bytes)
  have shm := add_nonneg (add_nonneg (add_nonneg (add_nonneg fixedShm (mul_nonneg slopeShm bytes))
    wait) health) setup
  have penalty := latency_penalty_nonneg nonneg.latencyWeight
  have charged : ∀ (applies : Prop) [Decidable applies] (score latUds latShm : ℚ), 0 ≤ score →
      0 ≤ if applies then score + latencyPenalty cfg latUds latShm else score := by
    intro applies _ score latUds latShm above
    split
    · exact add_nonneg above (penalty _ _)
    · exact above
  constructor
  case occBytes => exact Nat.cast_nonneg _
  case costUds => exact uds
  case costShm => exact shm
  case queueWaitShmUs => exact wait
  case switchCostUs => exact nonneg.switchCostUs
  case setupCostUs => exact setup
  case healthPenaltyUs => exact health
  case latencyPenaltyUs => exact penalty _ _
  case scoreUds => exact charged _ _ _ _ (add_nonneg uds (switching _))
  case scoreShm => exact charged _ _ _ _ (add_nonneg shm (switching _))

theorem decide_record (policy : AdaptPolicyMode) {input : DecideInput}
    (learned : LearnedWell input) : RecordNonNegative (adaptPolicyDecide policy cfg input).1 := by
  have wait : ∀ occ, 0 ≤ adaptRtctxQueueWaitUs input.rt occ input.waitClock := fun occ =>
    queue_wait_nonneg input.rt occ input.waitClock
  cases policy with
  | default => exact choose_record (score_record nonneg false learned _ (le_refl 0))
  | sizeOnly => exact size_only_record nonneg input
  | sizeHysteresis => exact size_hysteresis_record nonneg false input
  | queueAware => exact queue_aware_record nonneg input _ (wait _)
  | costAware => exact choose_record (score_record nonneg false learned _ (wait _))
  | fullAdaptive =>
      simp only [adaptPolicyDecide]
      split
      · exact size_hysteresis_record nonneg true input
      · exact choose_record (score_record nonneg true learned _ (wait _))

end Record

theorem crossover_well_formed {cfg : AdaptCostCfg} {l : AdaptLearn} (held : LearnWellFormed l) :
    LearnWellFormed (adaptLearnCrossover l cfg) := by
  simp only [adaptLearnCrossover]
  split_ifs <;> exact ⟨held.paired, held.fixedUs, held.slopeUsPerB⟩

/-- A decision returns the learned state it was given, or that state after a crossover
update. -/
theorem decide_learn (policy : AdaptPolicyMode) (cfg : AdaptCostCfg) (input : DecideInput) :
    (adaptPolicyDecide policy cfg input).2 = input.learn ∨
      (adaptPolicyDecide policy cfg input).2 =
        input.learn.map fun l => adaptLearnCrossover l cfg := by
  cases policy with
  | fullAdaptive =>
      simp only [adaptPolicyDecide]
      split
      · exact Or.inl rfl
      · dsimp only
        split
        · exact Or.inl rfl
        · exact Or.inr rfl
  | _ => exact Or.inl rfl

structure EstimatorsWellFormed (s : Estimators) : Prop where
  learn : LearnWellFormed s.learn
  rt : RtctxWellFormed s.rt

theorem EstimatorsWellFormed.input {s : Estimators} (held : EstimatorsWellFormed s)
    (call : DecideCall) : LearnedWell (call.input s) := by
  intro l given
  simp only [DecideCall.input] at given
  split at given
  · cases given
    exact held.learn
  · cases given

theorem decide_call_well_formed {cfg : AdaptCostCfg} {s : Estimators}
    (held : EstimatorsWellFormed s) (call : DecideCall) :
    LearnWellFormed ((decideCall cfg call s).2.getD s.learn) := by
  have given := held.input call
  simp only [decideCall]
  rcases decide_learn call.policy cfg (call.input s) with same | moved
  · rw [same]
    cases learn : (call.input s).learn with
    | none => exact held.learn
    | some l => exact given l learn
  · rw [moved]
    cases learn : (call.input s).learn with
    | none => exact held.learn
    | some l => exact crossover_well_formed (given l learn)

section Run

variable {cfg : AdaptCostCfg} {alpha : ℚ}

theorem estimator_step_well_formed (positive : 0 < alpha) (proper : alpha ≤ 1) {s : Estimators}
    (held : EstimatorsWellFormed s) (action : EstimatorAction) :
    EstimatorsWellFormed (estimatorStep cfg alpha s action) := by
  cases action with
  | observe transport size costUs =>
      exact ⟨(learn_observed s.learn cfg transport size costUs).well_formed held.learn, held.rt⟩
  | sample payload occBeforePush nowNs =>
      exact ⟨held.learn, sample_well_formed held.rt positive proper payload occBeforePush nowNs⟩
  | update occBytes capacity drainValid arrivalBps drainBps => exact ⟨held.learn, held.rt⟩
  | decide call => exact ⟨decide_call_well_formed held call, held.rt⟩

theorem reachable_well_formed (nonneg : cfg.NonNegative) (udsSlope : 0 < cfg.udsSlopeUsPerB)
    (shmSlope : 0 < cfg.shmSlopeUsPerB) (positive : 0 < alpha) (proper : alpha ≤ 1)
    {s : Estimators} (reached : (estimatorMachine cfg alpha).Reachable s) :
    EstimatorsWellFormed s := by
  apply Machine.invariant_of_reachable (estimatorMachine cfg alpha) EstimatorsWellFormed _ _ reached
  · rintro start ⟨learn, ⟨minSamples, rt⟩, health⟩
    refine ⟨?_, ?_⟩
    · rw [learn]
      exact learn_init_well_formed nonneg udsSlope shmSlope
    · rw [rt]
      exact rtctx_init_well_formed minSamples
  · intro before action after held stepped
    cases stepped
    exact estimator_step_well_formed positive proper held action

/-- Whatever was observed, sampled and decided before: the entries of a transport agree, so
that its base entry serves every payload, the estimates are non-negative, and so is every
amount that any decision records. -/
theorem estimators_well_formed (nonneg : cfg.NonNegative) (udsSlope : 0 < cfg.udsSlopeUsPerB)
    (shmSlope : 0 < cfg.shmSlopeUsPerB) (positive : 0 < alpha) (proper : alpha ≤ 1)
    {s : Estimators} (reached : (estimatorMachine cfg alpha).Reachable s) :
    LearnWellFormed s.learn ∧
      (∀ transport size idx, observedClass transport size = some idx →
        s.learn.fixedUs (transportBase transport) = s.learn.fixedUs idx ∧
          s.learn.slopeUsPerB (transportBase transport) = s.learn.slopeUsPerB idx) ∧
      RtctxWellFormed s.rt ∧ (smoothedOcc s.rt).toNat = ⌊s.rt.ewmaOccBytes⌋₊ ∧
      (∀ occBytes clock, 0 ≤ adaptRtctxQueueWaitUs (some s.rt) occBytes clock) ∧
      ∀ call, RecordNonNegative (decideCall cfg call s).1 := by
  have held := reachable_well_formed nonneg udsSlope shmSlope positive proper reached
  refine ⟨held.learn, ?_, held.rt, held.rt.smoothed_occ, ?_, ?_⟩
  · intro transport size idx taken
    exact held.learn.base_line taken
  · intro occBytes clock
    exact queue_wait_nonneg _ occBytes clock
  · intro call
    exact decide_record nonneg call.policy (held.input call)

end Run

def firstUpdates : List EstimatorAction :=
  [.observe .uds 64 4, .sample 64 0 1000, .sample 64 32 2000, .update 32 1048576 true 64000 32000]

def firstEstimators : Estimators where
  learn := adaptLearnInit adaptCostCfgDefaults
  rt := adaptRtctxInit 0
  health := adaptHealthInit 0

def firstDecision : DecideCall where
  policy := .fullAdaptive
  withRt := true
  withLearn := true
  withHealth := true
  shmMapped := true
  ewmaSize := 64
  current := .uds
  payload := 64
  nowNs := 3000
  waitClock := 3000

theorem estimators_well_formed_first_updates :
    RecordNonNegative (decideCall adaptCostCfgDefaults firstDecision
      (firstUpdates.foldl (estimatorStep adaptCostCfgDefaults (1 / 5)) firstEstimators)).1 :=
  (estimators_well_formed defaults_non_negative (by decide +kernel) (by decide +kernel)
    (by norm_num) (by norm_num)
    (Machine.reachable_run (estimatorMachine adaptCostCfgDefaults (1 / 5))
      ⟨rfl, ⟨0, rfl⟩, ⟨0, rfl⟩⟩
      (show (estimatorMachine adaptCostCfgDefaults (1 / 5)).run firstEstimators firstUpdates =
        some _ from rfl))).2.2.2.2.2 firstDecision

end AdaptIpc.Policy

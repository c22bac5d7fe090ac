import AdaptIpc.Policy.RuntimeContext
import Mathlib.Logic.Function.Basic

/-!
# Cost model and routing decision

`cost_model.c` in exact arithmetic: the cost configuration with its defaults,
the per-class cost learning with the learned crossover, the decision log, and
`adapt_policy_decide` with every branch and the whole decision record. The flat
arrays of the source (0 and 1 UDS, 2 and 3 SHM; even small, odd large) are
functions on `Fin 4`.
-/

namespace AdaptIpc.Policy

set_option autoImplicit false

structure AdaptCostCfg where
  udsFixedUs : ℚ
  udsSlopeUsPerB : ℚ
  shmFixedUs : ℚ
  shmSlopeUsPerB : ℚ
  switchCostUs : ℚ
  marginUs : ℚ
  setupCostUs : ℚ
  shmNotifyFloorUs : ℚ
  shmActiveNotifyUs : ℚ
  healthPenaltyUs : AdaptHealthState → ℚ
  qos : AdaptQos
  latencyBudgetUs : ℚ
  latencyWeight : ℚ
  learnMinSamples : UInt32
  learnAlpha : ℚ
  crossoverMinB : ℚ
  crossoverMaxB : ℚ

def defaultHealthPenaltyUs : AdaptHealthState → ℚ
  | .unavailable => 1000000
  | .healthy => 0
  | .degraded => 100
  | .blocked => 1000
  | .recovering => 25

def adaptCostCfgDefaults : AdaptCostCfg where
  udsFixedUs := 3
  udsSlopeUsPerB := 15 / 10000
  shmFixedUs := 3 / 10
  shmSlopeUsPerB := 4 / 10000
  switchCostUs := 20
  marginUs := 5
  setupCostUs := 52
  shmNotifyFloorUs := 2000
  shmActiveNotifyUs := 5
  healthPenaltyUs := defaultHealthPenaltyUs
  qos := .balanced
  latencyBudgetUs := 0
  latencyWeight := 1
  learnMinSamples := 32
  learnAlpha := 1 / 10
  crossoverMinB := 512
  crossoverMaxB := 1048576

structure CostEnv where
  switchCostUs : Option ℚ
  marginUs : Option ℚ
  setupCostUs : Option ℚ
  notifyFloorUs : Option ℚ
  latencyBudgetUs : Option ℚ
  minSamples : Option UInt32
  learnAlpha : Option ℚ

def adaptCostCfgFromEnv (cfg : AdaptCostCfg) (env : CostEnv) : AdaptCostCfg :=
  { cfg with
    switchCostUs := env.switchCostUs.getD cfg.switchCostUs
    marginUs := env.marginUs.getD cfg.marginUs
    setupCostUs := env.setupCostUs.getD cfg.setupCostUs
    shmNotifyFloorUs := env.notifyFloorUs.getD cfg.shmNotifyFloorUs
    latencyBudgetUs := env.latencyBudgetUs.getD cfg.latencyBudgetUs
    learnMinSamples := env.minSamples.getD cfg.learnMinSamples
    learnAlpha := env.learnAlpha.getD cfg.learnAlpha }

structure AdaptCostCfg.NonNegative (cfg : AdaptCostCfg) : Prop where
  udsFixedUs : 0 ≤ cfg.udsFixedUs
  udsSlopeUsPerB : 0 ≤ cfg.udsSlopeUsPerB
  shmFixedUs : 0 ≤ cfg.shmFixedUs
  shmSlopeUsPerB : 0 ≤ cfg.shmSlopeUsPerB
  switchCostUs : 0 ≤ cfg.switchCostUs
  marginUs : 0 ≤ cfg.marginUs
  setupCostUs : 0 ≤ cfg.setupCostUs
  shmNotifyFloorUs : 0 ≤ cfg.shmNotifyFloorUs
  shmActiveNotifyUs : 0 ≤ cfg.shmActiveNotifyUs
  healthPenaltyUs : ∀ state, 0 ≤ cfg.healthPenaltyUs state
  latencyBudgetUs : 0 ≤ cfg.latencyBudgetUs
  latencyWeight : 0 ≤ cfg.latencyWeight
  learnAlpha : 0 ≤ cfg.learnAlpha
  crossoverMinB : 0 ≤ cfg.crossoverMinB
  crossoverMaxB : 0 ≤ cfg.crossoverMaxB

theorem defaults_non_negative : adaptCostCfgDefaults.NonNegative := by
  constructor
  case healthPenaltyUs =>
    intro state
    cases state <;> decide +kernel
  all_goals decide +kernel

/-- There are classes to index. -/
instance classesNonzero : NeZero 4 := ⟨by decide⟩

structure AdaptLearn where
  clsMeanUs : Fin 4 → ℚ
  clsMeanB : Fin 4 → ℚ
  n : Fin 4 → UInt64
  fixedUs : Fin 4 → ℚ
  slopeUsPerB : Fin 4 → ℚ
  crossoverB : ℚ
  crossoverUpdates : UInt32

def adaptLearnInit (cfg : AdaptCostCfg) : AdaptLearn where
  clsMeanUs _ := 0
  clsMeanB _ := 0
  n _ := 0
  fixedUs i := if i.val < 2 then cfg.udsFixedUs else cfg.shmFixedUs
  slopeUsPerB i := if i.val < 2 then cfg.udsSlopeUsPerB else cfg.shmSlopeUsPerB
  crossoverB := -1
  crossoverUpdates := 0

def adaptLearnSmallMax : UInt64 := 1024

def otherClass : Fin 4 → Fin 4
  | 0 => 1
  | 1 => 0
  | 2 => 3
  | 3 => 2

def baseClass : Fin 4 → Fin 4
  | 0 => 0
  | 1 => 0
  | 2 => 2
  | 3 => 2

/-- The refit from the two class means. -/
def refitClass (l : AdaptLearn) (cfg : AdaptCostCfg) (idx : Fin 4) : AdaptLearn :=
  let other := otherClass idx
  let base := baseClass idx
  let enough := cfg.learnMinSamples.toUInt64
  if enough ≤ l.n base ∧ enough ≤ l.n (otherClass base) then
    let ds := l.clsMeanB idx - l.clsMeanB other
    if 128 < |ds| then
      let slope := (l.clsMeanUs idx - l.clsMeanUs other) / ds
      if 1 / 1000000 < slope then
        let fixed := l.clsMeanUs idx - slope * l.clsMeanB idx
        if 0 ≤ fixed then
          { l with
            slopeUsPerB := Function.update (Function.update l.slopeUsPerB idx slope) other slope
            fixedUs := Function.update (Function.update l.fixedUs idx fixed) other fixed }
        else l
      else l
    else l
  else l

def observeClass (l : AdaptLearn) (cfg : AdaptCostCfg) (idx : Fin 4) (size : UInt64)
    (costUs : ℚ) : AdaptLearn :=
  let a := cfg.learnAlpha
  refitClass { l with
    clsMeanUs := Function.update l.clsMeanUs idx (a * costUs + (1 - a) * l.clsMeanUs idx)
    clsMeanB := Function.update l.clsMeanB idx (a * size.toNat + (1 - a) * l.clsMeanB idx)
    n := Function.update l.n idx
      (if l.n idx < 18446744073709551615 then l.n idx + 1 else l.n idx) } cfg idx

def adaptLearnObserve (l : AdaptLearn) (cfg : AdaptCostCfg) (transport : AdaptRoute)
    (size : UInt64) (costUs : ℚ) : AdaptLearn :=
  if costUs < 0 then l
  else
    let small := size ≤ adaptLearnSmallMax
    match transport with
    | .none => l
    | .uds => observeClass l cfg (if small then 0 else 1) size costUs
    | .shm => observeClass l cfg (if small then 2 else 3) size costUs

/-- The new crossover is the `crossoverB` of the result. -/
def adaptLearnCrossover (l : AdaptLearn) (cfg : AdaptCostCfg) : AdaptLearn :=
  let enough := cfg.learnMinSamples.toUInt64
  if l.n 0 < enough ∨ l.n 2 < enough ∨ l.n 1 < enough ∨ l.n 3 < enough then l
  else
    let dfs := l.slopeUsPerB 0 - l.slopeUsPerB 2
    if dfs ≤ 1 / 1000000000 then l
    else
      let s := (l.fixedUs 2 - l.fixedUs 0) / dfs
      let s := if s < cfg.crossoverMinB then cfg.crossoverMinB else s
      let s := if cfg.crossoverMaxB < s then cfg.crossoverMaxB else s
      { l with
        crossoverB :=
          if l.crossoverB < 0 then s else l.crossoverB + cfg.learnAlpha * (s - l.crossoverB)
        crossoverUpdates := l.crossoverUpdates + 1 }

inductive DecisionReason where
  | sizeThreshold
  | sizeHysteresis
  | coldStart
  | healthEscape
  | queuePressure
  | initialRoute
  | setupWorthwhile
  | costWin
  | stickyMargin
  | costStable
  deriving DecidableEq

structure AdaptDecision where
  seq : UInt64
  tsNs : UInt64
  payload : UInt64
  occBytes : ℚ
  current : AdaptRoute
  selected : AdaptRoute
  costUds : ℚ
  costShm : ℚ
  queueWaitShmUs : ℚ
  switchCostUs : ℚ
  setupCostUs : ℚ
  healthPenaltyUs : ℚ
  latencyPenaltyUs : ℚ
  scoreUds : ℚ
  scoreShm : ℚ
  reason : Option DecisionReason

def emptyDecision : AdaptDecision where
  seq := 0
  tsNs := 0
  payload := 0
  occBytes := 0
  current := .none
  selected := .none
  costUds := 0
  costShm := 0
  queueWaitShmUs := 0
  switchCostUs := 0
  setupCostUs := 0
  healthPenaltyUs := 0
  latencyPenaltyUs := 0
  scoreUds := 0
  scoreShm := 0
  reason := none

def adaptDecisionLogN : UInt32 := 512

structure AdaptDeclog where
  enabled : Bool
  count : UInt32
  next : UInt32
  ring : UInt32 → AdaptDecision

def adaptDeclogInit : AdaptDeclog where
  enabled := false
  count := 0
  next := 0
  ring _ := emptyDecision

def adaptDeclogRecord (dl : AdaptDeclog) (d : AdaptDecision) : AdaptDeclog :=
  if dl.enabled then
    { dl with
      ring := Function.update dl.ring (dl.next % adaptDecisionLogN) d
      next := dl.next + 1
      count := if dl.count < adaptDecisionLogN then dl.count + 1 else dl.count }
  else dl

def adaptCostUds (cfg : AdaptCostCfg) (size : UInt64) : ℚ :=
  cfg.udsFixedUs + cfg.udsSlopeUsPerB * size.toNat

def adaptCostShm (cfg : AdaptCostCfg) (size : UInt64) (queueWaitUs healthPenaltyUs : ℚ)
    (shmMapped : Bool) : ℚ :=
  cfg.shmFixedUs + cfg.shmSlopeUsPerB * size.toNat +
    (if 0 < queueWaitUs then queueWaitUs else 0) +
    (if 0 < healthPenaltyUs then healthPenaltyUs else 0) +
    (if shmMapped then 0 else cfg.setupCostUs)

/-- What `adapt_policy_decide` reads besides the policy and the configuration;
`waitClock` is the reading made inside `adapt_rtctx_queue_wait_us`. -/
structure DecideInput where
  rt : Option AdaptRtctx
  learn : Option AdaptLearn
  health : Option AdaptHealth
  shmMapped : Bool
  ewmaSize : ℚ
  current : AdaptRoute
  payload : UInt64
  nowNs : UInt64
  waitClock : UInt64

/-- Thresholds with the band between them sticky. -/
def sizeHysteresisRoute (ewmaSize : ℚ) (current : AdaptRoute) : AdaptRoute :=
  if adaptTauHigh ≤ ewmaSize then .shm
  else if ewmaSize ≤ adaptTauLow then .uds
  else if current = .shm then .shm
  else .uds

def sizeOnlyRoute (ewmaSize : ℚ) : AdaptRoute :=
  if adaptTauHigh ≤ ewmaSize then .shm else .uds

/-- `(size_t)rt->ewma_occ_bytes`. -/
def smoothedOcc (rt : AdaptRtctx) : UInt64 := UInt64.ofNat ⌊rt.ewmaOccBytes⌋₊

def healthPenalty (cfg : AdaptCostCfg) (input : DecideInput) : ℚ :=
  match input.health with
  | some health => if input.shmMapped then cfg.healthPenaltyUs health.state else 0
  | none => 0

def startDecision (input : DecideInput) : AdaptDecision :=
  { emptyDecision with
    tsNs := input.nowNs, payload := input.payload, current := input.current }

def decideSizeOnly (cfg : AdaptCostCfg) (input : DecideInput) : AdaptDecision :=
  let uds := adaptCostUds cfg input.payload
  let shm := adaptCostShm cfg input.payload 0 0 input.shmMapped
  { startDecision input with
    selected := sizeOnlyRoute input.ewmaSize
    reason := some .sizeThreshold
    scoreUds := uds, costUds := uds, scoreShm := shm, costShm := shm }

/-- The escape of the cold start: only a full-adaptive SHM choice at or above the
high threshold can be overridden. -/
def coldStartEscape (cfg : AdaptCostCfg) (input : DecideInput) (d : AdaptDecision) :
    AdaptDecision :=
  match input.rt with
  | none => d
  | some rt =>
      if d.selected = .shm ∧ adaptTauHigh ≤ input.ewmaSize then
        let q := adaptRtctxQueueWaitUs (some rt) (smoothedOcc rt) input.waitClock
        let hp := healthPenalty cfg input
        let escaped :=
          if adaptCostUds cfg input.payload + cfg.switchCostUs < q + hp ∧
              input.payload + 1 ≤ udsMaxDgram then
            { d with
              selected := .uds
              reason := some (if 0 < hp then .healthEscape else .queuePressure) }
          else d
        { escaped with queueWaitShmUs := q, healthPenaltyUs := hp }
      else d

def decideSizeHysteresis (fullAdaptive : Bool) (cfg : AdaptCostCfg) (input : DecideInput) :
    AdaptDecision :=
  let d := { startDecision input with
    selected := sizeHysteresisRoute input.ewmaSize input.current
    reason := some (if fullAdaptive then .coldStart else .sizeHysteresis) }
  let d := if fullAdaptive then coldStartEscape cfg input d else d
  let uds := adaptCostUds cfg input.payload
  let shm := adaptCostShm cfg input.payload d.queueWaitShmUs 0 input.shmMapped
  { d with scoreUds := uds, costUds := uds, scoreShm := shm, costShm := shm }

def decideQueueAware (cfg : AdaptCostCfg) (input : DecideInput) (occ : UInt64) (qShm : ℚ) :
    AdaptDecision :=
  let escapes := adaptCostUds cfg input.payload + cfg.switchCostUs < qShm ∧
    input.payload + 1 ≤ udsMaxDgram
  let r :=
    if adaptTauHigh ≤ input.ewmaSize then (if escapes then AdaptRoute.uds else .shm)
    else sizeHysteresisRoute input.ewmaSize input.current
  let uds := adaptCostUds cfg input.payload
  let shm := adaptCostShm cfg input.payload qShm 0 input.shmMapped
  { startDecision input with
    occBytes := occ.toNat
    queueWaitShmUs := qShm
    selected := r
    reason := some (if r = .uds ∧ adaptTauHigh ≤ input.ewmaSize then .queuePressure
      else .sizeHysteresis)
    costUds := uds, costShm := shm, scoreUds := uds, scoreShm := shm }

def consumerActive (input : DecideInput) : Bool :=
  match input.rt with
  | none => false
  | some rt =>
      decide (rt.lastDrainNs ≠ 0 ∧ rt.lastDrainNs ≤ input.nowNs ∧
        input.nowNs - rt.lastDrainNs < adaptActiveWindowNs)

def latencyPenalty (cfg : AdaptCostCfg) (latUds latShm : ℚ) : ℚ :=
  if cfg.qos ≠ .throughput ∧ 0 < cfg.latencyBudgetUs then
    let overUds := if cfg.latencyBudgetUs < latUds then latUds - cfg.latencyBudgetUs else 0
    let overShm := if cfg.latencyBudgetUs < latShm then latShm - cfg.latencyBudgetUs else 0
    cfg.latencyWeight * (if overShm < overUds then overUds else overShm)
  else 0

def transportModel (learn : Option AdaptLearn) (base : Fin 4) (fixed slope : ℚ) : ℚ × ℚ :=
  match learn with
  | some l => (l.fixedUs base, l.slopeUsPerB base)
  | none => (fixed, slope)

def scoreDecision (fullAdaptive : Bool) (cfg : AdaptCostCfg) (input : DecideInput)
    (occ : UInt64) (qShm : ℚ) : AdaptDecision :=
  let (fixedUds, slopeUds) := transportModel input.learn 0 cfg.udsFixedUs cfg.udsSlopeUsPerB
  let (fixedShm, slopeShm) := transportModel input.learn 2 cfg.shmFixedUs cfg.shmSlopeUsPerB
  let hp := if fullAdaptive then healthPenalty cfg input else 0
  let setup := if input.shmMapped then 0 else cfg.setupCostUs
  let costUds := fixedUds + slopeUds * input.payload.toNat
  let costShm := fixedShm + slopeShm * input.payload.toNat + qShm + hp + setup
  let notify :=
    if input.shmMapped then
      (if consumerActive input then cfg.shmActiveNotifyUs else cfg.shmNotifyFloorUs)
    else 0
  let latUds := costUds
  let latShm := qShm + notify + fixedShm + slopeShm * input.payload.toNat
  let penalty := latencyPenalty cfg latUds latShm
  let scoreUds := costUds + (if input.current = .uds then 0 else cfg.switchCostUs)
  let scoreShm := costShm + (if input.current = .shm then 0 else cfg.switchCostUs)
  let chargesShm := 0 < penalty ∧ latUds < latShm
  let chargesUds := 0 < penalty ∧ ¬latUds < latShm
  { startDecision input with
    occBytes := occ.toNat
    queueWaitShmUs := qShm
    costUds := costUds
    costShm := costShm
    healthPenaltyUs := hp
    setupCostUs := setup
    latencyPenaltyUs := penalty
    switchCostUs := cfg.switchCostUs
    scoreUds := if chargesUds then scoreUds + penalty else scoreUds
    scoreShm := if chargesShm then scoreShm + penalty else scoreShm }

def scoreOf (d : AdaptDecision) : AdaptRoute → ℚ
  | .shm => d.scoreShm
  | _ => d.scoreUds

/-- The stability rule: the first decision takes the cheaper transport, later ones
switch only for more than the margin. -/
def chooseRoute (cfg : AdaptCostCfg) (input : DecideInput) (d : AdaptDecision) : AdaptDecision :=
  let candidate := if d.scoreShm ≤ d.scoreUds then AdaptRoute.shm else .uds
  if input.current = .none then
    { d with selected := candidate, reason := some .initialRoute }
  else if candidate ≠ input.current then
    if scoreOf d candidate + cfg.marginUs < scoreOf d input.current then
      { d with
        selected := candidate
        reason := some
          (if input.shmMapped = false ∧ candidate = .shm then .setupWorthwhile
          else if cfg.switchCostUs < d.queueWaitShmUs then .queuePressure
          else .costWin) }
    else { d with selected := input.current, reason := some .stickyMargin }
  else { d with selected := input.current, reason := some .costStable }

/-- Full-adaptive routing before both small classes have enough samples. -/
def coldStart (cfg : AdaptCostCfg) (input : DecideInput) : Bool :=
  match input.learn with
  | some l =>
      decide (l.n 0 < cfg.learnMinSamples.toUInt64 ∨ l.n 2 < cfg.learnMinSamples.toUInt64)
  | none => false

/-- The decision record with the selected route, and the learned state, whose
crossover the full-adaptive comparison moves. `ADAPT_POLICY_DEFAULT` falls through
to the full comparison with no queue wait; `adapt_init` never leaves it in place. -/
def adaptPolicyDecide (policy : AdaptPolicyMode) (cfg : AdaptCostCfg) (input : DecideInput) :
    AdaptDecision × Option AdaptLearn :=
  let occ := match input.rt with | some rt => smoothedOcc rt | none => 0
  let wait := adaptRtctxQueueWaitUs input.rt occ input.waitClock
  match policy with
  | .sizeOnly => (decideSizeOnly cfg input, input.learn)
  | .sizeHysteresis => (decideSizeHysteresis false cfg input, input.learn)
  | .queueAware => (decideQueueAware cfg input occ wait, input.learn)
  | .default => (chooseRoute cfg input (scoreDecision false cfg input occ 0), input.learn)
  | .costAware => (chooseRoute cfg input (scoreDecision false cfg input occ wait), input.learn)
  | .fullAdaptive =>
      if coldStart cfg input then (decideSizeHysteresis true cfg input, input.learn)
      else
        let d := chooseRoute cfg input (scoreDecision true cfg input occ wait)
        (d, if input.current = .none then input.learn
          else input.learn.map fun l => adaptLearnCrossover l cfg)

theorem size_only_route (ewmaSize : ℚ) :
    sizeOnlyRoute ewmaSize = .shm ∨ sizeOnlyRoute ewmaSize = .uds := by
  simp only [sizeOnlyRoute]
  split <;> simp

theorem size_hysteresis_route (ewmaSize : ℚ) (current : AdaptRoute) :
    sizeHysteresisRoute ewmaSize current = .shm ∨ sizeHysteresisRoute ewmaSize current = .uds := by
  simp only [sizeHysteresisRoute]
  split_ifs <;> simp

theorem cold_start_escape_selects (cfg : AdaptCostCfg) (input : DecideInput) (d : AdaptDecision) :
    (coldStartEscape cfg input d).selected = d.selected ∨
      (coldStartEscape cfg input d).selected = .uds := by
  simp only [coldStartEscape]
  split
  · exact Or.inl rfl
  · split_ifs <;> simp

theorem size_hysteresis_selects (fullAdaptive : Bool) (cfg : AdaptCostCfg) (input : DecideInput) :
    (decideSizeHysteresis fullAdaptive cfg input).selected ≠ .none := by
  have bySize := size_hysteresis_route input.ewmaSize input.current
  cases fullAdaptive with
  | false =>
      simp only [decideSizeHysteresis, Bool.false_eq_true, if_false]
      rcases bySize with route | route <;> simp [route]
  | true =>
      simp only [decideSizeHysteresis, if_true]
      rcases cold_start_escape_selects cfg input { startDecision input with
        selected := sizeHysteresisRoute input.ewmaSize input.current
        reason := some .coldStart } with same | escaped
      · rw [same]
        rcases bySize with route | route <;> simp [route]
      · rw [escaped]
        decide

theorem queue_aware_selects (cfg : AdaptCostCfg) (input : DecideInput) (occ : UInt64) (qShm : ℚ) :
    (decideQueueAware cfg input occ qShm).selected ≠ .none := by
  have bySize := size_hysteresis_route input.ewmaSize input.current
  simp only [decideQueueAware]
  split_ifs
  · decide
  · decide
  · rcases bySize with route | route <;> simp [route]

theorem choose_selects (cfg : AdaptCostCfg) (input : DecideInput) (d : AdaptDecision) :
    (chooseRoute cfg input d).selected ≠ .none := by
  have cheaper : (if d.scoreShm ≤ d.scoreUds then AdaptRoute.shm else .uds) ≠ .none := by
    split <;> decide
  simp only [chooseRoute]
  generalize (if d.scoreShm ≤ d.scoreUds then AdaptRoute.shm else .uds) = candidate at cheaper ⊢
  by_cases first : input.current = .none
  · simp only [first, if_true]
    exact cheaper
  · simp only [first, if_false]
    split
    · split
      · exact cheaper
      · exact first
    · exact first

theorem decide_selects (policy : AdaptPolicyMode) (cfg : AdaptCostCfg) (input : DecideInput) :
    (adaptPolicyDecide policy cfg input).1.selected ≠ .none := by
  cases policy with
  | default => exact choose_selects _ _ _
  | sizeOnly =>
      rcases size_only_route input.ewmaSize with route | route <;>
        simp [adaptPolicyDecide, decideSizeOnly, route]
  | sizeHysteresis => exact size_hysteresis_selects false cfg input
  | queueAware => exact queue_aware_selects _ _ _ _
  | costAware => exact choose_selects _ _ _
  | fullAdaptive =>
      simp only [adaptPolicyDecide]
      split
      · exact size_hysteresis_selects true cfg input
      · exact choose_selects _ _ _

end AdaptIpc.Policy

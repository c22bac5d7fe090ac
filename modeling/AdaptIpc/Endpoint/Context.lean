import AdaptIpc.Policy.CostModel
import AdaptIpc.Ring.Map

/-!
# Endpoint context

`struct adapt_ctx` with `adapt_init`, `ewma_update` and `grow_rxbuf`. The UDS
endpoint is an open socket or no context at all; the counters of
`adapt_stats_t` are kept, its accumulated nanoseconds are not.
-/

namespace AdaptIpc.Endpoint

open AdaptIpc.Ring AdaptIpc.Policy

set_option autoImplicit false

inductive AdaptRole where
  | producer
  | consumer
  deriving DecidableEq

structure AdaptStats where
  sends : UInt64
  sendsShm : UInt64
  sendsUds : UInt64
  sendEscalations : UInt64
  sendCopyBytes : UInt64
  recvMsgs : UInt64
  rxShmFirst : UInt64
  rxShmLater : UInt64
  rxUdsPrompt : UInt64
  rxUdsLater : UInt64
  pollCalls : UInt64
  pollTimeouts : UInt64
  recvLoopIters : UInt64
  shmSetupReqs : UInt64
  shmSetupAcks : UInt64
  routeSwitches : UInt64
  backpressureParks : UInt64
  healthTransitions : UInt64
  decisions : UInt64

def zeroStats : AdaptStats where
  sends := 0
  sendsShm := 0
  sendsUds := 0
  sendEscalations := 0
  sendCopyBytes := 0
  recvMsgs := 0
  rxShmFirst := 0
  rxShmLater := 0
  rxUdsPrompt := 0
  rxUdsLater := 0
  pollCalls := 0
  pollTimeouts := 0
  recvLoopIters := 0
  shmSetupReqs := 0
  shmSetupAcks := 0
  routeSwitches := 0
  backpressureParks := 0
  healthTransitions := 0
  decisions := 0

/-- `shm_ring_t` without its mapping: the object's name and the capacity it was
mapped with. -/
structure RingHandle where
  name : List UInt8
  capacity : UInt64
  deriving DecidableEq

structure AdaptCtx where
  role : AdaptRole
  shmName : List UInt8
  shmCapacity : UInt64
  nonblockingSend : Bool
  ewmaSize : ℚ
  lastRoute : AdaptRoute
  ring : Option RingHandle
  rxbufCap : UInt64
  statsOn : Bool
  st : AdaptStats
  retryPending : Bool
  pendingSize : UInt64
  pendingRoute : AdaptRoute
  alpha : ℚ
  negotDone : Bool
  negName : List UInt8
  lastReqNs : UInt64
  policy : AdaptPolicyMode
  cmcfg : AdaptCostCfg
  rt : AdaptRtctx
  learn : AdaptLearn
  health : AdaptHealth
  declog : AdaptDeclog
  decisionSeq : UInt64

def AdaptCtx.count (ctx : AdaptCtx) (update : AdaptStats → AdaptStats) : AdaptCtx :=
  if ctx.statsOn then { ctx with st := update ctx.st } else ctx

/-- `alpha * current + (1 - alpha) * ewma`. -/
def ewmaUpdate (ewma alpha : ℚ) (currentSize : UInt64) : ℚ :=
  alpha * currentSize.toNat + (1 - alpha) * ewma

/-- `grow_rxbuf`, with the result of `realloc`; none is `-ENOMEM`. -/
def growRxbuf (realloc : Bool) (ctx : AdaptCtx) (cap : UInt64) : Option AdaptCtx :=
  if cap ≤ ctx.rxbufCap then some ctx
  else if realloc then some { ctx with rxbufCap := cap }
  else none

structure AdaptConfig where
  shmName : Option (List UInt8)
  localSock : Option (List UInt8)
  peerSock : Option (List UInt8)
  shmCapacity : UInt64
  nonblockingSend : Bool
  policy : AdaptPolicyMode
  qos : AdaptQos
  latencyBudgetUs : ℚ

/-- The environment variables `adapt_init` reads, converted, and the results of the
calls it makes. `policyName` is the mode `ADAPTIPC_POLICY` names, if it names one. -/
structure InitEnv where
  stats : Bool
  eagerShm : Bool
  alpha : Option ℚ
  policyName : Option AdaptPolicyMode
  latencyWeightSet : Bool
  cost : CostEnv
  decisionLog : Bool
  calloc : Bool
  map : MapEnv
  growEager : Bool
  udsOpen : Status
  growLazy : Bool

def adaptShmNameDefault : List UInt8 :=
  [47, 97, 100, 97, 112, 116, 105, 112, 99, 95, 115, 104, 109, 95, 48]

/-- Explicit configuration wins, then the environment, then the hysteresis default. -/
def resolvePolicy (cfg : AdaptConfig) (env : InitEnv) : AdaptPolicyMode :=
  if cfg.policy ≠ .default then cfg.policy
  else match env.policyName with
    | some mode => if mode = .default then .sizeHysteresis else mode
    | none => .sizeHysteresis

def resolveCostCfg (cfg : AdaptConfig) (env : InitEnv) : AdaptCostCfg :=
  let cmcfg := adaptCostCfgFromEnv
    { adaptCostCfgDefaults with qos := cfg.qos, latencyBudgetUs := cfg.latencyBudgetUs } env.cost
  if cmcfg.qos = .latency ∧ env.latencyWeightSet = false then { cmcfg with latencyWeight := 2 }
  else cmcfg

def resolveAlpha (env : InitEnv) : ℚ :=
  let a := env.alpha.getD 0
  if 0 < a ∧ a ≤ 1 then a else 1 / 5

def blankContext (role : AdaptRole) (cfg : AdaptConfig) (env : InitEnv) : AdaptCtx :=
  let cmcfg := resolveCostCfg cfg env
  { role := role
    shmName := cfg.shmName.getD adaptShmNameDefault
    shmCapacity := if cfg.shmCapacity = 0 then 65536 else cfg.shmCapacity
    nonblockingSend := cfg.nonblockingSend
    ewmaSize := 0
    lastRoute := .none
    ring := none
    rxbufCap := 0
    statsOn := env.stats
    st := zeroStats
    retryPending := false
    pendingSize := 0
    pendingRoute := .none
    alpha := resolveAlpha env
    negotDone := false
    negName := []
    lastReqNs := 0
    policy := resolvePolicy cfg env
    cmcfg := cmcfg
    rt := adaptRtctxInit (if 8 < cmcfg.learnMinSamples then 8 else cmcfg.learnMinSamples)
    learn := adaptLearnInit cmcfg
    health := adaptHealthInit 8
    declog := { adaptDeclogInit with
      enabled := decide (role = .producer) && env.decisionLog }
    decisionSeq := 0 }

/-- Eager mapping under the configured name, before the header stores. -/
def eagerMap (env : InitEnv) (ctx : AdaptCtx) : Option (Except Errno AdaptCtx) :=
  match ringMap env.map ctx.shmName ctx.shmCapacity with
  | none => none
  | some (.error code) => some (.error code)
  | some (.ok capacity) =>
      let mapped := { ctx with
        ring := some { name := ctx.shmName, capacity := capacity }
        negotDone := true }
      match growRxbuf env.growEager mapped ctx.shmCapacity with
      | none => some (.error .enomem)
      | some grown => some (.ok grown)

def openUds (env : InitEnv) (ctx : AdaptCtx) : Except Errno AdaptCtx :=
  match env.udsOpen with
  | .error code => .error code
  | .ok () =>
      match growRxbuf env.growLazy ctx udsMaxDgram with
      | none => .error .enomem
      | some grown => .ok grown

/-- None where the ring capacity cannot be rounded and the call does not return. -/
def adaptInit (role : AdaptRole) (cfg : AdaptConfig) (env : InitEnv) :
    Option (Except Errno AdaptCtx) :=
  if cfg.localSock = none ∨ cfg.peerSock = none then some (.error .einval)
  else if env.calloc = false then some (.error .enomem)
  else
    let ctx := blankContext role cfg env
    if env.eagerShm then
      match eagerMap env ctx with
      | none => none
      | some (.error code) => some (.error code)
      | some (.ok mapped) => some (openUds env mapped)
    else some (openUds env ctx)

theorem grow_context {realloc : Bool} {ctx grown : AdaptCtx} {cap : UInt64}
    (room : growRxbuf realloc ctx cap = some grown) :
    grown = { ctx with rxbufCap := grown.rxbufCap } := by
  simp only [growRxbuf] at room
  split_ifs at room <;> cases room <;> rfl

theorem grow_covers {realloc : Bool} {ctx grown : AdaptCtx} {cap : UInt64}
    (room : growRxbuf realloc ctx cap = some grown) :
    cap ≤ grown.rxbufCap ∧ ctx.rxbufCap ≤ grown.rxbufCap ∧
      (grown.rxbufCap = ctx.rxbufCap ∨ grown.rxbufCap = cap) := by
  simp only [growRxbuf] at room
  split at room
  · next enough =>
    cases room
    exact ⟨enough, UInt64.le_refl _, Or.inl rfl⟩
  · next small =>
    split at room <;> cases room
    refine ⟨UInt64.le_refl _, ?_, Or.inr rfl⟩
    rw [UInt64.le_iff_toNat_le] at small ⊢
    exact Nat.le_of_lt (Nat.not_le.mp small)

theorem open_succeeds {env : InitEnv} {ctx opened : AdaptCtx}
    (succeeded : openUds env ctx = .ok opened) :
    growRxbuf env.growLazy ctx udsMaxDgram = some opened := by
  simp only [openUds] at succeeded
  split at succeeded
  · cases succeeded
  · split at succeeded
    · cases succeeded
    · next grown room =>
      cases succeeded
      exact room

theorem eager_succeeds {env : InitEnv} {ctx mapped : AdaptCtx}
    (succeeded : eagerMap env ctx = some (.ok mapped)) :
    ∃ capacity, growRxbuf env.growEager { ctx with
      ring := some { name := ctx.shmName, capacity := capacity }
      negotDone := true } ctx.shmCapacity = some mapped := by
  simp only [eagerMap] at succeeded
  split at succeeded
  · cases succeeded
  · cases succeeded
  · next capacity attached =>
    split at succeeded
    · cases succeeded
    · next grown room =>
      cases succeeded
      exact ⟨capacity, room⟩

theorem init_succeeds {role : AdaptRole} {cfg : AdaptConfig} {env : InitEnv} {ctx : AdaptCtx}
    (accepted : adaptInit role cfg env = some (.ok ctx)) :
    openUds env (blankContext role cfg env) = .ok ctx ∨
      ∃ mapped, eagerMap env (blankContext role cfg env) = some (.ok mapped) ∧
        openUds env mapped = .ok ctx := by
  simp only [adaptInit] at accepted
  split at accepted
  · cases accepted
  · split at accepted
    · cases accepted
    · split at accepted
      · split at accepted
        · cases accepted
        · cases accepted
        · next mapped eager => exact Or.inr ⟨mapped, eager, Option.some.inj accepted⟩
      · exact Or.inl (Option.some.inj accepted)

theorem open_context {env : InitEnv} {ctx opened : AdaptCtx}
    (succeeded : openUds env ctx = .ok opened) :
    opened = { ctx with rxbufCap := opened.rxbufCap } :=
  grow_context (open_succeeds succeeded)

theorem eager_context {env : InitEnv} {ctx mapped : AdaptCtx}
    (succeeded : eagerMap env ctx = some (.ok mapped)) :
    mapped = { ctx with
        ring := mapped.ring
        negotDone := mapped.negotDone
        rxbufCap := mapped.rxbufCap } ∧
      mapped.ring.isSome = true := by
  obtain ⟨capacity, room⟩ := eager_succeeds succeeded
  have grew := grow_context room
  constructor
  · rw [grew]
  · rw [grew]
    rfl

theorem init_context {role : AdaptRole} {cfg : AdaptConfig} {env : InitEnv} {ctx : AdaptCtx}
    (accepted : adaptInit role cfg env = some (.ok ctx)) :
    ctx = { blankContext role cfg env with
        ring := ctx.ring
        negotDone := ctx.negotDone
        rxbufCap := ctx.rxbufCap } ∧
      (ctx.negotDone = true → ctx.ring.isSome = true) := by
  rcases init_succeeds accepted with succeeded | ⟨mapped, eager, succeeded⟩
  · have opened := open_context succeeded
    constructor
    · rw [opened]
    · intro done
      rw [opened] at done
      cases done
  · obtain ⟨attached, held⟩ := eager_context eager
    have opened := open_context succeeded
    rw [attached] at opened
    constructor
    · rw [opened]
    · intro done
      rw [opened]
      exact held

def plainConfig (shmCapacity : UInt64) : AdaptConfig where
  shmName := none
  localSock := some [97]
  peerSock := some [98]
  shmCapacity := shmCapacity
  nonblockingSend := false
  policy := .default
  qos := .balanced
  latencyBudgetUs := 0

def plainEnv : InitEnv where
  stats := false
  eagerShm := false
  alpha := none
  policyName := none
  latencyWeightSet := false
  cost :=
    { switchCostUs := none, marginUs := none, setupCostUs := none, notifyFloorUs := none
      latencyBudgetUs := none, minSamples := none, learnAlpha := none }
  decisionLog := false
  calloc := true
  map := MapEnv.succeeding
  growEager := true
  udsOpen := .ok ()
  growLazy := true

def plainContext (shmCapacity : UInt64) : AdaptCtx :=
  { blankContext .producer (plainConfig shmCapacity) plainEnv with rxbufCap := udsMaxDgram }

def eagerEnv : InitEnv := { plainEnv with eagerShm := true }

def eagerContext : AdaptCtx :=
  { plainContext 4096 with
    ring := some { name := adaptShmNameDefault, capacity := 4096 }
    negotDone := true }

theorem eager_init : adaptInit .producer (plainConfig 4096) eagerEnv = some (.ok eagerContext) := by
  rfl

theorem plain_init (shmCapacity : UInt64) :
    adaptInit .producer (plainConfig shmCapacity) plainEnv =
      some (.ok (plainContext shmCapacity)) := rfl

end AdaptIpc.Endpoint

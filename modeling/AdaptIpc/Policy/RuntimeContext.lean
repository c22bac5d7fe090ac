import Mathlib.Data.Rat.Floor
import Mathlib.Data.UInt
import Mathlib.Tactic.Linarith

/-!
# Runtime context and transport health

The enumerations of `adapt_ipc.h`, the context collector of
`runtime_context.c` and the health machine of `transport_health.c`. Doubles are
rationals: the arithmetic is exact and every value is finite. Integer fields
keep their widths.
-/

namespace AdaptIpc.Policy

set_option autoImplicit false

inductive AdaptRoute where
  | none
  | shm
  | uds
  deriving DecidableEq

inductive AdaptPolicyMode where
  | default
  | sizeOnly
  | sizeHysteresis
  | queueAware
  | costAware
  | fullAdaptive
  deriving DecidableEq

/-- `policy >= ADAPT_POLICY_COST_AWARE`: the modes that time their sends. -/
def AdaptPolicyMode.measures : AdaptPolicyMode → Bool
  | .costAware => true
  | .fullAdaptive => true
  | _ => false

inductive AdaptQos where
  | balanced
  | latency
  | throughput
  deriving DecidableEq

inductive AdaptHealthState where
  | unavailable
  | healthy
  | degraded
  | blocked
  | recovering
  deriving DecidableEq

def adaptTauLow : ℚ := 1024
def adaptTauHigh : ℚ := 4096
def udsMaxDgram : UInt64 := 4096

structure AdaptRtctx where
  ewmaArrivalBps : ℚ
  ewmaDrainBps : ℚ
  ewmaOccBytes : ℚ
  ewmaLatencyUs : ℚ
  prevOccBytes : ℚ
  lastNs : UInt64
  lastDrainNs : UInt64
  samples : UInt32
  drainValid : Bool
  minSamples : UInt32

def adaptDrainFloorBps : ℚ := 50000000
def adaptActiveWindowNs : UInt64 := 20000000
def adaptDrainStaleNs : UInt64 := 5000000

def adaptRtctxInit (minSamples : UInt32) : AdaptRtctx where
  ewmaArrivalBps := 0
  ewmaDrainBps := 0
  ewmaOccBytes := 0
  ewmaLatencyUs := 0
  prevOccBytes := 0
  lastNs := 0
  lastDrainNs := 0
  samples := 0
  drainValid := false
  minSamples := if minSamples = 0 then 8 else minSamples

def uintMax : UInt32 := 4294967295

def sampleGapNs (rc : AdaptRtctx) (nowNs : UInt64) : ℚ :=
  if rc.lastNs ≠ 0 ∧ rc.lastNs < nowNs then ((nowNs - rc.lastNs).toNat : ℚ) else 0

/-- The drain part of `adapt_rtctx_sample`: what is missing from the predicted
occupancy is credited to the consumer. -/
def sampleDrain (rc : AdaptRtctx) (occBeforePush nowNs : UInt64) (dtNs alpha : ℚ) : AdaptRtctx :=
  let expected := rc.prevOccBytes
  if (occBeforePush.toNat : ℚ) < expected then
    let drained := expected - occBeforePush.toNat
    let d := drained / (dtNs / 1000000000)
    { rc with
      ewmaDrainBps := alpha * d + (1 - alpha) * rc.ewmaDrainBps
      samples := if rc.samples < uintMax then rc.samples + 1 else rc.samples
      drainValid := if 0 < drained then true else rc.drainValid
      lastDrainNs := if 0 < drained then nowNs else rc.lastDrainNs }
  else rc

def drainCredit (rc : AdaptRtctx) (occBeforePush nowNs : UInt64) : ℚ :=
  if 0 < sampleGapNs rc nowNs ∧ (occBeforePush.toNat : ℚ) < rc.prevOccBytes then
    rc.prevOccBytes - occBeforePush.toNat
  else 0

def adaptRtctxSample (rc : AdaptRtctx) (payload occBeforePush nowNs : UInt64) (alpha : ℚ) :
    AdaptRtctx :=
  let dtNs := sampleGapNs rc nowNs
  let rated :=
    if 0 < dtNs then
      let a := (payload.toNat : ℚ) / (dtNs / 1000000000)
      sampleDrain { rc with ewmaArrivalBps := alpha * a + (1 - alpha) * rc.ewmaArrivalBps }
        occBeforePush nowNs dtNs alpha
    else rc
  let occA := alpha * (1 / 4)
  { rated with
    ewmaOccBytes := occA * occBeforePush.toNat + (1 - occA) * rated.ewmaOccBytes
    prevOccBytes := (occBeforePush.toNat : ℚ) + payload.toNat
    lastNs := nowNs }

structure SameDrain (before after : AdaptRtctx) : Prop where
  ewmaDrainBps : after.ewmaDrainBps = before.ewmaDrainBps
  samples : after.samples = before.samples
  drainValid : after.drainValid = before.drainValid
  lastDrainNs : after.lastDrainNs = before.lastDrainNs

theorem SameDrain.refl (rc : AdaptRtctx) : SameDrain rc rc := by constructor <;> rfl

theorem SameDrain.trans {first second third : AdaptRtctx} (early : SameDrain first second)
    (late : SameDrain second third) : SameDrain first third where
  ewmaDrainBps := late.ewmaDrainBps.trans early.ewmaDrainBps
  samples := late.samples.trans early.samples
  drainValid := late.drainValid.trans early.drainValid
  lastDrainNs := late.lastDrainNs.trans early.lastDrainNs

/-- What a sample makes of the bytes it credits: a positive credit over the time since the
last sample is the new drain rate, without one the estimate stays. -/
structure Credited (alpha : ℚ) (now : UInt64) (credit : ℚ) (before after : AdaptRtctx) :
    Prop where
  rate : 0 < credit → after.ewmaDrainBps =
    alpha * (credit / (sampleGapNs before now / 1000000000)) + (1 - alpha) * before.ewmaDrainBps
  samples : 0 < credit →
    after.samples = if before.samples < uintMax then before.samples + 1 else before.samples
  valid : 0 < credit → after.drainValid = true ∧ after.lastDrainNs = now
  kept : credit ≤ 0 → SameDrain before after

theorem sample_credited (rc : AdaptRtctx) (payload occ now : UInt64) (alpha : ℚ) :
    Credited alpha now (drainCredit rc occ now) rc
      (adaptRtctxSample rc payload occ now alpha) := by
  by_cases gap : 0 < sampleGapNs rc now
  · by_cases short : (occ.toNat : ℚ) < rc.prevOccBytes
    · have missing : 0 < rc.prevOccBytes - occ.toNat := sub_pos.mpr short
      have credit : drainCredit rc occ now = rc.prevOccBytes - occ.toNat := by
        simp only [drainCredit, gap, short, and_self, if_true]
      rw [credit]
      simp only [adaptRtctxSample, sampleDrain, gap, short, if_true, missing]
      constructor
      · exact fun _ => rfl
      · exact fun _ => rfl
      · exact fun _ => ⟨rfl, rfl⟩
      · exact fun none => absurd missing (not_lt.mpr none)
    · have credit : drainCredit rc occ now = 0 := by
        simp only [drainCredit, short, and_false, if_false]
      rw [credit]
      simp only [adaptRtctxSample, sampleDrain, gap, short, if_true, if_false]
      constructor
      · exact fun some => absurd some (lt_irrefl 0)
      · exact fun some => absurd some (lt_irrefl 0)
      · exact fun some => absurd some (lt_irrefl 0)
      · exact fun _ => by constructor <;> rfl
  · have credit : drainCredit rc occ now = 0 := by
      simp only [drainCredit, gap, false_and, if_false]
    rw [credit]
    simp only [adaptRtctxSample, gap, if_false]
    constructor
    · exact fun some => absurd some (lt_irrefl 0)
    · exact fun some => absurd some (lt_irrefl 0)
    · exact fun some => absurd some (lt_irrefl 0)
    · exact fun _ => by constructor <;> rfl

theorem sample_without_credit {rc : AdaptRtctx} (payload : UInt64) {occ now : UInt64} (alpha : ℚ)
    (none : drainCredit rc occ now ≤ 0) :
    SameDrain rc (adaptRtctxSample rc payload occ now alpha) :=
  (sample_credited rc payload occ now alpha).kept none

/-- The predicted wait behind `occBytes`; `clock` is the reading made inside. The
incoming size is not used. -/
def adaptRtctxQueueWaitUs (rc : Option AdaptRtctx) (occBytes clock : UInt64) : ℚ :=
  if occBytes = 0 then 0
  else
    let rate :=
      match rc with
      | none => 0
      | some rc =>
          let fresh := rc.lastDrainNs ≠ 0 ∧ rc.lastDrainNs ≤ clock ∧
            clock - rc.lastDrainNs < adaptDrainStaleNs
          if rc.minSamples ≤ rc.samples ∧ rc.drainValid = true ∧ fresh then rc.ewmaDrainBps
          else 0
    let floored := if rate ≤ adaptDrainFloorBps then adaptDrainFloorBps else rate
    (occBytes.toNat : ℚ) / floored * 1000000

structure AdaptHealth where
  state : AdaptHealthState
  badStreak : UInt32
  goodStreak : UInt32
  transitions : UInt32
  debounce : UInt32

def blockedOccFrac : ℚ := 95 / 100
def degradedOccFrac : ℚ := 80 / 100
def recoveredOccFrac : ℚ := 20 / 100
def drainDeficitFrac : ℚ := 1 / 2

def adaptHealthInit (debounce : UInt32) : AdaptHealth where
  state := .unavailable
  badStreak := 0
  goodStreak := 0
  transitions := 0
  debounce := if debounce = 0 then 8 else debounce

/-- The flag is the return value: the state changed. -/
def setState (h : AdaptHealth) (s : AdaptHealthState) : AdaptHealth × Bool :=
  if h.state ≠ s then
    ({ h with state := s, transitions := h.transitions + 1, badStreak := 0, goodStreak := 0 },
      true)
  else (h, false)

def occFrac (occBytes capacity : UInt64) : ℚ := (occBytes.toNat : ℚ) / capacity.toNat

def adaptHealthUpdateShm (h : AdaptHealth) (occBytes capacity : UInt64) (drainValid : Bool)
    (arrivalBps drainBps : ℚ) : AdaptHealth × Bool :=
  if capacity = 0 then (h, false)
  else
    let occFrac := occFrac occBytes capacity
    if blockedOccFrac ≤ occFrac then
      let h := { h with goodStreak := 0, badStreak := h.badStreak + 1 }
      if h.debounce ≤ h.badStreak ∨ h.state = .degraded then setState h .blocked else (h, false)
    else if degradedOccFrac ≤ occFrac ∨ (0 < occBytes ∧ drainValid = true ∧ 0 < arrivalBps ∧
        drainBps < drainDeficitFrac * arrivalBps) then
      let h := { h with goodStreak := 0 }
      if h.state = .blocked then
        -- Without the degraded occupancy the streak is not even counted.
        if degradedOccFrac ≤ occFrac then
          let h := { h with badStreak := h.badStreak + 1 }
          if h.debounce ≤ h.badStreak then setState h .degraded else (h, false)
        else (h, false)
      else
        let h := { h with badStreak := h.badStreak + 1 }
        if h.debounce ≤ h.badStreak then setState h .degraded else (h, false)
    else if occFrac ≤ recoveredOccFrac then
      let h := { h with badStreak := 0 }
      if h.state = .unavailable then setState h .healthy
      else if h.state ≠ .healthy then
        let h := { h with goodStreak := h.goodStreak + 1 }
        if h.debounce ≤ h.goodStreak then
          setState h (if h.state = .blocked then .recovering else .healthy)
        else (h, false)
      else (h, false)
    else (h, false)

end AdaptIpc.Policy

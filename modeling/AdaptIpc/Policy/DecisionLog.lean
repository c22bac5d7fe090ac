import AdaptIpc.Policy.CostModel
import AdaptIpc.Library.Recent

/-!
# The decision log

`adapt_declog_record` writes round a ring of 512 decisions, `adapt_declog_dump`
reads it back from an unsigned cursor that wraps. As 512 divides the word, the
wrap moves no slot, and the dump holds the most recent decisions in order.
-/

namespace AdaptIpc.Policy

open AdaptIpc.Library.Recent

set_option autoImplicit false

inductive DeclogLine where
  | header
  | row (d : AdaptDecision)

/-- The row loop of `adapt_declog_dump`. -/
def declogRows (dl : AdaptDeclog) : List AdaptDecision :=
  let total := dl.count
  (List.range total.toNat).map fun k =>
    dl.ring ((dl.next - total + UInt32.ofNat k) % adaptDecisionLogN)

/-- The lines written to `path`; none where no file is written. `opens` tells for which
paths `fopen` succeeds. -/
def adaptDeclogDump (dl : AdaptDeclog) (path : Option String) (opens : String → Bool) :
    Option (List DeclogLine) :=
  match path with
  | none => none
  | some path =>
      if dl.enabled = false ∨ dl.count = 0 then none
      else if opens path then some (.header :: (declogRows dl).map .row)
      else none

def enabledDeclog : AdaptDeclog := { adaptDeclogInit with enabled := true }

def declogSlot (number : ℕ) : UInt32 := UInt32.ofNat number % adaptDecisionLogN

theorem decision_log_toNat : adaptDecisionLogN.toNat = 512 := rfl

theorem declog_slot_toNat (number : ℕ) : (declogSlot number).toNat = number % 512 := by
  rw [declogSlot, UInt32.toNat_mod, UInt32.toNat_ofNat', decision_log_toNat]
  omega

theorem declog_slots_spread : Spread declogSlot 512 := by
  intro early late before near same
  have words := congrArg UInt32.toNat same
  rw [declog_slot_toNat, declog_slot_toNat] at words
  omega

/-- The log after these decisions: both counters count them, one modulo the word, one up
to the size of the ring. -/
structure Logged (dl : AdaptDeclog) (decisions : List AdaptDecision) : Prop where
  enabled : dl.enabled = true
  next : dl.next = UInt32.ofNat decisions.length
  count : dl.count.toNat = min decisions.length 512
  keeps : Keeps declogSlot 512 dl.ring decisions

theorem logged_start : Logged enabledDeclog [] where
  enabled := rfl
  next := rfl
  count := rfl
  keeps := keeps_nothing _ _ _

theorem logged_record {dl : AdaptDeclog} {decisions : List AdaptDecision}
    (logged : Logged dl decisions) (d : AdaptDecision) :
    Logged (adaptDeclogRecord dl d) (decisions ++ [d]) := by
  have slot : dl.next % adaptDecisionLogN = declogSlot decisions.length := by
    rw [logged.next, declogSlot]
  have count := logged.count
  rw [adaptDeclogRecord, if_pos logged.enabled]
  constructor
  case enabled => exact logged.enabled
  case next =>
    rw [List.length_append, List.length_singleton, UInt32.ofNat_add, logged.next]
    rfl
  case count =>
    rw [List.length_append, List.length_singleton]
    dsimp only
    split
    · next room =>
      rw [UInt32.lt_iff_toNat_lt, decision_log_toNat] at room
      rw [UInt32.toNat_add, show (1 : UInt32).toNat = 1 from rfl]
      omega
    · next full =>
      rw [UInt32.lt_iff_toNat_lt, decision_log_toNat] at full
      omega
  case keeps =>
    rw [slot]
    exact keeps_write declog_slots_spread logged.keeps d

theorem logged_run {dl : AdaptDeclog} {earlier : List AdaptDecision} (logged : Logged dl earlier)
    (decisions : List AdaptDecision) :
    Logged (decisions.foldl adaptDeclogRecord dl) (earlier ++ decisions) := by
  induction decisions generalizing dl earlier with
  | nil => simpa using logged
  | cons d rest ih => simpa using ih (logged_record logged d)

theorem logged_rows {dl : AdaptDeclog} {decisions : List AdaptDecision}
    (logged : Logged dl decisions) :
    declogRows dl = decisions.drop (decisions.length - min decisions.length 512) := by
  have count := logged.count
  rw [← keeps_read logged.keeps (Nat.min_le_right _ _) (Nat.min_le_left _ _)]
  simp only [declogRows]
  rw [count]
  apply List.map_congr_left
  intro k member
  have bound := List.mem_range.mp member
  apply congrArg dl.ring
  apply UInt32.toNat.inj
  rw [declog_slot_toNat, UInt32.toNat_mod, UInt32.toNat_add, UInt32.toNat_sub, logged.next,
    UInt32.toNat_ofNat', UInt32.toNat_ofNat', count, decision_log_toNat]
  omega

theorem choose_records (cfg : AdaptCostCfg) (input : DecideInput) (d : AdaptDecision) :
    (chooseRoute cfg input d).payload = d.payload ∧
      (chooseRoute cfg input d).current = d.current := by
  simp only [chooseRoute]
  split_ifs <;> exact ⟨rfl, rfl⟩

theorem cold_start_escape_records (cfg : AdaptCostCfg) (input : DecideInput)
    (d : AdaptDecision) :
    (coldStartEscape cfg input d).payload = d.payload ∧
      (coldStartEscape cfg input d).current = d.current := by
  simp only [coldStartEscape]
  split
  · exact ⟨rfl, rfl⟩
  · split_ifs <;> exact ⟨rfl, rfl⟩

theorem size_hysteresis_records (fullAdaptive : Bool) (cfg : AdaptCostCfg)
    (input : DecideInput) :
    (decideSizeHysteresis fullAdaptive cfg input).payload = input.payload ∧
      (decideSizeHysteresis fullAdaptive cfg input).current = input.current := by
  cases fullAdaptive with
  | false => exact ⟨rfl, rfl⟩
  | true => exact cold_start_escape_records cfg input _

theorem decide_records (policy : AdaptPolicyMode) (cfg : AdaptCostCfg) (input : DecideInput) :
    (adaptPolicyDecide policy cfg input).1.payload = input.payload ∧
      (adaptPolicyDecide policy cfg input).1.current = input.current := by
  cases policy with
  | sizeOnly => exact ⟨rfl, rfl⟩
  | sizeHysteresis => exact size_hysteresis_records false cfg input
  | queueAware => exact ⟨rfl, rfl⟩
  | default => exact choose_records _ _ _
  | costAware => exact choose_records _ _ _
  | fullAdaptive =>
      simp only [adaptPolicyDecide]
      split
      · exact size_hysteresis_records true cfg input
      · exact choose_records _ _ _

/-- After any number of records the dump holds the last 512 of them, each once and the
oldest first; without any, no file is written. -/
theorem dump_is_recent (decisions : List AdaptDecision) (path : String) (opens : String → Bool) :
    adaptDeclogDump (decisions.foldl adaptDeclogRecord enabledDeclog) (some path) opens =
      if decisions ≠ [] ∧ opens path = true then
        some (.header ::
          (decisions.drop (decisions.length - min decisions.length 512)).map .row)
      else none := by
  have logged := logged_run logged_start decisions
  rw [List.nil_append] at logged
  have count := logged.count
  simp only [adaptDeclogDump, logged.enabled, logged_rows logged]
  have empty : (decisions.foldl adaptDeclogRecord enabledDeclog).count = 0 ↔ decisions = [] := by
    rw [← UInt32.toNat_inj, count, ← List.length_eq_zero_iff]
    have zero : (0 : UInt32).toNat = 0 := rfl
    omega
  by_cases none : decisions = []
  · rw [if_pos (Or.inr (empty.mpr none)), if_neg fun recorded => recorded.1 none]
  · have some : ¬(decisions.foldl adaptDeclogRecord enabledDeclog).count = 0 := mt empty.mp none
    simp [some, none]

end AdaptIpc.Policy

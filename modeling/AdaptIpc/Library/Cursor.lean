import Mathlib.Data.UInt
import Mathlib.Tactic.Ring
import Mathlib.Data.Nat.Bitwise

/-!
# Wrapping cursors over a power-of-two buffer

A 64-bit cursor is the image of an unbounded position: addition and subtraction
commute with the image, a mask of `2 ^ log - 1` is the position within the
buffer, and its complement rounds down to a buffer boundary. All facts hold
across the wrap of the 64-bit counter because `2 ^ log` divides `2 ^ 64`.
-/

namespace AdaptIpc.Library.Cursor

set_option autoImplicit false

/-- The 64-bit image of an unbounded position. -/
abbrev cursor (position : Nat) : UInt64 := UInt64.ofNat position

theorem cursor_add (left right : Nat) : cursor left + cursor right = cursor (left + right) := by
  simp [cursor]

theorem cursor_sub (left right : Nat) (ordered : right ≤ left) :
    cursor left - cursor right = cursor (left - right) := by
  have split : cursor left = cursor (left - right) + cursor right := by
    rw [cursor_add, Nat.sub_add_cancel ordered]
  rw [split]
  simp

theorem cursor_toNat (position : Nat) (bound : position < 2 ^ 64) :
    (cursor position).toNat = position := by
  simpa [cursor] using bound

theorem cursor_eq_iff {left right : Nat} :
    cursor left = cursor right ↔ left % 2 ^ 64 = right % 2 ^ 64 := by
  constructor
  · intro same
    simpa [cursor] using congrArg UInt64.toNat same
  · intro same
    apply UInt64.toNat.inj
    simpa [cursor] using same

theorem cursor_inj_of_near {lower upper : Nat} (ordered : lower ≤ upper)
    (near : upper - lower < 2 ^ 64) (same : cursor lower = cursor upper) : lower = upper := by
  rw [cursor_eq_iff] at same
  omega

theorem pow_dvd_word (log : Nat) (small : log ≤ 63) : 2 ^ log ∣ 2 ^ 64 :=
  pow_dvd_pow 2 (by omega)

theorem pow_lt_word (log : Nat) (small : log ≤ 63) : 2 ^ log < 2 ^ 64 :=
  Nat.pow_lt_pow_right (by decide) (by omega)

theorem mask_toNat (log : Nat) (small : log ≤ 63) :
    (cursor (2 ^ log) - 1).toNat = 2 ^ log - 1 := by
  have positive : 0 < 2 ^ log := Nat.pow_pos (by decide)
  have below := pow_lt_word log small
  rw [show (1 : UInt64) = cursor 1 from rfl, cursor_sub _ _ positive, cursor_toNat _ (by omega)]

theorem masked_toNat (position log : Nat) (small : log ≤ 63) :
    (cursor position &&& (cursor (2 ^ log) - 1)).toNat = position % 2 ^ log := by
  rw [UInt64.toNat_and, mask_toNat log small, Nat.and_two_pow_sub_one_eq_mod]
  simp only [cursor, UInt64.toNat_ofNat']
  exact Nat.mod_mod_of_dvd position (pow_dvd_word log small)

theorem masked_eq_cursor (position log : Nat) (small : log ≤ 63) :
    cursor position &&& (cursor (2 ^ log) - 1) = cursor (position % 2 ^ log) := by
  have below := pow_lt_word log small
  have remainder : position % 2 ^ log < 2 ^ log := Nat.mod_lt _ (Nat.pow_pos (by decide))
  apply UInt64.toNat.inj
  rw [masked_toNat position log small, cursor_toNat _ (by omega)]

theorem and_add_and_not (value mask : UInt64) : (value &&& mask) + (value &&& ~~~mask) = value := by
  apply UInt64.toBitVec_inj.mp
  simp only [UInt64.toBitVec_add, UInt64.toBitVec_and, UInt64.toBitVec_not]
  rw [BitVec.add_eq_or_of_and_eq_zero]
  · ext index bound
    simp only [BitVec.getElem_or, BitVec.getElem_and, BitVec.getElem_not]
    cases value.toBitVec[index] <;> cases mask.toBitVec[index] <;> rfl
  · ext index bound
    simp only [BitVec.getElem_and, BitVec.getElem_not, BitVec.getElem_zero]
    cases value.toBitVec[index] <;> cases mask.toBitVec[index] <;> rfl

theorem aligned_eq_cursor (position log : Nat) (small : log ≤ 63) :
    cursor position &&& ~~~(cursor (2 ^ log) - 1) = cursor (position / 2 ^ log * 2 ^ log) := by
  have whole := and_add_and_not (cursor position) (cursor (2 ^ log) - 1)
  rw [masked_eq_cursor position log small] at whole
  have parts : cursor (position % 2 ^ log) + cursor (position / 2 ^ log * 2 ^ log) =
      cursor position := by
    rw [cursor_add, Nat.mul_comm, Nat.mod_add_div]
  exact add_left_cancel (whole.trans parts.symm)

theorem mod_ne_of_near {lower upper size : Nat} (ordered : lower < upper)
    (near : upper < lower + size) : upper % size ≠ lower % size := by
  intro same
  have congruent : (upper - lower) % size = 0 := Nat.sub_mod_eq_zero_of_mod_eq same
  rw [Nat.mod_eq_of_lt (by omega)] at congruent
  omega

theorem mod_add_of_fits {position offset size : Nat} (fits : position % size + offset < size) :
    (position + offset) % size = position % size + offset := by
  rw [← Nat.mod_add_mod, Nat.mod_eq_of_lt fits]

theorem boundary_mod (position size : Nat) : (position / size + 1) * size % size = 0 :=
  Nat.mul_mod_left _ _

theorem boundary_eq (position size : Nat) :
    (position / size + 1) * size = position + size - position % size := by
  have whole := Nat.mod_add_div position size
  have expanded : (position / size + 1) * size = size * (position / size) + size := by ring
  omega

end AdaptIpc.Library.Cursor

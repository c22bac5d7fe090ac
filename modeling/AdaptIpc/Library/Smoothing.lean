import Mathlib.Algebra.Order.Archimedean.Basic
import Mathlib.Algebra.Order.Field.Basic
import Mathlib.Tactic.Linarith
import Mathlib.Tactic.Ring

/-!
# Exponential smoothing

A smoothed mean moves towards each sample by a fixed weight. It never leaves a
half-line that holds the mean and the samples, and its distance to a half-line
that holds the samples shrinks geometrically.
-/

namespace AdaptIpc.Library.Smoothing

set_option autoImplicit false

section Means

variable {K : Type*} [Field K]

def smooth (weight sample mean : K) : K := weight * sample + (1 - weight) * mean

def smoothed (weight start : K) : List K → K
  | [] => start
  | sample :: older => smooth weight sample (smoothed weight start older)

/-- How much of a constant a mean that starts at zero has taken up. -/
def startUp (weight : K) (count : ℕ) : K := 1 - (1 - weight) ^ count

theorem start_up_succ (weight : K) (count : ℕ) :
    startUp weight (count + 1) = weight + (1 - weight) * startUp weight count := by
  simp only [startUp, pow_succ]
  ring

/-- A mean of a linear function of the samples, from zero: the constant term is taken up
by the count only. -/
theorem smoothed_linear (weight fixed slope : K) (samples : List K) :
    smoothed weight 0 (samples.map fun sample => fixed + slope * sample) =
      fixed * startUp weight samples.length + slope * smoothed weight 0 samples := by
  induction samples with
  | nil => simp [smoothed, startUp]
  | cons sample older ih =>
      simp only [List.map_cons, smoothed, List.length_cons, start_up_succ, ih, smooth]
      ring

theorem smoothed_constant (weight start sample : K) (count : ℕ) :
    smoothed weight start (List.replicate count sample) =
      sample - (1 - weight) ^ count * (sample - start) := by
  induction count with
  | zero => simp [smoothed]
  | succ count ih =>
      simp only [List.replicate_succ, smoothed, ih, smooth, pow_succ]
      ring

end Means

variable {K : Type*} [Field K] [LinearOrder K] [IsStrictOrderedRing K]
  {weight sample mean bound : K}

theorem smooth_lt (positive : 0 < weight) (proper : weight < 1) (sampled : sample < bound)
    (meant : mean < bound) : smooth weight sample mean < bound := by
  have first : weight * sample < weight * bound := mul_lt_mul_of_pos_left sampled positive
  have second : (1 - weight) * mean < (1 - weight) * bound :=
    mul_lt_mul_of_pos_left meant (sub_pos.mpr proper)
  calc weight * sample + (1 - weight) * mean
      < weight * bound + (1 - weight) * bound := add_lt_add first second
    _ = bound := by ring

theorem lt_smooth (positive : 0 < weight) (proper : weight < 1) (sampled : bound < sample)
    (meant : bound < mean) : bound < smooth weight sample mean := by
  have first : weight * bound < weight * sample := mul_lt_mul_of_pos_left sampled positive
  have second : (1 - weight) * bound < (1 - weight) * mean :=
    mul_lt_mul_of_pos_left meant (sub_pos.mpr proper)
  calc bound = weight * bound + (1 - weight) * bound := by ring
    _ < weight * sample + (1 - weight) * mean := add_lt_add first second

theorem smooth_le (positive : 0 ≤ weight) (proper : weight ≤ 1) (sampled : sample ≤ bound)
    (meant : mean ≤ bound) : smooth weight sample mean ≤ bound := by
  have first : weight * sample ≤ weight * bound := mul_le_mul_of_nonneg_left sampled positive
  have second : (1 - weight) * mean ≤ (1 - weight) * bound :=
    mul_le_mul_of_nonneg_left meant (sub_nonneg.mpr proper)
  calc weight * sample + (1 - weight) * mean
      ≤ weight * bound + (1 - weight) * bound := add_le_add first second
    _ = bound := by ring

theorem le_smooth (positive : 0 ≤ weight) (proper : weight ≤ 1) (sampled : bound ≤ sample)
    (meant : bound ≤ mean) : bound ≤ smooth weight sample mean := by
  have first : weight * bound ≤ weight * sample := mul_le_mul_of_nonneg_left sampled positive
  have second : (1 - weight) * bound ≤ (1 - weight) * mean :=
    mul_le_mul_of_nonneg_left meant (sub_nonneg.mpr proper)
  calc bound = weight * bound + (1 - weight) * bound := by ring
    _ ≤ weight * sample + (1 - weight) * mean := add_le_add first second

theorem smooth_nonneg (positive : 0 ≤ weight) (proper : weight ≤ 1) (sampled : 0 ≤ sample)
    (meant : 0 ≤ mean) : 0 ≤ smooth weight sample mean :=
  le_smooth positive proper sampled meant

theorem smooth_excess (positive : 0 < weight) (sampled : sample ≤ bound) :
    smooth weight sample mean - bound ≤ (1 - weight) * (mean - bound) := by
  have first : weight * sample ≤ weight * bound := mul_le_mul_of_nonneg_left sampled positive.le
  simp only [smooth]
  linarith

theorem excess_contracts [Archimedean K] {amount : K} (excess : K) (proper : weight < 1)
    (positive : 0 < weight) (room : 0 < amount) :
    ∃ count : ℕ, (1 - weight) ^ count * excess < amount := by
  have shrinks : 1 - weight < 1 := sub_lt_self 1 positive
  have keeps : 0 ≤ 1 - weight := (sub_pos.mpr proper).le
  rcases le_or_gt excess 0 with none | some
  · exact ⟨0, by simpa using lt_of_le_of_lt none room⟩
  · obtain ⟨count, small⟩ := exists_pow_lt_of_lt_one (div_pos room some) shrinks
    exact ⟨count, (lt_div_iff₀ some).mp small⟩

theorem excess_stays {amount excess : K} {count : ℕ} (proper : weight < 1) (positive : 0 < weight)
    (room : 0 < amount) (small : (1 - weight) ^ count * excess < amount) :
    (1 - weight) ^ (count + 1) * excess < amount := by
  have keeps : 0 ≤ 1 - weight := (sub_pos.mpr proper).le
  have shrinks : 1 - weight ≤ 1 := sub_le_self 1 positive.le
  rw [pow_succ', mul_assoc]
  rcases le_or_gt ((1 - weight) ^ count * excess) 0 with below | above
  · exact (mul_nonpos_of_nonneg_of_nonpos keeps below).trans_lt room
  · exact (mul_le_of_le_one_left above.le shrinks).trans_lt small

theorem excess_smoothed {amount : K} {count : ℕ} (proper : weight < 1) (positive : 0 < weight)
    (sampled : sample ≤ bound) (small : (1 - weight) ^ (count + 1) * (mean - bound) < amount) :
    (1 - weight) ^ count * (smooth weight sample mean - bound) < amount := by
  have keeps : 0 ≤ (1 - weight) ^ count := pow_nonneg (sub_pos.mpr proper).le count
  calc (1 - weight) ^ count * (smooth weight sample mean - bound)
      ≤ (1 - weight) ^ count * ((1 - weight) * (mean - bound)) :=
        mul_le_mul_of_nonneg_left (smooth_excess positive sampled) keeps
    _ = (1 - weight) ^ (count + 1) * (mean - bound) := by ring
    _ < amount := small

theorem start_up_lt_one (proper : weight < 1) (count : ℕ) : startUp weight count < 1 :=
  sub_lt_self 1 (pow_pos (sub_pos.mpr proper) count)

theorem decay_lt_smooth (positive : 0 < weight) (sampled : 0 < sample) :
    (1 - weight) * mean < smooth weight sample mean :=
  lt_add_of_pos_left _ (mul_pos positive sampled)

end AdaptIpc.Library.Smoothing

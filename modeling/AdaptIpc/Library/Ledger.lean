import Mathlib.Algebra.BigOperators.Group.List.Basic
import Mathlib.Data.UInt

/-!
# Counters that are sums over a history

A program that counts leaves a history of entries; what an entry adds to each
counter is a function of the entry. Counters agree with a history if each is the
sum of what the entries added.
-/

namespace AdaptIpc.Library.Ledger

set_option autoImplicit false

section Totals

variable {Entry Counter Amount : Type*} [AddCommMonoid Amount]

def total (adds : Entry → Counter → Amount) (entries : List Entry) (counter : Counter) : Amount :=
  (entries.map fun entry => adds entry counter).sum

variable {adds : Entry → Counter → Amount}

theorem total_append (entries : List Entry) (entry : Entry) (counter : Counter) :
    total adds (entries ++ [entry]) counter = total adds entries counter + adds entry counter := by
  simp only [total, List.map_append, List.map_singleton, List.sum_append, List.sum_singleton]

end Totals

section Counts

variable {Entry Counter Amount : Type*} [AddCommMonoid Amount] [One Amount]

def one (condition : Bool) : Amount := if condition then 1 else 0

theorem total_count {adds : Entry → Counter → Amount} {counter : Counter}
    {counts : Entry → Bool} (unit : ∀ entry, adds entry counter = one (counts entry))
    (entries : List Entry) : total adds entries counter = entries.countP counts • 1 := by
  induction entries with
  | nil => exact (zero_nsmul 1).symm
  | cons entry entries ih =>
      simp only [total, List.map_cons, List.sum_cons] at ih ⊢
      rw [ih, unit, List.countP_cons, one, add_nsmul, add_comm]
      cases counts entry with
      | true => exact congrArg (entries.countP counts • 1 + ·) (one_nsmul 1).symm
      | false => exact congrArg (entries.countP counts • 1 + ·) (zero_nsmul 1).symm

end Counts

theorem counted_word (count : ℕ) : count • (1 : UInt64) = UInt64.ofNat count := by
  induction count with
  | zero => rfl
  | succ count ih =>
      rw [succ_nsmul, ih, UInt64.ofNat_add]
      rfl

end AdaptIpc.Library.Ledger

import Mathlib.Data.List.Basic
import Mathlib.Logic.Function.Basic

/-!
# A circular store keeps the newest items

Items written one after another into slots that repeat with a period: a slot
holds the newest item written to it, so the last items up to the period are all
there, each in the slot of its number.
-/

namespace AdaptIpc.Library.Recent

set_option autoImplicit false

variable {Index Item : Type*} {slot : ℕ → Index} {period : ℕ}
  {store : Index → Item} {items : List Item}

def Spread (slot : ℕ → Index) (period : ℕ) : Prop :=
  ∀ early late, early < late → late < early + period → slot early ≠ slot late

def Keeps (slot : ℕ → Index) (period : ℕ) (store : Index → Item) (items : List Item) : Prop :=
  ∀ number item, items.length ≤ number + period → items[number]? = some item →
    store (slot number) = item

theorem keeps_nothing (slot : ℕ → Index) (period : ℕ) (store : Index → Item) :
    Keeps slot period store [] := by
  intro number item _ written
  cases written

theorem keeps_write [DecidableEq Index] (spread : Spread slot period)
    (keeps : Keeps slot period store items)
    (item : Item) :
    Keeps slot period (Function.update store (slot items.length) item) (items ++ [item]) := by
  intro number found recent written
  rw [List.length_append, List.length_singleton] at recent
  rcases Nat.lt_trichotomy number items.length with before | here | behind
  · have other : slot number ≠ slot items.length := spread number items.length before (by omega)
    rw [Function.update_of_ne other]
    rw [List.getElem?_append_left before] at written
    exact keeps number found (by omega) written
  · subst here
    rw [List.getElem?_concat_length] at written
    cases written
    exact Function.update_self ..
  · rw [List.getElem?_eq_none (by simp; omega)] at written
    cases written

/-- Reading the slots of the last `count` numbers gives the last `count` items, oldest
first. -/
theorem keeps_read (keeps : Keeps slot period store items) {count : ℕ} (within : count ≤ period)
    (written : count ≤ items.length) :
    ((List.range count).map fun k => store (slot (items.length - count + k))) =
      items.drop (items.length - count) := by
  apply List.ext_getElem?
  intro k
  by_cases inside : k < count
  · have bound : items.length - count + k < items.length := by omega
    rw [List.getElem?_drop, List.getElem?_eq_getElem bound, List.getElem?_map,
      List.getElem?_range inside]
    apply congrArg some
    exact keeps _ _ (by omega) (List.getElem?_eq_getElem bound)
  · rw [List.getElem?_eq_none (by simp; omega), List.getElem?_eq_none (by simp; omega)]

end AdaptIpc.Library.Recent

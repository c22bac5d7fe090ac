import Mathlib.Data.List.TakeWhile

/-!
# Streaks in a history

A history is a list with the newest element first; the streak of a predicate is
the number of newest elements that satisfy it without interruption.
-/

namespace AdaptIpc.Library.Streak

set_option autoImplicit false

variable {α : Type*} {p : α → Bool}

def streak (p : α → Bool) (history : List α) : Nat := (history.takeWhile p).length

theorem streak_extend {newest : α} (older : List α) (holds : p newest = true) :
    streak p (newest :: older) = streak p older + 1 := by
  simp [streak, holds]

theorem streak_broken {newest : α} (older : List α) (fails : p newest = false) :
    streak p (newest :: older) = 0 := by
  simp [streak, fails]

theorem recent_of_streak {history : List α} {count : Nat} (long : count ≤ streak p history) :
    count ≤ history.length ∧ ∀ element ∈ history.take count, p element = true := by
  induction history generalizing count with
  | nil =>
      have none : count = 0 := by simpa [streak] using long
      subst none
      simp
  | cons newest older ih =>
      cases count with
      | zero => simp
      | succ count =>
          cases holds : p newest with
          | false =>
              rw [streak_broken older holds] at long
              omega
          | true =>
              rw [streak_extend older holds] at long
              have rest := ih (Nat.le_of_succ_le_succ long)
              constructor
              · simpa using rest.1
              · intro element member
                rw [List.take_succ_cons] at member
                rcases List.mem_cons.mp member with newer | earlier
                · rw [newer, holds]
                · exact rest.2 element earlier

end AdaptIpc.Library.Streak

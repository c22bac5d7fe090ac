import AdaptIpc.Library.Transition

/-!
# The first-in first-out queue

The abstract purpose of a single-producer single-consumer channel: a queue with
the history of what entered and what left it. Order, exactly-once delivery and
the prefix law are one invariant of this machine.
-/

namespace AdaptIpc.Library.Fifo

open AdaptIpc.Library.Transition

set_option autoImplicit false

structure Queue (Item : Type*) where
  pending : List Item
  sent : List Item
  received : List Item

def Queue.empty {Item : Type*} : Queue Item := ⟨[], [], []⟩

inductive Move (Item : Type*) where
  | enqueue (item : Item)
  | dequeue

variable {Item : Type*}

def move (queue : Queue Item) : Move Item → Option (Queue Item)
  | .enqueue item =>
      some { queue with pending := queue.pending ++ [item], sent := queue.sent ++ [item] }
  | .dequeue =>
      match queue.pending with
      | [] => none
      | item :: rest => some { queue with pending := rest, received := queue.received ++ [item] }

def fifo (Item : Type*) : Machine (Queue Item) (Move Item) where
  initial queue := queue = Queue.empty
  step := move

theorem enqueue_reaches (queue : Queue Item) (item : Item) :
    (fifo Item).ReachableFrom queue
      { queue with pending := queue.pending ++ [item], sent := queue.sent ++ [item] } :=
  Relation.ReflTransGen.single ⟨.enqueue item, rfl⟩

theorem dequeue_reaches (queue : Queue Item) (item : Item) (rest : List Item)
    (front : queue.pending = item :: rest) :
    (fifo Item).ReachableFrom queue
      { queue with pending := rest, received := queue.received ++ [item] } := by
  refine Relation.ReflTransGen.single ⟨.dequeue, ?_⟩
  simp only [fifo, move, front]

theorem sent_is_received_then_pending {queue : Queue Item}
    (reached : (fifo Item).Reachable queue) :
    queue.sent = queue.received ++ queue.pending := by
  refine Machine.invariant_of_reachable (fifo Item)
    (fun queue => queue.sent = queue.received ++ queue.pending) ?_ ?_ reached
  · rintro start rfl
    rfl
  · intro before action after conserved stepped
    cases action with
    | enqueue item =>
        cases stepped
        simp only [conserved, List.append_assoc]
    | dequeue =>
        simp only [fifo, move] at stepped
        split at stepped
        · cases stepped
        · next item rest front =>
          cases stepped
          simp only [conserved, front, List.append_assoc, List.singleton_append]

end AdaptIpc.Library.Fifo

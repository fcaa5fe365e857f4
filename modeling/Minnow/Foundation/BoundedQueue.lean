import Minnow.Foundation.Runs

/-!
# Bounded queues

A queue takes of what it is offered only as much as there is room for, and gives back what
it has taken in the order in which it came.
-/

namespace Minnow.Foundation

variable {Item : Type*}

structure BoundedQueue (Item : Type*) where
  capacity : Nat
  items : List Item
  items_le : items.length ≤ capacity

namespace BoundedQueue

@[ext] theorem ext {first second : BoundedQueue Item} (capacity : first.capacity = second.capacity)
    (items : first.items = second.items) : first = second := by
  cases first
  cases second
  cases capacity
  cases items
  rfl

def empty (capacity : Nat) : BoundedQueue Item := ⟨capacity, [], Nat.zero_le _⟩

/-- The part of the data for which there is room. -/
def admitted (queue : BoundedQueue Item) (data : List Item) : List Item :=
  data.take (min data.length (queue.capacity - queue.items.length))

def offer (queue : BoundedQueue Item) (data : List Item) : BoundedQueue Item where
  capacity := queue.capacity
  items := queue.items ++ queue.admitted data
  items_le := by
    have fits := queue.items_le
    rw [List.length_append, admitted, List.length_take]
    omega

def take (queue : BoundedQueue Item) (count : Nat) : BoundedQueue Item where
  capacity := queue.capacity
  items := queue.items.drop count
  items_le := by
    have fits := queue.items_le
    rw [List.length_drop]
    omega

/-! ## Runs -/

inductive Op (Item : Type*) where
  | offer (data : List Item)
  | take (count : Nat)

/-- A queue, with all that was admitted to it and all that was taken from it. -/
structure History (Item : Type*) where
  queue : BoundedQueue Item
  admitted : List Item
  taken : List Item

namespace History

def start (capacity : Nat) : History Item := ⟨BoundedQueue.empty capacity, [], []⟩

def step (history : History Item) : Op Item → History Item
  | .offer data =>
      { history with
        queue := history.queue.offer data
        admitted := history.admitted ++ history.queue.admitted data }
  | .take count =>
      { history with
        queue := history.queue.take count
        taken := history.taken ++ history.queue.items.take count }

/-- What was taken and what is left are what was admitted, in this order. -/
def Conserved (history : History Item) : Prop :=
  history.taken ++ history.queue.items = history.admitted

theorem Conserved.step {history : History Item} (conserved : history.Conserved) (op : Op Item) :
    (history.step op).Conserved := by
  cases op with
  | offer data =>
      change history.taken ++ (history.queue.items ++ _) = history.admitted ++ _
      rw [← List.append_assoc, conserved]
  | take count =>
      change history.taken ++ history.queue.items.take count ++ history.queue.items.drop count = _
      rw [List.append_assoc, List.take_append_drop]
      exact conserved

theorem start_conserved (capacity : Nat) : (start capacity : History Item).Conserved := rfl

theorem exec_conserved (capacity : Nat) (ops : List (Op Item)) :
    (Runs.exec step (start capacity) ops).Conserved :=
  Runs.exec_invariant Conserved (fun _ op conserved => conserved.step op)
    (start_conserved capacity) ops

theorem exec_capacity (capacity : Nat) (ops : List (Op Item)) :
    (Runs.exec step (start capacity) ops).queue.capacity = capacity := by
  refine Runs.exec_invariant (fun history : History Item => history.queue.capacity = capacity) ?_
    rfl ops
  intro history op same
  cases op with
  | offer data => exact same
  | take count => exact same

end History

end BoundedQueue

end Minnow.Foundation

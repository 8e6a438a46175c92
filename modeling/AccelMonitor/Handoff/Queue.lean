/-!
# Bounded Queues

A line of values with a limited number of places.

The queue sits between one producer and one consumer, and its capacity bounds
how far the consumer may fall behind. Values leave in the order in which they
came. A queue has at least one place. Pushing needs a free place; a producer
that finds none either waits or asks, after each attempt, whether to go on.

## Main definitions

* `Queue`: The places and the values in them.
* `Queue.push?`, `Queue.pop`: One value in, one value out.
* `Queue.insist`: Attempts to push for as long as it is told to go on.
* `Queue.drain`: Empties the queue and keeps the newest value.

## Theorems

* `push?_items`: A pushed value comes last.
* `insist_pushed`: The answer says whether the value is in the queue.
-/

namespace AccelMonitor

/-- Values in a limited number of places, oldest first. -/
structure Queue (α : Type) where
  /-- The number of places. -/
  capacity : Nat
  /-- The values, oldest first. -/
  items : List α
deriving DecidableEq

/-- What became of insisting on a push. -/
structure Insistence where
  /-- The value is in the queue. -/
  pushed : Bool
  /-- How often it was asked whether to go on. -/
  asked : Nat
deriving DecidableEq

namespace Queue

variable {α : Type}

/-- An empty queue, which has at least one place. -/
def empty (capacity : Nat) : Queue α :=
  ⟨max capacity 1, []⟩

/-- The number of places when nothing is asked for. -/
def standardCapacity : Nat :=
  10

/-- There is no value. -/
def isEmpty (q : Queue α) : Bool :=
  q.items.isEmpty

/-- There is a free place. -/
def hasRoom (q : Queue α) : Bool :=
  q.items.length < q.capacity

/-- The queue with one more value, if there is a free place. -/
def push? (q : Queue α) (a : α) : Option (Queue α) :=
  if q.hasRoom then some { q with items := q.items ++ [a] } else none

/-- The oldest value, and the queue without it. -/
def pop (q : Queue α) : Option α × Queue α :=
  match q.items with
  | [] => (none, q)
  | a :: rest => (some a, { q with items := rest })

/-- The newest value, and the queue without any. -/
def drain (q : Queue α) : Option α × Queue α :=
  (q.items.getLast?, { q with items := [] })

/-- Attempts to push a value, going on after a failed attempt so many times. -/
def insist (q : Queue α) (a : α) (goOn : Nat) : Insistence × Queue α :=
  match q.push? a with
  | some q' => (⟨true, 0⟩, q')
  | none =>
    match goOn with
    | 0 => (⟨false, 1⟩, q)
    | n + 1 =>
      let (i, q') := insist q a n
      ({ i with asked := i.asked + 1 }, q')

/-- A pushed value comes last. -/
theorem push?_items {q q' : Queue α} {a : α} (h : q.push? a = some q') :
    q'.items = q.items ++ [a] := by
  rw [push?] at h
  split at h
  · cases h
    rfl
  · cases h

/-- Pushing fits into the places. -/
theorem push?_length_le {q q' : Queue α} {a : α} (h : q.push? a = some q') :
    q'.items.length ≤ q'.capacity := by
  rw [push?] at h
  split at h
  case isTrue hroom =>
    cases h
    rw [List.length_append, List.length_singleton]
    exact of_decide_eq_true hroom
  case isFalse => cases h

/-- The value that leaves is the first one. -/
theorem pop_items (q : Queue α) : q.pop.1.toList ++ q.pop.2.items = q.items := by
  obtain ⟨capacity, items⟩ := q
  cases items <;> rfl

/-- The answer says whether the value is in the queue. -/
theorem insist_pushed (q : Queue α) (a : α) (goOn : Nat) :
    (q.insist a goOn).2.items
      = q.items ++ if (q.insist a goOn).1.pushed then [a] else [] := by
  cases hq : q.push? a with
  | some q' =>
    rw [insist.eq_def, hq]
    exact push?_items hq
  | none =>
    -- A full queue stays full, so every attempt fails like the first.
    induction goOn with
    | zero => simp only [insist, hq, Bool.false_eq_true, if_false, List.append_nil]
    | succ n ih => simpa only [insist, hq] using ih

end Queue

end AccelMonitor

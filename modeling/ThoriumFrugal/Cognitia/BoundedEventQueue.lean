import ThoriumFrugal.Lib.Text

/-!
# The queue of the transport

`BoundedEventQueue` of `bounded_event_queue.cc`. Each method holds the queue's lock to its
end, so it is one function. `overflow` is what the next `Enqueue` discards.
-/

namespace ThoriumFrugal.Cognitia

open Lib

/-- The queue. `droppedCount` is a natural number: fewer than 2^64 drops are meant, as many as a
`size_t` counts. -/
structure BoundedEventQueue where
  maxCapacity : ℕ := 100
  queue : List Text := []
  droppedCount : ℕ := 0
deriving DecidableEq, Repr

namespace BoundedEventQueue

/-- `Enqueue`: a full queue drops its oldest payload first. -/
def enqueue (q : BoundedEventQueue) (payload : Text) : BoundedEventQueue :=
  let q :=
    if q.queue.length ≥ q.maxCapacity then
      { q with queue := q.queue.tail, droppedCount := q.droppedCount + 1 }
    else q
  { q with queue := q.queue ++ [payload] }

/-- Content is dropped, not buffered, while there is no connection. -/
def enqueueContentWithPolicy (q : BoundedEventQueue) (payload : Text) (isConnected : Bool) :
    Bool × BoundedEventQueue :=
  if ¬isConnected then (false, { q with droppedCount := q.droppedCount + 1 })
  else (true, q.enqueue payload)

/-- `Dequeue`, with the payload that is taken out. -/
def dequeue (q : BoundedEventQueue) : Option Text × BoundedEventQueue :=
  match q.queue with
  | [] => (none, q)
  | item :: rest => (some item, { q with queue := rest })

/-- `size`. -/
def size (q : BoundedEventQueue) : ℕ := q.queue.length

/-- `empty`. -/
def isEmpty (q : BoundedEventQueue) : Bool := q.queue.isEmpty

/-- `Clear`; the counter stays. -/
def clear (q : BoundedEventQueue) : BoundedEventQueue := { q with queue := [] }

/-- The payload that the next `enqueue` pops to make room, if any. -/
def overflow (q : BoundedEventQueue) : List Text :=
  if q.queue.length ≥ q.maxCapacity then q.queue.take 1 else []

variable (q : BoundedEventQueue) (payload : Text)

@[simp] theorem maxCapacity_enqueue : (q.enqueue payload).maxCapacity = q.maxCapacity := by
  unfold enqueue
  split <;> rfl

/-- An `enqueue` appends; what leaves in front is the overflow. -/
theorem overflow_append_enqueue :
    q.overflow ++ (q.enqueue payload).queue = q.queue ++ [payload] := by
  unfold overflow enqueue
  split
  · simp only
    rw [← List.append_assoc, ← List.drop_one, List.take_append_drop]
  · rfl

theorem mem_enqueue_self : payload ∈ (q.enqueue payload).queue := by
  unfold enqueue
  simp

theorem mem_of_mem_enqueue {p : Text} (h : p ∈ (q.enqueue payload).queue) :
    p ∈ q.queue ∨ p = payload := by
  have hall : p ∈ q.queue ++ [payload] := by
    rw [← q.overflow_append_enqueue payload]
    exact List.mem_append_right _ h
  simpa using hall

theorem enqueue_of_lt (h : q.queue.length < q.maxCapacity) :
    q.enqueue payload = { q with queue := q.queue ++ [payload] } := by
  unfold enqueue
  rw [if_neg (by omega)]

theorem overflow_of_lt (h : q.queue.length < q.maxCapacity) : q.overflow = [] := by
  unfold overflow
  rw [if_neg (by omega)]

variable {q}

theorem length_enqueue_le (hpos : 0 < q.maxCapacity) (h : q.queue.length ≤ q.maxCapacity) :
    (q.enqueue payload).queue.length ≤ q.maxCapacity := by
  unfold enqueue
  split
  · simp only [List.length_append, List.length_tail, List.length_singleton]
    omega
  · simp only [List.length_append, List.length_singleton]
    omega

/-- `dropped_count_` counts the payloads that overflow. -/
theorem droppedCount_enqueue (hpos : 0 < q.maxCapacity) :
    (q.enqueue payload).droppedCount = q.droppedCount + q.overflow.length := by
  unfold enqueue overflow
  split
  · rw [List.length_take]
    show q.droppedCount + 1 = _
    omega
  · rfl

end BoundedEventQueue
end ThoriumFrugal.Cognitia

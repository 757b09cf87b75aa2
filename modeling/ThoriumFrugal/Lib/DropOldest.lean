import Mathlib

/-!
# Buffers that drop their oldest item

A buffer of bounded capacity is a window onto the sequence of everything that was ever pushed:
it holds what is left behind the items that were popped and those that were dropped. A push
into a full buffer drops the item in front.
-/

namespace ThoriumFrugal.Lib

/-- The history of a buffer with room for `cap` items. -/
structure Window (α : Type*) (cap : ℕ) where
  pushed : List α
  popped : ℕ
  dropped : ℕ
  first_le : popped + dropped ≤ pushed.length
  length_le : pushed.length ≤ popped + dropped + cap

namespace Window

variable {α : Type*} {cap : ℕ}

/-- Nothing is pushed yet. -/
def empty (α : Type*) (cap : ℕ) : Window α cap where
  pushed := []
  popped := 0
  dropped := 0
  first_le := le_rfl
  length_le := Nat.zero_le _

/-- What the buffer holds, oldest first. -/
def held (w : Window α cap) : List α := w.pushed.drop (w.popped + w.dropped)

theorem length_held (w : Window α cap) :
    w.held.length = w.pushed.length - (w.popped + w.dropped) := List.length_drop

theorem length_held_le (w : Window α cap) : w.held.length ≤ cap := by
  have h := w.length_le
  rw [length_held]
  omega

/-- Everything pushed was popped, was dropped, or is held. -/
theorem length_pushed (w : Window α cap) :
    w.pushed.length = w.popped + w.dropped + w.held.length := by
  have h := w.first_le
  rw [length_held]
  omega

/-- The new element comes last; a full window gives up its oldest one. -/
def push (w : Window α cap) (x : α) : Window α cap where
  pushed := w.pushed ++ [x]
  popped := w.popped
  dropped := if cap ≤ w.held.length then w.dropped + 1 else w.dropped
  first_le := by
    have h := w.length_pushed
    rw [List.length_append, List.length_singleton]
    split
    · omega
    · omega
  length_le := by
    have h := w.length_pushed
    have hle := w.length_held_le
    rw [List.length_append, List.length_singleton]
    split
    · omega
    · omega

/-- The oldest element leaves from the front. -/
def pop (w : Window α cap) : Window α cap where
  pushed := w.pushed
  popped := if w.held = [] then w.popped else w.popped + 1
  dropped := w.dropped
  first_le := by
    have h := w.length_pushed
    split
    · omega
    · rename_i hne
      have hpos := List.length_pos_of_ne_nil hne
      omega
  length_le := by
    have h := w.length_le
    split
    · omega
    · omega

theorem dropped_le_push (w : Window α cap) (x : α) : w.dropped ≤ (w.push x).dropped := by
  unfold push
  simp only
  split
  · omega
  · exact le_rfl

theorem pop_of_nil {w : Window α cap} (h : w.held = []) : w.pop = w := by
  unfold pop
  simp only [if_pos h]

theorem popped_pop {w : Window α cap} (h : w.held ≠ []) : w.pop.popped = w.popped + 1 := if_neg h

/-- The next item to pop. -/
theorem head?_held (w : Window α cap) : w.held.head? = w.pushed[w.popped + w.dropped]? := by
  unfold held
  rw [List.head?_drop]

/-- A push appends, and cuts the front back to the capacity. -/
theorem held_push (w : Window α cap) (x : α) :
    (w.push x).held = (w.held ++ [x]).drop (w.held.length + 1 - cap) := by
  have hle := w.length_held_le
  have hfirst := w.first_le
  have happend : w.held ++ [x] = (w.pushed ++ [x]).drop (w.popped + w.dropped) := by
    rw [List.drop_append_of_le_length hfirst]
    rfl
  rw [happend, List.drop_drop]
  unfold held push
  congr 1
  show w.popped + (if cap ≤ w.held.length then w.dropped + 1 else w.dropped) = _
  split
  · -- full: the window moves on by one
    have hfull : w.held.length = cap := by omega
    rw [held] at hfull
    omega
  · -- with room nothing is cut off
    have hroom : (w.pushed.drop (w.popped + w.dropped)).length < cap := by
      rw [← held]
      omega
    omega

theorem held_pop (w : Window α cap) : w.pop.held = w.held.tail := by
  by_cases h : w.held = []
  · unfold pop
    simp only [if_pos h]
    show w.held = _
    rw [h, List.tail_nil]
  · unfold pop
    simp only [if_neg h]
    unfold held
    rw [List.tail_drop]
    congr 1
    show w.popped + 1 + w.dropped = _
    omega

end Window

/-! ## Queues that lose items -/

/-- What was taken out of a queue, and then what waits in it, was put into it in this order. -/
def Conveys {α : Type*} (given taken waiting : List α) : Prop := (taken ++ waiting).Sublist given

namespace Conveys

variable {α : Type*} {given taken waiting : List α}

theorem start : Conveys ([] : List α) [] [] := List.Sublist.refl _

/-- A new item at the back may drop items in front. -/
theorem push (h : Conveys given taken waiting) (x : α) (n : ℕ) :
    Conveys (given ++ [x]) taken ((waiting ++ [x]).drop n) := by
  have hdrop : (taken ++ (waiting ++ [x]).drop n).Sublist (taken ++ (waiting ++ [x])) :=
    (List.drop_sublist n _).append_left taken
  rw [← List.append_assoc] at hdrop
  exact hdrop.trans (h.append_right [x])

theorem pop {x : α} (h : Conveys given taken (x :: waiting)) :
    Conveys given (taken ++ [x]) waiting := by
  unfold Conveys at h ⊢
  rwa [List.append_assoc, List.singleton_append]

/-- What waits may be thrown away. -/
theorem clear (h : Conveys given taken waiting) : Conveys given taken [] := by
  unfold Conveys at h ⊢
  rw [List.append_nil]
  exact (List.sublist_append_left _ _).trans h

theorem taken_sublist (h : Conveys given taken waiting) : taken.Sublist given :=
  (List.sublist_append_left _ _).trans h

end Conveys
end ThoriumFrugal.Lib

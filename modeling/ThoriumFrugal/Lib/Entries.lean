import Mathlib

/-!
# Association lists in key order

Sorting the entries of an association list by key does not change what is found under a key: an
entry only ever moves behind entries with other keys. Any reflexive relation on the keys will do.
A function applied to every value is applied to the value found.
-/

namespace ThoriumFrugal.Lib

variable {κ β : Type*} [BEq κ] [LawfulBEq κ] {r : κ → κ → Prop} [DecidableRel r]

/-- The entries in the order `r` of their keys. -/
def sortByKey (r : κ → κ → Prop) [DecidableRel r] (entries : List (κ × β)) : List (κ × β) :=
  entries.insertionSort fun a b => r a.1 b.1

/-- An entry hides at its new place what it hid before. -/
theorem lookup_orderedInsert (hr : ∀ k, r k k) (key : κ) (entry : κ × β)
    (entries : List (κ × β)) :
    (entries.orderedInsert (fun a b => r a.1 b.1) entry).lookup key
      = (entry :: entries).lookup key := by
  obtain ⟨k, v⟩ := entry
  induction entries with
  | nil => rfl
  | cons next entries ih =>
    obtain ⟨k', v'⟩ := next
    rw [List.orderedInsert_cons]
    split
    · rfl
    · next hlt =>
      have hne : k' ≠ k := fun heq => hlt (heq ▸ hr k')
      rw [List.lookup_cons, ih, List.lookup_cons, List.lookup_cons, List.lookup_cons]
      by_cases hkey : key = k'
      · rw [hkey, beq_self_eq_true, beq_false_of_ne hne]
      · rw [beq_false_of_ne hkey]

theorem lookup_sortByKey (hr : ∀ k, r k k) (key : κ) (entries : List (κ × β)) :
    (sortByKey r entries).lookup key = entries.lookup key := by
  induction entries with
  | nil => rfl
  | cons entry entries ih =>
    unfold sortByKey at ih ⊢
    rw [List.insertionSort_cons, lookup_orderedInsert hr, List.lookup_cons, List.lookup_cons, ih]

omit [LawfulBEq κ] in
theorem lookup_map_value {γ : Type*} (f : β → γ) (key : κ) (entries : List (κ × β)) :
    (entries.map fun entry => (entry.1, f entry.2)).lookup key = (entries.lookup key).map f := by
  induction entries with
  | nil => rfl
  | cons entry entries ih =>
    rw [List.map_cons, List.lookup_cons, List.lookup_cons]
    split
    · rfl
    · exact ih

end ThoriumFrugal.Lib

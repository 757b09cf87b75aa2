import Mathlib

/-!
# Ledgers of first-in-first-out buffers

What went into a buffer and what left it, each in order, and why it left. The ledger of a buffer
is balanced when the items that left and the items that are held make up the items that went
in: then each item leaves at most once, the oldest first.
-/

namespace ThoriumFrugal.Lib

/-- What was accepted, and what became of it. -/
structure Ledger (ρ α : Type*) where
  accepted : List α := []
  departed : List (ρ × α) := []

namespace Ledger

variable {ρ α : Type*}

/-- Some items leave, then some go in. -/
def enter (l : Ledger ρ α) (gone : List (ρ × α)) (new : List α) : Ledger ρ α where
  accepted := l.accepted ++ new
  departed := l.departed ++ gone

/-- The places in the order of acceptance of the items that left for a reason. -/
def positions [DecidableEq ρ] (l : Ledger ρ α) (reason : ρ) : List ℕ :=
  (l.departed.zipIdx.filter (·.1.1 = reason)).map Prod.snd

/-- How many items left for a reason. -/
def count [DecidableEq ρ] (l : Ledger ρ α) (reason : ρ) : ℕ := l.departed.countP (·.1 = reason)

/-- What left and what is held is what went in. -/
def Balanced (l : Ledger ρ α) (held : List α) : Prop :=
  l.departed.map Prod.snd ++ held = l.accepted

theorem balanced_empty : Balanced ({} : Ledger ρ α) [] := rfl

variable {l : Ledger ρ α} {held : List α}

/-- A step that moves items out in front and in behind keeps the balance. -/
theorem Balanced.enter (h : l.Balanced held) {gone : List (ρ × α)} {new after : List α}
    (hstep : gone.map Prod.snd ++ after = held ++ new) : (l.enter gone new).Balanced after := by
  show (l.departed ++ gone).map Prod.snd ++ after = l.accepted ++ new
  rw [List.map_append, List.append_assoc, hstep, ← List.append_assoc, h]

namespace Balanced

theorem length (h : l.Balanced held) : l.accepted.length = l.departed.length + held.length := by
  rw [← h, List.length_append, List.length_map]

/-- The items held are the last that went in. -/
theorem held_eq (h : l.Balanced held) :
    held = l.accepted.drop (l.accepted.length - held.length) := by
  have hlen := h.length
  have hgone : l.accepted.length - held.length = (l.departed.map Prod.snd).length := by
    rw [List.length_map]
    omega
  rw [hgone, ← h, List.drop_left]

/-- The item that left as the `i`-th is the one that went in as the `i`-th. -/
theorem getElem? (h : l.Balanced held) {i : ℕ} {d : ρ × α} (hd : l.departed[i]? = some d) :
    l.accepted[i]? = some d.2 := by
  have hmap : (l.departed.map Prod.snd)[i]? = some d.2 := by
    rw [List.getElem?_map, hd, Option.map_some]
  obtain ⟨hi, -⟩ := List.getElem?_eq_some_iff.mp hmap
  rw [← h, List.getElem?_append_left hi, hmap]

end Balanced

variable [DecidableEq ρ]

/-- The items that left for a reason stand at their positions among those that went in. -/
theorem Balanced.map_positions (h : l.Balanced held) (reason : ρ) :
    (l.positions reason).map (l.accepted[·]?)
      = (l.departed.filter (·.1 = reason)).map fun d => some d.2 := by
  have hplace : ∀ d ∈ l.departed.zipIdx.filter (·.1.1 = reason),
      l.accepted[d.2]? = some d.1.2 := by
    intro d hd
    exact h.getElem? (List.mk_mem_zipIdx_iff_getElem?.mp (List.mem_of_mem_filter hd))
  have hfilter : l.departed.filter (·.1 = reason)
      = (l.departed.zipIdx.filter (·.1.1 = reason)).map Prod.fst := by
    conv_lhs => rw [← List.zipIdx_map_fst 0 l.departed]
    rw [List.filter_map]
    rfl
  unfold positions
  rw [List.map_map, hfilter, List.map_map]
  exact List.map_congr_left hplace

/-- No item leaves twice. -/
theorem positions_pairwise (l : Ledger ρ α) (reason : ρ) :
    (l.positions reason).Pairwise (· < ·) := by
  have hall : (l.departed.zipIdx.map Prod.snd).Pairwise (· < ·) := by
    rw [List.zipIdx_map_snd]
    exact List.pairwise_lt_range'
  exact hall.sublist (List.filter_sublist.map Prod.snd)

theorem count_enter (l : Ledger ρ α) (gone : List (ρ × α)) (new : List α) (reason : ρ) :
    (l.enter gone new).count reason = l.count reason + gone.countP (·.1 = reason) :=
  List.countP_append

end Ledger
end ThoriumFrugal.Lib

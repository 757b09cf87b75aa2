import Mathlib

/-!
# Framed streams

Messages without the separator, each followed by one separator, are written one after the
other. A reader splits what has arrived at the separators and keeps what stands behind the
last one for later. It gets the messages back, and at any earlier moment the first of them.
-/

namespace ThoriumFrugal.Lib

variable {α : Type*}

/-- A message and its end mark. -/
def frame (sep : α) (message : List α) : List α := message ++ [sep]

/-- The stream of the messages. -/
def framed (sep : α) (messages : List (List α)) : List α := messages.flatMap (frame sep)

theorem framed_cons (sep : α) (message : List α) (messages : List (List α)) :
    framed sep (message :: messages) = message ++ sep :: framed sep messages := by
  simp [framed, frame]

section Reader

variable [DecidableEq α]

/-- The complete messages of what has arrived. -/
def received (sep : α) (s : List α) : List (List α) := (s.splitOn sep).dropLast

variable {sep : α} {messages : List (List α)} {s : List α}

/-- Splitting sets the complete messages apart from the rest. -/
theorem splitOn_framed_append (h : ∀ m ∈ messages, sep ∉ m) (s : List α) :
    (framed sep messages ++ s).splitOn sep = messages ++ s.splitOn sep := by
  induction messages with
  | nil => rfl
  | cons message messages ih =>
    obtain ⟨hmessage, hmessages⟩ := List.forall_mem_cons.mp h
    rw [framed_cons, List.append_assoc, List.cons_append,
      List.splitOn_append_cons_self_of_not_mem hmessage, ih hmessages, List.cons_append]

theorem received_framed_append (h : ∀ m ∈ messages, sep ∉ m) (s : List α) :
    received sep (framed sep messages ++ s) = messages ++ received sep s := by
  unfold received
  rw [splitOn_framed_append h, List.dropLast_append_of_ne_nil (List.splitOn_ne_nil sep s)]

theorem received_of_not_mem (h : sep ∉ s) : received sep s = [] := by
  unfold received
  rw [List.splitOn_eq_singleton h, List.dropLast_singleton]

/-- The messages come back. -/
theorem received_framed (h : ∀ m ∈ messages, sep ∉ m) :
    received sep (framed sep messages) = messages := by
  have hread := received_framed_append h []
  rwa [List.append_nil, received_of_not_mem (List.not_mem_nil), List.append_nil] at hread

/-- At any moment the reader has the first messages, and the start of the next one. -/
theorem received_initial (h : ∀ m ∈ messages, sep ∉ m) (hs : s <+: framed sep messages) :
    received sep s <+: messages := by
  induction messages generalizing s with
  | nil =>
    rw [List.prefix_nil.mp hs]
    exact List.prefix_rfl
  | cons message messages ih =>
    obtain ⟨hmessage, hmessages⟩ := List.forall_mem_cons.mp h
    rw [framed_cons] at hs
    rcases List.prefix_or_prefix_of_prefix hs (List.prefix_append ..) with hshort | ⟨u, rfl⟩
    · -- not even the first separator is there
      rw [received_of_not_mem fun hmem => hmessage (hshort.subset hmem)]
      exact List.nil_prefix
    · cases u with
      | nil =>
        rw [List.append_nil, received_of_not_mem hmessage]
        exact List.nil_prefix
      | cons c u =>
        obtain ⟨rfl, hu⟩ := List.cons_prefix_cons.mp ((List.prefix_append_right_inj _).mp hs)
        have hone : ∀ m ∈ [message], c ∉ m := by simpa using hmessage
        have hread := received_framed_append hone u
        rw [framed_cons, framed, List.flatMap_nil, List.append_assoc, List.singleton_append]
          at hread
        rw [hread]
        exact List.cons_prefix_cons.mpr ⟨rfl, ih hmessages hu⟩

/-- The messages with their separators, and the start of the next one if there is one. -/
def lines (sep : α) : List α → List (List α)
  | [] => []
  | c :: s =>
    if c = sep then [c] :: lines sep s
    else
      match lines sep s with
      | [] => [[c]]
      | line :: rest => (c :: line) :: rest

theorem lines_append_cons {message : List α} (h : sep ∉ message) (s : List α) :
    lines sep (message ++ sep :: s) = frame sep message :: lines sep s := by
  induction message with
  | nil => simp [lines, frame]
  | cons c message ih =>
    have hne : c ≠ sep := fun heq => h (heq ▸ List.mem_cons_self)
    have hrest := ih fun hmem => h (List.mem_cons_of_mem c hmem)
    rw [List.cons_append, lines, if_neg hne, hrest]
    rfl

theorem lines_framed (h : ∀ m ∈ messages, sep ∉ m) :
    lines sep (framed sep messages) = messages.map (frame sep) := by
  induction messages with
  | nil => rfl
  | cons message messages ih =>
    obtain ⟨hmessage, hmessages⟩ := List.forall_mem_cons.mp h
    rw [framed_cons, lines_append_cons hmessage, ih hmessages, List.map_cons]

end Reader

end ThoriumFrugal.Lib

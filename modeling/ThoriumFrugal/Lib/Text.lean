import Mathlib

/-!
# Position-based text operations

The search and slicing operations of a byte-string class, on lists of characters:
`find`, `findFirstOf`, `findStr`, `substr`, line reading, ASCII case folding. Positions
are naturals counted from the start of the whole text, and "not found" is `none`.

The lemmas come in two shapes. The `_append` lemmas compute a search on a text that is
already cut into pieces at the place the search stops; the `_eq_none` lemmas say that a
search fails when the text lacks what it looks for.
-/

namespace ThoriumFrugal.Lib

/-- A text is the list of its characters. -/
abbrev Text := List Char

namespace Text

instance : LawfulBEq Text := inferInstanceAs (LawfulBEq (List Char))

/-! ## Searching -/

/-- Position of the first `c` at or after `pos`. -/
def find (s : Text) (c : Char) (pos : ℕ) : Option ℕ :=
  ((s.drop pos).findIdx? (· == c)).map (pos + ·)

/-- Position of the first character of `cs` at or after `pos`. -/
def findFirstOf (s cs : Text) (pos : ℕ) : Option ℕ :=
  ((s.drop pos).findIdx? (cs.contains ·)).map (pos + ·)

/-- Position of the first occurrence of the text `t` at or after `pos`. -/
def findStr (s t : Text) (pos : ℕ) : Option ℕ :=
  ((s.drop pos).tails.findIdx? (t.isPrefixOf ·)).map (pos + ·)

/-- The `n` characters that start at `pos`, fewer at the end of the text. -/
def substr (s : Text) (pos n : ℕ) : Text := (s.drop pos).take n

/-- The pieces that repeated line reading with the terminator `d` yields: what stands
between terminators, without the empty piece after a final terminator. -/
def getlines (s : Text) (d : Char) : List Text :=
  let tokens := s.splitOn d
  if tokens.getLast? = some [] then tokens.dropLast else tokens

/-- ASCII lower case. -/
def toLower (s : Text) : Text := s.map Char.toLower

/-- `s` without the characters of `cs` at either end. -/
def trim (s cs : Text) : Text :=
  ((s.dropWhile (cs.contains ·)).reverse.dropWhile (cs.contains ·)).reverse

/-- The texts joined with a separator between neighbours. -/
def join (sep : Text) (ts : List Text) : Text := sep.intercalate ts

variable {s t a b cs : Text} {c : Char}

theorem findIdx?_append_cons {α : Type*} {l r : List α} {x : α} (p : α → Bool)
    (hl : ∀ y ∈ l, p y = false) (hx : p x = true) :
    (l ++ x :: r).findIdx? p = some l.length := by
  have hnone : l.findIdx? p = none := by
    rw [List.findIdx?_eq_none_iff]
    exact hl
  rw [List.findIdx?_append, hnone, List.findIdx?_cons, hx]
  simp

theorem exists_of_findIdx?_eq_some {α : Type*} {l : List α} {p : α → Bool} {n : ℕ}
    (h : l.findIdx? p = some n) :
    ∃ a x b, l = a ++ x :: b ∧ a.length = n ∧ p x = true ∧ ∀ y ∈ a, p y = false := by
  rw [List.findIdx?_eq_some_iff_getElem] at h
  obtain ⟨hlt, hx, hbefore⟩ := h
  refine ⟨l.take n, l[n], l.drop (n + 1), by simp, by simp [hlt.le], hx, fun y hy => ?_⟩
  obtain ⟨i, hi, rfl⟩ := List.mem_iff_getElem.mp hy
  rw [List.length_take] at hi
  have hnot := hbefore i (by omega)
  rw [List.getElem_take]
  exact Bool.eq_false_iff.mpr hnot

theorem find_of_drop_eq {pos : ℕ} (h : s.drop pos = a ++ c :: b) (ha : c ∉ a) :
    find s c pos = some (pos + a.length) := by
  unfold find
  rw [h, findIdx?_append_cons (· == c) (fun y hy => ?_) (beq_self_eq_true c)]
  · rfl
  · exact beq_eq_false_iff_ne.mpr fun e => ha (e ▸ hy)

/-- Where a search has found the character. -/
theorem exists_of_find_eq_some {pos n : ℕ} (h : find s c pos = some n) :
    ∃ a b, s.drop pos = a ++ c :: b ∧ c ∉ a ∧ n = pos + a.length := by
  unfold find at h
  rw [Option.map_eq_some_iff] at h
  obtain ⟨k, hk, rfl⟩ := h
  obtain ⟨a, x, b, hs, rfl, hx, ha⟩ := exists_of_findIdx?_eq_some hk
  rw [eq_of_beq hx] at hs
  exact ⟨a, b, hs, fun hc => by simpa using ha c hc, rfl⟩

/-- A text is cut at the last `c`. -/
theorem exists_last_split_of_mem (h : c ∈ s) : ∃ a b, s = a ++ c :: b ∧ c ∉ b := by
  obtain ⟨b, a, hs, hb⟩ := List.eq_append_cons_of_mem (List.mem_reverse.mpr h)
  refine ⟨a.reverse, b.reverse, ?_, by simpa using hb⟩
  rw [← List.reverse_reverse s, hs]
  simp

theorem find_of_not_mem_drop {pos : ℕ} (h : c ∉ s.drop pos) : find s c pos = none := by
  unfold find
  rw [Option.map_eq_none_iff, List.findIdx?_eq_none_iff]
  exact fun y hy => beq_eq_false_iff_ne.mpr fun e => h (e ▸ hy)

theorem find_append (ha : c ∉ a) : (t ++ (a ++ c :: b)).find c t.length
    = some (t.length + a.length) :=
  find_of_drop_eq List.drop_left ha

theorem find_zero_append (ha : c ∉ a) : (a ++ c :: b).find c 0 = some a.length := by
  simpa using find_append (t := []) (b := b) ha

theorem not_mem_of_find_eq_none {pos : ℕ} (h : find s c pos = none) : c ∉ s.drop pos := by
  unfold find at h
  rw [Option.map_eq_none_iff, List.findIdx?_eq_none_iff] at h
  intro hc
  simpa using h c hc

/-- What a search finds lies behind its start and inside the text. -/
theorem bounds_of_find_eq_some {pos n : ℕ} (h : find s c pos = some n) :
    pos ≤ n ∧ n < s.length := by
  obtain ⟨a, b, hdrop, -, rfl⟩ := exists_of_find_eq_some h
  have hlen := congrArg List.length hdrop
  simp only [List.length_drop, List.length_append, List.length_cons] at hlen
  omega

theorem bounds_of_findFirstOf_eq_some {pos n : ℕ} (h : findFirstOf s cs pos = some n) :
    pos ≤ n ∧ n < s.length := by
  unfold findFirstOf at h
  rw [Option.map_eq_some_iff] at h
  obtain ⟨k, hk, rfl⟩ := h
  obtain ⟨a, x, b, hdrop, rfl, -, -⟩ := exists_of_findIdx?_eq_some hk
  have hlen := congrArg List.length hdrop
  simp only [List.length_drop, List.length_append, List.length_cons] at hlen
  omega

/-- An occurrence ends inside the text. -/
theorem length_le_of_findStr_eq_some {n : ℕ} (h : findStr s t 0 = some n) :
    n + t.length ≤ s.length := by
  unfold findStr at h
  rw [List.drop_zero, Option.map_eq_some_iff] at h
  obtain ⟨k, hk, rfl⟩ := h
  rw [List.findIdx?_eq_some_iff_getElem] at hk
  obtain ⟨hlt, hprefix, -⟩ := hk
  have hlen := (List.isPrefixOf_iff_prefix.mp hprefix).length_le
  rw [List.length_tails] at hlt
  rw [List.getElem_tails, List.length_drop] at hlen
  omega

theorem find_eq_none (h : c ∉ s) (pos : ℕ) : s.find c pos = none :=
  find_of_not_mem_drop fun hc => h (List.mem_of_mem_drop hc)

/-- A search goes past a piece that does not hold the character. -/
theorem find_append_left (ha : c ∉ a) :
    (t ++ (a ++ b)).find c t.length = (find b c 0).map (t.length + a.length + ·) := by
  have hnone : a.findIdx? (· == c) = none := by
    rw [List.findIdx?_eq_none_iff]
    exact fun y hy => beq_eq_false_iff_ne.mpr fun e => ha (e ▸ hy)
  unfold find
  rw [List.drop_left, List.findIdx?_append, hnone, List.drop_zero]
  simp [Option.map_map, Function.comp_def, Nat.add_comm, Nat.add_left_comm]

/-- Two characters are not found at one position. -/
theorem lt_of_find_eq_some_of_ne {d : Char} {pos n m : ℕ} (h : find s c pos = some n)
    (h' : find s d n = some m) (hne : c ≠ d) : n < m := by
  obtain ⟨a, b, hc, -, rfl⟩ := exists_of_find_eq_some h
  obtain ⟨a', b', hd, -, rfl⟩ := exists_of_find_eq_some h'
  rw [← List.drop_drop, hc, List.drop_left] at hd
  cases a' with
  | nil => exact absurd (List.cons.inj hd).1 hne
  | cons x a' => simp

/-- A text occurs in another exactly when searching for it from the start succeeds. -/
theorem findStr_isSome_iff : (s.findStr t 0).isSome ↔ t <:+: s := by
  unfold findStr
  simp only [List.drop_zero, Option.isSome_map, List.findIdx?_isSome, List.any_eq_true,
    List.mem_tails, List.isPrefixOf_iff_prefix]
  rw [List.infix_iff_prefix_suffix]
  exact ⟨fun ⟨x, hs, hp⟩ => ⟨x, hp, hs⟩, fun ⟨x, hp, hs⟩ => ⟨x, hs, hp⟩⟩

/-- A text whose first character does not come again starts nowhere in front of an occurrence,
unless it occurs there. -/
theorem not_prefix_append {a t b : Text} {c : Char} (hc : c ∉ t) (ha : a ≠ [])
    (hnot : ¬c :: t <+: a) : ¬c :: t <+: a ++ (c :: t ++ b) := by
  rintro ⟨r, hr⟩
  rcases List.append_eq_append_iff.mp hr with ⟨x, hx, -⟩ | ⟨x, hx, hy⟩
  · exact hnot ⟨x, hx.symm⟩
  · -- the occurrence would reach into the one behind `a`, and hold its first character
    cases a with
    | nil => exact ha rfl
    | cons d a =>
      cases x with
      | nil =>
        rw [List.append_nil] at hx
        exact hnot (hx ▸ List.prefix_rfl)
      | cons y x =>
        rw [List.cons_append, List.cons.injEq] at hx
        rw [List.cons_append, List.cons_append, List.cons.injEq] at hy
        apply hc
        rw [hx.2, hy.1]
        simp

/-- A search for such a text finds it behind a piece that does not hold it. -/
theorem findStr_zero_append_of_not_infix (hc : c ∉ t) (ha : ¬c :: t <:+: a) :
    (a ++ (c :: t ++ b)).findStr (c :: t) 0 = some a.length := by
  unfold findStr
  rw [List.drop_zero]
  induction a with
  | nil => simp [List.findIdx?_cons]
  | cons x a ih =>
    have hrest : ¬c :: t <:+: a := fun h => ha (h.trans (List.infix_cons List.infix_rfl))
    have hstart : ¬c :: t <+: x :: a ++ (c :: t ++ b) :=
      not_prefix_append hc (List.cons_ne_nil x a) fun h => ha h.isInfix
    have hx : (c :: t).isPrefixOf (x :: (a ++ (c :: t ++ b))) = false := by
      rw [← Bool.not_eq_true, List.isPrefixOf_iff_prefix]
      exact hstart
    have h := ih hrest
    rw [List.cons_append, List.tails_cons, List.findIdx?_cons, hx]
    simp only [Bool.false_eq_true, if_false, Option.map_map, Option.map_eq_some_iff] at h ⊢
    obtain ⟨n, hn, hlen⟩ := h
    exact ⟨n, hn, by simp only [Function.comp, List.length_cons] at hlen ⊢; omega⟩

/-! ## Removing and trimming -/

/-- The scan of `remove`: `skip` characters of a match are still to be dropped. -/
def removeFrom (t : Text) : ℕ → Text → Text
  | _, [] => []
  | skip + 1, _ :: s => removeFrom t skip s
  | 0, c :: s =>
    if t.isPrefixOf (c :: s) then removeFrom t (t.length - 1) s else c :: removeFrom t 0 s

/-- `s` without the occurrences of the text `t`, found from left to right. -/
def remove (t s : Text) : Text := removeFrom t 0 s

theorem remove_of_not_mem (h : c ∉ s) : remove (c :: t) s = s := by
  unfold remove
  induction s with
  | nil => rfl
  | cons x s ih =>
    rw [List.mem_cons, not_or] at h
    have hne : (c == x) = false := beq_eq_false_iff_ne.mpr h.1
    rw [removeFrom, List.isPrefixOf, hne, Bool.false_and, if_neg (by simp), ih h.2]

theorem trim_of_not_mem (h : ∀ x ∈ s, x ∉ cs) : trim s cs = s := by
  have hdrop : ∀ s : Text, (∀ x ∈ s, x ∉ cs) → s.dropWhile (cs.contains ·) = s := by
    intro s hs
    rw [List.dropWhile_eq_self_iff]
    intro hlen hc
    exact hs _ (List.getElem_mem hlen) (by simpa using hc)
  unfold trim
  rw [hdrop s h, hdrop s.reverse (fun x hx => h x (List.mem_reverse.mp hx)), List.reverse_reverse]

/-- Trimming takes away what is put around a text, if it is of the trimmed characters and the text
neither starts nor ends with one. -/
theorem trim_append {core : Text} (ha : ∀ x ∈ a, x ∈ cs) (hb : ∀ x ∈ b, x ∈ cs)
    (hhead : ∀ x ∈ core.head?, x ∉ cs) (hlast : ∀ x ∈ core.getLast?, x ∉ cs) :
    trim (a ++ (core ++ b)) cs = core := by
  have hkeep : ∀ {l : Text}, (∀ x ∈ l.head?, x ∉ cs) → ∀ m : Text, l ≠ [] →
      (l ++ m).dropWhile (cs.contains ·) = l ++ m := by
    intro l hl m hne
    obtain ⟨x, l, rfl⟩ := List.exists_cons_of_ne_nil hne
    exact List.dropWhile_cons_of_neg (by simpa using hl x rfl)
  have hall : ∀ {l : Text}, (∀ x ∈ l, x ∈ cs) → ∀ x ∈ l, cs.contains x = true := fun hl x hx =>
    List.contains_iff_mem.mpr (hl x hx)
  unfold trim
  rw [List.dropWhile_append_of_pos (hall ha)]
  by_cases hne : core = []
  · rw [hne, List.nil_append, List.dropWhile_eq_nil_iff.mpr (hall hb)]
    rfl
  · have hb' : ∀ x ∈ b.reverse, x ∈ cs := fun x hx => hb x (List.mem_reverse.mp hx)
    have hback := hkeep (l := core.reverse) (by simpa using hlast) [] (by simpa using hne)
    rw [hkeep hhead b hne, List.reverse_append, List.dropWhile_append_of_pos (hall hb')]
    rw [List.append_nil] at hback
    rw [hback, List.reverse_reverse]

/-! ## Scanning and slicing -/

section Scan

variable {p : Char → Bool}

theorem takeWhile_append_cons (hc : p c = false) :
    (a ++ c :: b).takeWhile p = a.takeWhile p := by
  induction a with
  | nil => simp [hc]
  | cons x a ih =>
    rw [List.cons_append, List.takeWhile_cons, List.takeWhile_cons, ih]

/-- A text that starts with a stop, or is empty, adds nothing to what is read in front of it. -/
theorem takeWhile_append_of_head (ht : ∀ c ∈ t.head?, p c = false) :
    (a ++ t).takeWhile p = a.takeWhile p := by
  cases t with
  | nil => rw [List.append_nil]
  | cons c t => rw [takeWhile_append_cons (ht c rfl)]

/-- Cutting a text at the first character that fails a test. -/
theorem takeWhile_append_stop (ha : ∀ c ∈ a, p c = true) (ht : ∀ c ∈ t.head?, p c = false) :
    (a ++ t).takeWhile p = a := by
  rw [takeWhile_append_of_head ht, List.takeWhile_eq_self_iff]
  exact ha

theorem dropWhile_append_stop (ha : ∀ c ∈ a, p c = true) (ht : ∀ c ∈ t.head?, p c = false) :
    (a ++ t).dropWhile p = t := by
  have h := List.takeWhile_append_dropWhile (p := p) (l := a ++ t)
  rw [takeWhile_append_stop ha ht] at h
  exact List.append_cancel_left h

theorem ne_of_not_mem (ha : c ∉ a) : ∀ x ∈ a, decide (x ≠ c) = true :=
  fun _ hx => decide_eq_true fun e => ha (e ▸ hx)

theorem stop_of_head (ht : ∀ x ∈ t.head?, x = c) :
    ∀ x ∈ t.head?, decide (x ≠ c) = false :=
  fun x hx => decide_eq_false (not_not_intro (ht x hx))

/-- The scan up to a character does not reach it. -/
theorem not_mem_takeWhile_ne (s : Text) (c : Char) : c ∉ s.takeWhile (· ≠ c) :=
  fun h => by simpa using List.mem_takeWhile_imp h

theorem head_dropWhile_ne (s : Text) (c : Char) : ∀ x ∈ (s.dropWhile (· ≠ c)).head?, x = c := by
  intro x hx
  have hstop := List.head?_dropWhile_not (fun y : Char => decide (y ≠ c)) s
  rw [hx] at hstop
  simpa using hstop

end Scan

/-- A search cuts the text in front of the character it finds. -/
theorem cut_of_find_eq_some {n : ℕ} (h : find s c 0 = some n) :
    s.take n = s.takeWhile (· ≠ c) ∧ s.drop n = s.dropWhile (· ≠ c) := by
  obtain ⟨a, b, hs, ha, rfl⟩ := exists_of_find_eq_some h
  rw [List.drop_zero] at hs
  subst hs
  rw [Nat.zero_add, List.take_left, List.drop_left,
    takeWhile_append_stop (ne_of_not_mem ha) (by simp),
    dropWhile_append_stop (ne_of_not_mem ha) (by simp)]
  exact ⟨rfl, rfl⟩

/-- A search that fails leaves the text in one piece. -/
theorem cut_of_find_eq_none (h : find s c 0 = none) :
    s.takeWhile (· ≠ c) = s ∧ s.dropWhile (· ≠ c) = [] := by
  have hmem : c ∉ s := by simpa using not_mem_of_find_eq_none h
  exact ⟨List.takeWhile_eq_self_iff.mpr (ne_of_not_mem hmem),
    List.dropWhile_eq_nil_iff.mpr (ne_of_not_mem hmem)⟩

theorem takeWhile_congr {p q : Char → Bool} (h : ∀ x ∈ a, p x = q x) :
    a.takeWhile p = a.takeWhile q := by
  induction a with
  | nil => rfl
  | cons x a ih =>
    obtain ⟨hx, ha⟩ := List.forall_mem_cons.mp h
    rw [List.takeWhile_cons, List.takeWhile_cons, hx, ih ha]

/-- Slicing up to the first character of a set, or to the end of the text. -/
theorem substr_findFirstOf (s cs : Text) (pos : ℕ) :
    s.substr pos ((s.findFirstOf cs pos).getD s.length - pos)
      = (s.drop pos).takeWhile (fun c => !cs.contains c) := by
  unfold substr findFirstOf
  cases h : (s.drop pos).findIdx? (cs.contains ·) with
  | some n =>
    -- the piece in front of the first stop is the longest one without a stop
    obtain ⟨a, x, b, hdrop, rfl, hx, ha⟩ := exists_of_findIdx?_eq_some h
    have hrest : (s.drop pos).takeWhile (fun c => !cs.contains c) = a := by
      rw [hdrop, takeWhile_append_cons (by simpa using hx)]
      exact List.takeWhile_eq_self_iff.mpr fun y hy => by simpa using ha y hy
    rw [hrest, hdrop]
    simp
  | none =>
    rw [List.findIdx?_eq_none_iff] at h
    have hrest : (s.drop pos).takeWhile (fun c => !cs.contains c) = s.drop pos :=
      List.takeWhile_eq_self_iff.mpr fun y hy => by simpa using h y hy
    rw [hrest]
    simp

/-! ## Pieces between separators -/

/-- Joining one more piece. -/
theorem join_concat (sep : Text) (ts : List Text) (t : Text) :
    join sep (ts ++ [t]) = (if ts = [] then [] else join sep ts ++ sep) ++ t := by
  unfold join
  induction ts with
  | nil => simp
  | cons x ts ih =>
    cases ts with
    | nil => simp [List.intercalate_cons_cons]
    | cons y ts =>
      rw [List.cons_append, List.cons_append, List.intercalate_cons_cons, ← List.cons_append, ih,
        List.intercalate_cons_cons]
      simp

theorem not_mem_join {sep : Text} {ts : List Text} (hsep : c ∉ sep) (h : ∀ t ∈ ts, c ∉ t) :
    c ∉ join sep ts := by
  unfold join
  induction ts with
  | nil => simp
  | cons t ts ih =>
    obtain ⟨ht, hts⟩ := List.forall_mem_cons.mp h
    cases ts with
    | nil => simpa using ht
    | cons t' ts =>
      rw [List.intercalate_cons_cons]
      simp [ht, hsep, ih hts]

theorem subset_join {sep : Text} {ts : List Text} (h : t ∈ ts) : t ⊆ join sep ts := by
  unfold join
  induction ts with
  | nil => cases h
  | cons x ts ih =>
    rcases List.mem_cons.mp h with rfl | h
    · cases ts with
      | nil => simp
      | cons y ts =>
        rw [List.intercalate_cons_cons, List.append_assoc]
        exact List.subset_append_left _ _
    · obtain ⟨y, ys, rfl⟩ := List.exists_cons_of_ne_nil (List.ne_nil_of_mem h)
      rw [List.intercalate_cons_cons]
      exact List.Subset.trans (ih h) (List.subset_append_right _ _)

@[simp] theorem getlines_nil (d : Char) : getlines [] d = [] := rfl

/-- The first line ends at the first terminator, and the others follow behind it. -/
theorem getlines_of_ne_nil (d : Char) (hs : s ≠ []) :
    getlines s d = s.takeWhile (· ≠ d) :: getlines ((s.dropWhile (· ≠ d)).drop 1) d := by
  by_cases hd : d ∈ s
  · obtain ⟨a, b, rfl, ha⟩ := List.eq_append_cons_of_mem hd
    have htake : (a ++ d :: b).takeWhile (· ≠ d) = a :=
      takeWhile_append_stop (ne_of_not_mem ha) (by simp)
    have hdrop : ((a ++ d :: b).dropWhile (· ≠ d)).drop 1 = b := by
      rw [dropWhile_append_stop (ne_of_not_mem ha) (by simp)]
      rfl
    rw [htake, hdrop]
    unfold getlines
    simp only [List.splitOn_append_cons_self_of_not_mem ha]
    have hne : b.splitOn d ≠ [] := List.splitOn_ne_nil d b
    rw [List.getLast?_cons_of_ne_nil hne, List.dropLast_cons_of_ne_nil hne]
    split <;> rfl
  · have htake : s.takeWhile (· ≠ d) = s := List.takeWhile_eq_self_iff.mpr (ne_of_not_mem hd)
    have hdrop : s.dropWhile (· ≠ d) = [] := List.dropWhile_eq_nil_iff.mpr (ne_of_not_mem hd)
    rw [htake, hdrop]
    unfold getlines
    simp [List.splitOn_eq_singleton hd, hs]

/-- The piece that line reading leaves out is empty. -/
theorem filter_getlines (s : Text) (c : Char) :
    (getlines s c).filter (· ≠ []) = (s.splitOn c).filter (· ≠ []) := by
  unfold getlines
  simp only
  split
  · next hlast =>
    obtain ⟨ts, hts⟩ := List.getLast?_eq_some_iff.mp hlast
    simp [hts]
  · rfl

/-- Joining pieces and splitting again gives the pieces back, up to empty ones. -/
theorem filter_getlines_join {ts : List Text} (h : ∀ t ∈ ts, c ∉ t) :
    (getlines (join [c] ts) c).filter (· ≠ []) = ts.filter (· ≠ []) := by
  rw [filter_getlines]
  unfold join
  by_cases hts : ts = []
  · subst hts
    simp
  · rw [List.splitOn_intercalate c h hts]

/-- No piece holds the separator. -/
theorem not_mem_of_mem_splitOn (h : t ∈ s.splitOn c) : c ∉ t := by
  induction s generalizing t with
  | nil =>
    rw [List.splitOn_nil, List.mem_singleton] at h
    simp [h]
  | cons x s ih =>
    rw [List.splitOn_cons_eq_if_modifyHead] at h
    split at h
    · rcases List.mem_cons.mp h with rfl | h
      · simp
      · exact ih h
    · next hx =>
      obtain ⟨piece, pieces, hs⟩ := List.exists_cons_of_ne_nil (List.splitOn_ne_nil c s)
      rw [hs, List.modifyHead_cons] at h
      rcases List.mem_cons.mp h with rfl | h
      · have hpiece := ih (hs ▸ List.mem_cons_self)
        have hne : c ≠ x := fun e => hx (by simp [e])
        simp [hne, hpiece]
      · exact ih (hs ▸ List.mem_cons_of_mem piece h)

theorem subset_of_mem_splitOn (h : t ∈ s.splitOn c) : t ⊆ s := by
  have hsub : t ⊆ join [c] (s.splitOn c) := subset_join h
  unfold join at hsub
  rwa [List.intercalate_splitOn] at hsub

/-! ## Case folding -/

@[simp] theorem toLower_toLower (s : Text) : s.toLower.toLower = s.toLower := by
  unfold toLower
  rw [List.map_map]
  exact List.map_congr_left fun c _ => Char.toLower_eq_of_not_isUpper (by simp)

theorem toLower_eq_self_iff : s.toLower = s ↔ ∀ c ∈ s, c.toLower = c := by
  unfold toLower
  induction s with
  | nil => simp
  | cons c s ih => rw [List.map_cons, List.cons.injEq, ih, List.forall_mem_cons]

/-- A text of characters of a text in lower case is in lower case. -/
theorem toLower_of_subset (h : t ⊆ s) (hs : s.toLower = s) : t.toLower = t := by
  rw [toLower_eq_self_iff] at hs ⊢
  exact fun c hc => hs c (h hc)

theorem isAlpha_eq_false_of_isDigit (h : c.isDigit = true) : c.isAlpha = false := by
  rw [Char.isDigit_iff_toNat] at h
  simp only [Char.reduceToNat] at h
  rw [Bool.eq_false_iff]
  intro halpha
  simp only [Char.isAlpha, Char.isUpper, Char.isLower, Bool.or_eq_true, Bool.and_eq_true,
    decide_eq_true_eq, UInt32.le_iff_toNat_le, ge_iff_le] at halpha
  simp only [Char.toNat_val, Char.reduceToNat] at halpha
  omega

/-- Case folding neither makes nor removes a character that is no letter. -/
theorem mem_toLower (hc : c.isAlpha = false) : c ∈ s.toLower ↔ c ∈ s := by
  have hfold : ∀ x : Char, x.toLower = c ↔ x = c := by
    intro x
    constructor
    · rintro rfl
      rw [Char.isAlpha_toLower_eq_isAlpha] at hc
      have hupper : ¬x.isUpper = true := fun h => by simp [Char.isAlpha, h] at hc
      exact (Char.toLower_eq_of_not_isUpper hupper).symm
    · rintro rfl
      refine Char.toLower_eq_of_not_isUpper fun h => ?_
      simp [Char.isAlpha, h] at hc
  unfold toLower
  simp [hfold]

/-- A text without letters is folded to by itself only. -/
theorem toLower_eq_iff (ht : ∀ c ∈ t, c.isAlpha = false) : s.toLower = t ↔ s = t := by
  have hself : ∀ l : Text, (∀ c ∈ l, c.isAlpha = false) → l.toLower = l := by
    intro l hl
    have hfold : ∀ c ∈ l, c.toLower = c := by
      intro c hc
      refine Char.toLower_eq_of_not_isUpper fun h => ?_
      have := hl c hc
      simp [Char.isAlpha, h] at this
    unfold toLower
    rw [List.map_congr_left hfold, List.map_id']
  constructor
  · rintro rfl
    refine (hself s fun c hc => ?_).symm
    rw [← Char.isAlpha_toLower_eq_isAlpha]
    exact ht _ (List.mem_map_of_mem hc)
  · rintro rfl
    exact hself s ht

@[simp] theorem toLower_eq_nil : s.toLower = [] ↔ s = [] := List.map_eq_nil_iff

end Text
end ThoriumFrugal.Lib

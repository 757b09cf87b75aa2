import ThoriumFrugal.Lib.Text

/-!
# Dotted names and their label-aligned suffixes

`labelSuffixes s` lists what stands behind each dot of `s`, from the longest to the
shortest, without the empty text behind a final dot. A text is among them exactly when it
is non-empty and `s` ends with a dot followed by it, and none is listed twice.
-/

namespace ThoriumFrugal.Lib.Text

/-- The non-empty suffixes that start right behind a dot, longest first. -/
def labelSuffixes : Text → List Text
  | [] => []
  | c :: s => if c = '.' ∧ s ≠ [] then s :: labelSuffixes s else labelSuffixes s

/-- `s` without one trailing dot. -/
def dropFinalDot (s : Text) : Text := if s.getLast? = some '.' then s.dropLast else s

@[simp] theorem labelSuffixes_nil : labelSuffixes [] = [] := rfl

theorem labelSuffixes_of_not_mem {s : Text} (h : '.' ∉ s) : labelSuffixes s = [] := by
  induction s with
  | nil => rfl
  | cons c s ih =>
    have hc : c ≠ '.' := fun e => h (by simp [e])
    rw [labelSuffixes, if_neg (fun e => hc e.1)]
    exact ih fun hs => h (List.mem_cons_of_mem c hs)

/-- The suffixes begin behind the first dot. -/
theorem labelSuffixes_append {a : Text} (ha : '.' ∉ a) (s : Text) :
    labelSuffixes (a ++ s) = labelSuffixes s := by
  induction a with
  | nil => rfl
  | cons c a ih =>
    have hc : c ≠ '.' := fun e => ha (by simp [e])
    rw [List.cons_append, labelSuffixes, if_neg (fun e => hc e.1)]
    exact ih fun hs => ha (List.mem_cons_of_mem c hs)

/-- A suffix is what stands behind a dot. -/
theorem mem_labelSuffixes {s k : Text} :
    k ∈ labelSuffixes s ↔ k ≠ [] ∧ ('.' :: k) <:+ s := by
  induction s with
  | nil => simp
  | cons c s ih =>
    rw [List.suffix_cons_iff, List.cons.injEq, labelSuffixes]
    by_cases h : c = '.' ∧ s ≠ []
    · -- a label starts behind this dot, or further on
      rw [if_pos h, List.mem_cons, ih]
      constructor
      · rintro (rfl | ⟨hk, hs⟩)
        · exact ⟨h.2, Or.inl ⟨h.1.symm, rfl⟩⟩
        · exact ⟨hk, Or.inr hs⟩
      · rintro ⟨hk, ⟨-, rfl⟩ | hs⟩
        · exact Or.inl rfl
        · exact Or.inr ⟨hk, hs⟩
    · rw [if_neg h, ih]
      constructor
      · rintro ⟨hk, hs⟩
        exact ⟨hk, Or.inr hs⟩
      · rintro ⟨hk, ⟨hc, rfl⟩ | hs⟩
        · exact absurd ⟨hc.symm, hk⟩ h
        · exact ⟨hk, hs⟩

/-- So it is shorter than the text. -/
theorem length_lt_of_mem_labelSuffixes {s k : Text} (h : k ∈ labelSuffixes s) :
    k.length < s.length := by
  have := (mem_labelSuffixes.mp h).2.length_le
  simpa using this

/-- The suffixes are listed in strictly decreasing length. -/
theorem labelSuffixes_pairwise (s : Text) :
    (labelSuffixes s).Pairwise fun k k' => k'.length < k.length := by
  induction s with
  | nil => exact List.Pairwise.nil
  | cons c s ih =>
    rw [labelSuffixes]
    split
    · exact ih.cons fun k hk => length_lt_of_mem_labelSuffixes hk
    · exact ih

theorem nodup_of_pairwise_length_lt {ks : List Text}
    (h : ks.Pairwise fun k k' => k'.length < k.length) : ks.Nodup :=
  h.imp fun hlt e => by simp [e] at hlt

/-- Members and order determine the list of the suffixes. -/
theorem eq_labelSuffixes_iff {ks : List Text} {s : Text} :
    ks = labelSuffixes s ↔ (∀ k, k ∈ ks ↔ k ≠ [] ∧ ('.' :: k) <:+ s)
      ∧ ks.Pairwise fun k k' => k'.length < k.length := by
  constructor
  · intro h
    subst h
    exact ⟨fun k => mem_labelSuffixes, labelSuffixes_pairwise s⟩
  · intro ⟨hmem, hks⟩
    have hs := labelSuffixes_pairwise s
    apply List.Perm.eq_of_pairwise _ hks hs
    · apply (List.perm_ext_iff_of_nodup (nodup_of_pairwise_length_lt hks)
        (nodup_of_pairwise_length_lt hs)).mpr
      intro k
      rw [hmem, mem_labelSuffixes]
    · -- no text is both shorter and longer than another
      intro k k' _ _ h h'
      omega

/-- A text followed by its label suffixes: no entry occurs twice. -/
theorem nodup_cons_labelSuffixes (s : Text) : (s :: labelSuffixes s).Nodup := by
  refine List.nodup_cons.mpr ⟨fun h => ?_, ?_⟩
  · exact lt_irrefl _ (length_lt_of_mem_labelSuffixes h)
  · exact nodup_of_pairwise_length_lt (labelSuffixes_pairwise s)

/-! ## Names by their labels -/

section

variable {labels : List Text} {a b s : Text}

theorem toLower_join_dots (labels : List Text) :
    toLower (join ['.'] labels) = join ['.'] (labels.map toLower) := by
  unfold join
  induction labels with
  | nil => rfl
  | cons l labels ih =>
    cases labels with
    | nil => simp
    | cons l' labels =>
      rw [List.intercalate_cons_cons, List.map_cons, List.map_cons, List.intercalate_cons_cons,
        ← List.map_cons, ← ih]
      simp [toLower]

theorem toLower_labels_clean (h : ∀ l ∈ labels, '.' ∉ l ∧ l ≠ []) :
    ∀ l ∈ labels.map toLower, '.' ∉ l ∧ l ≠ [] := by
  intro l hl
  obtain ⟨raw, hraw, rfl⟩ := List.mem_map.mp hl
  rw [mem_toLower (by decide), ne_eq, toLower_eq_nil]
  exact h raw hraw

theorem join_append {sep : Text} {xs ys : List Text} (hxs : xs ≠ []) (hys : ys ≠ []) :
    join sep (xs ++ ys) = join sep xs ++ sep ++ join sep ys := by
  unfold join
  induction xs with
  | nil => exact absurd rfl hxs
  | cons x xs ih =>
    cases xs with
    | nil => rw [List.singleton_append, List.intercalate_cons_of_ne_nil hys,
        List.intercalate_singleton, List.append_assoc]
    | cons x' xs =>
      rw [List.cons_append, List.intercalate_cons_of_ne_nil (by simp), ih (by simp),
        List.intercalate_cons_cons]
      simp

theorem join_pair (sep a b : Text) : join sep [a, b] = a ++ sep ++ b := by
  simp [join, List.intercalate_cons_cons]

theorem dot_mem_join (htwo : 2 ≤ labels.length) : '.' ∈ join ['.'] labels := by
  rcases labels with _ | ⟨l, _ | ⟨l', rest⟩⟩
  · simp at htwo
  · simp at htwo
  · unfold join
    rw [List.intercalate_cons_cons]
    simp

/-- A name without an empty last label has no final dot. -/
theorem dropFinalDot_join (hlabels : ∀ l ∈ labels, '.' ∉ l ∧ l ≠ []) :
    dropFinalDot (join ['.'] labels) = join ['.'] labels := by
  unfold dropFinalDot
  refine if_neg fun hdot => ?_
  rcases List.eq_nil_or_concat labels with rfl | ⟨front, l, rfl⟩
  · cases hdot
  · obtain ⟨hl, hne⟩ := hlabels l (by simp)
    rw [List.concat_eq_append, join_concat, List.getLast?_append_of_ne_nil _ hne] at hdot
    exact hl (List.mem_of_getLast? hdot)

/-- The last two labels of a name of three or more. -/
theorem suffix_iff_reverse_splitOn (ha : '.' ∉ a) (hb : '.' ∉ b) :
    '.' :: (a ++ '.' :: b) <:+ s
      ↔ ∃ third rest, (s.splitOn '.').reverse = b :: a :: third :: rest := by
  constructor
  · rintro ⟨front, rfl⟩
    rw [List.splitOn_append_cons_self, List.splitOn_append_cons_self_of_not_mem ha,
      List.splitOn_eq_singleton hb]
    obtain ⟨third, rest, hrest⟩ := List.exists_cons_of_ne_nil
      (List.reverse_ne_nil_iff.mpr (List.splitOn_ne_nil '.' front))
    exact ⟨third, rest, by simp [hrest]⟩
  · rintro ⟨third, rest, h⟩
    have hsplit : s.splitOn '.' = rest.reverse ++ [third] ++ [a] ++ [b] := by
      rw [← List.reverse_reverse (s.splitOn '.'), h]
      simp
    -- joining the labels gives the name back
    have hs : join ['.'] (s.splitOn '.') = s := List.intercalate_splitOn '.'
    rw [hsplit, join_concat, join_concat] at hs
    refine ⟨join ['.'] (rest.reverse ++ [third]), ?_⟩
    rw [← hs]
    simp

end

end ThoriumFrugal.Lib.Text

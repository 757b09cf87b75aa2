import ThoriumFrugal.Lib.Text

/-!
# Whitespace and lines of Unicode texts

Stripping and line splitting of a class of Unicode strings. The file of stripped text has the
lines of the file, up to the whitespace around each.
-/

namespace ThoriumFrugal.Lib.Text

/-- The characters for which `isspace` holds. -/
def whitespace : Text :=
  ['\t', '\n', '\x0b', '\x0c', '\r', '\x1c', '\x1d', '\x1e', '\x1f', ' ', '\u0085', '\u00a0',
    '\u1680', '\u2000', '\u2001', '\u2002', '\u2003', '\u2004', '\u2005', '\u2006', '\u2007',
    '\u2008', '\u2009', '\u200a', '\u2028', '\u2029', '\u202f', '\u205f', '\u3000']

/-- `s.strip()`. -/
def strip (s : Text) : Text := trim s whitespace

/-- The characters that end a line. -/
def lineEnds : Text :=
  ['\n', '\r', '\x0b', '\x0c', '\x1c', '\x1d', '\x1e', '\u0085', '\u2028', '\u2029']

/-- The lines of a text behind `line`, which is read already. -/
def splitlinesFrom (line : Text) : Text → List Text
  | [] => if line = [] then [] else [line]
  | '\r' :: '\n' :: s => line :: splitlinesFrom [] s
  | c :: s => if c ∈ lineEnds then line :: splitlinesFrom [] s else splitlinesFrom (line ++ [c]) s

/-- `s.splitlines()`. -/
def splitlines (s : Text) : List Text := splitlinesFrom [] s

variable {s t a b cs cs' : Text} {ts : List Text}

theorem toNat_lt_of_isAlphanum {c : Char} (h : c.isAlphanum = true) : c.toNat < 128 := by
  simp only [Char.isAlphanum, Char.isAlpha, Char.isUpper, Char.isLower, Char.isDigit,
    Bool.or_eq_true, Bool.and_eq_true, decide_eq_true_eq, ge_iff_le, UInt32.le_iff_toNat_le] at h
  simp at h
  omega

/-! ## Stripping -/

theorem trim_congr (h : ∀ c ∈ s, c ∈ cs ↔ c ∈ cs') : trim s cs = trim s cs' := by
  have hdrop : ∀ s : Text, (∀ c ∈ s, c ∈ cs ↔ c ∈ cs') →
      s.dropWhile (cs.contains ·) = s.dropWhile (cs'.contains ·) := by
    intro s hs
    induction s with
    | nil => rfl
    | cons c s ih =>
      obtain ⟨hc, hs⟩ := List.forall_mem_cons.mp hs
      have hcontains : cs.contains c = cs'.contains c := by
        rw [Bool.eq_iff_iff, List.contains_iff_mem, List.contains_iff_mem, hc]
      rw [List.dropWhile_cons, List.dropWhile_cons, hcontains, ih hs]
  unfold trim
  rw [hdrop s h, hdrop]
  intro c hc
  exact h c ((List.dropWhile_sublist _).subset (List.mem_reverse.mp hc))

/-- A text is its stripped text between whitespace. -/
theorem exists_trim_eq (s cs : Text) : ∃ a b, s = a ++ (trim s cs ++ b)
    ∧ (∀ c ∈ a, c ∈ cs) ∧ (∀ c ∈ b, c ∈ cs)
    ∧ (∀ c ∈ (trim s cs).head?, c ∉ cs) ∧ ∀ c ∈ (trim s cs).getLast?, c ∉ cs := by
  have hstop : ∀ (l : Text) (c : Char), c ∈ (l.dropWhile (cs.contains ·)).head? → c ∉ cs := by
    intro l c hc hmem
    have hfalse := List.head?_dropWhile_not (cs.contains ·) l
    rw [Option.mem_def.mp hc] at hfalse
    simp [hmem] at hfalse
  have htake : ∀ (l : Text) (c : Char), c ∈ l.takeWhile (cs.contains ·) → c ∈ cs :=
    fun l c hc => List.contains_iff_mem.mp (List.mem_takeWhile_imp hc)
  let front := s.dropWhile (cs.contains ·)
  have hfront : front = trim s cs ++ (front.reverse.takeWhile (cs.contains ·)).reverse := by
    show front = (front.reverse.dropWhile _).reverse ++ _
    rw [← List.reverse_append, List.takeWhile_append_dropWhile, List.reverse_reverse]
  refine ⟨s.takeWhile (cs.contains ·), (front.reverse.takeWhile (cs.contains ·)).reverse, ?_,
    htake s, fun c hc => htake _ c (List.mem_reverse.mp hc), fun c hc => ?_, fun c hc => ?_⟩
  · rw [← hfront, List.takeWhile_append_dropWhile]
  · refine hstop s c ?_
    show c ∈ front.head?
    rw [hfront, List.head?_append, Option.mem_def.mp hc]
    rfl
  · refine hstop front.reverse c ?_
    have hlast : (trim s cs).getLast? = (front.reverse.dropWhile (cs.contains ·)).head? :=
      List.getLast?_reverse
    rwa [hlast] at hc

/-- Something is left of a text with a character that is no whitespace. -/
theorem strip_ne_nil_of_mem {c : Char} (hmem : c ∈ s) (hc : c ∉ whitespace) : strip s ≠ [] := by
  intro hnil
  obtain ⟨a, b, hs, ha, hb, -, -⟩ := exists_trim_eq s whitespace
  change s = a ++ (strip s ++ b) at hs
  rw [hs, hnil, List.nil_append] at hmem
  exact hc ((List.mem_append.mp hmem).elim (ha c) (hb c))

theorem strip_strip (s : Text) : strip (strip s) = strip s := by
  obtain ⟨-, -, -, -, -, hhead, hlast⟩ := exists_trim_eq s whitespace
  have htrim := trim_append (a := []) (b := []) (by simp) (by simp) hhead hlast
  simpa [strip] using htrim

/-! ## Lines -/

/-- No character of the text ends a line. -/
def IsLine (t : Text) : Prop := t ≠ [] ∧ ∀ c ∈ t, c ∉ lineEnds

theorem splitlinesFrom_append (ht : ∀ c ∈ t, c ∉ lineEnds) (line s : Text) :
    splitlinesFrom line (t ++ s) = splitlinesFrom (line ++ t) s := by
  induction t generalizing line with
  | nil => rw [List.nil_append, List.append_nil]
  | cons c t ih =>
    obtain ⟨hc, ht⟩ := List.forall_mem_cons.mp ht
    have hreturn : ∀ r, c = '\r' → t ++ s = '\n' :: r → False := by
      rintro r rfl -
      exact hc (by decide)
    rw [List.cons_append, splitlinesFrom, if_neg hc, ih ht, List.append_assoc,
      List.singleton_append]
    exact hreturn

/-- Lines that are joined are split again. -/
theorem splitlines_join (h : ∀ t ∈ ts, IsLine t) : splitlines (join ['\n'] ts) = ts := by
  unfold splitlines join
  induction ts with
  | nil => rfl
  | cons t ts ih =>
    obtain ⟨⟨hne, hline⟩, hrest⟩ := List.forall_mem_cons.mp h
    cases ts with
    | nil =>
      have hend := splitlinesFrom_append hline [] []
      rw [List.append_nil, List.nil_append, splitlinesFrom, if_neg hne] at hend
      simpa using hend
    | cons t' ts =>
      rw [List.intercalate_cons_cons, List.append_assoc, splitlinesFrom_append hline,
        List.nil_append, List.singleton_append, splitlinesFrom, if_pos (by decide), ih hrest]
      simp

/-- What stands between the first and the last line. -/
theorem exists_join_eq (ts : List Text) :
    ∃ m, ∀ t u : Text, join ['\n'] (t :: (ts ++ [u])) = t ++ (m ++ u) := by
  cases ts with
  | nil => exact ⟨['\n'], fun t u => by simp [join, List.intercalate_cons_cons]⟩
  | cons t' ts =>
    refine ⟨'\n' :: (join ['\n'] (t' :: ts) ++ ['\n']), fun t u => ?_⟩
    have hconcat := join_concat ['\n'] (t' :: ts) u
    rw [if_neg (List.cons_ne_nil _ _), List.cons_append] at hconcat
    rw [List.cons_append]
    show ['\n'].intercalate (t :: t' :: (ts ++ [u])) = _
    rw [List.intercalate_cons_cons]
    show t ++ ['\n'] ++ join ['\n'] (t' :: (ts ++ [u])) = _
    rw [hconcat]
    simp

/-- Stripping a file strips the front of its first line and the end of its last line. -/
theorem exists_strip_join (h : ∀ t ∈ ts, strip t ≠ []) : ∃ ts' : List Text,
    strip (join ['\n'] ts) = join ['\n'] ts' ∧ ts'.map strip = ts.map strip
      ∧ ∀ t' ∈ ts', ∃ t ∈ ts, t' <:+: t := by
  rcases List.eq_nil_or_concat ts with rfl | ⟨front, u, rfl⟩
  · exact ⟨[], rfl, rfl, fun t ht => absurd ht List.not_mem_nil⟩
  rw [List.concat_eq_append] at h ⊢
  obtain ⟨a', b', hu, ha', hb', huhead, hulast⟩ := exists_trim_eq u whitespace
  change u = a' ++ (strip u ++ b') at hu
  have hune : strip u ≠ [] := h u (by simp)
  cases front with
  | nil =>
    refine ⟨[strip u], by simp [join], by simp [strip_strip], fun t ht => ⟨u, by simp, ?_⟩⟩
    rw [List.mem_singleton.mp ht]
    exact ⟨a', b', by rw [List.append_assoc, ← hu]⟩
  | cons t front =>
    obtain ⟨a, b, ht, ha, hb, hthead, htlast⟩ := exists_trim_eq t whitespace
    change t = a ++ (strip t ++ b) at ht
    have htne : strip t ≠ [] := h t (by simp)
    obtain ⟨m, hm⟩ := exists_join_eq front
    refine ⟨(strip t ++ b) :: (front ++ [a' ++ strip u]), ?_, ?_, ?_⟩
    · have hcut : join ['\n'] (t :: (front ++ [u]))
          = a ++ (join ['\n'] ((strip t ++ b) :: (front ++ [a' ++ strip u])) ++ b') := by
        rw [hm, hm]
        conv_lhs => rw [ht, hu]
        simp
      have hcore : join ['\n'] ((strip t ++ b) :: (front ++ [a' ++ strip u]))
          = strip t ++ (b ++ (m ++ a')) ++ strip u := by
        rw [hm]
        simp
      show strip (join ['\n'] (t :: (front ++ [u]))) = _
      rw [hcut]
      refine trim_append ha hb' (fun c hc => ?_) fun c hc => ?_
      · rw [hcore, List.append_assoc, List.head?_append_of_ne_nil _ htne] at hc
        exact hthead c hc
      · rw [hcore, List.getLast?_append_of_ne_nil _ hune] at hc
        exact hulast c hc
    · have hfirst : strip (strip t ++ b) = strip t :=
        trim_append (a := []) (by simp) hb hthead htlast
      have hlast : strip (a' ++ strip u) = strip u := by
        have htrim := trim_append (b := []) ha' (by simp) huhead hulast
        rwa [List.append_nil] at htrim
      simp [hfirst, hlast]
    · intro t' ht'
      rcases List.mem_cons.mp ht' with rfl | ht'
      · exact ⟨t, by simp, a, [], by rw [List.append_nil, ← ht]⟩
      rcases List.mem_append.mp ht' with hmid | hend
      · exact ⟨t', by simp [hmid], List.infix_refl t'⟩
      · rw [List.mem_singleton.mp hend]
        exact ⟨u, by simp, [], b', by rw [List.nil_append, List.append_assoc, ← hu]⟩

end ThoriumFrugal.Lib.Text

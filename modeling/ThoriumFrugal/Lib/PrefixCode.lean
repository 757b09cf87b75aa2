import ThoriumFrugal.Lib.Text

/-!
# Codes that can be cut off in front

The text of a value is delimited when, in front of a text that starts with a stop character,
it can be read in one way only: the value and the text behind it are determined. Delimited
codes compose. A pair is delimited if its parts are, a string of characters by its closing
quote, a list of items by its separator and its closing bracket.
-/

namespace ThoriumFrugal.Lib

/-- `r` is empty or starts with a character of `stop`. -/
def StartsIn (stop : Set Char) (r : Text) : Prop := ∀ c ∈ r.head?, c ∈ stop

section StartsIn

variable {stop : Set Char} {r : Text}

theorem startsIn_nil : StartsIn stop [] := fun c hc => by cases hc

theorem startsIn_cons {c : Char} (hc : c ∈ stop) : StartsIn stop (c :: r) := by
  intro d hd
  rw [List.head?_cons, Option.mem_some] at hd
  rwa [← hd]

theorem startsIn_univ : StartsIn Set.univ r := fun _ _ => trivial

end StartsIn

variable {α β : Type*} {stop : Set Char} {e : α → Text} {f : β → Text}

/-- In front of a text that starts in `stop`, the text of `a` is read as that of `a` only. -/
def Delimited (stop : Set Char) (e : α → Text) (a : α) : Prop :=
  ∀ b r r', StartsIn stop r → StartsIn stop r' → e a ++ r = e b ++ r' → a = b ∧ r = r'

namespace Delimited

theorem injective (h : ∀ a, Delimited stop e a) : Function.Injective e :=
  fun a b heq => (h a b [] [] startsIn_nil startsIn_nil (by rw [heq])).1

/-- A code with a reader that stops where the text of the value ends. -/
theorem of_read (read : Text → Option (α × Text))
    (h : ∀ a r, StartsIn stop r → read (e a ++ r) = some (a, r)) (a : α) :
    Delimited stop e a := by
  intro b r r' hr hr' heq
  have hread := h a r hr
  rw [heq, h b r' hr'] at hread
  have hpair := Option.some_inj.mp hread
  exact ⟨(congrArg Prod.fst hpair).symm, (congrArg Prod.snd hpair).symm⟩

theorem cons {a : α} (h : Delimited stop e a) (c : Char) :
    Delimited stop (fun x => c :: e x) a :=
  fun b r r' hr hr' heq => h b r r' hr hr' (List.cons.inj heq).2

/-- A key, a separator, a value. -/
theorem prod {sep : Text} {a : α} {b : β} (ha : Delimited Set.univ e a)
    (hb : Delimited stop f b) : Delimited stop (fun p => e p.1 ++ sep ++ f p.2) (a, b) := by
  rintro ⟨a', b'⟩ r r' hr hr' heq
  simp only [List.append_assoc] at heq
  obtain ⟨rfl, hrest⟩ := ha a' _ _ startsIn_univ startsIn_univ heq
  obtain ⟨rfl, rfl⟩ := hb b' r r' hr hr' (List.append_cancel_left hrest)
  exact ⟨rfl, rfl⟩

/-- The texts of the items up to a closing character that none of them starts with. -/
theorem flatMap {close : Char} (h : ∀ a, Delimited Set.univ e a)
    (hclose : ∀ a, ∃ c t, e a = c :: t ∧ c ≠ close) (as : List α) :
    Delimited Set.univ (fun as => as.flatMap e ++ [close]) as := by
  intro bs r r' hr hr' heq
  simp only [List.append_assoc, List.singleton_append] at heq
  induction as generalizing bs with
  | nil =>
    cases bs with
    | nil => exact ⟨rfl, (List.cons.inj heq).2⟩
    | cons b bs =>
      obtain ⟨c, t, hb, hc⟩ := hclose b
      rw [List.flatMap_cons, hb] at heq
      exact absurd (List.cons.inj heq).1.symm hc
  | cons a as ih =>
    cases bs with
    | nil =>
      obtain ⟨c, t, ha, hc⟩ := hclose a
      rw [List.flatMap_cons, ha] at heq
      exact absurd (List.cons.inj heq).1 hc
    | cons b bs =>
      rw [List.flatMap_cons, List.flatMap_cons, List.append_assoc, List.append_assoc] at heq
      obtain ⟨rfl, hrest⟩ := h a b _ _ startsIn_univ startsIn_univ heq
      obtain ⟨rfl, rfl⟩ := ih bs hrest
      exact ⟨rfl, rfl⟩

end Delimited

/-! ## Lists with separators -/

section Join

variable {sep close : Char} {pad : Text}

/-- What stands behind an item: the rest of the list and its closing character. -/
def joinTail (e : α → Text) (sep : Char) (pad : Text) (close : Char) : List α → Text
  | [] => [close]
  | a :: as => sep :: (pad ++ e a ++ joinTail e sep pad close as)

theorem join_cons_eq (a : α) (as : List α) :
    Text.join (sep :: pad) ((a :: as).map e) ++ [close]
      = e a ++ joinTail e sep pad close as := by
  induction as generalizing a with
  | nil => simp [Text.join, List.intercalate, joinTail]
  | cons b as ih =>
    have hstep : Text.join (sep :: pad) ((a :: b :: as).map e)
        = e a ++ (sep :: pad) ++ Text.join (sep :: pad) ((b :: as).map e) := by
      simp [Text.join, List.intercalate]
    rw [hstep, List.append_assoc, ih, joinTail]
    simp

variable {r : Text}

theorem startsIn_joinTail (hsep : sep ∈ stop) (hclose : close ∈ stop) (as : List α) :
    StartsIn stop (joinTail e sep pad close as ++ r) := by
  cases as with
  | nil => exact startsIn_cons hclose
  | cons a as => exact startsIn_cons hsep

theorem joinTail_inj (hsep : sep ∈ stop) (hclose : close ∈ stop) (hne : sep ≠ close)
    {as bs : List α} {r r' : Text} (h : ∀ a ∈ as, Delimited stop e a)
    (heq : joinTail e sep pad close as ++ r = joinTail e sep pad close bs ++ r') :
    as = bs ∧ r = r' := by
  induction as generalizing bs with
  | nil =>
    cases bs with
    | nil => exact ⟨rfl, (List.cons.inj heq).2⟩
    | cons b bs => exact absurd (List.cons.inj heq).1.symm hne
  | cons a as ih =>
    cases bs with
    | nil => exact absurd (List.cons.inj heq).1 hne
    | cons b bs =>
      simp only [joinTail, List.cons_append, List.append_assoc, List.cons.injEq, true_and,
        List.append_cancel_left_eq] at heq
      obtain ⟨rfl, hrest⟩ := h a (List.mem_cons_self ..) b _ _
        (startsIn_joinTail hsep hclose as) (startsIn_joinTail hsep hclose bs) heq
      obtain ⟨rfl, rfl⟩ := ih (fun x hx => h x (List.mem_cons_of_mem _ hx)) hrest
      exact ⟨rfl, rfl⟩

/-- Separated items up to a closing character that no item starts with. -/
theorem Delimited.join (hsep : sep ∈ stop) (hclose : close ∈ stop) (hne : sep ≠ close)
    (hhead : ∀ a, ∃ c t, e a = c :: t ∧ c ≠ close) {as : List α}
    (h : ∀ a ∈ as, Delimited stop e a) :
    Delimited Set.univ (fun as => Text.join (sep :: pad) (as.map e) ++ [close]) as := by
  intro bs r r' hr hr' heq
  simp only at heq
  cases as with
  | nil =>
    cases bs with
    | nil => exact ⟨rfl, (List.cons.inj heq).2⟩
    | cons b bs =>
      obtain ⟨c, t, hb, hc⟩ := hhead b
      rw [join_cons_eq, hb] at heq
      exact absurd (List.cons.inj heq).1.symm hc
  | cons a as =>
    cases bs with
    | nil =>
      obtain ⟨c, t, ha, hc⟩ := hhead a
      rw [join_cons_eq, ha] at heq
      exact absurd (List.cons.inj heq).1 hc
    | cons b bs =>
      rw [join_cons_eq, join_cons_eq, List.append_assoc, List.append_assoc] at heq
      obtain ⟨rfl, hrest⟩ := h a (List.mem_cons_self ..) b _ _
        (startsIn_joinTail hsep hclose as) (startsIn_joinTail hsep hclose bs) heq
      obtain ⟨rfl, rfl⟩ :=
        joinTail_inj hsep hclose hne (fun x hx => h x (List.mem_cons_of_mem _ hx)) hrest
      exact ⟨rfl, rfl⟩

end Join

/-! ## Tokens -/

/-- A run of characters of one kind ends in front of a character that is not of the kind. -/
theorem token_append_inj {p : Char → Bool} {s t r r' : Text} (hs : ∀ c ∈ s, p c = true)
    (ht : ∀ c ∈ t, p c = true) (hr : StartsIn {c | p c = false} r)
    (hr' : StartsIn {c | p c = false} r') (heq : s ++ r = t ++ r') : s = t ∧ r = r' := by
  have hstop : ∀ u : Text, StartsIn {c | p c = false} u → u.takeWhile p = [] := by
    intro u hu
    cases u with
    | nil => rfl
    | cons c u => exact List.takeWhile_cons_of_neg (by rw [show p c = false from hu c rfl]; simp)
  have htake := congrArg (List.takeWhile p) heq
  rw [List.takeWhile_append_of_pos hs, List.takeWhile_append_of_pos ht, hstop r hr,
    hstop r' hr', List.append_nil, List.append_nil] at htake
  subst htake
  exact ⟨rfl, List.append_cancel_left heq⟩

/-! ## Numbers -/

/-- A decimal number ends in front of a character that is no digit. -/
theorem delimited_toDigits (n : ℕ) :
    Delimited {c | c.isDigit = false} (Nat.toDigits 10) n := by
  have hdigits : ∀ m, ∀ c ∈ Nat.toDigits 10 m, c.isDigit = true :=
    fun m c hc => Nat.isDigit_of_mem_toDigits (by omega) (by omega) hc
  intro m r r' hr hr' heq
  obtain ⟨hsame, hrest⟩ := token_append_inj (hdigits n) (hdigits m) hr hr' heq
  have hvalue := congrArg (fun s => Nat.ofDigitChars 10 s 0) hsame
  simp only [Nat.ofDigitChars_ten_toDigits] at hvalue
  exact ⟨hvalue, hrest⟩

/-- A decimal number with its sign. -/
def signedDigits (n : ℤ) : Text := (if n < 0 then ['-'] else []) ++ Nat.toDigits 10 n.natAbs

theorem signedDigits_eq_cons (n : ℤ) :
    ∃ c t, signedDigits n = c :: t ∧ (c = '-' ∨ c.isDigit = true) := by
  unfold signedDigits
  split
  · exact ⟨'-', _, rfl, .inl rfl⟩
  · cases hd : Nat.toDigits 10 n.natAbs with
    | nil => exact absurd hd Nat.toDigits_ne_nil
    | cons c t =>
      have hc : c ∈ Nat.toDigits 10 n.natAbs := by
        rw [hd]
        exact List.mem_cons_self
      exact ⟨c, t, rfl, .inr (Nat.isDigit_of_mem_toDigits (by omega) (by omega) hc)⟩

theorem delimited_signedDigits (n : ℤ) : Delimited {c | c.isDigit = false} signedDigits n := by
  -- the sign is no digit, so two texts that agree have the same sign
  have hsign : ∀ (k : ℕ) (r s : Text), Nat.toDigits 10 k ++ r ≠ '-' :: s := by
    intro k r s heq
    cases hd : Nat.toDigits 10 k with
    | nil => exact Nat.toDigits_ne_nil hd
    | cons c t =>
      rw [hd] at heq
      have hminus : '-' ∈ Nat.toDigits 10 k := by
        rw [hd, (List.cons.inj heq).1]
        exact List.mem_cons_self
      have hdigit := Nat.isDigit_of_mem_toDigits (by omega) (by omega) hminus
      revert hdigit
      decide
  intro m r r' hr hr' heq
  unfold signedDigits at heq
  split at heq
  · next hn =>
    split at heq
    · next hm =>
      obtain ⟨habs, hrest⟩ := delimited_toDigits _ _ r r' hr hr' (List.cons.inj heq).2
      exact ⟨by omega, hrest⟩
    · next hm => exact absurd heq.symm (hsign _ _ _)
  · next hn =>
    split at heq
    · next hm => exact absurd heq (hsign _ _ _)
    · next hm =>
      obtain ⟨habs, hrest⟩ := delimited_toDigits _ _ r r' hr hr' heq
      exact ⟨by omega, hrest⟩

end ThoriumFrugal.Lib

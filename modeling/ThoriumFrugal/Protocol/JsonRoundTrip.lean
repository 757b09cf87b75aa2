import ThoriumFrugal.Protocol.JsonLoads
import ThoriumFrugal.Protocol.ReplayTheorems

/-!
# Written texts read back

`json.loads` undoes `json.dumps` for both ways to write the characters of a string: it gives back
the value with the keys of every object in order. So `from_json` undoes `to_json`.
-/

namespace ThoriumFrugal.Protocol

open Lib

namespace Json

open MessageEnvelope (Decode fail)

variable {esc : Char → Text} {pad : Text} {readFloat : ReadFloat} {r s : Text}

/-! ## Strings -/

/-- The reader of strings undoes the way to write a character. -/
def ReadsBack (esc : Char → Text) : Prop :=
  ∀ c r, ∃ d t, esc c = d :: t ∧ d ≠ '"' ∧ readChar d (t ++ r) = pure (c, r)

/-- A string is read character by character, up to its quote. -/
theorem scanChars_flatMap (h : ReadsBack esc) (s r : Text) {rounds : ℕ}
    (hrounds : s.length < rounds) :
    scanChars rounds (s.flatMap esc ++ '"' :: r) = pure (s, r) := by
  induction s generalizing rounds with
  | nil =>
    obtain ⟨m, rfl⟩ := Nat.exists_eq_add_of_lt hrounds
    simp [scanChars]
  | cons c s ih =>
    obtain ⟨m, rfl⟩ := Nat.exists_eq_add_of_lt hrounds
    obtain ⟨d, t, hesc, hquote, hread⟩ := h c (s.flatMap esc ++ '"' :: r)
    have hrest := @ih (s.length + 1 + m) (by omega)
    rw [List.flatMap_cons, hesc, List.append_assoc, List.cons_append, List.length_cons]
    show scanChars (s.length + 1 + m + 1) _ = _
    rw [scanChars, if_neg hquote, hread, pure_bind]
    simp only
    rw [hrest, pure_bind]

/-- Every character is written with at least one. -/
theorem length_le_flatMap (h : ReadsBack esc) (s : Text) :
    s.length ≤ (s.flatMap esc).length := by
  induction s with
  | nil => exact le_rfl
  | cons c s ih =>
    obtain ⟨d, t, hesc, -⟩ := h c []
    rw [List.flatMap_cons, hesc, List.length_append, List.length_cons, List.length_cons]
    omega

/-- A string between quotes. -/
def quoteWith (esc : Char → Text) (s : String) : Text := '"' :: (s.toList.flatMap esc ++ ['"'])

/-- So the scanner has rounds enough, whatever the string. -/
theorem scanString_flatMap (h : ReadsBack esc) (s r : Text) :
    scanString (s.flatMap esc ++ '"' :: r) = pure (s, r) := by
  have hle := length_le_flatMap h s
  refine scanChars_flatMap h s r ?_
  rw [List.length_append, List.length_cons]
  omega

/-! ### The two ways to write a character -/

theorem hexDigit?_digitChar {d : ℕ} (h : d < 16) : hexDigit? (Nat.digitChar d) = some d := by
  revert d
  decide

/-- The digits of a code unit, in a writer's choice of letters. -/
theorem decodeUnit_digits {digit : ℕ → Char} (hdigit : ∀ {d}, d < 16 → hexDigit? (digit d) = some d)
    {n : ℕ} (hn : n < 0x10000) (r : Text) :
    decodeUnit (digit (n / 4096 % 16) :: digit (n / 256 % 16) :: digit (n / 16 % 16)
      :: digit (n % 16) :: r) = pure (n, r) := by
  have hvalue : 4096 * (n / 4096 % 16) + 256 * (n / 256 % 16) + 16 * (n / 16 % 16) + n % 16
      = n := by
    omega
  unfold decodeUnit
  simp only [hdigit (Nat.mod_lt _ (by omega : 0 < 16)), hvalue]

/-- The four digits of a code unit that is no surrogate are read as its character. -/
theorem decodeUnicode_digits {digit : ℕ → Char}
    (hdigit : ∀ {d}, d < 16 → hexDigit? (digit d) = some d) {n : ℕ}
    (hn : n < 0xd800 ∨ 0xdfff < n ∧ n < 0x10000) (r : Text) :
    decodeUnicode (digit (n / 4096 % 16) :: digit (n / 256 % 16) :: digit (n / 16 % 16)
      :: digit (n % 16) :: r) = pure (Char.ofNat n, r) := by
  unfold decodeUnicode
  rw [decodeUnit_digits hdigit (by omega), pure_bind]
  simp only
  rw [if_neg (by omega), if_neg (by omega)]

theorem readChar_escapeUnit {n : ℕ} (hn : n < 0xd800 ∨ 0xdfff < n ∧ n < 0x10000) (r : Text) :
    ∃ t, escapeUnit n = '\\' :: t ∧ readChar '\\' (t ++ r) = pure (Char.ofNat n, r) :=
  ⟨_, rfl, decodeUnicode_digits hexDigit?_digitChar hn r⟩

/-- A surrogate pair. -/
theorem readChar_pair {n : ℕ} (hn : n < 0x110000) (hpair : 0x10000 ≤ n) (r : Text) :
    ∃ t, escapeUnit (0xd800 + (n - 0x10000) / 1024)
        ++ escapeUnit (0xdc00 + (n - 0x10000) % 1024) = '\\' :: t
      ∧ readChar '\\' (t ++ r) = pure (Char.ofNat n, r) := by
  refine ⟨_, rfl, ?_⟩
  have hhigh : 0xd800 + (n - 0x10000) / 1024 < 0x10000 := by omega
  have hlow : 0xdc00 + (n - 0x10000) % 1024 < 0x10000 := by omega
  have hvalue : 0x10000 + (0xd800 + (n - 0x10000) / 1024 - 0xd800) * 1024
      + (0xdc00 + (n - 0x10000) % 1024 - 0xdc00) = n := by
    omega
  show decodeUnicode (_ :: _ :: _ :: _ :: '\\' :: 'u' :: _ :: _ :: _ :: _ :: r) = _
  unfold decodeUnicode
  rw [decodeUnit_digits hexDigit?_digitChar hhigh, pure_bind]
  simp only
  rw [if_pos (by omega), decodeUnit_digits hexDigit?_digitChar hlow, pure_bind]
  simp only
  rw [if_pos (by omega), hvalue]

theorem readsBack_asciiChar : ReadsBack asciiChar := by
  intro c r
  have hchar : c.toNat < 0xd800 ∨ 0xdfff < c.toNat ∧ c.toNat < 0x110000 := c.valid
  have hescape : ∀ t, readChar '\\' (t ++ r) = pure (c, r) →
      ∃ d t', '\\' :: t = d :: t' ∧ d ≠ '"' ∧ readChar d (t' ++ r) = pure (c, r) :=
    fun t h => ⟨'\\', t, rfl, by decide, h⟩
  unfold asciiChar
  split
  · next h => exact hescape _ (by rw [h]; rfl)
  next hquote =>
  split
  · next h => exact hescape _ (by rw [h]; rfl)
  next hback =>
  split
  · next h => exact hescape _ (by rw [h]; rfl)
  split
  · next h => exact hescape _ (by rw [h]; rfl)
  split
  · next h => exact hescape _ (by rw [h]; rfl)
  split
  · next h => exact hescape _ (by rw [h]; rfl)
  split
  · next h => exact hescape _ (by rw [h]; rfl)
  split
  · next hplain =>
    -- a printable character is read as it stands
    refine ⟨c, [], rfl, hquote, ?_⟩
    have hprintable : ¬c.toNat < 32 := Nat.not_lt.mpr hplain.1
    unfold readChar
    rw [if_neg hback, if_neg hprintable]
    rfl
  split
  · next hunit =>
    obtain ⟨t, ht, hread⟩ := readChar_escapeUnit (n := c.toNat) (by omega) r
    rw [ht]
    rw [Char.ofNat_toNat] at hread
    exact hescape t hread
  · next hpair =>
    -- above the first plane the writer escapes two surrogates
    obtain ⟨t, ht, hread⟩ := readChar_pair (n := c.toNat) (by omega) (by omega) r
    rw [ht]
    rw [Char.ofNat_toNat] at hread
    exact hescape t hread

theorem readsBack_escapeChar : ReadsBack escapeChar := by
  intro c r
  have hescape : ∀ t, readChar '\\' (t ++ r) = pure (c, r) →
      ∃ d t', '\\' :: t = d :: t' ∧ d ≠ '"' ∧ readChar d (t' ++ r) = pure (c, r) :=
    fun t h => ⟨'\\', t, rfl, by decide, h⟩
  unfold escapeChar
  split
  · next h => exact hescape _ (by rw [h]; rfl)
  next hquote =>
  split
  · next h => exact hescape _ (by rw [h]; rfl)
  next hback =>
  split
  · next h => exact hescape _ (by rw [h]; rfl)
  split
  · next h => exact hescape _ (by rw [h]; rfl)
  split
  · next h => exact hescape _ (by rw [h]; rfl)
  split
  · next h => exact hescape _ (by rw [h]; rfl)
  split
  · next h => exact hescape _ (by rw [h]; rfl)
  split
  · next hcontrol =>
    -- below 32 the first two digits are zeros
    refine hescape _ ?_
    have hread := @decodeUnicode_digits _ hexDigit?_digitChar c.toNat (.inl (by omega)) r
    have hzero : c.toNat / 4096 % 16 = 0 ∧ c.toNat / 256 % 16 = 0
        ∧ c.toNat / 16 % 16 = c.toNat / 16 := by
      omega
    rw [hzero.1, hzero.2.1, hzero.2.2, Char.ofNat_toNat] at hread
    exact hread
  · next hplain =>
    refine ⟨c, [], rfl, hquote, ?_⟩
    unfold readChar
    rw [if_neg hback, if_neg hplain]
    rfl

/-! ## Numbers -/

/-- What may stand behind a value: a separator, a bracket, the end of the line, or nothing. -/
abbrev Ends (r : Text) : Prop := StartsIn {c | c ∈ [',', ']', '\x7d', '\n']} r

/-- What ends a number is no digit. -/
theorem not_isDigit_of_ends (hr : Ends r) : ∀ c ∈ r.head?, c.isDigit = false := by
  intro c hc
  have hmem : c ∈ [',', ']', '\x7d', '\n'] := hr c hc
  have hcases : c = ',' ∨ c = ']' ∨ c = '\x7d' ∨ c = '\n' := by simpa using hmem
  rcases hcases with rfl | rfl | rfl | rfl
  all_goals rfl

/-- Digits in front of something else are the digits of the text alone. -/
theorem takeWhile_append_of_ends (hr : Ends r) (s : Text) :
    (s ++ r).takeWhile Char.isDigit = s.takeWhile Char.isDigit
      ∧ (s ++ r).dropWhile Char.isDigit = s.dropWhile Char.isDigit ++ r := by
  have hstop : r.takeWhile Char.isDigit = [] ∧ r.dropWhile Char.isDigit = r := by
    cases r with
    | nil => exact ⟨rfl, rfl⟩
    | cons c r =>
      have hc := not_isDigit_of_ends hr c rfl
      simp [hc]
  induction s with
  | nil => exact ⟨hstop.1, by rw [List.nil_append, hstop.2]; rfl⟩
  | cons c s ih =>
    cases hc : c.isDigit with
    | true => simp [hc, ih]
    | false => simp [hc]

/-- The digits end where the text does. -/
theorem scanNatural_append (hr : Ends r) (s : Text) :
    scanNatural (s ++ r) = (scanNatural s).map fun p => (p.1, p.2 ++ r) := by
  cases s with
  | nil =>
    cases r with
    | nil => rfl
    | cons c r =>
      have hc := not_isDigit_of_ends hr c rfl
      -- no digit follows
      have hzero : c ≠ '0' := by
        rintro rfl
        cases hc
      rw [List.nil_append, scanNatural, hc]
      · rfl
      · exact hzero
  | cons c s =>
    obtain ⟨htake, hdrop⟩ := takeWhile_append_of_ends hr s
    by_cases hzero : c = '0'
    · rw [hzero]
      rfl
    · have hother : ∀ t, scanNatural (c :: t) = if c.isDigit then
          some (c :: t.takeWhile Char.isDigit, t.dropWhile Char.isDigit) else none := by
        intro t
        rw [scanNatural]
        exact hzero
      rw [List.cons_append, hother, hother, htake, hdrop]
      split <;> rfl

/-- So does an integer. -/
theorem scanInteger_append (hr : Ends r) (s : Text) :
    scanInteger (s ++ r) = (scanInteger s).map fun p => (p.1, p.2 ++ r) := by
  by_cases hsign : ∃ t, s = '-' :: t
  · obtain ⟨t, rfl⟩ := hsign
    show (scanNatural (t ++ r)).map _ = ((scanNatural t).map _).map _
    rw [scanNatural_append hr]
    cases scanNatural t <;> rfl
  · have hplain : scanInteger s = scanNatural s := by
      unfold scanInteger
      split
      · next t => exact absurd ⟨t, rfl⟩ hsign
      · rfl
    have happend : scanInteger (s ++ r) = scanNatural (s ++ r) := by
      unfold scanInteger
      split
      · next t ht =>
        cases s with
        | nil =>
          -- what follows a number is no sign
          have hmem := hr '-' (by rw [List.nil_append] at ht; rw [ht]; rfl)
          exact absurd hmem (by simp)
        | cons c s => exact absurd ⟨s, by rw [(List.cons.inj ht).1]⟩ hsign
      · rfl
    rw [happend, hplain, scanNatural_append hr]

/-- So does a fraction, which may be missing. -/
theorem scanFraction_append (hr : Ends r) (s : Text) :
    scanFraction (s ++ r) = ((scanFraction s).1, (scanFraction s).2 ++ r) := by
  cases s with
  | nil =>
    cases r with
    | nil => rfl
    | cons c r =>
      have hdot : c ≠ '.' := by
        rintro rfl
        exact absurd (hr '.' rfl) (by simp)
      simp [scanFraction, hdot]
  | cons c s =>
    obtain ⟨htake, hdrop⟩ := takeWhile_append_of_ends hr s
    by_cases hdot : c = '.'
    · subst hdot
      rw [List.cons_append, scanFraction, scanFraction, htake, hdrop]
      split <;> rfl
    · simp [scanFraction, hdot]

/-- So does the sign of an exponent. -/
theorem scanSign_append (hr : Ends r) (s : Text) :
    scanSign (s ++ r) = ((scanSign s).1, (scanSign s).2 ++ r) := by
  cases s with
  | nil =>
    cases r with
    | nil => rfl
    | cons c r =>
      -- neither sign may follow a number
      have hminus : c ≠ '-' := by
        rintro rfl
        exact absurd (hr '-' rfl) (by simp)
      have hplus : c ≠ '+' := by
        rintro rfl
        exact absurd (hr '+' rfl) (by simp)
      simp [scanSign, hminus, hplus]
  | cons c s =>
    by_cases hminus : c = '-'
    · rw [hminus]
      rfl
    · by_cases hplus : c = '+'
      · rw [hplus]
        rfl
      · simp [scanSign, hminus, hplus]

/-- So does an exponent, which may be missing too. -/
theorem scanExponent_append (hr : Ends r) (s : Text) :
    scanExponent (s ++ r) = ((scanExponent s).1, (scanExponent s).2 ++ r) := by
  cases s with
  | nil =>
    cases r with
    | nil => rfl
    | cons c r =>
      -- nor may an `e`
      have hplain : ¬(c = 'e' ∨ c = 'E') := by
        rintro (rfl | rfl)
        · exact absurd (hr 'e' rfl) (by simp)
        · exact absurd (hr 'E' rfl) (by simp)
      simp [scanExponent, hplain]
  | cons c s =>
    by_cases hexp : c = 'e' ∨ c = 'E'
    · obtain ⟨htake, hdrop⟩ := takeWhile_append_of_ends hr (scanSign s).2
      rw [List.cons_append, scanExponent, if_pos hexp, scanSign_append hr, scanExponent,
        if_pos hexp]
      simp only [htake, hdrop]
      split <;> rfl
    · simp [scanExponent, hexp]

/-- A number in front of something else is read as it is read alone. -/
theorem scanNumber_append (hr : Ends r) (s : Text) :
    scanNumber readFloat (s ++ r)
      = (scanNumber readFloat s).map fun result => result >>= fun p => pure (p.1, p.2 ++ r) := by
  unfold scanNumber
  rw [scanInteger_append hr]
  cases hinteger : scanInteger s with
  | none => rfl
  | some p =>
    simp only [Option.map_some, scanFraction_append hr, scanExponent_append hr]
    congr 1
    split
    · rfl
    · split <;> rfl

/-- The digits of a number. -/
theorem scanNatural_toDigits (n : ℕ) :
    scanNatural (Nat.toDigits 10 n) = some (Nat.toDigits 10 n, []) := by
  have hall : ∀ c ∈ Nat.toDigits 10 n, c.isDigit = true := fun c hc =>
    Nat.isDigit_of_mem_toDigits (by omega) (by omega) hc
  -- only zero itself starts with a zero
  have hzero : ∀ t, Nat.toDigits 10 n = '0' :: t → t = [] := by
    induction n using Nat.strong_induction_on with
    | h n ih =>
      intro t ht
      by_cases hten : n < 10
      · rw [Nat.toDigits_of_lt_base hten] at ht
        exact (List.cons.inj ht).2.symm
      · -- the leading digit is that of the quotient, which is not zero
        rw [Nat.toDigits_of_base_le (by omega) (by omega)] at ht
        have hdigits : ∀ c ∈ Nat.toDigits 10 (n / 10), c.isDigit = true := fun c hc =>
          Nat.isDigit_of_mem_toDigits (by omega) (by omega) hc
        obtain ⟨c, u, hu⟩ := List.exists_cons_of_ne_nil (@Nat.toDigits_ne_nil (n / 10) 10)
        rw [hu, List.cons_append] at ht
        obtain ⟨rfl, -⟩ := List.cons.inj ht
        have hnil := ih (n / 10) (by omega) hdigits u hu
        have hval := @Nat.ofDigitChars_ten_toDigits (n / 10)
        rw [hu, hnil] at hval
        have hpos : 0 < n / 10 := by omega
        rw [← hval] at hpos
        exact absurd hpos (by decide)
  obtain ⟨c, t, ht⟩ := List.exists_cons_of_ne_nil (@Nat.toDigits_ne_nil n 10)
  rw [ht] at hall hzero ⊢
  by_cases hc : c = '0'
  · subst hc
    rw [hzero t rfl]
    rfl
  · obtain ⟨hdigit, hrest⟩ := List.forall_mem_cons.mp hall
    have htake : t.takeWhile Char.isDigit = t := List.takeWhile_eq_self_iff.mpr hrest
    have hdrop : t.dropWhile Char.isDigit = [] := List.dropWhile_eq_nil_iff.mpr hrest
    simp [scanNatural, hdigit, htake, hdrop]

/-- The decimal text of an integer reads as the integer. -/
theorem scanNumber_signedDigits (n : ℤ) :
    scanNumber readFloat (signedDigits n) = some (pure (.int n, [])) := by
  have hinteger : scanInteger (signedDigits n) = some (signedDigits n, [])
      ∧ intOf (signedDigits n) = n := by
    unfold signedDigits
    split
    · next hneg =>
      refine ⟨?_, ?_⟩
      · show (scanNatural (Nat.toDigits 10 n.natAbs)).map _ = _
        rw [scanNatural_toDigits]
        rfl
      · show -(Nat.ofDigitChars 10 (Nat.toDigits 10 n.natAbs) 0 : ℤ) = n
        rw [Nat.ofDigitChars_ten_toDigits]
        omega
    · next hpos =>
      rw [List.nil_append]
      -- the digits of a natural number have no sign in front
      have hsign : ∀ t, Nat.toDigits 10 n.natAbs ≠ '-' :: t := by
        intro t ht
        have hdigit : '-'.isDigit = true :=
          Nat.isDigit_of_mem_toDigits (by omega) (by omega)
            (by rw [ht]; exact List.mem_cons_self : '-' ∈ Nat.toDigits 10 n.natAbs)
        exact absurd hdigit (by decide)
      refine ⟨?_, ?_⟩
      · unfold scanInteger
        split
        · next t ht => exact absurd ht (hsign t)
        · exact scanNatural_toDigits n.natAbs
      · unfold intOf
        split
        · next t ht => exact absurd ht (hsign t)
        · rw [Nat.ofDigitChars_ten_toDigits]
          omega
  -- neither a fraction nor an exponent is written
  unfold scanNumber
  rw [hinteger.1]
  simp only [Option.map_some, scanFraction, scanExponent, hinteger.2, and_self, if_true]

/-! ## Values -/

mutual

/-- The text of a value, the entries of an object in the order they have, with `pad` behind every
separator. -/
def textWith (esc : Char → Text) (pad : Text) : Json → Text
  | .null => "null".toList
  | .bool b => if b then "true".toList else "false".toList
  | .int n => signedDigits n
  | .float _ repr => repr.toList
  | .str s => quoteWith esc s
  | .arr items => '[' :: (Text.join (',' :: pad) (textsWith esc pad items) ++ [']'])
  | .obj entries => '\x7b' :: (Text.join (',' :: pad) (entryTextsWith esc pad entries) ++ ['\x7d'])

/-- The texts of the items. -/
def textsWith (esc : Char → Text) (pad : Text) : List Json → List Text
  | [] => []
  | item :: items => textWith esc pad item :: textsWith esc pad items

/-- The texts of the entries, each with its key in front. -/
def entryTextsWith (esc : Char → Text) (pad : Text) : List (String × Json) → List Text
  | [] => []
  | (key, value) :: entries =>
    (quoteWith esc key ++ ':' :: pad ++ textWith esc pad value) :: entryTextsWith esc pad entries

end

/-- The text of a key and its value. -/
def entryTextWith (esc : Char → Text) (pad : Text) (entry : String × Json) : Text :=
  quoteWith esc entry.1 ++ ':' :: pad ++ textWith esc pad entry.2

theorem textsWith_eq_map (items : List Json) :
    textsWith esc pad items = items.map (textWith esc pad) := by
  induction items with
  | nil => rfl
  | cons item items ih => rw [textsWith, ih, List.map_cons]

theorem entryTextsWith_eq_map (entries : List (String × Json)) :
    entryTextsWith esc pad entries = entries.map (entryTextWith esc pad) := by
  induction entries with
  | nil => rfl
  | cons entry entries ih =>
    rw [entryTextsWith, ih, List.map_cons]
    rfl

mutual

/-- The keys of every object are different, and a float is what its `repr` reads as. -/
def Readable (readFloat : ReadFloat) : Json → Prop
  | .float value repr => scanNumber readFloat repr.toList = some (pure (.float value repr, []))
  | .arr items => ReadableItems readFloat items
  | .obj entries => (entries.map Prod.fst).Nodup ∧ ReadableEntries readFloat entries
  | _ => True

/-- All items are readable. -/
def ReadableItems (readFloat : ReadFloat) : List Json → Prop
  | [] => True
  | item :: items => Readable readFloat item ∧ ReadableItems readFloat items

/-- All values of the entries are readable. -/
def ReadableEntries (readFloat : ReadFloat) : List (String × Json) → Prop
  | [] => True
  | (_, value) :: entries => Readable readFloat value ∧ ReadableEntries readFloat entries

end

theorem readableItems_iff {items : List Json} :
    ReadableItems readFloat items ↔ ∀ item ∈ items, Readable readFloat item := by
  induction items with
  | nil => simp [ReadableItems]
  | cons item items ih => rw [ReadableItems, ih, List.forall_mem_cons]

theorem readableEntries_iff {entries : List (String × Json)} :
    ReadableEntries readFloat entries ↔ ∀ entry ∈ entries, Readable readFloat entry.2 := by
  induction entries with
  | nil => simp [ReadableEntries]
  | cons entry entries ih => rw [ReadableEntries, ih, List.forall_mem_cons]

/-! ### Heads -/

/-- The first characters of numbers. -/
def IsNumberHead (c : Char) : Prop := c = '-' ∨ c.isDigit = true

/-- A number starts with a digit or its sign. -/
theorem exists_head_of_scanNumber {result : Decode (Json × Text)}
    (h : scanNumber readFloat s = some result) : ∃ c t, s = c :: t ∧ IsNumberHead c := by
  cases s with
  | nil => cases h
  | cons c t =>
    refine ⟨c, t, rfl, ?_⟩
    by_contra hhead
    obtain ⟨hminus, hdigit⟩ := not_or.mp hhead
    have hzero : c ≠ '0' := by
      rintro rfl
      exact hdigit rfl
    have hnone : scanInteger (c :: t) = none := by
      rw [scanInteger, scanNatural, if_neg hdigit]
      · exact hzero
      · simpa using hminus
    unfold scanNumber at h
    rw [hnone] at h
    cases h

/-- A text begins with no blank, no closing bracket and no byte order mark. -/
structure Heads (c : Char) : Prop where
  not_blank : isBlank c = false
  not_bracket : c ≠ ']'
  not_mark : c ≠ '\ufeff'

theorem IsNumberHead.heads {c : Char} (h : IsNumberHead c) : Heads c := by
  rcases h with rfl | hdigit
  · exact ⟨by decide, by decide, by decide⟩
  · refine ⟨?_, ?_, ?_⟩
    · unfold isBlank
      rw [decide_eq_false_iff_not]
      intro hmem
      have hcases : c = ' ' ∨ c = '\t' ∨ c = '\n' ∨ c = '\r' := by simpa using hmem
      rcases hcases with rfl | rfl | rfl | rfl
      all_goals exact absurd hdigit (by decide)
    · rintro rfl
      exact absurd hdigit (by decide)
    · rintro rfl
      exact absurd hdigit (by decide)

/-- The text of a readable value starts with a character that is no blank and opens a value. -/
theorem textWith_eq_cons {v : Json} (hv : v.Readable readFloat) :
    ∃ c t, textWith esc pad v = c :: t ∧ Heads c := by
  cases v with
  | null => exact ⟨'n', _, rfl, by decide, by decide, by decide⟩
  | bool b =>
    cases b with
    | false => exact ⟨'f', _, rfl, by decide, by decide, by decide⟩
    | true => exact ⟨'t', _, rfl, by decide, by decide, by decide⟩
  | int n =>
    obtain ⟨c, t, ht, hhead⟩ := exists_head_of_scanNumber (@scanNumber_signedDigits readFloat n)
    exact ⟨c, t, ht, hhead.heads⟩
  | float value repr =>
    obtain ⟨c, t, ht, hhead⟩ := exists_head_of_scanNumber hv
    exact ⟨c, t, ht, hhead.heads⟩
  | str s => exact ⟨'"', _, rfl, by decide, by decide, by decide⟩
  | arr items => exact ⟨'[', _, rfl, by decide, by decide, by decide⟩
  | obj entries => exact ⟨'\x7b', _, rfl, by decide, by decide, by decide⟩

theorem skipBlanks_cons {c : Char} (hc : isBlank c = false) (s : Text) :
    skipBlanks (c :: s) = c :: s := by
  unfold skipBlanks
  rw [List.dropWhile_cons_of_neg (by simp [hc])]

/-- What a writer may put behind a separator. -/
def Blank (pad : Text) : Prop := ∀ c ∈ pad, isBlank c = true

/-- Blanks in front are skipped. -/
theorem skipBlanks_append (hpad : Blank pad) (s : Text) : skipBlanks (pad ++ s) = skipBlanks s := by
  unfold skipBlanks
  rw [List.dropWhile_append_of_pos hpad]

/-- Nothing is skipped in front of a text. -/
theorem skipBlanks_textWith {v : Json} (hv : v.Readable readFloat) (r : Text) :
    skipBlanks (textWith esc pad v ++ r) = textWith esc pad v ++ r := by
  obtain ⟨c, t, ht, hhead⟩ := @textWith_eq_cons esc pad readFloat v hv
  rw [ht, List.cons_append]
  exact skipBlanks_cons hhead.not_blank _

/-- Behind a separator only the pad is skipped. -/
theorem skipBlanks_pad_textWith (hpad : Blank pad) {v : Json} (hv : v.Readable readFloat)
    (r : Text) : skipBlanks (pad ++ (textWith esc pad v ++ r)) = textWith esc pad v ++ r := by
  rw [skipBlanks_append hpad, skipBlanks_textWith hv]

/-! ### Atoms -/

/-- A number is no word. -/
theorem scanAtom_number (hr : Ends r) {v : Json}
    (h : scanNumber readFloat s = some (pure (v, []))) :
    scanAtom readFloat (s ++ r) = pure (v, r) := by
  obtain ⟨c, t, rfl, hhead⟩ := exists_head_of_scanNumber h
  have hword : ∀ d, ¬IsNumberHead d → d ≠ c := by
    rintro d hd rfl
    exact hd hhead
  have hnull := hword 'n' (by simp [IsNumberHead])
  have htrue := hword 't' (by simp [IsNumberHead])
  have hfalse := hword 'f' (by simp [IsNumberHead])
  unfold scanAtom
  rw [scanNumber_append hr, h]
  simp [hnull, htrue, hfalse]

/-! ### Lists and objects -/

/-- A value is read back in front of what may stand behind it. -/
def ReadBack (esc : Char → Text) (pad : Text) (readFloat : ReadFloat) (v : Json) : Prop :=
  ∀ rounds r, 2 * (textWith esc pad v).length < rounds → Ends r →
    scanOnce readFloat rounds (textWith esc pad v ++ r) = pure (v, r)

/-- The items behind the first. -/
abbrev itemsTail (esc : Char → Text) (pad : Text) : List Json → Text :=
  joinTail (textWith esc pad) ',' pad ']'

/-- Behind an item stands a comma or the bracket, which ends a number. -/
theorem ends_itemsTail (as : List Json) (r : Text) : Ends (itemsTail esc pad as ++ r) :=
  startsIn_joinTail (by simp) (by simp) as

theorem length_itemsTail_pos (as : List Json) : 0 < (itemsTail esc pad as).length := by
  cases as with
  | nil => exact Nat.zero_lt_one
  | cons a as => exact Nat.succ_pos _

/-- Items that read back are read back one after the other. The induction is over the items. -/
theorem scanItems_textWith (hpad : Blank pad) {a : Json} {as : List Json}
    (hitems : ∀ item ∈ a :: as, item.Readable readFloat ∧ ReadBack esc pad readFloat item)
    (r : Text) {rounds : ℕ}
    (hrounds : 2 * (textWith esc pad a ++ itemsTail esc pad as).length ≤ rounds) :
    scanItems readFloat rounds (textWith esc pad a ++ (itemsTail esc pad as ++ r))
      = pure (a :: as, r) := by
  induction as generalizing a rounds with
  | nil =>
    have hpos := @length_itemsTail_pos esc pad []
    rw [List.length_append] at hrounds
    obtain ⟨m, rfl⟩ := Nat.exists_eq_add_of_lt (show 0 < rounds by omega)
    have hfirst := (hitems a List.mem_cons_self).2 (0 + m) (itemsTail esc pad [] ++ r) (by omega)
      (ends_itemsTail [] r)
    rw [scanItems, hfirst, pure_bind]
    rfl
  | cons b bs ih =>
    have hpos := @length_itemsTail_pos esc pad (b :: bs)
    -- the rounds that the first item leaves are enough for the rest
    have hlength : (itemsTail esc pad (b :: bs)).length
        = 1 + pad.length + (textWith esc pad b ++ itemsTail esc pad bs).length := by
      simp [itemsTail, joinTail]
      omega
    rw [List.length_append] at hrounds
    obtain ⟨m, rfl⟩ := Nat.exists_eq_add_of_lt (show 0 < rounds by omega)
    have hfirst := (hitems a List.mem_cons_self).2 (0 + m) (itemsTail esc pad (b :: bs) ++ r)
      (by omega) (ends_itemsTail (b :: bs) r)
    have hrest := @ih b (fun item hitem => hitems item (List.mem_cons_of_mem a hitem)) (0 + m)
      (by omega)
    have hb := (hitems b (List.mem_cons_of_mem a List.mem_cons_self)).1
    have hskip := @skipBlanks_pad_textWith esc pad readFloat hpad b hb (itemsTail esc pad bs ++ r)
    have htail : itemsTail esc pad (b :: bs) ++ r
        = ',' :: (pad ++ (textWith esc pad b ++ (itemsTail esc pad bs ++ r))) := by
      simp [itemsTail, joinTail]
    -- the first item, the comma, and the rest by induction
    rw [scanItems, hfirst, pure_bind, htail]
    simp only [skipBlanks_cons (show isBlank ',' = false by decide)]
    rw [hskip, hrest, pure_bind]

/-- The entries behind the first. -/
abbrev entriesTail (esc : Char → Text) (pad : Text) : List (String × Json) → Text :=
  joinTail (entryTextWith esc pad) ',' pad '\x7d'

/-- Behind a value stands a comma or the brace. -/
theorem ends_entriesTail (as : List (String × Json)) (r : Text) :
    Ends (entriesTail esc pad as ++ r) :=
  startsIn_joinTail (by simp) (by simp) as

theorem length_entriesTail_pos (as : List (String × Json)) :
    0 < (entriesTail esc pad as).length := by
  cases as with
  | nil => exact Nat.zero_lt_one
  | cons a as => exact Nat.succ_pos _

/-- The text of an entry behind the quote that opens its key. -/
def entryBody (esc : Char → Text) (pad : Text) (entry : String × Json) : Text :=
  entry.1.toList.flatMap esc ++ '"' :: ':' :: (pad ++ textWith esc pad entry.2)

theorem entryTextWith_eq (entry : String × Json) :
    entryTextWith esc pad entry = '"' :: entryBody esc pad entry := by
  simp [entryTextWith, entryBody, quoteWith]

/-- So are the entries of an object: each key, its colon and its value. -/
theorem scanPairs_textWith (hesc : ReadsBack esc) (hpad : Blank pad) {a : String × Json}
    {as : List (String × Json)}
    (hentries : ∀ entry ∈ a :: as, entry.2.Readable readFloat ∧ ReadBack esc pad readFloat entry.2)
    (r : Text) {rounds : ℕ}
    (hrounds : 2 * (entryBody esc pad a ++ entriesTail esc pad as).length ≤ rounds) :
    scanPairs readFloat rounds (entryBody esc pad a ++ (entriesTail esc pad as ++ r))
      = pure (a :: as, r) := by
  -- the key without its first quote, the colon and the value
  have hbody : ∀ (entry : String × Json) (t : Text), entryBody esc pad entry ++ t
      = entry.1.toList.flatMap esc ++ '"' :: (':' :: (pad ++ (textWith esc pad entry.2 ++ t))) := by
    simp [entryBody]
  have hlength : ∀ entry : String × Json,
      2 + (textWith esc pad entry.2).length ≤ (entryBody esc pad entry).length := by
    intro entry
    simp [entryBody]
    omega
  induction as generalizing a rounds with
  | nil =>
    have hpos := @length_entriesTail_pos esc pad []
    have hle := hlength a
    rw [List.length_append] at hrounds
    obtain ⟨m, rfl⟩ := Nat.exists_eq_add_of_lt (show 0 < rounds by omega)
    obtain ⟨hreadable, hback⟩ := hentries a List.mem_cons_self
    have hvalue := hback (0 + m) (entriesTail esc pad [] ++ r) (by omega) (ends_entriesTail [] r)
    have hskip :=
      @skipBlanks_pad_textWith esc pad readFloat hpad a.2 hreadable (entriesTail esc pad [] ++ r)
    rw [hbody, scanPairs, scanString_flatMap hesc, pure_bind]
    simp only [skipBlanks_cons (show isBlank ':' = false by decide)]
    rw [hskip, hvalue, pure_bind, String.ofList_toList]
    rfl
  | cons b bs ih =>
    have hpos := @length_entriesTail_pos esc pad (b :: bs)
    have hle := hlength a
    -- again the rounds are enough
    have htailLength : (entriesTail esc pad (b :: bs)).length
        = 2 + pad.length + (entryBody esc pad b ++ entriesTail esc pad bs).length := by
      simp [entriesTail, joinTail, entryTextWith_eq]
      omega
    rw [List.length_append] at hrounds
    obtain ⟨m, rfl⟩ := Nat.exists_eq_add_of_lt (show 0 < rounds by omega)
    obtain ⟨hreadable, hback⟩ := hentries a List.mem_cons_self
    have hvalue := hback (0 + m) (entriesTail esc pad (b :: bs) ++ r) (by omega)
      (ends_entriesTail (b :: bs) r)
    have hskip := @skipBlanks_pad_textWith esc pad readFloat hpad a.2 hreadable
      (entriesTail esc pad (b :: bs) ++ r)
    have hrest := @ih b (fun entry h => hentries entry (List.mem_cons_of_mem a h)) (0 + m)
      (by omega)
    have htail : entriesTail esc pad (b :: bs) ++ r
        = ',' :: (pad ++ '"' :: (entryBody esc pad b ++ (entriesTail esc pad bs ++ r))) := by
      simp [entriesTail, joinTail, entryTextWith_eq]
    -- behind the comma the next key is looked for
    have hquote : skipBlanks (pad ++ '"' :: (entryBody esc pad b ++ (entriesTail esc pad bs ++ r)))
        = '"' :: (entryBody esc pad b ++ (entriesTail esc pad bs ++ r)) :=
      skipBlanks_append hpad _
    rw [hbody, scanPairs, scanString_flatMap hesc, pure_bind]
    simp only [skipBlanks_cons (show isBlank ':' = false by decide)]
    rw [hskip, hvalue, pure_bind, htail]
    simp only [skipBlanks_cons (show isBlank ',' = false by decide), hquote]
    rw [hrest, pure_bind, String.ofList_toList]

/-- Different keys are entered in their order. -/
theorem dictOf_of_nodup {pairs : List (String × Json)} (h : (pairs.map Prod.fst).Nodup) :
    dictOf pairs = pairs := by
  unfold dictOf
  induction pairs using List.reverseRecOn with
  | nil => rfl
  | append_singleton pairs pair ih =>
    rw [List.map_append, List.nodup_append] at h
    obtain ⟨hpairs, -, hnew⟩ := h
    have hkey : hasKey pairs pair.1 = false := by
      unfold hasKey get?
      rw [Option.isSome_eq_false_iff, Option.isNone_iff_eq_none, List.lookup_eq_none_iff]
      intro entry hentry
      have hne := hnew entry.1 (List.mem_map_of_mem hentry) pair.1 (by simp)
      simpa using hne.symm
    rw [List.foldl_append, ih hpairs, List.foldl_cons, List.foldl_nil, setItem, hkey]
    rfl

/-- An array reads back if its items do. -/
theorem readBack_arr (hpad : Blank pad) {items : List Json}
    (hv : (Json.arr items).Readable readFloat)
    (ih : ∀ item ∈ items, item.Readable readFloat → ReadBack esc pad readFloat item) :
    ReadBack esc pad readFloat (.arr items) := by
  intro rounds r hrounds hr
  rw [textWith, textsWith_eq_map] at hrounds ⊢
  obtain ⟨m, rfl⟩ := Nat.exists_eq_add_of_lt (Nat.zero_lt_of_lt hrounds)
  cases items with
  | nil => rfl
  | cons a as =>
    have hall := readableItems_iff.mp hv
    have hitems : ∀ item ∈ a :: as, item.Readable readFloat ∧ ReadBack esc pad readFloat item :=
      fun item h => ⟨hall item h, ih item h (hall item h)⟩
    -- the text of the items, cut behind the first one
    have hjoin : Text.join (',' :: pad) ((a :: as).map (textWith esc pad)) ++ [']']
        = textWith esc pad a ++ itemsTail esc pad as := join_cons_eq a as
    rw [hjoin] at hrounds ⊢
    rw [List.length_cons] at hrounds
    have hscan := @scanItems_textWith esc pad readFloat hpad a as hitems r (0 + m) (by omega)
    obtain ⟨c, t, ht, hhead⟩ := @textWith_eq_cons esc pad readFloat a (hall a List.mem_cons_self)
    have hskip := @skipBlanks_textWith esc pad readFloat a (hall a List.mem_cons_self)
      (itemsTail esc pad as ++ r)
    rw [List.cons_append, List.append_assoc, scanOnce, hskip]
    rw [ht] at hscan ⊢
    split
    · -- the array is not closed at once
      next heq => exact absurd (List.cons.inj heq).1 hhead.not_bracket
    · rw [hscan, pure_bind]

/-- An object reads back if its values do; its keys are different, so no entry replaces another. -/
theorem readBack_obj (hesc : ReadsBack esc) (hpad : Blank pad) {entries : List (String × Json)}
    (hv : (Json.obj entries).Readable readFloat)
    (ih : ∀ entry ∈ entries, entry.2.Readable readFloat → ReadBack esc pad readFloat entry.2) :
    ReadBack esc pad readFloat (.obj entries) := by
  intro rounds r hrounds hr
  rw [textWith, entryTextsWith_eq_map] at hrounds ⊢
  obtain ⟨m, rfl⟩ := Nat.exists_eq_add_of_lt (Nat.zero_lt_of_lt hrounds)
  obtain ⟨hkeys, hvalues⟩ := hv
  cases entries with
  | nil => rfl
  | cons a as =>
    have hall := readableEntries_iff.mp hvalues
    have hentries : ∀ entry ∈ a :: as,
        entry.2.Readable readFloat ∧ ReadBack esc pad readFloat entry.2 :=
      fun entry h => ⟨hall entry h, ih entry h (hall entry h)⟩
    have hjoin : Text.join (',' :: pad) ((a :: as).map (entryTextWith esc pad)) ++ ['\x7d']
        = entryTextWith esc pad a ++ entriesTail esc pad as := join_cons_eq a as
    rw [hjoin, entryTextWith_eq] at hrounds ⊢
    rw [List.length_cons, List.cons_append, List.length_cons] at hrounds
    have hscan := @scanPairs_textWith esc pad readFloat hesc hpad a as hentries r (0 + m) (by omega)
    have hquote : skipBlanks ('"' :: (entryBody esc pad a ++ (entriesTail esc pad as ++ r)))
        = '"' :: (entryBody esc pad a ++ (entriesTail esc pad as ++ r)) := rfl
    rw [List.cons_append, List.cons_append, List.cons_append, List.append_assoc, scanOnce]
    simp only [hquote]
    -- no key is there twice, so the dictionary has the entries in order
    rw [hscan, pure_bind, dictOf_of_nodup hkeys]

/-- A number reads back by itself. -/
theorem readBack_number {v : Json} {text : Text} (htext : textWith esc pad v = text)
    (h : scanNumber readFloat text = some (pure (v, []))) : ReadBack esc pad readFloat v := by
  intro rounds r hrounds hr
  rw [htext] at hrounds ⊢
  obtain ⟨m, rfl⟩ := Nat.exists_eq_add_of_lt (Nat.zero_lt_of_lt hrounds)
  have hatom := scanAtom_number hr h
  obtain ⟨c, t, rfl, hhead⟩ := exists_head_of_scanNumber h
  have hother : ∀ d, ¬IsNumberHead d → ∀ u, c :: (t ++ r) = d :: u → False := by
    intro d hd u heq
    rw [(List.cons.inj heq).1] at hhead
    exact hd hhead
  rw [List.cons_append] at hatom ⊢
  rw [scanOnce, hatom]
  · exact hother '"' (by simp [IsNumberHead])
  · exact hother '[' (by simp [IsNumberHead])
  · exact hother '\x7b' (by simp [IsNumberHead])

/-- Every readable value is read back. -/
theorem readBack_textWith (hesc : ReadsBack esc) (hpad : Blank pad) {v : Json}
    (hv : v.Readable readFloat) :
    ReadBack esc pad readFloat v := by
  induction v using Json.induction with
  | null =>
    intro rounds r hrounds hr
    obtain ⟨m, rfl⟩ := Nat.exists_eq_add_of_lt (Nat.zero_lt_of_lt hrounds)
    rfl
  | bool b =>
    intro rounds r hrounds hr
    obtain ⟨m, rfl⟩ := Nat.exists_eq_add_of_lt (Nat.zero_lt_of_lt hrounds)
    cases b <;> rfl
  | int n => exact readBack_number rfl (scanNumber_signedDigits n)
  | float value repr => exact readBack_number rfl hv
  | str s =>
    intro rounds r hrounds hr
    obtain ⟨m, rfl⟩ := Nat.exists_eq_add_of_lt (Nat.zero_lt_of_lt hrounds)
    -- a string is read up to its closing quote
    have hscan := scanString_flatMap hesc s.toList r
    rw [textWith, quoteWith, List.cons_append, List.append_assoc, List.singleton_append, scanOnce,
      hscan, pure_bind]
    simp only [String.ofList_toList]
  | arr items ih => exact readBack_arr hpad hv fun item h => ih item h
  | obj entries ih => exact readBack_obj hesc hpad hv fun entry h => ih entry h

/-- `loads` of the text of a value with blanks behind it. -/
theorem loads_textWith (hesc : ReadsBack esc) (hpad : Blank pad) {v : Json}
    (hv : v.Readable readFloat) (hr : Ends r) (hblank : skipBlanks r = []) :
    loads readFloat (textWith esc pad v ++ r) = pure v := by
  obtain ⟨c, t, ht, hhead⟩ := @textWith_eq_cons esc pad readFloat v hv
  have hmark : (textWith esc pad v ++ r).head? ≠ some '\ufeff' := by
    rw [ht, List.cons_append, List.head?_cons]
    exact fun h => hhead.not_mark (Option.some.inj h)
  have hskip := @skipBlanks_textWith esc pad readFloat v hv r
  have hrounds : 2 * (textWith esc pad v).length < roundsFor (textWith esc pad v ++ r) := by
    unfold roundsFor
    rw [List.length_append]
    omega
  have hscan := readBack_textWith hesc hpad hv (roundsFor (textWith esc pad v ++ r)) r hrounds hr
  unfold loads
  rw [if_neg hmark, hskip, hscan, pure_bind]
  exact if_pos hblank

/-! ## Sorted texts -/

/-- Sorting by key passes a change of the values. -/
theorem sortByKey_map {β : Type*} (f : Json → β) (entries : List (String × Json)) :
    sortByKey KeyLe (entries.map fun entry => (entry.1, f entry.2))
      = (sortByKey KeyLe entries).map fun entry => (entry.1, f entry.2) :=
  (List.map_insertionSort (fun a b : String × Json => KeyLe a.1 b.1)
    (fun a b : String × β => KeyLe a.1 b.1) (fun entry => (entry.1, f entry.2)) entries
    fun _ _ _ _ => Iff.rfl).symm

theorem dumpsItems_eq_map (items : List Json) : dumpsItems items = items.map dumps := by
  induction items with
  | nil => rfl
  | cons item items ih => rw [dumpsItems, ih, List.map_cons]

theorem dumpsEntries_eq_map (entries : List (String × Json)) :
    dumpsEntries entries = entries.map fun entry => (entry.1, dumps entry.2) := by
  induction entries with
  | nil => rfl
  | cons entry entries ih => rw [dumpsEntries, ih, List.map_cons]

/-- The pad of `json.dumps`. -/
theorem blank_space : Blank [' '] := List.forall_mem_singleton.mpr rfl

/-- `ensure_ascii=False`. -/
theorem dumps_eq_textWith (v : Json) : dumps v = textWith escapeChar [' '] (sorted v) := by
  induction v using Json.induction with
  | null => rfl
  | bool b => rfl
  | int n => rfl
  | float value repr => rfl
  | str s => rfl
  | arr items ih =>
    rw [dumps, sorted, textWith, textsWith_eq_map, sortedItems_eq_map, dumpsItems_eq_map,
      List.map_map, List.map_congr_left ih]
    rfl
  | obj entries ih =>
    -- sorting the texts by key is sorting the entries
    have hsort : sortEntries (dumpsEntries entries)
        = (sortByKey KeyLe entries).map fun entry => (entry.1, dumps entry.2) := by
      rw [dumpsEntries_eq_map]
      exact sortByKey_map dumps entries
    have htexts : ∀ entry ∈ sortByKey KeyLe entries,
        quote entry.1 ++ ": ".toList ++ dumps entry.2
          = entryTextWith escapeChar [' '] (entry.1, sorted entry.2) := by
      intro entry hentry
      rw [ih entry (mem_sortByKey.mp hentry)]
      rfl
    rw [dumps, sorted, textWith, entryTextsWith_eq_map, sortedValues_eq_map, sortByKey_map, hsort,
      List.map_map, List.map_map]
    have hmap := List.map_congr_left htexts
    have hjoin : Text.join ", ".toList (List.map ((fun p : String × Text =>
          quote p.1 ++ ": ".toList ++ p.2) ∘ fun entry : String × Json =>
            (entry.1, dumps entry.2)) (sortByKey KeyLe entries))
        = Text.join ", ".toList (List.map (entryTextWith escapeChar [' ']
            ∘ fun entry : String × Json => (entry.1, sorted entry.2)) (sortByKey KeyLe entries)) :=
      congrArg (Text.join ", ".toList) hmap
    exact congrArg (fun t => '\x7b' :: (t ++ ['\x7d'])) hjoin

/-- `ensure_ascii=True`. -/
theorem asciiText_eq_textWith (v : Json) : asciiText v = textWith asciiChar [' '] v := by
  induction v using Json.induction with
  | arr items ih =>
    rw [asciiText, textWith, textsWith_eq_map, asciiTexts_eq_map, List.map_congr_left ih]
    rfl
  | obj entries ih =>
    have htexts : ∀ entry ∈ entries, asciiQuote entry.1 ++ ": ".toList ++ asciiText entry.2
        = entryTextWith asciiChar [' '] entry := by
      intro entry hentry
      rw [ih entry hentry]
      rfl
    rw [asciiText, textWith, entryTextsWith_eq_map, asciiEntryTexts_eq_map,
      List.map_congr_left htexts]
    rfl
  | _ => rfl

/-- Sorting keeps a value readable. -/
theorem readable_sorted {v : Json} (hv : v.Readable readFloat) :
    (sorted v).Readable readFloat := by
  induction v using Json.induction with
  | arr items ih =>
    refine readableItems_iff.mpr fun item hitem => ?_
    rw [sortedItems_eq_map] at hitem
    obtain ⟨item, hmem, rfl⟩ := List.mem_map.mp hitem
    exact ih item hmem (readableItems_iff.mp hv item hmem)
  | obj entries ih =>
    obtain ⟨hkeys, hvalues⟩ := hv
    rw [sorted, sortedValues_eq_map]
    refine ⟨?_, readableEntries_iff.mpr fun entry hentry => ?_⟩
    · -- sorting permutes the keys, so they stay different
      have hperm := ((List.perm_insertionSort (fun a b => KeyLe a.1 b.1)
        (entries.map fun entry => (entry.1, sorted entry.2))).map Prod.fst)
      refine hperm.nodup_iff.mpr ?_
      rw [List.map_map]
      exact hkeys
    · rw [mem_sortByKey] at hentry
      obtain ⟨entry, hmem, rfl⟩ := List.mem_map.mp hentry
      exact ih entry hmem (readableEntries_iff.mp hvalues entry hmem)
  | _ => exact hv

/-- Sorted entries are not sorted any further. -/
theorem sortByKey_sortByKey {β : Type*} (entries : List (String × β)) :
    sortByKey KeyLe (sortByKey KeyLe entries) = sortByKey KeyLe entries := by
  have htotal : Std.Total fun a b : String × β => KeyLe a.1 b.1 := ⟨fun a b => le_total _ _⟩
  have htrans : IsTrans (String × β) fun a b => KeyLe a.1 b.1 := ⟨fun _ _ _ => le_trans⟩
  have hsorted := List.pairwise_insertionSort (fun a b : String × β => KeyLe a.1 b.1) entries
  exact hsorted.insertionSort_eq

/-- A value in order stays as it is. -/
theorem sorted_sorted (v : Json) : v.sorted.sorted = v.sorted := by
  induction v using Json.induction with
  | arr items ih =>
    rw [sorted, sorted, sortedItems_eq_map, sortedItems_eq_map, List.map_map]
    exact congrArg Json.arr (List.map_congr_left ih)
  | obj entries ih =>
    have hentries : ∀ entry ∈ sortByKey KeyLe (entries.map fun entry => (entry.1, sorted entry.2)),
        (entry.1, sorted entry.2) = entry := by
      intro entry hentry
      obtain ⟨entry, hmem, rfl⟩ := List.mem_map.mp (mem_sortByKey.mp hentry)
      rw [ih entry hmem]
    rw [sorted, sorted, sortedValues_eq_map, sortedValues_eq_map, sortByKey_map sorted,
      sortByKey_sortByKey, List.map_congr_left hentries, List.map_id']
  | _ => rfl

/-- Reading gives the value back, with the keys of every object in order. -/
theorem loads_dumps {v : Json} (hv : v.Readable readFloat) :
    loads readFloat (dumps v) = pure (sorted v) := by
  have hread := loads_textWith readsBack_escapeChar blank_space (readable_sorted hv)
    startsIn_nil rfl
  rwa [List.append_nil, ← dumps_eq_textWith] at hread

/-- A line of JSON, with the end of the line. -/
theorem loads_dumpsAscii_line {v : Json} (hv : v.Readable readFloat) :
    loads readFloat (dumpsAscii v ++ ['\n']) = pure (sorted v) := by
  unfold dumpsAscii
  rw [asciiText_eq_textWith]
  have hend : Ends ['\n'] := by
    intro c hc
    obtain rfl := Option.some.inj hc
    simp
  exact loads_textWith readsBack_asciiChar blank_space (readable_sorted hv) hend rfl

end Json

/-! ## Envelopes -/

namespace MessageEnvelope

open Json

variable {readFloat : ReadFloat}

/-- The envelope with the keys in its payload in order. -/
def sortPayload (e : MessageEnvelope) : MessageEnvelope := { e with payload := e.payload.sorted }

theorem sourceOf_congr {d d' : List (String × Json)} (h : ∀ key, get? d key = get? d' key) :
    sourceOf d = sourceOf d' := by
  simp only [sourceOf, itemOr, h]

/-- Only the values under the keys matter to `from_dict`, also inside of the source. -/
theorem fromDict_congr {d d' src src' : List (String × Json)}
    (h : ∀ key, key ≠ "source" → get? d key = get? d' key)
    (hsrc : get? d "source" = some (.obj src)) (hsrc' : get? d' "source" = some (.obj src'))
    (hsource : ∀ key, get? src key = get? src' key) :
    fromDict (.obj d) = fromDict (.obj d') := by
  simp (disch := decide) only [fromDict, dict, item, itemOr, pure_bind, hsrc, hsrc',
    Option.getD_some, sourceOf_congr hsource, h]

theorem sorted_optionStr (s : Option String) : (optionStr s).sorted = optionStr s := by
  cases s <;> rfl

/-- `from_dict` looks keys up, so it does not depend on their order. -/
theorem fromDict_sorted (e : MessageEnvelope) :
    fromDict e.toDict.sorted = pure e.sortPayload := by
  rw [← fromDict_toDict e.sortPayload]
  let src : List (String × Json) :=
    [("application", .str e.source.application), ("adapter", .str e.source.adapter),
      ("component", .str e.source.component), ("instance_id", .str e.source.instanceId)]
  refine @fromDict_congr _ _ (sortByKey KeyLe (sortedValues src)) src (fun key hkey => ?_) ?_ rfl
    fun key => ?_
  · have hne : (key == "source") = false := by simpa using hkey
    rw [get?_sortByKey]
    simp only [sortedValues, get?, List.lookup, hne, sorted_optionStr]
    rfl
  · rw [get?_sortByKey]
    rfl
  · rw [get?_sortByKey]
    rfl

/-- The dictionary of an envelope is readable if its payload is. -/
theorem readable_toDict {e : MessageEnvelope} (h : e.payload.Readable readFloat) :
    e.toDict.Readable readFloat := by
  have hoption : ∀ s : Option String, (optionStr s).Readable readFloat := by
    intro s
    cases s <;> trivial
  have hsource : e.source.toDict.Readable readFloat :=
    ⟨by simp, trivial, trivial, trivial, trivial, trivial⟩
  exact ⟨by simp, trivial, trivial, trivial, trivial, trivial, trivial, hsource, h,
    hoption _, hoption _, trivial⟩

/-- The text sorts the keys, so it does not tell the two envelopes apart. -/
theorem toJson_sortPayload (e : MessageEnvelope) : e.sortPayload.toJson = e.toJson := by
  have hsorted : e.sortPayload.toDict.sorted = e.toDict.sorted := by
    simp only [toDict, sortPayload, sorted, sortedValues, sorted_sorted]
  unfold toJson
  rw [dumps_eq_textWith, dumps_eq_textWith, hsorted]

/-- The text of an envelope is read as the envelope. -/
theorem fromJson_written {e : MessageEnvelope} (h : e.payload.Readable readFloat) :
    fromJson readFloat e.toJson = pure e.sortPayload := by
  unfold fromJson toJson
  rw [loads_dumps (readable_toDict h), pure_bind, fromDict_sorted]

/-- `from_json` undoes `to_json`, up to the order of the keys in the payload, and what it gives is
written as the same text. -/
theorem fromJson_toJson {e : MessageEnvelope} (h : e.payload.Readable readFloat) :
    fromJson readFloat e.toJson = pure e.sortPayload ∧ e.sortPayload.toJson = e.toJson :=
  ⟨fromJson_written h, toJson_sortPayload e⟩

/-- Decoding one after the other. -/
theorem mapM_eq_pure {α β : Type} {f : α → Decode β} {g : α → β} {as : List α}
    (h : ∀ a ∈ as, f a = pure (g a)) : as.mapM f = pure (as.map g) := by
  induction as with
  | nil => rfl
  | cons a as ih =>
    obtain ⟨ha, has⟩ := List.forall_mem_cons.mp h
    rw [List.mapM_cons, ha, pure_bind, ih has, pure_bind, List.map_cons]

/-- An observation with nested data, a float, and keys that are not in order. -/
def rated : MessageEnvelope :=
  { ProtocolValidator.sample .observation "s" 2 1 with
    payload := .obj [("observation_type", .str "PAGE_NAVIGATION"),
      ("context", .obj [("url", .str "https://news.example/"), ("tab_id", .int 1),
        ("title", .str "Café \"Zur Post\" 🔒")]),
      ("confidence", .float (1 / 2) "0.5"), ("tags", .arr [.null, .bool true])] }

/-- `float("0.5")`. -/
def readHalf : ReadFloat := fun t => if t = "0.5".toList then some (1 / 2, "0.5") else none

theorem readable_rated : rated.payload.Readable readHalf := by
  have hfloat : scanNumber readHalf "0.5".toList
      = some (pure (.float (1 / 2) "0.5", [])) := rfl
  refine ⟨by decide, trivial, ?_, hfloat, ?_, trivial⟩
  · exact ⟨by decide, trivial, trivial, trivial, trivial⟩
  · exact ⟨trivial, trivial, trivial⟩

theorem fromJson_toJson_rated :
    fromJson readHalf rated.toJson = pure rated.sortPayload
      ∧ rated.sortPayload.toJson = rated.toJson :=
  fromJson_toJson readable_rated

end MessageEnvelope
end ThoriumFrugal.Protocol

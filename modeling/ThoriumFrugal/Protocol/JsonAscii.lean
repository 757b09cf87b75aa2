import ThoriumFrugal.Lib.Entries
import ThoriumFrugal.Lib.PrefixCode
import ThoriumFrugal.Protocol.Json

/-!
# JSON texts in ASCII

`json.dumps(value, sort_keys=True)` with its default `ensure_ascii=True`. The text of a value
determines the value up to the order of keys, and where one text ends and the next begins: the
text of an object can be cut off in front of any other.
-/

namespace ThoriumFrugal.Protocol

open Lib

namespace Json

/-! ## Values up to the order of keys -/

/-- Equality of JSON values: lists item by item, objects key by key. -/
inductive Same : Json → Json → Prop
  | refl (v : Json) : Same v v
  | arr {items items' : List Json} : List.Forall₂ Same items items' →
      Same (.arr items) (.arr items')
  | obj {entries entries' : List (String × Json)} :
      (∀ key, Option.Rel Same (get? entries key) (get? entries' key)) →
        Same (.obj entries) (.obj entries')

/-- The order of the keys of an object. -/
abbrev KeyLe (a b : String) : Prop := a.toList ≤ b.toList

mutual

/-- The value with the keys of every object in order. -/
def sorted : Json → Json
  | .null => .null
  | .bool b => .bool b
  | .int n => .int n
  | .float value repr => .float value repr
  | .str s => .str s
  | .arr items => .arr (sortedItems items)
  | .obj entries => .obj (sortByKey KeyLe (sortedValues entries))

/-- The items of an array, each sorted. -/
def sortedItems : List Json → List Json
  | [] => []
  | item :: items => sorted item :: sortedItems items

/-- The entries of an object in their order, with sorted values. -/
def sortedValues : List (String × Json) → List (String × Json)
  | [] => []
  | (key, value) :: entries => (key, sorted value) :: sortedValues entries

end

/-- The same, item by item. -/
theorem sortedItems_eq_map (items : List Json) : sortedItems items = items.map sorted := by
  induction items with
  | nil => rfl
  | cons item items ih => rw [sortedItems, ih, List.map_cons]

/-- The same, entry by entry. -/
theorem sortedValues_eq_map (entries : List (String × Json)) :
    sortedValues entries = entries.map fun entry => (entry.1, sorted entry.2) := by
  induction entries with
  | nil => rfl
  | cons entry entries ih => rw [sortedValues, ih, List.map_cons]

/-- A key is found in the same entry, with its value sorted. -/
theorem get?_sortedValues (key : String) (entries : List (String × Json)) :
    get? (sortedValues entries) key = (get? entries key).map sorted := by
  rw [sortedValues_eq_map]
  exact lookup_map_value sorted key entries

/-- Sorting the entries changes no lookup. -/
theorem get?_sortByKey (key : String) (entries : List (String × Json)) :
    get? (sortByKey KeyLe entries) key = get? entries key :=
  lookup_sortByKey (fun k => le_refl k.toList) key entries

/-- Objects that are sorted alike have the same values under each key. -/
theorem rel_get?_of_sorted_eq {entries entries' : List (String × Json)}
    (hsame : ∀ entry ∈ entries, ∀ {w : Json}, sorted entry.2 = sorted w → Same entry.2 w)
    (h : sortByKey KeyLe (sortedValues entries) = sortByKey KeyLe (sortedValues entries'))
    (key : String) : Option.Rel Same (get? entries key) (get? entries' key) := by
  -- both sides are looked up in the sorted entries
  have hkey : (get? entries key).map sorted = (get? entries' key).map sorted := by
    rw [← get?_sortedValues, ← get?_sortedValues, ← get?_sortByKey key (sortedValues entries),
      ← get?_sortByKey key (sortedValues entries'), h]
  cases hv : get? entries key with
  | none =>
    rw [hv, Option.map_none, eq_comm, Option.map_eq_none_iff] at hkey
    rw [hkey]
    exact .none
  | some v =>
    rw [hv, Option.map_some, eq_comm, Option.map_eq_some_iff] at hkey
    obtain ⟨w, hw, hsorted⟩ := hkey
    rw [hw]
    obtain ⟨front, back, hentries, -⟩ := List.lookup_eq_some_iff.mp hv
    refine .some (hsame (key, v) ?_ hsorted.symm)
    rw [hentries]
    simp

/-- Lists that are sorted alike are the same item by item. -/
theorem forall₂_same {items items' : List Json}
    (hsame : ∀ item ∈ items, ∀ {w : Json}, sorted item = sorted w → Same item w)
    (h : sortedItems items = sortedItems items') : List.Forall₂ Same items items' := by
  induction items generalizing items' with
  | nil =>
    cases items' with
    | nil => exact .nil
    | cons item' items' => cases h
  | cons item items ih =>
    cases items' with
    | nil => cases h
    | cons item' items' =>
      obtain ⟨hitem, hitems⟩ := List.cons.inj h
      refine .cons (hsame item List.mem_cons_self hitem) (ih (fun other hmem => ?_) hitems)
      exact hsame other (List.mem_cons_of_mem item hmem)

/-- Values with the same sorted form are the same up to the order of keys. -/
theorem same_of_sorted_eq {v w : Json} (h : sorted v = sorted w) : Same v w := by
  -- sorting keeps the kind, so only equal kinds are left
  induction v using Json.induction generalizing w with
  | null =>
    cases w with
    | null => exact .refl _
    | _ => cases h
  | bool a =>
    cases w with
    | bool b =>
      obtain rfl := Json.bool.inj h
      exact .refl _
    | _ => cases h
  | int n =>
    cases w with
    | int m =>
      obtain rfl := Json.int.inj h
      exact .refl _
    | _ => cases h
  | float value repr =>
    cases w with
    | float value' repr' =>
      obtain ⟨rfl, rfl⟩ := Json.float.inj h
      exact .refl _
    | _ => cases h
  | str s =>
    cases w with
    | str t =>
      obtain rfl := Json.str.inj h
      exact .refl _
    | _ => cases h
  | arr items ih =>
    cases w with
    | arr items' => exact .arr (forall₂_same ih (Json.arr.inj h))
    | _ => cases h
  | obj entries ih =>
    cases w with
    | obj entries' => exact .obj (rel_get?_of_sorted_eq ih (Json.obj.inj h))
    | _ => cases h

/-! ## Strings -/

/-- A code unit of UTF-16 as `\uXXXX`. -/
def escapeUnit (n : ℕ) : Text :=
  "\\u".toList
    ++ [Nat.digitChar (n / 4096 % 16), Nat.digitChar (n / 256 % 16), Nat.digitChar (n / 16 % 16),
      Nat.digitChar (n % 16)]

/-- A character inside a string. -/
def asciiChar (c : Char) : Text :=
  if c = '"' then "\\\"".toList
  else if c = '\\' then "\\\\".toList
  else if c = '\n' then "\\n".toList
  else if c = '\r' then "\\r".toList
  else if c = '\t' then "\\t".toList
  else if c = '\x0c' then "\\f".toList
  else if c = '\x08' then "\\b".toList
  else if ' ' ≤ c ∧ c ≤ '~' then [c]
  else if c.toNat < 0x10000 then escapeUnit c.toNat
  else
    -- a surrogate pair
    escapeUnit (0xd800 + (c.toNat - 0x10000) / 1024)
      ++ escapeUnit (0xdc00 + (c.toNat - 0x10000) % 1024)

/-- The value of a hexadecimal digit in lower case. -/
def hexValue (c : Char) : ℕ :=
  if c.isDigit then c.toNat - '0'.toNat else c.toNat - 'a'.toNat + 10

/-- The code unit of four digits. -/
def unitValue (a b c d : Char) : ℕ :=
  4096 * hexValue a + 256 * hexValue b + 16 * hexValue c + hexValue d

/-- Reads what follows a high surrogate. -/
def readLow (high : ℕ) : Text → Option (Char × Text)
  | '\\' :: 'u' :: a :: b :: c :: d :: r =>
    some (Char.ofNat (0x10000 + (high - 0xd800) * 1024 + (unitValue a b c d - 0xdc00)), r)
  | _ => none

/-- Reads one character of a string. -/
def readAscii : Text → Option (Char × Text)
  | '\\' :: '"' :: r => some ('"', r)
  | '\\' :: '\\' :: r => some ('\\', r)
  | '\\' :: 'n' :: r => some ('\n', r)
  | '\\' :: 'r' :: r => some ('\r', r)
  | '\\' :: 't' :: r => some ('\t', r)
  | '\\' :: 'f' :: r => some ('\x0c', r)
  | '\\' :: 'b' :: r => some ('\x08', r)
  | '\\' :: 'u' :: a :: b :: c :: d :: r =>
    if 0xd800 ≤ unitValue a b c d ∧ unitValue a b c d < 0xdc00 then
      readLow (unitValue a b c d) r
    else some (Char.ofNat (unitValue a b c d), r)
  | c :: r => some (c, r)
  | [] => none

/-- The digits of an escape tell their values. -/
theorem hexValue_digitChar {d : ℕ} (h : d < 16) : hexValue (Nat.digitChar d) = d := by
  revert d
  decide

/-- The digits of a code unit give its value. -/
theorem exists_unit {n : ℕ} (hn : n < 0x10000) :
    ∃ a b c d, escapeUnit n = ['\\', 'u', a, b, c, d] ∧ unitValue a b c d = n := by
  refine ⟨_, _, _, _, rfl, ?_⟩
  unfold unitValue
  simp only [hexValue_digitChar (Nat.mod_lt _ (by omega : 0 < 16))]
  omega

/-- A code unit that opens no surrogate pair is read alone. -/
theorem readAscii_unit {n : ℕ} (hn : n < 0x10000) (hplain : n < 0xd800 ∨ 0xdc00 ≤ n) (r : Text) :
    readAscii (escapeUnit n ++ r) = some (Char.ofNat n, r) := by
  obtain ⟨a, b, c, d, hunit, hvalue⟩ := exists_unit hn
  rw [hunit]
  show readAscii ('\\' :: 'u' :: a :: b :: c :: d :: r) = _
  rw [readAscii, hvalue, if_neg (by omega)]

/-- The two units of a surrogate pair are read as one character. -/
theorem readAscii_pair {n : ℕ} (hn : n < 0x110000) (hpair : 0x10000 ≤ n) (r : Text) :
    readAscii (escapeUnit (0xd800 + (n - 0x10000) / 1024)
      ++ escapeUnit (0xdc00 + (n - 0x10000) % 1024) ++ r) = some (Char.ofNat n, r) := by
  obtain ⟨a, b, c, d, hhigh, hhighValue⟩ :=
    exists_unit (n := 0xd800 + (n - 0x10000) / 1024) (by omega)
  obtain ⟨a', b', c', d', hlow, hlowValue⟩ :=
    exists_unit (n := 0xdc00 + (n - 0x10000) % 1024) (by omega)
  rw [hhigh, hlow]
  show readAscii ('\\' :: 'u' :: a :: b :: c :: d :: '\\' :: 'u' :: a' :: b' :: c' :: d' :: r) = _
  have hvalue : 0x10000 + (0xd800 + (n - 0x10000) / 1024 - 0xd800) * 1024
      + (0xdc00 + (n - 0x10000) % 1024 - 0xdc00) = n := by
    omega
  rw [readAscii, hhighValue, if_pos (by omega), readLow, hlowValue, hvalue]

/-- What is written for a character is read as that character, whatever follows. -/
theorem readAscii_asciiChar (c : Char) (r : Text) :
    readAscii (asciiChar c ++ r) = some (c, r) := by
  have hchar : c.toNat < 0xd800 ∨ 0xdfff < c.toNat ∧ c.toNat < 0x110000 := c.valid
  unfold asciiChar
  split
  · next h => rw [h]; rfl
  split
  · next h => rw [h]; rfl
  split
  · next h => rw [h]; rfl
  split
  · next h => rw [h]; rfl
  split
  · next h => rw [h]; rfl
  split
  · next h => rw [h]; rfl
  split
  · next h => rw [h]; rfl
  next hback _ _ _ _ _ =>
  split
  · -- only a backslash would be read together with what follows it
    have hplain : ∀ d, d ≠ '\\' → readAscii (d :: r) = some (d, r) := by
      intro d hd
      rw [readAscii] <;> simp [hd]
    exact hplain c hback
  split
  · next hunit =>
    -- one code unit, which is no surrogate
    rw [readAscii_unit hunit (by omega), Char.ofNat_toNat]
  · next hpair =>
    -- above the first plane, a surrogate pair
    rw [readAscii_pair (by omega) (by omega), Char.ofNat_toNat]

/-- So the code of a character can be cut off in front of any text. -/
theorem delimited_asciiChar (c : Char) : Delimited Set.univ asciiChar c :=
  .of_read readAscii (fun c r _ => readAscii_asciiChar c r) c

/-- No code of a character starts like the end of a string. -/
theorem asciiChar_eq_cons (c : Char) : ∃ d t, asciiChar c = d :: t ∧ d ≠ '"' := by
  unfold asciiChar escapeUnit
  by_cases hquote : c = '"'
  · rw [if_pos hquote]
    exact ⟨'\\', _, rfl, by decide⟩
  · rw [if_neg hquote]
    -- the character itself, or an escape
    split_ifs
    all_goals first
      | exact ⟨'\\', _, rfl, by decide⟩
      | exact ⟨c, [], rfl, hquote⟩

/-- A string between quotes. -/
def asciiQuote (s : String) : Text := '"' :: (s.toList.flatMap asciiChar ++ ['"'])

/-- A quoted string can be cut off in front of any text. -/
theorem delimited_asciiQuote (s : String) : Delimited Set.univ asciiQuote s := by
  intro t r r' hr hr' heq
  obtain ⟨hlist, hrest⟩ :=
    ((Delimited.flatMap delimited_asciiChar asciiChar_eq_cons s.toList).cons '"') t.toList r r'
      hr hr' heq
  exact ⟨String.toList_inj.mp hlist, hrest⟩

/-! ## Numbers -/

/-- The characters of a number. -/
def isNumberChar (c : Char) : Bool := c.isDigit || c ∈ ['+', '-', '.', 'e']

/-- The `repr` of a float: the text of a number that is no integer. -/
structure IsFloatText (repr : String) : Prop where
  head : ∃ c t, repr.toList = c :: t ∧ (c = '-' ∨ c.isDigit = true)
  chars : ∀ c ∈ repr.toList, isNumberChar c = true
  not_integer : '.' ∈ repr.toList ∨ 'e' ∈ repr.toList

/-- An integer is written with digits and a sign. -/
theorem isDigit_of_mem_signedDigits {n : ℤ} {c : Char} (h : c ∈ signedDigits n) :
    c = '-' ∨ c.isDigit = true := by
  unfold signedDigits at h
  rcases List.mem_append.mp h with hsign | hdigit
  · split at hsign
    · exact .inl (List.mem_singleton.mp hsign)
    · cases hsign
  · exact .inr (Nat.isDigit_of_mem_toDigits (by omega) (by omega) hdigit)

/-- These are characters of numbers. -/
theorem isNumberChar_of_mem_signedDigits {n : ℤ} : ∀ c ∈ signedDigits n, isNumberChar c = true := by
  intro c hc
  unfold isNumberChar
  rcases isDigit_of_mem_signedDigits hc with rfl | hdigit
  · rfl
  · rw [hdigit, Bool.true_or]

/-- An integer is never written like a float, which has a point or an exponent. -/
theorem signedDigits_ne_floatText {n : ℤ} {repr : String} (h : IsFloatText repr) :
    signedDigits n ≠ repr.toList := by
  intro heq
  have hdot : '.' ∉ signedDigits n := fun hc => by simpa using isDigit_of_mem_signedDigits hc
  have he : 'e' ∉ signedDigits n := fun hc => by simpa using isDigit_of_mem_signedDigits hc
  rw [heq] at hdot he
  exact h.not_integer.elim hdot he

/-! ## Texts -/

mutual

/-- The floats in a value are written with a text that reads back as their value. -/
def WellFormed (readFloat : String → ℚ) : Json → Prop
  | .float value repr => IsFloatText repr ∧ readFloat repr = value
  | .arr items => WellFormedItems readFloat items
  | .obj entries => WellFormedEntries readFloat entries
  | _ => True

/-- All items are well formed. -/
def WellFormedItems (readFloat : String → ℚ) : List Json → Prop
  | [] => True
  | item :: items => WellFormed readFloat item ∧ WellFormedItems readFloat items

/-- All values of the entries are well formed. -/
def WellFormedEntries (readFloat : String → ℚ) : List (String × Json) → Prop
  | [] => True
  | (_, value) :: entries => WellFormed readFloat value ∧ WellFormedEntries readFloat entries

end

mutual

/-- The text of a value, the entries of an object in the order they have. -/
def asciiText : Json → Text
  | .null => "null".toList
  | .bool b => if b then "true".toList else "false".toList
  | .int n => signedDigits n
  | .float _ repr => repr.toList
  | .str s => asciiQuote s
  | .arr items => '[' :: (Text.join ", ".toList (asciiTexts items) ++ [']'])
  | .obj entries => '\x7b' :: (Text.join ", ".toList (asciiEntryTexts entries) ++ ['\x7d'])

/-- The texts of the items. -/
def asciiTexts : List Json → List Text
  | [] => []
  | item :: items => asciiText item :: asciiTexts items

/-- The texts of the entries, each with its key in front. -/
def asciiEntryTexts : List (String × Json) → List Text
  | [] => []
  | (key, value) :: entries =>
    (asciiQuote key ++ ": ".toList ++ asciiText value) :: asciiEntryTexts entries

end

/-- `json.dumps(value, sort_keys=True)`. -/
def dumpsAscii (value : Json) : Text := asciiText (sorted value)

/-- The same, item by item. -/
theorem asciiTexts_eq_map (items : List Json) : asciiTexts items = items.map asciiText := by
  induction items with
  | nil => rfl
  | cons item items ih => rw [asciiTexts, ih, List.map_cons]

/-- The same, entry by entry. -/
theorem asciiEntryTexts_eq_map (entries : List (String × Json)) :
    asciiEntryTexts entries
      = entries.map fun entry => asciiQuote entry.1 ++ ": ".toList ++ asciiText entry.2 := by
  induction entries with
  | nil => rfl
  | cons entry entries ih => rw [asciiEntryTexts, ih, List.map_cons]

variable {readFloat : String → ℚ}

theorem wellFormedItems_iff {items : List Json} :
    WellFormedItems readFloat items ↔ ∀ item ∈ items, WellFormed readFloat item := by
  induction items with
  | nil => simp [WellFormedItems]
  | cons item items ih => rw [WellFormedItems, ih, List.forall_mem_cons]

theorem wellFormedEntries_iff {entries : List (String × Json)} :
    WellFormedEntries readFloat entries ↔ ∀ entry ∈ entries, WellFormed readFloat entry.2 := by
  induction entries with
  | nil => simp [WellFormedEntries]
  | cons entry entries ih => rw [WellFormedEntries, ih, List.forall_mem_cons]

/-! ## Cutting a text off -/

/-- The characters that may follow a value. -/
abbrev stop : Set Char := {c | isNumberChar c = false}

/-- The first character of a text tells the kind of the value; of a number it is a sign or a
digit, for which `0` stands here. -/
def opener : Json → Char
  | .null => 'n'
  | .bool b => if b then 't' else 'f'
  | .int _ => '0'
  | .float _ _ => '0'
  | .str _ => '"'
  | .arr _ => '['
  | .obj _ => '\x7b'

/-- A text is not empty, and its first character tells the kind of the value, with one kind for all
numbers. -/
theorem asciiText_eq_cons {v : Json} (hv : v.WellFormed readFloat) :
    ∃ c t, asciiText v = c :: t ∧ (if c = '-' ∨ c.isDigit = true then '0' else c) = v.opener := by
  cases v with
  | null => exact ⟨'n', _, rfl, rfl⟩
  | bool b =>
    cases b
    · exact ⟨'f', _, rfl, rfl⟩
    · exact ⟨'t', _, rfl, rfl⟩
  | int n =>
    -- a sign or a digit
    obtain ⟨c, t, htext, hc⟩ := signedDigits_eq_cons n
    exact ⟨c, t, htext, if_pos hc⟩
  | float value repr =>
    obtain ⟨c, t, htext, hc⟩ := hv.1.head
    exact ⟨c, t, htext, if_pos hc⟩
  | str s => exact ⟨'"', _, rfl, rfl⟩
  | arr items => exact ⟨'[', _, rfl, rfl⟩
  | obj entries => exact ⟨'\x7b', _, rfl, rfl⟩

/-- No value starts like the end of an array. -/
theorem opener_ne_bracket (v : Json) : v.opener ≠ ']' := by
  cases v <;> grind [opener]

/-- No text starts like the end of a list. -/
theorem asciiText_ne_bracket (v : {v : Json // v.WellFormed readFloat}) :
    ∃ c t, asciiText v.1 = c :: t ∧ c ≠ ']' := by
  obtain ⟨c, t, htext, hc⟩ := asciiText_eq_cons v.2
  refine ⟨c, t, htext, ?_⟩
  rintro rfl
  rw [if_neg (by decide)] at hc
  exact v.1.opener_ne_bracket hc.symm

/-- Two texts that go on to the same text start alike. -/
theorem opener_eq_of_append_eq {v w : Json} (hv : v.WellFormed readFloat)
    (hw : w.WellFormed readFloat) {r r' : Text} (h : asciiText v ++ r = asciiText w ++ r') :
    v.opener = w.opener := by
  obtain ⟨c, t, hcons, hc⟩ := asciiText_eq_cons hv
  obtain ⟨c', t', hcons', hc'⟩ := asciiText_eq_cons hw
  rw [hcons, hcons'] at h
  rw [← hc, ← hc', (List.cons.inj h).1]

/-- Two values whose texts start alike: of one kind, and equal where the start tells it, or both
numbers. -/
inductive SameKind : Json → Json → Prop
  | null : SameKind .null .null
  | bool (b : Bool) : SameKind (.bool b) (.bool b)
  | int (n m : ℤ) : SameKind (.int n) (.int m)
  | intFloat (n : ℤ) (value : ℚ) (repr : String) : SameKind (.int n) (.float value repr)
  | floatInt (value : ℚ) (repr : String) (n : ℤ) : SameKind (.float value repr) (.int n)
  | float (value : ℚ) (repr : String) (value' : ℚ) (repr' : String) :
      SameKind (.float value repr) (.float value' repr')
  | str (s t : String) : SameKind (.str s) (.str t)
  | arr (items items' : List Json) : SameKind (.arr items) (.arr items')
  | obj (entries entries' : List (String × Json)) : SameKind (.obj entries) (.obj entries')

/-- So their values are of the same kind. -/
theorem sameKind_of_append_eq {v w : Json} (hv : v.WellFormed readFloat)
    (hw : w.WellFormed readFloat) {r r' : Text} (h : asciiText v ++ r = asciiText w ++ r') :
    SameKind v w := by
  have hopener := opener_eq_of_append_eq hv hw h
  cases v <;> cases w <;> grind [opener, SameKind]

/-- The values that can be cut off. -/
abbrev WellFormedJson (readFloat : String → ℚ) := {v : Json // v.WellFormed readFloat}

/-- The items of a well-formed array as values with their proofs. -/
theorem exists_items {items : List Json} (h : WellFormedItems readFloat items) :
    ∃ as : List (WellFormedJson readFloat), as.map Subtype.val = items := by
  have hrange : items ∈ Set.range
      (List.map (fun item : WellFormedJson readFloat => item.1)) := by
    rw [Set.range_list_map]
    exact fun item hitem => ⟨⟨item, wellFormedItems_iff.mp h item hitem⟩, rfl⟩
  exact hrange

/-- The entries of a well-formed object as values with their proofs. -/
theorem exists_entries {entries : List (String × Json)} (h : WellFormedEntries readFloat entries) :
    ∃ as : List (String × WellFormedJson readFloat),
      as.map (fun entry => (entry.1, entry.2.1)) = entries := by
  have hrange : entries ∈ Set.range
      (List.map fun entry : String × WellFormedJson readFloat => (entry.1, entry.2.1)) := by
    rw [Set.range_list_map]
    exact fun entry hentry =>
      ⟨(entry.1, ⟨entry.2, wellFormedEntries_iff.mp h entry hentry⟩), rfl⟩
  exact hrange

/-- An array can be cut off if its items can. -/
theorem arr_append_inj {items items' : List Json} (h : WellFormedItems readFloat items)
    (h' : WellFormedItems readFloat items')
    (hitems : ∀ a : WellFormedJson readFloat, a.1 ∈ items →
      Delimited stop (fun w : WellFormedJson readFloat => asciiText w.1) a)
    {r r' : Text} (heq : asciiText (.arr items) ++ r = asciiText (.arr items') ++ r') :
    items = items' ∧ r = r' := by
  obtain ⟨as, rfl⟩ := exists_items h
  obtain ⟨bs, rfl⟩ := exists_items h'
  -- a comma or the bracket ends every item
  have hjoin : Delimited Set.univ (fun as : List (WellFormedJson readFloat) =>
      Text.join ", ".toList (as.map fun w => asciiText w.1) ++ [']']) as :=
    .join (by decide : ',' ∈ stop) (by decide : ']' ∈ stop) (by decide) asciiText_ne_bracket
      (fun a ha => hitems a (List.mem_map.mpr ⟨a, ha, rfl⟩))
  simp only [asciiText, asciiTexts_eq_map, List.map_map, List.cons_append, List.cons.injEq,
    true_and] at heq
  obtain ⟨rfl, hrest⟩ := hjoin bs r r' startsIn_univ startsIn_univ heq
  exact ⟨rfl, hrest⟩

/-- An object is cut off at its closing brace, whatever follows. -/
theorem obj_append_inj {entries entries' : List (String × Json)}
    (h : WellFormedEntries readFloat entries) (h' : WellFormedEntries readFloat entries')
    (hvalues : ∀ a : WellFormedJson readFloat, ∀ key, (key, a.1) ∈ entries →
      Delimited stop (fun w : WellFormedJson readFloat => asciiText w.1) a)
    {r r' : Text} (heq : asciiText (.obj entries) ++ r = asciiText (.obj entries') ++ r') :
    entries = entries' ∧ r = r' := by
  obtain ⟨as, rfl⟩ := exists_entries h
  obtain ⟨bs, rfl⟩ := exists_entries h'
  -- a comma or the brace ends every value
  have hjoin : Delimited Set.univ (fun as : List (String × WellFormedJson readFloat) =>
      Text.join ", ".toList (as.map fun entry =>
        asciiQuote entry.1 ++ ": ".toList ++ asciiText entry.2.1) ++ ['\x7d']) as :=
    .join (by decide : ',' ∈ stop) (by decide : '\x7d' ∈ stop) (by decide)
      (fun _ => ⟨'"', _, rfl, by decide⟩)
      (fun a ha => (delimited_asciiQuote a.1).prod
        (hvalues a.2 a.1 (List.mem_map.mpr ⟨a, ha, rfl⟩)))
  simp only [asciiText, asciiEntryTexts_eq_map, List.map_map, List.cons_append, List.cons.injEq,
    true_and] at heq
  obtain ⟨rfl, hrest⟩ := hjoin bs r r' startsIn_univ startsIn_univ heq
  exact ⟨rfl, hrest⟩

/-- The text of a well-formed value can be cut off in front of a delimiter. -/
theorem delimited_asciiText (v : Json) (hv : v.WellFormed readFloat) :
    Delimited stop (fun w : WellFormedJson readFloat => asciiText w.1) ⟨v, hv⟩ := by
  induction v using Json.induction with
  | null =>
    rintro ⟨w, hw⟩ r r' hr hr' heq
    cases sameKind_of_append_eq hv hw heq with
    | null => exact ⟨rfl, List.append_cancel_left heq⟩
  | bool a =>
    rintro ⟨w, hw⟩ r r' hr hr' heq
    cases sameKind_of_append_eq hv hw heq with
    | bool a => exact ⟨rfl, List.append_cancel_left heq⟩
  | int n =>
    rintro ⟨w, hw⟩ r r' hr hr' heq
    have hchars : ∀ c ∈ asciiText (.int n), isNumberChar c = true :=
      isNumberChar_of_mem_signedDigits
    cases sameKind_of_append_eq hv hw heq with
    | int n m =>
      obtain ⟨htext, hrest⟩ :=
        token_append_inj hchars isNumberChar_of_mem_signedDigits hr hr' heq
      obtain rfl := Delimited.injective delimited_signedDigits htext
      exact ⟨rfl, hrest⟩
    | intFloat n value repr =>
      -- an integer is never written like a float
      obtain ⟨htext, -⟩ := token_append_inj hchars hw.1.chars hr hr' heq
      exact absurd htext (signedDigits_ne_floatText hw.1)
  | float value repr =>
    rintro ⟨w, hw⟩ r r' hr hr' heq
    cases sameKind_of_append_eq hv hw heq with
    | floatInt value repr n =>
      obtain ⟨htext, -⟩ :=
        token_append_inj hv.1.chars isNumberChar_of_mem_signedDigits hr hr' heq
      exact absurd htext.symm (signedDigits_ne_floatText hv.1)
    | float value repr value' repr' =>
      obtain ⟨htext, hrest⟩ := token_append_inj hv.1.chars hw.1.chars hr hr' heq
      obtain rfl := String.toList_inj.mp htext
      obtain rfl : value = value' := hv.2.symm.trans hw.2
      exact ⟨rfl, hrest⟩
  | str s =>
    rintro ⟨w, hw⟩ r r' hr hr' heq
    cases sameKind_of_append_eq hv hw heq with
    | str s t =>
      obtain ⟨rfl, hrest⟩ := delimited_asciiQuote s t r r' startsIn_univ startsIn_univ heq
      exact ⟨rfl, hrest⟩
  | arr items ih =>
    rintro ⟨w, hw⟩ r r' hr hr' heq
    cases sameKind_of_append_eq hv hw heq with
    | arr items items' =>
      obtain ⟨rfl, hrest⟩ := arr_append_inj hv hw (fun a ha => ih a.1 ha a.2) heq
      exact ⟨rfl, hrest⟩
  | obj entries ih =>
    rintro ⟨w, hw⟩ r r' hr hr' heq
    cases sameKind_of_append_eq hv hw heq with
    | obj entries entries' =>
      obtain ⟨rfl, hrest⟩ :=
        obj_append_inj hv hw (fun a key ha => ih (key, a.1) ha a.2) heq
      exact ⟨rfl, hrest⟩

/-! ## Sorted texts -/

/-- Sorting by key keeps the entries. -/
theorem mem_sortByKey {entry : String × Json} {entries : List (String × Json)} :
    entry ∈ sortByKey KeyLe entries ↔ entry ∈ entries :=
  (List.perm_insertionSort _ entries).mem_iff

/-- A sorted value is well formed like the value. -/
theorem wellFormed_sorted {v : Json} (h : v.WellFormed readFloat) :
    (sorted v).WellFormed readFloat := by
  induction v using Json.induction with
  | arr items ih =>
    refine wellFormedItems_iff.mpr fun item hitem => ?_
    rw [sortedItems_eq_map] at hitem
    obtain ⟨item, hmem, rfl⟩ := List.mem_map.mp hitem
    exact ih item hmem (wellFormedItems_iff.mp h item hmem)
  | obj entries ih =>
    refine wellFormedEntries_iff.mpr fun entry hentry => ?_
    rw [mem_sortByKey, sortedValues_eq_map] at hentry
    obtain ⟨entry, hmem, rfl⟩ := List.mem_map.mp hentry
    exact ih entry hmem (wellFormedEntries_iff.mp h entry hmem)
  | _ => exact h

/-- A recorded event: an object with well-formed values. -/
def IsEvent (readFloat : String → ℚ) : Json → Prop
  | .obj entries => WellFormedEntries readFloat entries
  | _ => False

/-- The text of an event can be cut off in front of any text, and determines the event. -/
theorem dumpsAscii_append_inj {v w : Json} (hv : v.IsEvent readFloat) (hw : w.IsEvent readFloat)
    {r r' : Text} (heq : dumpsAscii v ++ r = dumpsAscii w ++ r') : Same v w ∧ r = r' := by
  cases v with
  | obj entries =>
    cases w with
    | obj entries' =>
      have hsorted : (sorted (.obj entries)).WellFormed readFloat := wellFormed_sorted hv
      have hsorted' : (sorted (.obj entries')).WellFormed readFloat := wellFormed_sorted hw
      obtain ⟨hentries, hrest⟩ :=
        obj_append_inj hsorted hsorted' (fun a _ _ => delimited_asciiText a.1 a.2) heq
      exact ⟨same_of_sorted_eq (congrArg Json.obj hentries), hrest⟩
    | _ => cases hw
  | _ => cases hv

/-- The text of an event is not empty. -/
theorem dumpsAscii_ne_nil {v : Json} (hv : v.IsEvent readFloat) : dumpsAscii v ≠ [] := by
  cases v with
  | obj entries => exact List.cons_ne_nil _ _
  | _ => cases hv

/-- The texts of events, without separators, determine the events. -/
theorem forall₂_same_of_flatMap_dumpsAscii {xs ys : List Json}
    (hxs : ∀ v ∈ xs, v.IsEvent readFloat) (hys : ∀ v ∈ ys, v.IsEvent readFloat)
    (heq : xs.flatMap dumpsAscii = ys.flatMap dumpsAscii) : List.Forall₂ Same xs ys := by
  induction xs generalizing ys with
  | nil =>
    cases ys with
    | nil => exact .nil
    | cons w ys =>
      exact absurd (List.append_eq_nil_iff.mp heq.symm).1 (dumpsAscii_ne_nil (hys w (by simp)))
  | cons v xs ih =>
    cases ys with
    | nil => exact absurd (List.append_eq_nil_iff.mp heq).1 (dumpsAscii_ne_nil (hxs v (by simp)))
    | cons w ys =>
      rw [List.flatMap_cons, List.flatMap_cons] at heq
      -- the first event ends where its object does
      obtain ⟨hsame, hrest⟩ := dumpsAscii_append_inj (hxs v (by simp)) (hys w (by simp)) heq
      exact .cons hsame (ih (fun u hu => hxs u (List.mem_cons_of_mem v hu))
        (fun u hu => hys u (List.mem_cons_of_mem w hu)) hrest)

end Json
end ThoriumFrugal.Protocol

import ThoriumFrugal.Cognitia.BrowserObservation
import ThoriumFrugal.Lib.Entries
import ThoriumFrugal.Lib.PrefixCode

/-!
# The JSON text of a value

What the envelopes rely on in `base::JSONWriter`: a text determines the strings of the value
it was written from. `JsonWriter.compact` is such a writer, with the keys of a dictionary in
order and no blanks.
-/

namespace ThoriumFrugal.Cognitia

open Lib

/-! ## Paths -/

namespace Value

/-- The value under a path of keys. -/
def find (v : Value) : List Text → Option Value
  | [] => some v
  | key :: path =>
    match v with
    | .dict entries => (entries.lookup key).bind fun w => w.find path
    | _ => none

/-- `FindStringByDottedPath`. -/
def findString (v : Value) (path : List Text) : Option Text :=
  match v.find path with
  | some (.string s) => some s
  | _ => none

end Value

/-- The writer that `ToJson` calls. -/
structure JsonWriter where
  write : Value → Text
  findString_of_write_eq : ∀ {v w : Value}, write v = write w →
    ∀ path, v.findString path = w.findString path

namespace Value

/-! ## Strings and numbers -/

/-- A digit as it is written in an escape, in upper case. -/
def hexDigit (d : ℕ) : Char :=
  if d < 10 then Nat.digitChar d else Char.ofNat ('A'.toNat + (d - 10))

/-- The value of such a digit. -/
def hexValue (c : Char) : ℕ :=
  if c.isDigit then c.toNat - '0'.toNat else c.toNat - 'A'.toNat + 10

/-- A code unit as `\uXXXX`. -/
def escapeUnit (n : ℕ) : Text :=
  "\\u".toList
    ++ [hexDigit (n / 4096 % 16), hexDigit (n / 256 % 16), hexDigit (n / 16 % 16),
      hexDigit (n % 16)]

/-- `EscapeJSONString` on one character. -/
def escapeChar (c : Char) : Text :=
  if c = '\x08' then "\\b".toList
  else if c = '\x0c' then "\\f".toList
  else if c = '\n' then "\\n".toList
  else if c = '\r' then "\\r".toList
  else if c = '\t' then "\\t".toList
  else if c = '\\' then "\\\\".toList
  else if c = '"' then "\\\"".toList
  else if c.toNat < 32 ∨ c = '<' ∨ c = '\u2028' ∨ c = '\u2029' then escapeUnit c.toNat
  else [c]

/-- Reads one character of a string. -/
def readChar : Text → Option (Char × Text)
  | '\\' :: 'b' :: r => some ('\x08', r)
  | '\\' :: 'f' :: r => some ('\x0c', r)
  | '\\' :: 'n' :: r => some ('\n', r)
  | '\\' :: 'r' :: r => some ('\r', r)
  | '\\' :: 't' :: r => some ('\t', r)
  | '\\' :: '\\' :: r => some ('\\', r)
  | '\\' :: '"' :: r => some ('"', r)
  | '\\' :: 'u' :: a :: b :: c :: d :: r =>
    some
      (Char.ofNat (4096 * hexValue a + 256 * hexValue b + 16 * hexValue c + hexValue d), r)
  | c :: r => some (c, r)
  | [] => none

/-- The digits of an escape tell their values. -/
theorem hexValue_hexDigit {d : ℕ} (h : d < 16) : hexValue (hexDigit d) = d := by
  revert d
  decide

/-- An escaped code unit is read as its character, whatever follows it. -/
theorem readChar_escapeUnit {n : ℕ} (hn : n < 65536) (r : Text) :
    readChar (escapeUnit n ++ r) = some (Char.ofNat n, r) := by
  have hvalue : 4096 * (n / 4096 % 16) + 256 * (n / 256 % 16) + 16 * (n / 16 % 16) + n % 16
      = n := by
    omega
  show readChar ('\\' :: 'u' :: _ :: _ :: _ :: _ :: r) = _
  rw [readChar]
  simp only [hexValue_hexDigit (Nat.mod_lt _ (by omega : 0 < 16)), hvalue]

/-- So is every character, escaped or not. -/
theorem readChar_escapeChar (c : Char) (r : Text) :
    readChar (escapeChar c ++ r) = some (c, r) := by
  unfold escapeChar
  split
  · next h => rw [h]; rfl
  split
  · next h => rw [h]; rfl
  split
  · next h => rw [h]; rfl
  split
  · next h => rw [h]; rfl
  split
  · next h => rw [h]; rfl
  split
  · next h => rw [h]; rfl
  split
  · next h => rw [h]; rfl
  next hback _ =>
  split
  · next h =>
    -- what is written as a single `\u` escape is one code unit
    have hsmall : c.toNat < 65536 := by
      rcases h with h | rfl | rfl | rfl
      · omega
      all_goals decide
    rw [readChar_escapeUnit hsmall, Char.ofNat_toNat]
  · -- only a backslash would be read together with what follows it
    have hplain : ∀ d, d ≠ '\\' → readChar (d :: r) = some (d, r) := by
      intro d hd
      rw [readChar] <;> simp [hd]
    exact hplain c hback

/-- The code of a character can be cut off in front of any text. -/
theorem delimited_escapeChar (c : Char) : Delimited Set.univ escapeChar c :=
  .of_read readChar (fun c r _ => readChar_escapeChar c r) c

/-- No code of a character starts like the end of a string. -/
theorem escapeChar_eq_cons (c : Char) : ∃ d t, escapeChar c = d :: t ∧ d ≠ '"' := by
  unfold escapeChar escapeUnit
  split_ifs with h1 h2 h3 h4 h5 h6 h7
  case neg => exact ⟨c, [], rfl, h7⟩
  all_goals exact ⟨'\\', _, rfl, by decide⟩

/-- A string between quotes. -/
def quote (s : Text) : Text := '"' :: (s.flatMap escapeChar ++ ['"'])

/-- A quoted string can be cut off in front of any text, since its quote ends it. -/
theorem delimited_quote (s : Text) : Delimited Set.univ quote s :=
  (Delimited.flatMap delimited_escapeChar escapeChar_eq_cons s).cons '"'

/-! ## Texts in entry order -/

mutual

/-- The JSON text of a value, the entries of a dictionary in the order they have. -/
def text : Value → Text
  | .bool b => if b then "true".toList else "false".toList
  | .int n => signedDigits n
  | .string s => quote s
  | .dict entries => '\x7b' :: (Text.join ",".toList (entryTexts entries) ++ ['\x7d'])

/-- The texts of the entries, each with its key in front. -/
def entryTexts : List (Text × Value) → List Text
  | [] => []
  | (key, v) :: entries => (quote key ++ ":".toList ++ text v) :: entryTexts entries

end

/-- The text of a key and its value. -/
def entryText (entry : Text × Value) : Text := quote entry.1 ++ ":".toList ++ text entry.2

/-- The same, entry by entry. -/
theorem entryTexts_eq_map (entries : List (Text × Value)) :
    entryTexts entries = entries.map entryText := by
  induction entries with
  | nil => rfl
  | cons entry entries ih => rw [entryTexts, ih, List.map_cons, entryText]

/-- The characters that may follow a value. -/
abbrev stop : Set Char := {c | c.isDigit = false}

/-- The first character of a text tells the kind of the value; of a number it is a sign or a
digit, for which `0` stands here. -/
def opener : Value → Char
  | .bool b => if b then 't' else 'f'
  | .int _ => '0'
  | .string _ => '"'
  | .dict _ => '\x7b'

/-- A text is not empty, and its first character tells the kind of the value. -/
theorem text_eq_cons (v : Value) :
    ∃ c t, text v = c :: t ∧ (if c = '-' ∨ c.isDigit = true then '0' else c) = v.opener := by
  cases v with
  | bool b =>
    cases b
    · exact ⟨'f', _, rfl, rfl⟩
    · exact ⟨'t', _, rfl, rfl⟩
  | int n =>
    obtain ⟨c, t, htext, hc⟩ := signedDigits_eq_cons n
    exact ⟨c, t, htext, if_pos hc⟩
  | string s => exact ⟨'"', _, rfl, rfl⟩
  | dict entries => exact ⟨'\x7b', _, by rw [text], rfl⟩

/-- Two texts that go on to the same text start alike. -/
theorem opener_eq_of_text_append_eq {v w : Value} {r r' : Text}
    (h : text v ++ r = text w ++ r') : v.opener = w.opener := by
  obtain ⟨c, t, hv, hc⟩ := text_eq_cons v
  obtain ⟨d, u, hw, hd⟩ := text_eq_cons w
  rw [hv, hw] at h
  rw [← hc, ← hd, (List.cons.inj h).1]

/-- Two values whose texts start alike: of one kind, and equal where the start tells it. -/
inductive SameKind : Value → Value → Prop
  | bool (b : Bool) : SameKind (.bool b) (.bool b)
  | int (n m : ℤ) : SameKind (.int n) (.int m)
  | string (s t : Text) : SameKind (.string s) (.string t)
  | dict (entries entries' : List (Text × Value)) : SameKind (.dict entries) (.dict entries')

/-- So their values are of the same kind. -/
theorem sameKind_of_text_append_eq {v w : Value} {r r' : Text}
    (h : text v ++ r = text w ++ r') : SameKind v w := by
  have hopener := opener_eq_of_text_append_eq h
  cases v <;> cases w <;> grind [opener, SameKind]

mutual

/-- The text of a value can be cut off in front of a delimiter. The cases follow the kind of the
value, which the first character gives. -/
theorem delimited_text : ∀ v : Value, Delimited stop text v
  | .bool a => by
    intro w r r' hr hr' heq
    cases sameKind_of_text_append_eq heq with
    | bool a => exact ⟨rfl, List.append_cancel_left heq⟩
  | .int n => by
    intro w r r' hr hr' heq
    cases sameKind_of_text_append_eq heq with
    | int n m =>
      obtain ⟨rfl, hrest⟩ := delimited_signedDigits n m r r' hr hr' heq
      exact ⟨rfl, hrest⟩
  | .string s => by
    intro w r r' hr hr' heq
    cases sameKind_of_text_append_eq heq with
    | string s t =>
      obtain ⟨rfl, hrest⟩ := delimited_quote s t r r' startsIn_univ startsIn_univ heq
      exact ⟨rfl, hrest⟩
  | .dict entries => by
    intro w r r' hr hr' heq
    have hentries := delimited_entries entries
    cases sameKind_of_text_append_eq heq with
    | dict entries entries' =>
      simp only [text, entryTexts_eq_map, List.cons_append, List.cons.injEq, true_and] at heq
      -- commas and the brace delimit every entry
      have hjoin : Delimited Set.univ
          (fun es => Text.join ",".toList (es.map entryText) ++ ['\x7d']) entries :=
        .join (by decide : ',' ∈ stop) (by decide : '\x7d' ∈ stop) (by decide)
          (fun _ => ⟨'"', _, rfl, by decide⟩) hentries
      obtain ⟨rfl, hrest⟩ := hjoin entries' r r' startsIn_univ startsIn_univ heq
      exact ⟨rfl, hrest⟩

/-- So can the texts of the entries of a dictionary. -/
theorem delimited_entries : ∀ entries : List (Text × Value),
    ∀ entry ∈ entries, Delimited stop entryText entry
  | [] => by simp
  | (key, v) :: entries => by
    intro entry hentry
    rcases List.mem_cons.mp hentry with rfl | hentry
    · exact (delimited_quote key).prod (delimited_text v)
    · exact delimited_entries entries entry hentry

end

/-- The text tells the value. -/
theorem text_injective : Function.Injective text := Delimited.injective delimited_text

/-! ## Sorted dictionaries -/

/-- The entries in the order of their keys. -/
def sortEntries (entries : List (Text × Value)) : List (Text × Value) :=
  entries.insertionSort fun a b => a.1 ≤ b.1

mutual

/-- The value with the keys of every dictionary in order. -/
def sorted : Value → Value
  | .bool b => .bool b
  | .int n => .int n
  | .string s => .string s
  | .dict entries => .dict (sortEntries (sortedValues entries))

/-- The entries in their order, with sorted values. -/
def sortedValues : List (Text × Value) → List (Text × Value)
  | [] => []
  | (key, v) :: entries => (key, sorted v) :: sortedValues entries

end

/-- The same, entry by entry. -/
theorem sortedValues_eq_map (entries : List (Text × Value)) :
    sortedValues entries = entries.map fun entry => (entry.1, sorted entry.2) := by
  induction entries with
  | nil => rfl
  | cons entry entries ih => rw [sortedValues, ih, List.map_cons]

/-- A key is found in the same entry, with its value sorted. -/
theorem lookup_sortedValues (key : Text) (entries : List (Text × Value)) :
    (sortedValues entries).lookup key = (entries.lookup key).map sorted := by
  rw [sortedValues_eq_map]
  exact lookup_map_value sorted key entries

/-- Sorting the entries changes no lookup. -/
theorem lookup_sortEntries (key : Text) (entries : List (Text × Value)) :
    (sortEntries entries).lookup key = entries.lookup key :=
  lookup_sortByKey (r := (· ≤ ·)) le_refl key entries

/-- Sorting a value sorts what stands under each path. -/
theorem find_sorted (v : Value) (path : List Text) :
    v.sorted.find path = (v.find path).map sorted := by
  induction path generalizing v with
  | nil => rfl
  | cons key path ih =>
    cases v with
    | dict entries =>
      rw [sorted, find, find, lookup_sortEntries, lookup_sortedValues]
      cases entries.lookup key with
      | none => rfl
      | some w => exact ih w
    | _ => rfl

/-- It leaves the strings as they are. -/
theorem findString_sorted (v : Value) (path : List Text) :
    v.sorted.findString path = v.findString path := by
  unfold findString
  rw [find_sorted]
  cases v.find path with
  | none => rfl
  | some w => cases w <;> rfl

/-! ## One line -/

/-- A newline is written as an escape. -/
theorem newline_not_mem_escapeChar (c : Char) : '\n' ∉ escapeChar c := by
  have hhex : ∀ d, d < 16 → '\n' ≠ hexDigit d := by decide
  have hdigit : ∀ n, '\n' ≠ hexDigit (n % 16) := fun n => hhex _ (Nat.mod_lt _ (by omega))
  unfold escapeChar escapeUnit
  split_ifs with h1 h2 h3
  case neg => simpa using Ne.symm h3
  all_goals simp [hdigit]

/-- So no quoted string holds one. -/
theorem newline_not_mem_quote (s : Text) : '\n' ∉ quote s := by
  have hbody : '\n' ∉ s.flatMap escapeChar := fun hmem => by
    obtain ⟨c, -, hc⟩ := List.mem_flatMap.mp hmem
    exact newline_not_mem_escapeChar c hc
  simp [quote, hbody]

/-- Nor does a number. -/
theorem newline_not_mem_signedDigits (n : ℤ) : '\n' ∉ signedDigits n := by
  have hdigits : '\n' ∉ Nat.toDigits 10 n.natAbs := fun hmem =>
    absurd (Nat.isDigit_of_mem_toDigits (by omega) (by omega) hmem) (by decide)
  unfold signedDigits
  split
  · simp [hdigits]
  · simp [hdigits]

mutual

/-- Control characters are escaped and nothing is indented. -/
theorem newline_not_mem_text : ∀ v : Value, '\n' ∉ text v
  | .bool b => by cases b <;> simp [text]
  | .int n => by
    rw [text]
    exact newline_not_mem_signedDigits n
  | .string s => by
    rw [text]
    exact newline_not_mem_quote s
  | .dict entries => by
    -- the entries hold no newline, nor do the commas between them
    have hjoin : '\n' ∉ Text.join ",".toList (entryTexts entries) :=
      Text.not_mem_join (by decide) (newline_not_mem_entryTexts entries)
    rw [text, List.mem_cons, List.mem_append, List.mem_singleton]
    rintro (hopen | hbody | hclose)
    · exact absurd hopen (by decide)
    · exact hjoin hbody
    · exact absurd hclose (by decide)

/-- Nor does an entry. -/
theorem newline_not_mem_entryTexts :
    ∀ entries : List (Text × Value), ∀ t ∈ entryTexts entries, '\n' ∉ t
  | [] => by simp [entryTexts]
  | (key, v) :: entries => by
    intro t ht
    rw [entryTexts] at ht
    rcases List.mem_cons.mp ht with rfl | ht
    · simp [newline_not_mem_quote key, newline_not_mem_text v]
    · exact newline_not_mem_entryTexts entries t ht

end

end Value

/-- The keys in order, no blanks. -/
def JsonWriter.compact : JsonWriter where
  write := fun v => v.sorted.text
  findString_of_write_eq := by
    intro v w h path
    rw [← v.findString_sorted, Value.text_injective h, w.findString_sorted]

/-- A writer that keeps every text on one line. -/
structure LineWriter extends JsonWriter where
  newline_not_mem_write : ∀ v, '\n' ∉ write v

/-- The compact writer is one: a newline in a string is written as an escape, and it writes no other
blanks. -/
def LineWriter.compact : LineWriter :=
  { JsonWriter.compact with newline_not_mem_write := fun v => Value.newline_not_mem_text v.sorted }

end ThoriumFrugal.Cognitia

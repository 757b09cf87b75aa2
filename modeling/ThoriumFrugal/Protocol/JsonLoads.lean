import ThoriumFrugal.Protocol.ReplayHarness

/-!
# Reading JSON texts

`json.loads` as `json/decoder.py` and `json/scanner.py` define it, and `MessageEnvelope.from_json`.
A `JSONDecodeError` is a `ValueError`. As in decoding the result is none for a value that no `Json`
stands for: a string with half a surrogate pair, `NaN` and the infinities.
-/

namespace ThoriumFrugal.Protocol

open Lib

namespace Json

open MessageEnvelope (Decode fail)

/-- `float(text)`, with the `repr` of the result; none for an infinity. -/
abbrev ReadFloat := Text → Option (ℚ × String)

/-- A value that the model has not. -/
def outside {α : Type} : Decode α := ExceptT.lift none

/-! ## Blanks -/

/-- `WHITESPACE` of the decoder. -/
def isBlank (c : Char) : Bool := c ∈ [' ', '\t', '\n', '\r']

/-- The text from its first character that is no blank on. -/
def skipBlanks (s : Text) : Text := s.dropWhile isBlank

/-! ## Strings -/

/-- The value of a hexadecimal digit, in either letter case. -/
def hexDigit? (c : Char) : Option ℕ :=
  if c.isDigit then some (c.toNat - '0'.toNat)
  else if 'a' ≤ c ∧ c ≤ 'f' then some (c.toNat - 'a'.toNat + 10)
  else if 'A' ≤ c ∧ c ≤ 'F' then some (c.toNat - 'A'.toNat + 10)
  else none

/-- `_decode_uXXXX`: the code unit of four hexadecimal digits, and what follows them. -/
def decodeUnit : Text → Decode (ℕ × Text)
  | a :: b :: c :: d :: r =>
    match hexDigit? a, hexDigit? b, hexDigit? c, hexDigit? d with
    | some a, some b, some c, some d => pure (4096 * a + 256 * b + 16 * c + d, r)
    | _, _, _, _ => fail .valueError
  | _ => fail .valueError

/-- The character behind `\u`: a code unit, or a surrogate pair. -/
def decodeUnicode (r : Text) : Decode (Char × Text) := do
  let (uni, r) ← decodeUnit r
  if 0xd800 ≤ uni ∧ uni ≤ 0xdbff then
    match r with
    | '\\' :: 'u' :: r => do
      let (uni2, r) ← decodeUnit r
      if 0xdc00 ≤ uni2 ∧ uni2 ≤ 0xdfff then
        return (Char.ofNat (0x10000 + (uni - 0xd800) * 1024 + (uni2 - 0xdc00)), r)
      else outside
    | _ => outside
  else if 0xdc00 ≤ uni ∧ uni ≤ 0xdfff then outside
  else return (Char.ofNat uni, r)

/-- `BACKSLASH`. -/
def unescape (c : Char) : Option Char :=
  [('"', '"'), ('\\', '\\'), ('/', '/'), ('b', '\x08'), ('f', '\x0c'), ('n', '\n'), ('r', '\r'),
    ('t', '\t')].lookup c

/-- Reads a character inside of a string, which does not close it. -/
def readChar (c : Char) (r : Text) : Decode (Char × Text) :=
  if c = '\\' then
    match r with
    | [] => fail .valueError
    | esc :: r =>
      if esc = 'u' then decodeUnicode r
      else
        match unescape esc with
        | some c => pure (c, r)
        | none => fail .valueError
  else if c.toNat < 32 then fail .valueError
  else pure (c, r)

/-- The loop of `scanstring`; every round reads a character, so the length of the text bounds the
rounds. -/
def scanChars : ℕ → Text → Decode (Text × Text)
  | _, [] => fail .valueError
  | 0, _ => outside
  | rounds + 1, c :: r =>
    if c = '"' then pure ([], r)
    else do
      let (c, r) ← readChar c r
      let (t, rest) ← scanChars rounds r
      return (c :: t, rest)

/-- `scanstring`, behind the opening quote. -/
def scanString (s : Text) : Decode (Text × Text) := scanChars s.length s

/-! ## Numbers -/

/-- `0` or digits that do not begin with it. -/
def scanNatural : Text → Option (Text × Text)
  | '0' :: r => some (['0'], r)
  | c :: r =>
    if c.isDigit then some (c :: r.takeWhile Char.isDigit, r.dropWhile Char.isDigit) else none
  | [] => none

/-- `-?(?:0|[1-9]\d*)`. -/
def scanInteger : Text → Option (Text × Text)
  | '-' :: r => (scanNatural r).map fun (t, r) => ('-' :: t, r)
  | s => scanNatural s

/-- `(\.\d+)?`. -/
def scanFraction : Text → Text × Text
  | '.' :: r =>
    if r.takeWhile Char.isDigit = [] then ([], '.' :: r)
    else ('.' :: r.takeWhile Char.isDigit, r.dropWhile Char.isDigit)
  | s => ([], s)

/-- `[-+]?`. -/
def scanSign : Text → Text × Text
  | '-' :: r => (['-'], r)
  | '+' :: r => (['+'], r)
  | s => ([], s)

/-- `([eE][-+]?\d+)?`. -/
def scanExponent : Text → Text × Text
  | [] => ([], [])
  | c :: r =>
    if c = 'e' ∨ c = 'E' then
      let (sign, digits) := scanSign r
      if digits.takeWhile Char.isDigit = [] then ([], c :: r)
      else (c :: (sign ++ digits.takeWhile Char.isDigit), digits.dropWhile Char.isDigit)
    else ([], c :: r)

/-- `int(text)` of a sign and digits. -/
def intOf : Text → ℤ
  | '-' :: t => -(Nat.ofDigitChars 10 t 0 : ℤ)
  | t => (Nat.ofDigitChars 10 t 0 : ℤ)

/-- The number in front of a text. -/
def scanNumber (readFloat : ReadFloat) (s : Text) : Option (Decode (Json × Text)) :=
  (scanInteger s).map fun (integer, r) =>
    let (frac, r) := scanFraction r
    let (exp, r) := scanExponent r
    if frac = [] ∧ exp = [] then pure (.int (intOf integer), r)
    else
      match readFloat (integer ++ frac ++ exp) with
      | some (value, repr) => pure (.float value repr, r)
      | none => outside

/-! ## Values -/

/-- `dict(pairs)`: a key keeps its place and takes the last value. -/
def setItem (entries : List (String × Json)) (key : String) (value : Json) :
    List (String × Json) :=
  if hasKey entries key then entries.map fun entry => if entry.1 = key then (key, value) else entry
  else entries ++ [(key, value)]

/-- The dictionary of the pairs in the order in which they are read: a later value replaces an
earlier one of the same key, in its place. -/
def dictOf (pairs : List (String × Json)) : List (String × Json) :=
  pairs.foldl (fun entries pair => setItem entries pair.1 pair.2) []

variable (readFloat : ReadFloat)

/-- `null`, `true`, `false` or a number. -/
def scanAtom (s : Text) : Decode (Json × Text) :=
  if "null".toList.isPrefixOf s then pure (.null, s.drop 4)
  else if "true".toList.isPrefixOf s then pure (.bool true, s.drop 4)
  else if "false".toList.isPrefixOf s then pure (.bool false, s.drop 5)
  else
    match scanNumber readFloat s with
    | some result => result
    | none =>
      if "NaN".toList.isPrefixOf s ∨ "Infinity".toList.isPrefixOf s
          ∨ "-Infinity".toList.isPrefixOf s then outside
      else fail .valueError

mutual

/-- `scan_once`. -/
def scanOnce : ℕ → Text → Decode (Json × Text)
  | 0, _ => outside
  | _ + 1, '"' :: r => do
    let (t, rest) ← scanString r
    return (.str (String.ofList t), rest)
  | rounds + 1, '[' :: r =>
    match skipBlanks r with
    | ']' :: rest => pure (.arr [], rest)
    | r => do
      let (items, rest) ← scanItems rounds r
      return (.arr items, rest)
  | rounds + 1, '\x7b' :: r =>
    match skipBlanks r with
    | '\x7d' :: rest => pure (.obj [], rest)
    | '"' :: r => do
      let (pairs, rest) ← scanPairs rounds r
      return (.obj (dictOf pairs), rest)
    | _ => fail .valueError
  | _ + 1, s => scanAtom readFloat s

/-- The loop of `JSONArray`. -/
def scanItems : ℕ → Text → Decode (List Json × Text)
  | 0, _ => outside
  | rounds + 1, s => do
    let (item, r) ← scanOnce rounds s
    match skipBlanks r with
    | ']' :: rest => return ([item], rest)
    | ',' :: r => do
      let (items, rest) ← scanItems rounds (skipBlanks r)
      return (item :: items, rest)
    | _ => fail .valueError

/-- The loop of `JSONObject`, behind the quote of a key. -/
def scanPairs : ℕ → Text → Decode (List (String × Json) × Text)
  | 0, _ => outside
  | rounds + 1, s => do
    let (key, r) ← scanString s
    match skipBlanks r with
    | ':' :: r => do
      let (value, r) ← scanOnce rounds (skipBlanks r)
      match skipBlanks r with
      | '\x7d' :: rest => return ([(String.ofList key, value)], rest)
      | ',' :: r =>
        match skipBlanks r with
        | '"' :: r => do
          let (pairs, rest) ← scanPairs rounds r
          return ((String.ofList key, value) :: pairs, rest)
        | _ => fail .valueError
      | _ => fail .valueError
    | _ => fail .valueError

end

/-- Rounds that no text uses up: two for each character. -/
def roundsFor (s : Text) : ℕ := 2 * s.length + 2

/-- `json.loads(text)`. -/
def loads (s : Text) : Decode Json :=
  if s.head? = some '\ufeff' then fail .valueError
  else do
    let (value, rest) ← scanOnce readFloat (roundsFor s) (skipBlanks s)
    if skipBlanks rest = [] then return value else fail .valueError

/-! ## Rounds -/

section Rounds

variable {readFloat : ReadFloat} {s : Text} {n m : ℕ}

/-- What a decoder returns, if it does. -/
def Yields {α : Type} (P : α → Prop) (x : Decode α) : Prop := ∀ a, x = pure a → P a

namespace Yields

variable {α β : Type} {P : α → Prop} {Q : β → Prop} {x : Decode α} {f g : α → Decode β}

/-- A result that is given at once. -/
theorem pure {a : α} (h : P a) : Yields P (Pure.pure a) := by
  intro b heq
  cases heq
  exact h

/-- An exception yields no value. -/
theorem fail {err : PyError} : Yields P (MessageEnvelope.fail err) := nofun

/-- A value outside the model yields none either. -/
theorem outside : Yields P Json.outside := nofun

/-- A weaker property holds of the same values. -/
theorem mono {P' : α → Prop} (h : Yields P x) (himp : ∀ a, P a → P' a) : Yields P' x :=
  fun a heq => himp a (h a heq)

/-- What the first part yields is what the second part starts from. -/
theorem bind (h : Yields P x) (hf : ∀ a, P a → Yields Q (f a)) : Yields Q (x >>= f) := by
  match x, h with
  | none, _ => exact nofun
  | some (.error err), _ => exact nofun
  | some (.ok a), h => exact hf a (h a rfl)

/-- Two second parts that agree on what the first part yields give the same. -/
theorem bind_congr (h : Yields P x) (hfg : ∀ a, P a → f a = g a) : x >>= f = x >>= g := by
  match x, h with
  | none, _ => rfl
  | some (.error err), _ => rfl
  | some (.ok a), h => exact hfg a (h a rfl)

end Yields

/-- A read that succeeds leaves at most `n` characters. -/
def Leaves {α : Type} (x : Decode (α × Text)) (n : ℕ) : Prop :=
  Yields (fun p => p.2.length ≤ n) x

namespace Leaves

variable {α β : Type} {x : Decode (α × Text)} {f g : α × Text → Decode (β × Text)}

theorem pure {a : α} {rest : Text} (h : rest.length ≤ n) :
    Leaves (Pure.pure (a, rest) : Decode (α × Text)) n := Yields.pure h

theorem fail {err : PyError} : Leaves (MessageEnvelope.fail err : Decode (α × Text)) n :=
  Yields.fail

theorem outside : Leaves (Json.outside : Decode (α × Text)) n := Yields.outside

theorem mono (h : Leaves x n) (hle : n ≤ m) : Leaves x m := Yields.mono h fun _ hp => hp.trans hle

/-- What comes next reads what is left. -/
theorem bind (h : Leaves x n) (hf : ∀ a rest, rest.length ≤ n → Leaves (f (a, rest)) m) :
    Leaves (x >>= f) m := Yields.bind h fun p hp => hf p.1 p.2 hp

theorem bind_congr (h : Leaves x n) (hfg : ∀ a rest, rest.length ≤ n → f (a, rest) = g (a, rest)) :
    x >>= f = x >>= g := Yields.bind_congr h fun p hp => hfg p.1 p.2 hp

end Leaves

/-- Skipping blanks never makes a text longer. -/
theorem length_skipBlanks (s : Text) : (skipBlanks s).length ≤ s.length :=
  (List.dropWhile_sublist _).length_le

/-- Four digits are read, or nothing is left. -/
theorem leaves_decodeUnit (s : Text) : Leaves (decodeUnit s) s.length := by
  unfold decodeUnit
  split
  · split
    · exact .pure (by simp only [List.length_cons]; omega)
    · exact .fail
  · exact .fail

/-- A unit or a pair of units is read. -/
theorem leaves_decodeUnicode (r : Text) : Leaves (decodeUnicode r) r.length := by
  unfold decodeUnicode
  refine (leaves_decodeUnit r).bind fun uni rest hrest => ?_
  simp only
  split
  · -- behind a high surrogate the low one is read too
    split
    · next low =>
      refine (leaves_decodeUnit low).bind fun uni2 rest2 hrest2 => ?_
      simp only [List.length_cons] at hrest ⊢
      split
      · exact .pure (by omega)
      · exact .outside
    · exact .outside
  · -- a low surrogate alone is outside the model
    split
    · exact .outside
    · exact .pure hrest

/-- An escape is read, or the character itself. -/
theorem leaves_readChar (c : Char) (r : Text) : Leaves (readChar c r) r.length := by
  unfold readChar
  split
  · -- a backslash opens an escape
    split
    · exact .fail
    · next esc r =>
      split
      · exact (leaves_decodeUnicode r).mono (by simp)
      · split
        · exact .pure (by simp)
        · exact .fail
  · -- a control character is refused
    split
    · exact .fail
    · exact .pure le_rfl

/-- A string ends at its quote, which is read. -/
theorem leaves_scanChars (n : ℕ) (s : Text) : Leaves (scanChars n s) (s.length - 1) := by
  induction n generalizing s with
  | zero =>
    cases s with
    | nil => exact .fail
    | cons c r => exact .outside
  | succ n ih =>
    cases s with
    | nil => exact .fail
    | cons c r =>
      rw [scanChars]
      split
      · exact .pure (by simp)
      · refine (leaves_readChar c r).bind fun c' rest hrest => ?_
        -- the characters behind the first one
        refine (ih rest).bind fun t rest' hrest' => ?_
        exact .pure (by simp only [List.length_cons]; omega)

/-- The length of the text bounds the rounds of a string. -/
theorem scanChars_succ (h : s.length ≤ n) : scanChars n s = scanChars (n + 1) s := by
  induction n generalizing s with
  | zero =>
    rw [List.length_eq_zero_iff.mp (by omega : s.length = 0)]
    rfl
  | succ n ih =>
    cases s with
    | nil => rfl
    | cons c r =>
      rw [List.length_cons] at h
      rw [scanChars, scanChars]
      split
      · rfl
      · refine (leaves_readChar c r).bind_congr fun c' rest hrest => ?_
        simp only
        rw [ih (by omega)]

/-- The rest of a string is shorter by its quote. -/
theorem leaves_scanString (s : Text) : Leaves (scanString s) (s.length - 1) :=
  leaves_scanChars s.length s

/-- A number without its sign has a digit at least. -/
theorem length_scanNatural {t rest : Text} (h : scanNatural s = some (t, rest)) :
    rest.length < s.length := by
  unfold scanNatural at h
  split at h
  · obtain ⟨-, rfl⟩ := Prod.mk.inj (Option.some.inj h)
    simp
  · split at h
    · obtain ⟨-, rfl⟩ := Prod.mk.inj (Option.some.inj h)
      exact Nat.lt_succ_of_le (List.dropWhile_sublist _).length_le
    · cases h
  · cases h

/-- So has one with its sign. -/
theorem length_scanInteger {t rest : Text} (h : scanInteger s = some (t, rest)) :
    rest.length < s.length := by
  unfold scanInteger at h
  split at h
  · rw [Option.map_eq_some_iff] at h
    obtain ⟨⟨t', rest'⟩, hnat, heq⟩ := h
    obtain ⟨-, rfl⟩ := Prod.mk.inj heq
    have hlt := length_scanNatural hnat
    rw [List.length_cons]
    omega
  · exact length_scanNatural h

/-- A fraction may be missing, and then all is left. -/
theorem length_scanFraction (s : Text) : (scanFraction s).2.length ≤ s.length := by
  unfold scanFraction
  split
  · split
    · exact le_rfl
    · exact ((List.dropWhile_sublist _).length_le).trans (Nat.le_succ _)
  · exact le_rfl

theorem length_scanSign (s : Text) : (scanSign s).2.length ≤ s.length := by
  unfold scanSign
  split
  · simp
  · simp
  · exact le_rfl

theorem length_scanExponent (s : Text) : (scanExponent s).2.length ≤ s.length := by
  unfold scanExponent
  split
  · exact le_rfl
  · next c r =>
    have hsign := length_scanSign r
    have hdigits : ((scanSign r).2.dropWhile Char.isDigit).length ≤ (scanSign r).2.length :=
      (List.dropWhile_sublist _).length_le
    split
    · -- without a digit behind it the `e` is left
      simp only
      split
      · exact le_rfl
      · simp only [List.length_cons]
        omega
    · exact le_rfl

/-- A number has an integer part at least. -/
theorem leaves_scanNumber {result : Decode (Json × Text)}
    (h : scanNumber readFloat s = some result) : Leaves result (s.length - 1) := by
  unfold scanNumber at h
  rw [Option.map_eq_some_iff] at h
  obtain ⟨⟨integer, r⟩, hinteger, rfl⟩ := h
  have hlt := length_scanInteger hinteger
  have hfrac := length_scanFraction r
  have hexp := length_scanExponent (scanFraction r).2
  simp only
  -- with neither a fraction nor an exponent it is an integer
  split
  · exact .pure (by omega)
  · split
    · exact .pure (by omega)
    · exact .outside

/-- A value that is neither an array nor an object takes a character at least. -/
theorem leaves_scanAtom (s : Text) : Leaves (scanAtom readFloat s) (s.length - 1) := by
  unfold scanAtom
  split
  · exact .pure (by rw [List.length_drop]; omega)
  split
  · exact .pure (by rw [List.length_drop]; omega)
  split
  · exact .pure (by rw [List.length_drop]; omega)
  split
  · next h => exact leaves_scanNumber h
  split
  · exact .outside
  · exact .fail

/-- Reading a value, the items of a list or the entries of an object takes at least one
character. -/
theorem leaves_scan (readFloat : ReadFloat) (n : ℕ) :
    (∀ s, Leaves (scanOnce readFloat n s) (s.length - 1))
      ∧ (∀ s, Leaves (scanItems readFloat n s) (s.length - 1))
      ∧ ∀ s, Leaves (scanPairs readFloat n s) (s.length - 1) := by
  -- one round of each scanner, from those of the scanners that it calls
  induction n with
  | zero => exact ⟨fun _ => .outside, fun _ => .outside, fun _ => .outside⟩
  | succ n ih =>
    obtain ⟨honce, hitems, hpairs⟩ := ih
    refine ⟨fun s => ?_, fun s => ?_, fun s => ?_⟩
    · unfold scanOnce
      split
      · next heq => cases heq
      · -- a string
        next r _ =>
        refine (leaves_scanString r).bind fun t rest hrest => .pure ?_
        rw [List.length_cons]
        omega
      · -- an array, empty or not
        next rounds r heq =>
        obtain rfl := Nat.succ.inj heq
        have hskip := length_skipBlanks r
        split
        · next rest hskipped =>
          rw [hskipped] at hskip
          simp only [List.length_cons] at hskip
          exact .pure (by simp only [List.length_cons]; omega)
        · refine (hitems _).bind fun items rest hrest => .pure ?_
          rw [List.length_cons]
          omega
      · -- an object, empty or not
        next rounds r heq =>
        obtain rfl := Nat.succ.inj heq
        have hskip := length_skipBlanks r
        split
        · next rest hskipped =>
          rw [hskipped] at hskip
          simp only [List.length_cons] at hskip
          exact .pure (by simp only [List.length_cons]; omega)
        · next rest hskipped =>
          rw [hskipped] at hskip
          simp only [List.length_cons] at hskip
          refine (hpairs rest).bind fun pairs rest' hrest' => .pure ?_
          rw [List.length_cons]
          omega
        · exact .fail
      · exact leaves_scanAtom _
    · -- the items: behind one stand the bracket or a comma and more
      rw [scanItems]
      refine (honce s).bind fun item r hr => ?_
      have hskip := length_skipBlanks r
      simp only
      split
      · next rest hskipped =>
        rw [hskipped] at hskip
        simp only [List.length_cons] at hskip
        exact .pure (by omega)
      · next rest hskipped =>
        rw [hskipped] at hskip
        simp only [List.length_cons] at hskip
        have hskip' := length_skipBlanks rest
        refine (hitems _).bind fun items rest' hrest' => .pure ?_
        simp only
        omega
      · exact .fail
    · -- the pairs: behind a key stand the colon, its value, and the brace or a comma and more
      rw [scanPairs]
      refine (leaves_scanString s).bind fun key r hr => ?_
      have hskip := length_skipBlanks r
      simp only
      split
      · next rest hskipped =>
        rw [hskipped] at hskip
        simp only [List.length_cons] at hskip
        have hskip' := length_skipBlanks rest
        refine (honce _).bind fun value r' hr' => ?_
        have hskip'' := length_skipBlanks r'
        simp only
        split
        · next rest' hskipped' =>
          rw [hskipped'] at hskip''
          simp only [List.length_cons] at hskip''
          exact .pure (by omega)
        · next rest' hskipped' =>
          rw [hskipped'] at hskip''
          simp only [List.length_cons] at hskip''
          have hlast := length_skipBlanks rest'
          split
          · next rest'' hskipped'' =>
            rw [hskipped''] at hlast
            simp only [List.length_cons] at hlast
            refine (hpairs rest'').bind fun pairs final hfinal => .pure ?_
            simp only
            omega
          · exact .fail
        · exact .fail
      · exact .fail

/-- Two rounds for each character are enough: more of them change nothing. -/
theorem scan_succ (readFloat : ReadFloat) (n : ℕ) :
    (∀ s, 2 * s.length < n → scanOnce readFloat n s = scanOnce readFloat (n + 1) s)
      ∧ (∀ s, 2 * s.length + 1 < n → scanItems readFloat n s = scanItems readFloat (n + 1) s)
      ∧ ∀ s, 2 * s.length + 1 < n → scanPairs readFloat n s = scanPairs readFloat (n + 1) s := by
  induction n with
  | zero => exact ⟨by omega, by omega, by omega⟩
  | succ n ih =>
    obtain ⟨honce, hitems, hpairs⟩ := ih
    -- every call is on what the part before it left, a shorter text
    obtain ⟨leavesOnce, leavesItems, leavesPairs⟩ := leaves_scan readFloat n
    refine ⟨fun s hs => ?_, fun s hs => ?_, fun s hs => ?_⟩
    · by_cases hlist : ∃ r, s = '[' :: r
      · obtain ⟨r, rfl⟩ := hlist
        have hskip := length_skipBlanks r
        rw [List.length_cons] at hs
        rw [scanOnce, scanOnce]
        split
        · rfl
        · rw [hitems _ (by omega)]
      by_cases hdict : ∃ r, s = '\x7b' :: r
      · obtain ⟨r, rfl⟩ := hdict
        have hskip := length_skipBlanks r
        rw [List.length_cons] at hs
        rw [scanOnce, scanOnce]
        split
        · rfl
        · next rest hskipped =>
          rw [hskipped, List.length_cons] at hskip
          rw [hpairs rest (by omega)]
        · rfl
      by_cases hstring : ∃ r, s = '"' :: r
      · obtain ⟨r, rfl⟩ := hstring
        rfl
      · -- no other first character opens a part that takes a round
        have hatom : ∀ k, scanOnce readFloat (k + 1) s = scanAtom readFloat s := by
          intro k
          rw [scanOnce]
          · exact fun r h => hstring ⟨r, h⟩
          · exact fun r h => hlist ⟨r, h⟩
          · exact fun r h => hdict ⟨r, h⟩
        rw [hatom, hatom]
    · rw [scanItems, scanItems, ← honce s (by omega)]
      refine (leavesOnce s).bind_congr fun item r hr => ?_
      have hskip := length_skipBlanks r
      simp only
      split
      · rfl
      · next rest hskipped =>
        rw [hskipped, List.length_cons] at hskip
        have hskip' := length_skipBlanks rest
        rw [hitems _ (by omega)]
      · rfl
    · rw [scanPairs, scanPairs]
      refine (leaves_scanString s).bind_congr fun key r hr => ?_
      have hskip := length_skipBlanks r
      simp only
      split
      · next rest hskipped =>
        rw [hskipped, List.length_cons] at hskip
        have hskip' := length_skipBlanks rest
        rw [← honce _ (by omega)]
        refine (leavesOnce _).bind_congr fun value r' hr' => ?_
        have hskip'' := length_skipBlanks r'
        simp only
        split
        · rfl
        · next rest' hskipped' =>
          rw [hskipped', List.length_cons] at hskip''
          have hlast := length_skipBlanks rest'
          split
          · next rest'' hskipped'' =>
            rw [hskipped'', List.length_cons] at hlast
            rw [hpairs rest'' (by omega)]
          · rfl
        · rfl
      · rfl

/-- The rounds of `loads` do not run out. -/
theorem scanOnce_roundsFor (h : roundsFor s ≤ n) :
    scanOnce readFloat n s = scanOnce readFloat (roundsFor s) s := by
  unfold roundsFor at h ⊢
  induction n, h using Nat.le_induction with
  | base => rfl
  | succ n hn ih => rw [← (scan_succ readFloat n).1 s (by omega), ih]

end Rounds

end Json

/-- `MessageEnvelope.from_json`, for texts without `NaN`, infinities and lone surrogates, and with
fields of the declared types; on others, of which Python accepts some, the result is none. -/
def MessageEnvelope.fromJson (readFloat : Json.ReadFloat) (jsonStr : Text) :
    MessageEnvelope.Decode MessageEnvelope := do
  fromDict (← Json.loads readFloat jsonStr)

end ThoriumFrugal.Protocol

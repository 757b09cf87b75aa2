import ThoriumFrugal.Lib.Digits
import ThoriumFrugal.Lib.Text

/-!
# Python's ISO 8601 date-times

`datetime.isoformat` of a UTC time, and what `datetime.fromisoformat` accepts: calendar and
week dates, an optional time with fraction and offset, in the basic and the extended form.
The parser follows the positions of CPython's on ASCII texts: `charAt` reads a string that ends in
NUL, and a time is parsed up to the position `stop` of its offset.
-/

namespace ThoriumFrugal.Protocol

open Lib

namespace IsoFormat

/-! ## The calendar -/

/-- The leap years of the Gregorian calendar. -/
def isLeap (year : ℕ) : Bool := year % 4 = 0 ∧ (year % 100 ≠ 0 ∨ year % 400 = 0)

/-- The number of days of a month. -/
def daysInMonth (year month : ℕ) : ℕ :=
  if month = 2 then if isLeap year then 29 else 28
  else if month = 4 ∨ month = 6 ∨ month = 9 ∨ month = 11 then 30
  else 31

/-- The ordinal of the first of January. -/
def firstOrdinal (year : ℕ) : ℕ :=
  let y := year - 1
  y * 365 + y / 4 - y / 100 + y / 400 + 1

/-- Day of the week of the first of January, Monday first. -/
def firstWeekday (year : ℕ) : ℕ := (firstOrdinal year + 6) % 7

/-- The ordinal of the last day of the year 9999. -/
def maxOrdinal : ℕ := 3652059

/-- The ranges of year, month and day. -/
def validDate (year month day : ℕ) : Bool :=
  1 ≤ year ∧ year ≤ 9999 ∧ 1 ≤ month ∧ month ≤ 12 ∧ 1 ≤ day ∧ day ≤ daysInMonth year month

/-- Week dates: a week 53 only in the years that have one, and no day past the year 9999. -/
def validWeekDate (year week day : ℕ) : Bool :=
  let longYear := firstWeekday year = 3 ∨ (firstWeekday year = 2 ∧ isLeap year)
  let week1Monday :=
    firstOrdinal year - firstWeekday year + if firstWeekday year > 3 then 7 else 0
  1 ≤ year ∧ 1 ≤ week ∧ (week < 53 ∨ (week = 53 ∧ longYear)) ∧ 1 ≤ day ∧ day ≤ 7
    ∧ week1Monday + (week - 1) * 7 + (day - 1) ≤ maxOrdinal

/-- The ranges of hour, minute and second. -/
def validTime (hour minute second : ℕ) : Bool := hour < 24 ∧ minute < 60 ∧ second < 60

/-! ## Parsing -/

/-- The character at a position, NUL behind the end. -/
def charAt (s : Text) (pos : ℕ) : Char := s.getD pos '\x00'

/-- The number that `n` decimal digits at a position denote. -/
def digitsAt (s : Text) (pos n : ℕ) : Option ℕ :=
  let digits := Text.substr s pos n
  if digits.length = n then Digits.ofDigits 10 digits else none

/-- A digit stands at the position. -/
def isDigitAt (s : Text) (pos : ℕ) : Bool := (digitsAt s pos 1).isSome

/-- Where the date ends: at the separator before the time, or at the end of the string. -/
def findSeparator (s : Text) : ℕ :=
  if s.length = 7 then 7
  else if charAt s 4 = '-' then
    if charAt s 5 = 'W' then
      if charAt s 8 = '-' then if isDigitAt s 10 then 8 else 10 else 8
    else 10
  else if charAt s 4 = 'W' then
    -- `YYYYWww` with or without a day: the parity of the digits tells which
    let digits := (s.drop 7).findIdx fun c => !(48 ≤ c.toNat && c.toNat ≤ 57)
    if 7 + digits < 9 then 7 + digits else if (7 + digits) % 2 = 0 then 7 else 8
  else 8

/-- Whether the date part, which ends at `stop`, is a date. -/
def parseDate (s : Text) (stop : ℕ) : Bool :=
  let usesSeparator : Bool := charAt s 4 = '-'
  let pos := if usesSeparator then 5 else 4
  match digitsAt s 0 4 with
  | none => false
  | some year =>
    if charAt s pos = 'W' then
      match digitsAt s (pos + 1) 2 with
      | none => false
      | some week =>
        if pos + 3 < stop then
          if usesSeparator && charAt s (pos + 3) != '-' then false
          else
            match digitsAt s (if usesSeparator then pos + 4 else pos + 3) 1 with
            | none => false
            | some day => validWeekDate year week day
        else validWeekDate year week 1
    else
      match digitsAt s pos 2 with
      | none => false
      | some month =>
        if usesSeparator && charAt s (pos + 2) != '-' then false
        else
          match digitsAt s (if usesSeparator then pos + 3 else pos + 2) 2 with
          | none => false
          | some day => validDate year month day

/-- A parsed time: the numbers read, the fraction in microseconds, and whether something
other than the end of the string follows. -/
structure TimeFields where
  numbers : List ℕ
  microsecond : ℕ
  trailing : Bool
deriving DecidableEq, Repr

/-- The fraction behind the decimal mark: six digits count, more are skipped. -/
def parseFraction (s : Text) (stop pos : ℕ) : Option TimeFields :=
  let toParse := min (stop - pos) 6
  match digitsAt s pos toParse with
  | none => none
  | some n =>
    let rest := (s.drop (pos + toParse)).dropWhile fun c => 48 ≤ c.toNat && c.toNat ≤ 57
    some
      { numbers := []
        microsecond := n * 10 ^ (6 - toParse)
        trailing := rest.head?.getD '\x00' != '\x00' }

/-- `HH[:?MM[:?SS[{.,}fff[fff]]]]` from `pos` on; `left` numbers may follow. The form of the
separator is settled behind the first number. -/
def parseFields (s : Text) (stop : ℕ) : ℕ → Option Bool → ℕ → Option TimeFields
  | 0, _, pos => parseFraction s stop pos
  | left + 1, separator, pos =>
    match digitsAt s pos 2 with
    | none => none
    | some n =>
      let c := charAt s (pos + 2)
      let hasSeparator := separator.getD (c = ':')
      let rest :=
        if stop ≤ pos + 3 then
          some { numbers := [], microsecond := 0, trailing := c != '\x00' : TimeFields }
        else if hasSeparator && c = ':' then parseFields s stop left (some hasSeparator) (pos + 3)
        else if c = '.' ∨ c = ',' then parseFraction s stop (pos + 3)
        else if !hasSeparator then parseFields s stop left (some hasSeparator) (pos + 2)
        else none
      rest.map fun fields => { fields with numbers := n :: fields.numbers }

/-- The characters that begin an offset. -/
def isOffsetMark (c : Char) : Bool := c = '+' ∨ c = '-' ∨ c = 'Z'

/-- An offset is below 24 hours; one of zero seconds is UTC whatever its fraction. -/
def validOffset (fields : TimeFields) : Bool :=
  let seconds := fields.numbers.getD 0 0 * 3600 + fields.numbers.getD 1 0 * 60
    + fields.numbers.getD 2 0
  seconds = 0 ∨ seconds * 10 ^ 6 + fields.microsecond < 86400 * 10 ^ 6

/-- Whether the string behind the separator is a time. -/
def parseTime (t : Text) : Bool :=
  let stop := t.findIdx isOffsetMark
  match parseFields t stop 3 none 0 with
  | none => false
  | some fields =>
    validTime (fields.numbers.getD 0 0) (fields.numbers.getD 1 0) (fields.numbers.getD 2 0)
      && if stop = t.length then !fields.trailing
        else if charAt t stop = 'Z' then charAt t (stop + 1) = '\x00'
        else
          match parseFields t t.length 3 none (stop + 1) with
          | none => false
          | some offset => !offset.trailing && validOffset offset

/-- Whether `datetime.fromisoformat` returns, for an ASCII text. CPython counts the bytes of the
UTF-8 form and this definition the characters, so on other texts the two may differ. -/
def fromisoformat (s : Text) : Bool :=
  let separator := findSeparator s
  7 ≤ s.length && parseDate s separator
    && (s.length ≤ separator || parseTime (s.drop (separator + 1)))

/-! ## Printing a UTC time -/

/-- A UTC date-time; the fields are those of a date and a time. -/
structure UtcDateTime where
  year : ℕ
  month : ℕ
  day : ℕ
  hour : ℕ
  minute : ℕ
  second : ℕ
  microsecond : ℕ
  date_valid : validDate year month day = true
  time_valid : validTime hour minute second = true
  microsecond_lt : microsecond < 10 ^ 6

namespace UtcDateTime

/-- The fraction, which is left out when it is zero. -/
def fraction (t : UtcDateTime) : Text :=
  if t.microsecond = 0 then [] else '.' :: Digits.fixedDigits 10 6 t.microsecond

/-- The date as `isoformat` writes it. -/
def datePart (t : UtcDateTime) : Text :=
  Digits.fixedDigits 10 4 t.year ++ '-' :: (Digits.fixedDigits 10 2 t.month
    ++ '-' :: Digits.fixedDigits 10 2 t.day)

/-- The time as `isoformat` writes it. -/
def timePart (t : UtcDateTime) : Text :=
  Digits.fixedDigits 10 2 t.hour ++ ':' :: (Digits.fixedDigits 10 2 t.minute
    ++ ':' :: (Digits.fixedDigits 10 2 t.second ++ (t.fraction ++ "+00:00".toList)))

/-- `isoformat()`. -/
def isoformat (t : UtcDateTime) : String := String.ofList (t.datePart ++ 'T' :: t.timePart)

end UtcDateTime

/-! ## The parser accepts what is printed -/

/-- A decimal digit that was printed is none of the characters the parser looks for. -/
theorem digitChar_ne {n : ℕ} {c : Char} (hc : ∀ d < 10, Nat.digitChar d ≠ c) :
    Nat.digitChar (n % 10) ≠ c :=
  hc _ (Nat.mod_lt _ (by omega))

theorem digitsAt_of_substr {s : Text} {pos k n : ℕ} (hn : n < 10 ^ k)
    (h : Text.substr s pos k = Digits.fixedDigits 10 k n) : digitsAt s pos k = some n := by
  unfold digitsAt
  simp only [h, Digits.length_fixedDigits, if_true]
  rw [Digits.ofDigits_fixedDigits (by omega) (by omega), Nat.mod_eq_of_lt hn]

theorem parseDate_datePart (t : UtcDateTime) (rest : Text) :
    parseDate (t.datePart ++ 'T' :: rest) 10 = true := by
  obtain ⟨hyear, hyear', hmonth, hmonth', hday, hday'⟩ :
      1 ≤ t.year ∧ t.year ≤ 9999 ∧ 1 ≤ t.month ∧ t.month ≤ 12 ∧ 1 ≤ t.day
        ∧ t.day ≤ daysInMonth t.year t.month := by
    simpa [validDate] using t.date_valid
  have hdays : daysInMonth t.year t.month ≤ 31 := by
    unfold daysInMonth
    split
    · split <;> omega
    · split <;> omega
  have hy : digitsAt (t.datePart ++ 'T' :: rest) 0 4 = some t.year :=
    digitsAt_of_substr (by omega) rfl
  have hm : digitsAt (t.datePart ++ 'T' :: rest) 5 2 = some t.month :=
    digitsAt_of_substr (by omega) rfl
  have hd : digitsAt (t.datePart ++ 'T' :: rest) 8 2 = some t.day :=
    digitsAt_of_substr (by omega) rfl
  have h4 : charAt (t.datePart ++ 'T' :: rest) 4 = '-' := rfl
  have h7 : charAt (t.datePart ++ 'T' :: rest) 7 = '-' := rfl
  have h5 : charAt (t.datePart ++ 'T' :: rest) 5 ≠ 'W' := digitChar_ne (by decide)
  unfold parseDate
  simp only [h4, decide_true, if_true, hy, h5, if_false, hm, h7, hd]
  exact t.date_valid

theorem isOffsetMark_digitChar (n : ℕ) : isOffsetMark (Nat.digitChar (n % 10)) = false := by
  have h : ∀ d < 10, isOffsetMark (Nat.digitChar d) = false := by decide
  exact h _ (Nat.mod_lt _ (by omega))

/-- Where the offset of a printed time starts. -/
theorem findIdx_isOffsetMark (t : UtcDateTime) :
    t.timePart.findIdx isOffsetMark = 8 + t.fraction.length := by
  have hmark : ∀ (s rest : Text), (∀ c ∈ s, isOffsetMark c = false) →
      (s ++ '+' :: rest).findIdx isOffsetMark = s.length := by
    intro s rest h
    rw [List.findIdx_append, List.findIdx_eq_length_of_false h, if_neg (lt_irrefl _)]
    simp [List.findIdx_cons, show isOffsetMark '+' = true from rfl]
  have hdigits : ∀ k n, ∀ c ∈ Digits.fixedDigits 10 k n, isOffsetMark c = false := by
    intro k n c hc
    obtain ⟨d, hd, rfl⟩ := Digits.exists_of_mem_fixedDigits (by omega) hc
    rw [← Nat.mod_eq_of_lt hd]
    exact isOffsetMark_digitChar d
  have hcolon : isOffsetMark ':' = false := rfl
  have hfraction : ∀ c ∈ t.fraction, isOffsetMark c = false := by
    unfold UtcDateTime.fraction
    split
    · simp
    · intro c hc
      rcases List.mem_cons.mp hc with rfl | hc
      · rfl
      · exact hdigits _ _ c hc
  have hsplit : t.timePart = (Digits.fixedDigits 10 2 t.hour ++ ':' ::
      (Digits.fixedDigits 10 2 t.minute ++ ':' :: (Digits.fixedDigits 10 2 t.second
        ++ t.fraction))) ++ '+' :: "00:00".toList := by
    simp [UtcDateTime.timePart]
  rw [hsplit, hmark]
  · simp
    omega
  · intro c hc
    simp only [List.mem_append, List.mem_cons] at hc
    rcases hc with hc | rfl | hc | rfl | hc | hc
    · exact hdigits _ _ c hc
    · exact hcolon
    · exact hdigits _ _ c hc
    · exact hcolon
    · exact hdigits _ _ c hc
    · exact hfraction c hc

/-- The fields of a printed time, up to its offset. -/
theorem parseFields_timePart (t : UtcDateTime) :
    parseFields t.timePart (8 + t.fraction.length) 3 none 0
      = some
        { numbers := [t.hour, t.minute, t.second], microsecond := t.microsecond
          trailing := true } := by
  obtain ⟨hhour, hminute, hsecond⟩ : t.hour < 24 ∧ t.minute < 60 ∧ t.second < 60 := by
    simpa [validTime] using t.time_valid
  have hh : digitsAt t.timePart 0 2 = some t.hour := digitsAt_of_substr (by omega) rfl
  have hm : digitsAt t.timePart 3 2 = some t.minute := digitsAt_of_substr (by omega) rfl
  have hs : digitsAt t.timePart 6 2 = some t.second := digitsAt_of_substr (by omega) rfl
  have h2 : charAt t.timePart 2 = ':' := rfl
  have h5 : charAt t.timePart 5 = ':' := rfl
  by_cases hzero : t.microsecond = 0
  · have hfraction : t.fraction = [] := if_pos hzero
    have h8 : charAt t.timePart 8 = '+' := by
      unfold UtcDateTime.timePart
      rw [hfraction]
      rfl
    simp [parseFields, hh, h2, hm, h5, hs, h8, hfraction, hzero]
  · have hfraction : t.fraction = '.' :: Digits.fixedDigits 10 6 t.microsecond := if_neg hzero
    have htime : t.timePart = Digits.fixedDigits 10 2 t.hour ++ ':' ::
        (Digits.fixedDigits 10 2 t.minute ++ ':' :: (Digits.fixedDigits 10 2 t.second
          ++ ('.' :: Digits.fixedDigits 10 6 t.microsecond ++ "+00:00".toList))) := by
      unfold UtcDateTime.timePart
      rw [hfraction]
    have h8 : charAt t.timePart 8 = '.' := by
      rw [htime]
      rfl
    have hmicro : digitsAt t.timePart 9 6 = some t.microsecond := by
      rw [htime]
      exact digitsAt_of_substr t.microsecond_lt rfl
    have hrest : t.timePart.drop 15 = "+00:00".toList := by
      rw [htime]
      rfl
    simp [parseFields, parseFraction, hh, h2, hm, h5, hs, h8, hfraction, hmicro, hrest]

theorem parseTime_timePart (t : UtcDateTime) : parseTime t.timePart = true := by
  have hlen : t.timePart.length = 8 + t.fraction.length + 6 := by
    simp [UtcDateTime.timePart]
    omega
  have hoffset : t.timePart.drop (8 + t.fraction.length) = "+00:00".toList := by
    have hsplit : t.timePart = (Digits.fixedDigits 10 2 t.hour ++ ':' ::
        (Digits.fixedDigits 10 2 t.minute ++ ':' :: (Digits.fixedDigits 10 2 t.second
          ++ t.fraction))) ++ "+00:00".toList := by
      simp [UtcDateTime.timePart]
    rw [hsplit]
    refine List.drop_left' ?_
    simp
    omega
  have hchar : ∀ i, charAt t.timePart (8 + t.fraction.length + i) = charAt "+00:00".toList i := by
    intro i
    unfold charAt
    rw [← hoffset, List.getD_eq_getElem?_getD, List.getD_eq_getElem?_getD, List.getElem?_drop]
  have hdigits : ∀ i n, digitsAt t.timePart (8 + t.fraction.length + i) n
      = digitsAt "+00:00".toList i n := by
    intro i n
    unfold digitsAt Text.substr
    rw [← hoffset, List.drop_drop]
  generalize hpos : 8 + t.fraction.length = pos at *
  have hd1 : digitsAt t.timePart (pos + 1) 2 = some 0 := hdigits 1 2
  have hd4 : digitsAt t.timePart (pos + 1 + 3) 2 = some 0 := hdigits 4 2
  have hc0 : charAt t.timePart pos = '+' := hchar 0
  have hc3 : charAt t.timePart (pos + 1 + 2) = ':' := hchar 3
  have hc6 : charAt t.timePart (pos + 1 + 3 + 2) = '\x00' := hchar 6
  have htail : parseFields t.timePart (pos + 6) 3 none (pos + 1)
      = some { numbers := [0, 0], microsecond := 0, trailing := false } := by
    unfold parseFields
    simp only [hd1, hc3]
    unfold parseFields
    simp only [hd4, hc6]
    rw [if_neg (by omega), if_pos (by simp), if_pos (by omega)]
    rfl
  have hfields := parseFields_timePart t
  rw [hpos] at hfields
  unfold parseTime
  simp only [findIdx_isOffsetMark, hpos, hfields, hlen, htail, hc0]
  rw [if_neg (by omega), if_neg (by decide)]
  have hvalid : validTime t.hour t.minute t.second = true := t.time_valid
  simpa [validOffset] using hvalid

/-- `fromisoformat` accepts what `isoformat` prints. -/
theorem fromisoformat_isoformat (t : UtcDateTime) :
    fromisoformat t.isoformat.toList = true := by
  have hdash : charAt (t.datePart ++ 'T' :: t.timePart) 4 = '-' := rfl
  have hweek : charAt (t.datePart ++ 'T' :: t.timePart) 5 ≠ 'W' := digitChar_ne (by decide)
  have hlen : (t.datePart ++ 'T' :: t.timePart).length = 11 + t.timePart.length := by
    simp [UtcDateTime.datePart]
    omega
  have hdrop : (t.datePart ++ 'T' :: t.timePart).drop 11 = t.timePart := rfl
  have hsep : findSeparator (t.datePart ++ 'T' :: t.timePart) = 10 := by
    unfold findSeparator
    rw [if_neg (by omega), if_pos hdash, if_neg hweek]
  unfold fromisoformat UtcDateTime.isoformat
  rw [String.toList_ofList, hsep]
  show (decide (7 ≤ (t.datePart ++ 'T' :: t.timePart).length)
    && parseDate (t.datePart ++ 'T' :: t.timePart) 10
    && (decide ((t.datePart ++ 'T' :: t.timePart).length ≤ 10)
      || parseTime ((t.datePart ++ 'T' :: t.timePart).drop 11))) = true
  rw [hdrop, parseDate_datePart, parseTime_timePart, hlen]
  have h7 : 7 ≤ 11 + t.timePart.length := by omega
  simp [h7]

/-- A printed time holds no `Z`. -/
theorem not_mem_isoformat (t : UtcDateTime) : 'Z' ∉ t.isoformat.toList := by
  have hdigits : ∀ k n, 'Z' ∉ Digits.fixedDigits 10 k n := by
    intro k n h
    obtain ⟨d, hd, he⟩ := Digits.exists_of_mem_fixedDigits (by omega) h
    have hne : ∀ d < 10, 'Z' ≠ Nat.digitChar d := by decide
    exact hne d hd he
  have hfraction : 'Z' ∉ t.fraction := by
    unfold UtcDateTime.fraction
    split
    · simp
    · simp [hdigits]
  unfold UtcDateTime.isoformat UtcDateTime.datePart UtcDateTime.timePart
  simp [hdigits, hfraction]

end IsoFormat
end ThoriumFrugal.Protocol

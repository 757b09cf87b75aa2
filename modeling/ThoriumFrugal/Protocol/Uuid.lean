import ThoriumFrugal.Lib.Digits
import ThoriumFrugal.Lib.Text

/-!
# Python's `uuid.UUID`

The constructor from a string, with everything it lets through: `urn:` and `uuid:` marks,
braces, hyphens anywhere, and the number syntax of `int(hex, 16)`. `strUuid` is
`str(uuid.UUID(int=n))`, which the constructor reads back.
-/

namespace ThoriumFrugal.Protocol

open Lib

namespace Uuid

/-- Where the ten digits of each decimal script start, beyond ASCII. -/
def decimalStarts : List ℕ := [
  0x660, 0x6F0, 0x7C0, 0x966, 0x9E6, 0xA66, 0xAE6, 0xB66, 0xBE6, 0xC66, 0xCE6, 0xD66, 0xDE6,
  0xE50, 0xED0, 0xF20, 0x1040, 0x1090, 0x17E0, 0x1810, 0x1946, 0x19D0, 0x1A80, 0x1A90, 0x1B50,
  0x1BB0, 0x1C40, 0x1C50, 0xA620, 0xA8D0, 0xA900, 0xA9D0, 0xA9F0, 0xAA50, 0xABF0, 0xFF10,
  0x104A0, 0x10D30, 0x11066, 0x110F0, 0x11136, 0x111D0, 0x112F0, 0x11450, 0x114D0, 0x11650,
  0x116C0, 0x11730, 0x118E0, 0x11950, 0x11C50, 0x11D50, 0x11DA0, 0x11F50, 0x16A60, 0x16AC0,
  0x16B50, 0x1D7CE, 0x1D7D8, 0x1D7E2, 0x1D7EC, 0x1D7F6, 0x1E140, 0x1E2F0, 0x1E4F0, 0x1E950,
  0x1FBF0]

/-- White space beyond ASCII. -/
def wideSpaces : List ℕ := [
  0x85, 0xA0, 0x1680, 0x2000, 0x2001, 0x2002, 0x2003, 0x2004, 0x2005, 0x2006, 0x2007, 0x2008,
  0x2009, 0x200A, 0x2028, 0x2029, 0x202F, 0x205F, 0x3000]

/-- White space that `int` skips. -/
def asciiSpaces : Text := [' ', '\t', '\n', '\x0b', '\x0c', '\r']

/-- The ASCII character that `int` sees: digits and spaces of other scripts are folded. -/
def toAscii (c : Char) : Char :=
  if c.toNat < 127 then c
  else if c.toNat ∈ wideSpaces then ' '
  else
    match decimalStarts.find? fun start => start ≤ c.toNat ∧ c.toNat < start + 10 with
    | some start => Nat.digitChar (c.toNat - start)
    | none => '?'

/-- `s` without a `0x` in front, and the underscore that may stand behind it. -/
def dropHexPrefix (s : Text) : Text :=
  match s with
  | '0' :: 'x' :: '_' :: rest | '0' :: 'X' :: '_' :: rest => rest
  | '0' :: 'x' :: rest | '0' :: 'X' :: rest => rest
  | _ => s

/-- The part of `int(s, 16)` behind the sign: an optional `0x`, then digits with single
underscores between them. -/
def intDigits (s : Text) : Option ℕ :=
  let digits := dropHexPrefix s
  if digits = [] ∨ digits.head? = some '_' ∨ digits.getLast? = some '_'
      ∨ ['_', '_'] <:+: digits then none
  else Digits.ofDigits 16 (digits.filter (· ≠ '_'))

/-- `int(s, 16)` for a string without a minus sign. -/
def intBase16 (s : Text) : Option ℕ :=
  match Text.trim (s.map toAscii) asciiSpaces with
  | '+' :: rest => intDigits rest
  | s => intDigits s

/-- The string without marks, braces and hyphens. -/
def clean (hex : String) : Text :=
  let hex := Text.remove "uuid:".toList (Text.remove "urn:".toList hex.toList)
  (Text.trim hex ['\x7b', '\x7d']).filter (· ≠ '-')

/-- `uuid.UUID(hex)`: the value of the UUID, none where the constructor raises. -/
def parse (hex : String) : Option ℕ :=
  if (clean hex).length ≠ 32 then none
  else
    -- `int` does not take every string of 32 characters
    match intBase16 (clean hex) with
    | some n => if n < 2 ^ 128 then some n else none
    | none => none

/-! ## Printing -/

/-- `str` of the UUID with value `n`. -/
def strUuid (n : ℕ) : String :=
  let hex := Digits.fixedDigits 16 32 n
  String.ofList (hex.take 8 ++ '-' :: ((hex.drop 8).take 4 ++ '-' :: ((hex.drop 12).take 4
    ++ '-' :: ((hex.drop 16).take 4 ++ '-' :: hex.drop 20))))

/-- All characters are digits of a lower-case hexadecimal number. -/
def IsHex (s : Text) : Prop := ∀ c ∈ s, ∃ d < 16, c = Nat.digitChar d

theorem IsHex.not_mem {s : Text} {c : Char} (h : IsHex s) (hc : ∀ d < 16, c ≠ Nat.digitChar d) :
    c ∉ s := by
  intro hcs
  obtain ⟨d, hd, he⟩ := h c hcs
  exact hc d hd he

theorem isHex_fixedDigits (k n : ℕ) : IsHex (Digits.fixedDigits 16 k n) :=
  fun _ hc => Digits.exists_of_mem_fixedDigits (by omega) hc

/-- `int` takes a hexadecimal string without sign and prefix digit by digit. -/
theorem intBase16_of_isHex {s : Text} (h : IsHex s) (hs : s ≠ []) :
    intBase16 s = Digits.ofDigits 16 s := by
  have hmap : s.map toAscii = s := by
    have hfold : ∀ d < 16, toAscii (Nat.digitChar d) = Nat.digitChar d := by decide
    have hid : ∀ c ∈ s, toAscii c = c := by
      intro c hc
      obtain ⟨d, hd, rfl⟩ := h c hc
      exact hfold d hd
    rw [List.map_congr_left hid, List.map_id']
  have htrim : Text.trim (s.map toAscii) asciiSpaces = s := by
    rw [hmap]
    refine Text.trim_of_not_mem fun c hc => ?_
    obtain ⟨d, hd, rfl⟩ := h c hc
    have hspace : ∀ d < 16, Nat.digitChar d ∉ asciiSpaces := by decide
    exact hspace d hd
  have hplus : '+' ∉ s := h.not_mem (by decide)
  have hunder : '_' ∉ s := h.not_mem (by decide)
  have hx : 'x' ∉ s := h.not_mem (by decide)
  have hX : 'X' ∉ s := h.not_mem (by decide)
  have hfilter : s.filter (· ≠ '_') = s := by
    rw [List.filter_eq_self]
    exact Text.ne_of_not_mem hunder
  have hinner : ¬['_', '_'] <:+: s := fun hin => hunder (hin.subset (by decide))
  have hhead : s.head? ≠ some '_' := fun hh => hunder (List.mem_of_mem_head? hh)
  have hlast : s.getLast? ≠ some '_' := fun hl => hunder (List.mem_of_getLast? hl)
  have hdrop : dropHexPrefix s = s := by
    -- a prefix would hold an `x`
    unfold dropHexPrefix
    split
    · simp at hx
    · simp at hX
    · simp at hx
    · simp at hX
    · rfl
  have hdigits : intDigits s = Digits.ofDigits 16 s := by
    unfold intDigits
    simp only [hdrop, hs, hhead, hlast, hinner, or_self, if_false, hfilter]
  unfold intBase16
  rw [htrim]
  split
  · simp at hplus
  · exact hdigits

/-- Dropping the hyphens of a printed UUID leaves its digits. -/
theorem filter_hyphen_strUuid (n : ℕ) :
    (strUuid n).toList.filter (· ≠ '-') = Digits.fixedDigits 16 32 n := by
  have hhex := isHex_fixedDigits 32 n
  unfold strUuid
  generalize Digits.fixedDigits 16 32 n = hex at hhex
  have hyphen : '-' ∉ hex := hhex.not_mem (by decide)
  have hkeep : ∀ t : Text, t ⊆ hex → t.filter (· ≠ '-') = t := by
    intro t ht
    rw [List.filter_eq_self]
    exact Text.ne_of_not_mem fun hmem => hyphen (ht hmem)
  have hpart : ∀ i j, ((hex.drop i).take j).filter (· ≠ '-') = (hex.drop i).take j :=
    fun i j => hkeep _ fun c hc => List.mem_of_mem_drop (List.mem_of_mem_take hc)
  have hfirst : (hex.take 8).filter (· ≠ '-') = hex.take 8 :=
    hkeep _ fun c hc => List.mem_of_mem_take hc
  have hrest : (hex.drop 20).filter (· ≠ '-') = hex.drop 20 :=
    hkeep _ fun c hc => List.mem_of_mem_drop hc
  have hsplit : ∀ i j, (hex.drop i).take j ++ hex.drop (i + j) = hex.drop i := by
    intro i j
    rw [← List.drop_drop, List.take_append_drop]
  have hone : ∀ t : Text, ('-' :: t).filter (· ≠ '-') = t.filter (· ≠ '-') := fun t => by simp
  simp only [String.toList_ofList]
  rw [List.filter_append, hone, List.filter_append, hone, List.filter_append, hone,
    List.filter_append, hone, hfirst, hpart, hpart, hpart, hrest, hsplit 16 4, hsplit 12 4,
    hsplit 8 4, List.take_append_drop]

/-- Only the hyphens of a string of hyphens and hexadecimal digits are dropped. -/
theorem clean_of_isHex {hex : String} (h : IsHex (hex.toList.filter (· ≠ '-'))) :
    clean hex = hex.toList.filter (· ≠ '-') := by
  have hnot : ∀ c, c ≠ '-' → (∀ d < 16, c ≠ Nat.digitChar d) → c ∉ hex.toList := by
    intro c hc hd hmem
    exact h.not_mem hd (List.mem_filter.mpr ⟨hmem, decide_eq_true hc⟩)
  have hu : 'u' ∉ hex.toList := hnot _ (by decide) (by decide)
  have hbraces : ∀ c ∈ hex.toList, c ∉ ['\x7b', '\x7d'] := by
    intro c hc hb
    rw [List.mem_pair] at hb
    rcases hb with rfl | rfl
    · exact hnot _ (by decide) (by decide) hc
    · exact hnot _ (by decide) (by decide) hc
  unfold clean
  rw [show "urn:".toList = 'u' :: "rn:".toList from rfl,
    show "uuid:".toList = 'u' :: "uid:".toList from rfl, Text.remove_of_not_mem hu,
    Text.remove_of_not_mem hu]
  show (Text.trim hex.toList _).filter _ = _
  rw [Text.trim_of_not_mem hbraces]

theorem clean_strUuid (n : ℕ) : clean (strUuid n) = Digits.fixedDigits 16 32 n := by
  have hhex : IsHex ((strUuid n).toList.filter (· ≠ '-')) := by
    rw [filter_hyphen_strUuid]
    exact isHex_fixedDigits 32 n
  rw [clean_of_isHex hhex, filter_hyphen_strUuid]

/-- The constructor reads back what `str` prints. -/
theorem parse_strUuid {n : ℕ} (h : n < 2 ^ 128) : parse (strUuid n) = some n := by
  have hne : Digits.fixedDigits 16 32 n ≠ [] := by
    rw [← List.length_pos_iff, Digits.length_fixedDigits]
    omega
  have hmod : n % 16 ^ 32 = n := Nat.mod_eq_of_lt (by norm_num at h ⊢; exact h)
  have hint := intBase16_of_isHex (isHex_fixedDigits 32 n) hne
  rw [Digits.ofDigits_fixedDigits (by omega) le_rfl, hmod] at hint
  unfold parse
  rw [clean_strUuid, Digits.length_fixedDigits, if_neg (by omega), hint]
  exact if_pos h

/-- Hyphens in front make another string of the same UUID. -/
def hyphened (k n : ℕ) : String := String.ofList (List.replicate k '-' ++ (strUuid n).toList)

theorem parse_hyphened (k : ℕ) {n : ℕ} (h : n < 2 ^ 128) : parse (hyphened k n) = some n := by
  have hfilter : (hyphened k n).toList.filter (· ≠ '-') = Digits.fixedDigits 16 32 n := by
    unfold hyphened
    rw [String.toList_ofList, List.filter_append, filter_hyphen_strUuid]
    simp
  have hhex : IsHex ((hyphened k n).toList.filter (· ≠ '-')) := by
    rw [hfilter]
    exact isHex_fixedDigits 32 n
  have hclean : clean (hyphened k n) = clean (strUuid n) := by
    rw [clean_of_isHex hhex, hfilter, clean_strUuid]
  rw [← parse_strUuid h]
  unfold parse
  rw [hclean]

end Uuid
end ThoriumFrugal.Protocol

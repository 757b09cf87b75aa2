import ThoriumFrugal.Cognitia.ContentEnvelope

/-!
# The content extractor

`ContentExtractor` of `content_extractor.cc`, with the bounds of `content_types.h`. The extractor
cuts its text between bytes, so a `std::string` is here the array of its bytes. What the cut does
to UTF-8 depends on the first byte behind it.
-/

namespace ThoriumFrugal.Cognitia

/-- The bound on a selected text. -/
def kMaxSelectedTextBytes : ℕ := 64 * 1024

/-- The bound on a page. -/
def kMaxPageContentBytes : ℕ := 256 * 1024

/-- The bound on the metadata. -/
def kMaxMetadataBytes : ℕ := 16 * 1024

namespace ContentExtractor

/-- The text, and `out_truncated`. -/
def sanitizeRawText (rawInput : ByteArray) (maxBytes : ℕ) : ByteArray × Bool :=
  if rawInput.isEmpty then (ByteArray.empty, false)
  else if rawInput.size > maxBytes then (rawInput.extract 0 maxBytes, true)
  else (rawInput, false)

/-- The text that `ExtractAuthorizedContent` starts from; the title is already in UTF-8. -/
def rawText (mode : ContentExtractionMode) (selectionText title origin : ByteArray) : ByteArray :=
  match mode with
  | .kSelectedText => selectionText
  | .kMetadataOnly => "Title: ".toUTF8 ++ title ++ "\nOrigin: ".toUTF8 ++ origin
  | .kMainPageContent => selectionText

/-- The size budget of a mode. -/
def maxBytes : ContentExtractionMode → ℕ
  | .kSelectedText => kMaxSelectedTextBytes
  | .kMetadataOnly => kMaxMetadataBytes
  | .kMainPageContent => kMaxPageContentBytes

/-- `extracted_text` and `is_truncated` of `ExtractAuthorizedContent`. -/
def extractText (mode : ContentExtractionMode) (selectionText title origin : ByteArray) :
    ByteArray × Bool :=
  sanitizeRawText (rawText mode selectionText title origin) (maxBytes mode)

/-! ## Truncation -/

variable {raw : ByteArray} {budget : ℕ}

theorem sanitizeRawText_of_le (h : raw.size ≤ budget) :
    sanitizeRawText raw budget = (raw, false) := by
  unfold sanitizeRawText
  split
  · rename_i hempty
    have hsize : raw.size = 0 := by simpa [ByteArray.isEmpty] using hempty
    rw [ByteArray.size_eq_zero_iff.mp hsize]
  · rw [if_neg (by omega)]

theorem sanitizeRawText_of_lt (h : budget < raw.size) :
    sanitizeRawText raw budget = (raw.extract 0 budget, true) := by
  have hne : raw.isEmpty ≠ true := by
    intro hempty
    have hsize : raw.size = 0 := by simpa [ByteArray.isEmpty] using hempty
    omega
  unfold sanitizeRawText
  rw [if_neg hne, if_pos h]

theorem exists_append_sanitizeRawText (raw : ByteArray) (budget : ℕ) :
    ∃ rest, raw = (sanitizeRawText raw budget).1 ++ rest := by
  rcases Nat.lt_or_ge budget raw.size with hlt | hle
  · refine ⟨raw.extract budget raw.size, ?_⟩
    rw [sanitizeRawText_of_lt hlt, ← ByteArray.extract_eq_extract_append_extract budget
      (Nat.zero_le budget) hlt.le, ByteArray.extract_zero_size]
  · refine ⟨ByteArray.empty, ?_⟩
    rw [sanitizeRawText_of_le hle, ByteArray.append_empty]

theorem size_sanitizeRawText (raw : ByteArray) (budget : ℕ) :
    (sanitizeRawText raw budget).1.size = min budget raw.size := by
  rcases Nat.lt_or_ge budget raw.size with hlt | hle
  · rw [sanitizeRawText_of_lt hlt, ByteArray.size_extract]
    omega
  · rw [sanitizeRawText_of_le hle]
    show raw.size = _
    omega

theorem truncated_sanitizeRawText_iff (raw : ByteArray) (budget : ℕ) :
    (sanitizeRawText raw budget).2 = true ↔ (sanitizeRawText raw budget).1.size < raw.size := by
  rw [size_sanitizeRawText]
  rcases Nat.lt_or_ge budget raw.size with hlt | hle
  · rw [sanitizeRawText_of_lt hlt]
    exact iff_of_true rfl (by omega)
  · rw [sanitizeRawText_of_le hle]
    exact iff_of_false Bool.false_ne_true (by omega)

/-- The bytes up to a place are UTF-8 exactly if a character starts there. -/
theorem isValidUTF8_extract_iff (hraw : raw.IsValidUTF8) (h : budget < raw.size) :
    (raw.extract 0 budget).IsValidUTF8 ↔ raw[budget].IsUTF8FirstByte := by
  let s : String := ⟨raw, hraw⟩
  let p : String.Pos.Raw := ⟨budget⟩
  have hlt : p < s.rawEndPos := h
  have hle : p ≤ s.rawEndPos := Nat.le_of_lt h
  have hne : p ≠ s.rawEndPos := by
    intro hp
    rw [hp] at hlt
    exact Nat.lt_irrefl _ hlt
  have hcut : p.IsValid s ↔ (raw.extract 0 budget).IsValidUTF8 := by
    rw [String.Pos.Raw.isValid_iff_isValidUTF8_extract_zero]
    exact and_iff_right hle
  have hstart : p.IsValid s ↔ raw[budget].IsUTF8FirstByte := by
    rw [String.Pos.Raw.isValid_iff_isUTF8FirstByte, or_iff_right hne]
    exact exists_prop_of_true hlt
  rw [← hcut, hstart]

theorem valid_sanitizeRawText_iff (hraw : raw.IsValidUTF8) (budget : ℕ) :
    (sanitizeRawText raw budget).1.IsValidUTF8
      ↔ ∀ h : budget < raw.size, raw[budget].IsUTF8FirstByte := by
  rcases Nat.lt_or_ge budget raw.size with hlt | hle
  · rw [forall_prop_of_true hlt, ← isValidUTF8_extract_iff hraw hlt, sanitizeRawText_of_lt hlt]
  · rw [sanitizeRawText_of_le hle]
    exact iff_of_true hraw fun hlt => absurd hlt (Nat.not_lt.mpr hle)

/-- What the text and the flag owe to the input. -/
structure TruncatesText (raw : ByteArray) (budget : ℕ) : Prop where
  isPrefix : ∃ rest, raw = (sanitizeRawText raw budget).1 ++ rest
  size_le : (sanitizeRawText raw budget).1.size ≤ budget
  valid : (sanitizeRawText raw budget).1.IsValidUTF8
  truncated_iff : (sanitizeRawText raw budget).2 = true
    ↔ (sanitizeRawText raw budget).1.size < raw.size

/-- The text is cut well exactly if the budget does not end inside of a character. -/
theorem truncatesText_iff (hraw : raw.IsValidUTF8) (budget : ℕ) :
    TruncatesText raw budget ↔ ∀ h : budget < raw.size, raw[budget].IsUTF8FirstByte := by
  constructor
  · intro h
    exact (valid_sanitizeRawText_iff hraw budget).mp h.valid
  · intro h
    refine ⟨exists_append_sanitizeRawText raw budget, ?_,
      (valid_sanitizeRawText_iff hraw budget).mpr h, truncated_sanitizeRawText_iff raw budget⟩
    rw [size_sanitizeRawText]
    exact Nat.min_le_left budget raw.size

/-- The letter é has two bytes; its text can be cut behind, not between them. -/
theorem truncatesText_accent : TruncatesText "é!".toUTF8 2 :=
  (truncatesText_iff "é!".isValidUTF8 2).mpr (by decide)

/-- A budget of one byte leaves half of the letter. -/
theorem not_truncatesText_accent :
    "é!".toUTF8.IsValidUTF8 ∧ ¬TruncatesText "é!".toUTF8 1 := by
  refine ⟨"é!".isValidUTF8, fun h => ?_⟩
  exact absurd ((valid_sanitizeRawText_iff "é!".isValidUTF8 1).mp h.valid) (by decide)

/-! ## The extracted text -/

variable {selectionText title origin : ByteArray}

theorem isValidUTF8_rawText (mode : ContentExtractionMode) (hselection : selectionText.IsValidUTF8)
    (htitle : title.IsValidUTF8) (horigin : origin.IsValidUTF8) :
    (rawText mode selectionText title origin).IsValidUTF8 := by
  cases mode with
  | kMetadataOnly =>
    exact (("Title: ".isValidUTF8.append htitle).append "\nOrigin: ".isValidUTF8).append horigin
  | _ => exact hselection

/-- The extracted text is UTF-8 in the same cases. -/
theorem valid_extractText_iff (mode : ContentExtractionMode)
    (hselection : selectionText.IsValidUTF8) (htitle : title.IsValidUTF8)
    (horigin : origin.IsValidUTF8) :
    (extractText mode selectionText title origin).1.IsValidUTF8
      ↔ ∀ h : maxBytes mode < (rawText mode selectionText title origin).size,
        (rawText mode selectionText title origin)[maxBytes mode].IsUTF8FirstByte :=
  valid_sanitizeRawText_iff (isValidUTF8_rawText mode hselection htitle horigin) _

end ContentExtractor
end ThoriumFrugal.Cognitia

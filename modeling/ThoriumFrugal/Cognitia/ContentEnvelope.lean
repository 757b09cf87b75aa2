import ThoriumFrugal.Cognitia.JsonWriter

/-!
# Content envelopes

`ContentEnvelope` of `content_envelope.cc`, and the two kinds of envelopes a transport is
given. As in observations the random id and the time are fields.
-/

namespace ThoriumFrugal.Cognitia

open Lib

/-- The enumeration of the same name in `content_types.h`. -/
inductive ContentExtractionMode
  | kSelectedText
  | kMainPageContent
  | kMetadataOnly
deriving DecidableEq, Repr

/-- `ContentExtractionModeToString`. -/
def contentExtractionModeToString : ContentExtractionMode → Text
  | .kSelectedText => "selected_text".toList
  | .kMainPageContent => "main_page_content".toList
  | .kMetadataOnly => "metadata_only".toList

/-- The content of a page; `title` is already in UTF-8. -/
structure ContentEnvelope where
  id : Text
  schemaVersion : Text := "1.0.0".toList
  createdAt : Text
  mode : ContentExtractionMode
  windowId : ℤ
  tabId : ℤ
  url : Text
  origin : Text
  title : Text
  extractedText : Text
  isTruncated : Bool
deriving DecidableEq, Repr

namespace ContentEnvelope

/-- `static_cast<int>(extracted_text_.size())`. -/
def byteLength (envelope : ContentEnvelope) : ℤ :=
  (((envelope.extractedText.map Char.utf8Size).sum : ℕ) : ℤ).bmod (2 ^ 32)

/-- `ContentEnvelope::ToValueDict`. -/
def toValueDict (envelope : ContentEnvelope) : Value :=
  let auth : Value := .dict
    [("mode".toList, .string (contentExtractionModeToString envelope.mode)),
      ("user_initiated".toList, .bool true),
      ("timestamp_utc".toList, .string envelope.createdAt),
      ("scope".toList,
        .string (if envelope.mode = .kSelectedText then "selection".toList else "page".toList))]
  let browser : Value := .dict
    [("name".toList, .string "Lean Thorium".toList),
      ("version".toList, .string "138.0.7204.306".toList)]
  let page : Value := .dict
    [("url".toList, .string envelope.url),
      ("origin".toList, .string envelope.origin),
      ("title".toList, .string envelope.title),
      ("window_id".toList, .int envelope.windowId),
      ("tab_id".toList, .int envelope.tabId)]
  let content : Value := .dict
    [("type".toList, .string "untrusted_web_content".toList),
      ("text".toList, .string envelope.extractedText),
      ("byte_length".toList, .int envelope.byteLength),
      ("is_truncated".toList, .bool envelope.isTruncated)]
  let provenance : Value := .dict
    [("source_type".toList, .string "sensor".toList),
      ("producer_id".toList, .string "thorium_browser_adapter".toList),
      ("capability_id".toList, .string "authorized_content_extraction".toList),
      ("authorization_method".toList, .string "explicit_user_action".toList)]
  .dict
    [("id".toList, .string envelope.id),
      ("schema_version".toList, .string envelope.schemaVersion),
      ("created_at".toList, .string envelope.createdAt),
      ("source_id".toList, .string "thorium_browser_adapter".toList),
      ("metadata".toList, .dict []),
      ("payload".toList, .dict
        [("content_authorization".toList, auth), ("browser".toList, browser),
          ("page".toList, page), ("content".toList, content),
          ("provenance".toList, provenance)])]

/-- `ContentEnvelope::ToJson`. -/
def toJson (writer : JsonWriter) (envelope : ContentEnvelope) : Text :=
  writer.write envelope.toValueDict

end ContentEnvelope

namespace ObservationEnvelope

/-- `ObservationEnvelope::ToJson`. -/
def toJson (writer : JsonWriter) (envelope : ObservationEnvelope) : Text :=
  writer.write envelope.toValueDict

end ObservationEnvelope

/-! ## Envelopes for the transport -/

/-- What the adapter serializes for `SendObservation`. -/
inductive Envelope
  | observation (envelope : ObservationEnvelope)
  | content (envelope : ContentEnvelope)

namespace Envelope

/-- `ToJson` of either envelope. -/
def toJson (writer : JsonWriter) : Envelope → Text
  | .observation envelope => envelope.toJson writer
  | .content envelope => envelope.toJson writer

end Envelope

/-- The text of a value that is marked as web content. -/
def IsContent (writer : JsonWriter) (payload : Text) : Prop :=
  ∃ v : Value, payload = writer.write v
    ∧ v.findString ["payload".toList, "content".toList, "type".toList]
      = some "untrusted_web_content".toList

theorem isContent_content (writer : JsonWriter) (envelope : ContentEnvelope) :
    IsContent writer (envelope.toJson writer) := ⟨envelope.toValueDict, rfl, by rfl⟩

/-- The text of an observation is not the text of anything marked as content. -/
theorem not_isContent_observation (writer : JsonWriter) (envelope : ObservationEnvelope) :
    ¬IsContent writer (envelope.toJson writer) := by
  rintro ⟨v, htext, hmark⟩
  rw [← writer.findString_of_write_eq htext] at hmark
  have hnone : envelope.toValueDict.findString
      ["payload".toList, "content".toList, "type".toList] = none := by rfl
  rw [hnone] at hmark
  cases hmark

end ThoriumFrugal.Cognitia

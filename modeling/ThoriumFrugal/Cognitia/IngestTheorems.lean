import ThoriumFrugal.Cognitia.ContentRetentionTheorems
import ThoriumFrugal.Cognitia.PipelineTheorems
import ThoriumFrugal.Protocol.JsonRoundTrip

/-!
# From the pipe to Python

The peer takes a line of the pipe with `json.loads` and calls `Observation` with what stands under
six of its keys, as `test_cognitia_contract.py` does. Whatever an envelope holds, a text that
`json.loads` reads back gives the arguments of that envelope. The class `Observation` is not in the
repository: what its constructor makes of them is left out.
-/

namespace ThoriumFrugal.Cognitia

open Lib
open Protocol (Json)

/-! ## Values in Python -/

namespace Value

mutual

/-- The Python value with the content of a `base::Value`. -/
def toJson : Value → Json
  | .bool b => .bool b
  | .int n => .int n
  | .string s => .str (String.ofList s)
  | .dict entries => .obj (entriesToJson entries)

/-- The entries of a dictionary, each read as its value. -/
def entriesToJson : List (Text × Value) → List (String × Json)
  | [] => []
  | (key, v) :: entries => (String.ofList key, toJson v) :: entriesToJson entries

end

/-- A key and its value. -/
def entryToJson (entry : Text × Value) : String × Json := (String.ofList entry.1, toJson entry.2)

/-- The same, entry by entry. -/
theorem entriesToJson_eq_map (entries : List (Text × Value)) :
    entriesToJson entries = entries.map entryToJson := by
  induction entries with
  | nil => rfl
  | cons entry entries ih => rw [entriesToJson, ih, List.map_cons, entryToJson]

mutual

/-- A `base::Value::Dict` is a map: it has a key once. -/
def isMap : Value → Bool
  | .dict entries => decide (entries.map Prod.fst).Nodup && areMaps entries
  | _ => true

/-- All entries are maps where they are dictionaries. -/
def areMaps : List (Text × Value) → Bool
  | [] => true
  | (_, v) :: entries => isMap v && areMaps entries

end

/-! ## Texts -/

theorem hexDigit?_hexDigit {d : ℕ} (h : d < 16) : Json.hexDigit? (hexDigit d) = some d := by
  revert d
  decide

/-- What is written for a character is read as that character. -/
theorem readsBack_escapeChar : Json.ReadsBack escapeChar := by
  intro c r
  have hescape : ∀ t, Json.readChar '\\' (t ++ r) = pure (c, r) →
      ∃ d t', '\\' :: t = d :: t' ∧ d ≠ '"' ∧ Json.readChar d (t' ++ r) = pure (c, r) :=
    fun t h => ⟨'\\', t, rfl, by decide, h⟩
  unfold escapeChar
  split
  · next h => exact hescape _ (by rw [h]; rfl)
  split
  · next h => exact hescape _ (by rw [h]; rfl)
  split
  · next h => exact hescape _ (by rw [h]; rfl)
  split
  · next h => exact hescape _ (by rw [h]; rfl)
  split
  · next h => exact hescape _ (by rw [h]; rfl)
  split
  · next h => exact hescape _ (by rw [h]; rfl)
  next hback =>
  split
  · next h => exact hescape _ (by rw [h]; rfl)
  next hquote =>
  split
  · next h =>
    -- escapes with digits are written for one code unit only
    have hunit : c.toNat < 0xd800 ∨ 0xdfff < c.toNat ∧ c.toNat < 0x10000 := by
      rcases h with h | rfl | rfl | rfl
      · omega
      all_goals decide
    have hread := Json.decodeUnicode_digits hexDigit?_hexDigit hunit r
    rw [Char.ofNat_toNat] at hread
    exact hescape _ hread
  · next hplain =>
    -- any other character is written as it is
    refine ⟨c, [], rfl, hquote, ?_⟩
    unfold Json.readChar
    rw [if_neg hback, if_neg fun h => hplain (.inl h)]
    rfl

/-- A string is written by the writer of the round trip. -/
theorem quote_eq_quoteWith (s : Text) : quote s = Json.quoteWith escapeChar (String.ofList s) := by
  unfold quote Json.quoteWith
  rw [String.toList_ofList]

mutual

/-- So is every value. The induction is over the value. -/
theorem text_eq_textWith : ∀ v : Value, text v = Json.textWith escapeChar [] v.toJson
  | .bool b => rfl
  | .int n => rfl
  | .string s => quote_eq_quoteWith s
  | .dict entries => by
    rw [text, toJson, Json.textWith, entryTexts_eq_entryTextsWith entries]
    rfl

theorem entryTexts_eq_entryTextsWith : ∀ entries : List (Text × Value),
    entryTexts entries = Json.entryTextsWith escapeChar [] (entriesToJson entries)
  | [] => rfl
  | (key, v) :: entries => by
    rw [entryTexts, entriesToJson, Json.entryTextsWith, entryTexts_eq_entryTextsWith entries,
      text_eq_textWith v, quote_eq_quoteWith]
    rfl

end

mutual

/-- A map has each key once, so it reads back. -/
theorem readable_toJson {readFloat : Json.ReadFloat} : ∀ v : Value, v.isMap = true →
    v.toJson.Readable readFloat
  | .bool _, _ => trivial
  | .int _, _ => trivial
  | .string _, _ => trivial
  | .dict entries, h => by
    obtain ⟨hkeys, hvalues⟩ := Bool.and_eq_true_iff.mp h
    have hmap : (entriesToJson entries).map Prod.fst
        = (entries.map Prod.fst).map String.ofList := by
      rw [entriesToJson_eq_map, List.map_map, List.map_map]
      rfl
    refine ⟨?_, readableEntries_entriesToJson entries hvalues⟩
    rw [hmap]
    exact (of_decide_eq_true hkeys).map fun _ _ heq => String.ofList_injective heq

theorem readableEntries_entriesToJson {readFloat : Json.ReadFloat} :
    ∀ entries : List (Text × Value), areMaps entries = true →
      Json.ReadableEntries readFloat (entriesToJson entries)
  | [], _ => trivial
  | (_, v) :: entries, h => by
    obtain ⟨hv, hrest⟩ := Bool.and_eq_true_iff.mp h
    exact ⟨readable_toJson v hv, readableEntries_entriesToJson entries hrest⟩

end

/-! ## The order of keys -/

mutual

/-- Sorting before or after the translation gives the same. -/
theorem toJson_sorted : ∀ v : Value, v.sorted.toJson = v.toJson.sorted
  | .bool _ => rfl
  | .int _ => rfl
  | .string _ => rfl
  | .dict entries => by
    have hsort : (sortEntries (sortedValues entries)).map entryToJson
        = sortByKey Json.KeyLe ((sortedValues entries).map entryToJson) := by
      refine List.map_insertionSort (fun a b : Text × Value => a.1 ≤ b.1)
        (fun a b : String × Json => Json.KeyLe a.1 b.1) entryToJson _ fun a _ b _ => ?_
      show a.1 ≤ b.1 ↔ (String.ofList a.1).toList ≤ (String.ofList b.1).toList
      rw [String.toList_ofList, String.toList_ofList]
    rw [sorted, toJson, toJson, Json.sorted, entriesToJson_eq_map, hsort, ← entriesToJson_eq_map,
      entriesToJson_sortedValues entries]

theorem entriesToJson_sortedValues : ∀ entries : List (Text × Value),
    entriesToJson (sortedValues entries) = Json.sortedValues (entriesToJson entries)
  | [] => rfl
  | (key, v) :: entries => by
    rw [sortedValues, entriesToJson, entriesToJson, Json.sortedValues, toJson_sorted v,
      entriesToJson_sortedValues entries]

end

end Value

/-- What the peer relies on in the writer: `json.loads` reads a written dictionary back. The keys of
a `base::Value::Dict` are in order, so they are in order in the text. -/
def JsonWriter.ReadsBack (writer : JsonWriter) (readFloat : Json.ReadFloat) : Prop :=
  ∀ v : Value, v.isMap = true → Json.loads readFloat (writer.write v) = pure v.toJson.sorted

variable {readFloat : Json.ReadFloat}

/-- Python reads what the compact writer wrote. -/
theorem readsBack_compact : JsonWriter.compact.ReadsBack readFloat := by
  intro v h
  have hreadable : v.toJson.sorted.Readable readFloat :=
    Json.readable_sorted (Value.readable_toJson v h)
  have hread := Json.loads_textWith Value.readsBack_escapeChar (List.forall_mem_nil _) hreadable
    startsIn_nil rfl
  rw [List.append_nil, ← Value.toJson_sorted, ← Value.text_eq_textWith] at hread
  rw [← Value.toJson_sorted]
  exact hread

/-! ## The arguments of an observation -/

open Protocol.MessageEnvelope (Decode fail item)

/-- What `Observation(…)` is called with. -/
structure ObservationArgs where
  id : Json
  schemaVersion : Json
  createdAt : Json
  sourceId : Json
  metadata : Json
  payload : Json

/-- `json.loads`, and the six keys that are looked up in what it gives. -/
def observationArgs (readFloat : Json.ReadFloat) (rawJsonStr : Text) : Decode ObservationArgs := do
  match ← Json.loads readFloat rawJsonStr with
  | .obj parsedDict =>
    return {
      id := ← item parsedDict "id"
      schemaVersion := ← item parsedDict "schema_version"
      createdAt := ← item parsedDict "created_at"
      sourceId := ← item parsedDict "source_id"
      metadata := ← item parsedDict "metadata"
      payload := ← item parsedDict "payload" }
  | _ => fail .typeError

namespace Envelope

/-- `ToValueDict` of either envelope. -/
def toValueDict : Envelope → Value
  | .observation envelope => envelope.toValueDict
  | .content envelope => envelope.toValueDict

theorem toJson_eq (writer : JsonWriter) (envelope : Envelope) :
    envelope.toJson writer = writer.write envelope.toValueDict := by
  cases envelope <;> rfl

/-- An envelope writes each key once. -/
theorem isMap_toValueDict (envelope : Envelope) : envelope.toValueDict.isMap = true := by
  cases envelope <;> rfl

/-- The id of either envelope. -/
def id : Envelope → Text
  | .observation envelope => envelope.id
  | .content envelope => envelope.id

/-- The schema version of either envelope. -/
def schemaVersion : Envelope → Text
  | .observation envelope => envelope.schemaVersion
  | .content envelope => envelope.schemaVersion

/-- The time stamp of either envelope. -/
def createdAt : Envelope → Text
  | .observation envelope => envelope.createdAt
  | .content envelope => envelope.createdAt

/-- The dictionary under `payload`. -/
def payload (envelope : Envelope) : Value :=
  (envelope.toValueDict.find ["payload".toList]).getD (.dict [])

/-- The arguments that an envelope stands for. -/
def toArgs (envelope : Envelope) : ObservationArgs where
  id := .str (String.ofList envelope.id)
  schemaVersion := .str (String.ofList envelope.schemaVersion)
  createdAt := .str (String.ofList envelope.createdAt)
  sourceId := .str "thorium_browser_adapter"
  metadata := .obj []
  payload := envelope.payload.toJson.sorted

end Envelope

/-- `parsed_dict[key]`, for the dictionary that was written. -/
def field (entries : List (Text × Value)) (key : String) : Decode Json :=
  match entries.lookup key.toList with
  | some v => pure v.toJson.sorted
  | none => fail .keyError

/-- A key is found where it was. -/
theorem lookup_map_entryToJson (entries : List (Text × Value)) (key : String) :
    (entries.map Value.entryToJson).lookup key = (entries.lookup key.toList).map Value.toJson := by
  induction entries with
  | nil => rfl
  | cons entry entries ih =>
    have hkey : (key == String.ofList entry.1) = (key.toList == entry.1) := by
      rw [Bool.eq_iff_iff, beq_iff_eq, beq_iff_eq, ← String.toList_inj, String.toList_ofList]
    rw [List.map_cons, List.lookup_cons, List.lookup_cons, ih]
    show (match key == String.ofList entry.1 with | true => _ | false => _) = _
    rw [hkey]
    cases key.toList == entry.1 <;> rfl

/-- What Python finds under a key of a dictionary that was written. -/
theorem get?_sorted_toJson (entries : List (Text × Value)) (key : String) :
    Json.get? (sortByKey Json.KeyLe (Json.sortedValues (Value.entriesToJson entries))) key
      = (entries.lookup key.toList).map fun v => v.toJson.sorted := by
  rw [Json.get?_sortByKey, Json.get?_sortedValues, Value.entriesToJson_eq_map]
  unfold Json.get?
  rw [lookup_map_entryToJson, Option.map_map]
  rfl

/-- Sorting does not change what stands under a key. -/
theorem item_sorted_toJson (entries : List (Text × Value)) (key : String) :
    item (sortByKey Json.KeyLe (Json.sortedValues (Value.entriesToJson entries))) key
      = field entries key := by
  unfold item field
  rw [get?_sorted_toJson]
  cases entries.lookup key.toList <;> rfl

/-- The keys are looked up in the dictionary that was written. -/
theorem observationArgs_write {writer : JsonWriter} (hreads : writer.ReadsBack readFloat)
    {entries : List (Text × Value)} (h : (Value.dict entries).isMap = true) :
    observationArgs readFloat (writer.write (.dict entries)) = do
      return {
        id := ← field entries "id"
        schemaVersion := ← field entries "schema_version"
        createdAt := ← field entries "created_at"
        sourceId := ← field entries "source_id"
        metadata := ← field entries "metadata"
        payload := ← field entries "payload" } := by
  unfold observationArgs
  rw [hreads _ h, pure_bind, Value.toJson, Json.sorted]
  simp only [item_sorted_toJson]

/-- Whatever its strings hold, the text of an envelope gives its arguments. -/
theorem observationArgs_toJson {writer : JsonWriter} (hreads : writer.ReadsBack readFloat)
    (envelope : Envelope) :
    observationArgs readFloat (envelope.toJson writer) = pure envelope.toArgs := by
  have hmap := envelope.isMap_toValueDict
  rw [Envelope.toJson_eq]
  cases envelope with
  | observation envelope => exact observationArgs_write hreads hmap
  | content envelope => exact observationArgs_write hreads hmap

/-! ## Lines of the pipe -/

/-- `value[key]…[key]`, none where that raises. -/
def subscript (value : Json) : List String → Option Json
  | [] => some value
  | key :: path =>
    match value with
    | .obj entries => (Json.get? entries key).bind fun v => subscript v path
    | _ => none

/-- Nor what stands under a path. -/
theorem subscript_sorted_toJson (v : Value) (path : List String) :
    subscript v.toJson.sorted path
      = (v.find (path.map String.toList)).map fun w => w.toJson.sorted := by
  induction path generalizing v with
  | nil => rfl
  | cons key path ih =>
    cases v with
    | dict entries =>
      rw [Value.toJson, Json.sorted, subscript, get?_sorted_toJson, List.map_cons, Value.find]
      cases entries.lookup key.toList with
      | none => rfl
      | some w => exact ih w
    | _ => rfl

namespace ObservationPipeline

/-- At every moment each complete line in the pipe is read by `json.loads` and has the six keys. Its
payload is that of an observation from a sensor, which some callback emitted while the last
`SetEnabled` before it enabled the collector, with a URL sanitized under the policy last set before
it. -/
theorem observationArgs_line {writer : LineWriter} (hreads : writer.ReadsBack readFloat)
    (lib : UrlLibrary) (steps : List Step) {s line : Text}
    (hs : s <+: (after lib writer steps).stream) (hline : line ∈ received '\n' s) :
    ∃ past call rest args, steps = past ++ .callback call :: rest ∧ enabledAfter past = true
      ∧ observationArgs readFloat line = pure args
      ∧ subscript args.payload ["provenance", "source_type"] = some (.str "sensor")
      ∧ ∃ url ∈ urls call, subscript args.payload ["page", "url"]
        = some (.str (String.ofList (UrlSanitizer.sanitizeUrl lib url (policyAfter past)))) := by
  obtain ⟨past, call, rest, hsplit, hon, envelope, rfl, url, hurl, hsanitized⟩ :=
    received_line lib writer steps hs hline
  have hsource : subscript (Envelope.observation envelope).toArgs.payload
      ["provenance", "source_type"] = some (.str "sensor") := subscript_sorted_toJson _ _
  have hpage : subscript (Envelope.observation envelope).toArgs.payload ["page", "url"]
      = some (.str (String.ofList envelope.url)) := subscript_sorted_toJson _ _
  refine ⟨past, call, rest, _, hsplit, hon, observationArgs_toJson hreads (.observation envelope),
    hsource, url, hurl, ?_⟩
  rw [hpage, hsanitized]

/-- What the enabled collector reports of the page. -/
def loginEnvelope : ObservationEnvelope where
  id := "1".toList
  createdAt := "2026-01-01T00:00:00.000Z".toList
  eventType := .kNavigationStarted
  windowId := 1
  tabId := 0
  isActiveTab := true
  url := UrlSanitizer.sanitizeUrl httpsLibrary (loginUrl "red".toList) .kFullUrlSanitized
  origin := "https://news.example/".toList
  title := []
  isIncognito := false

/-- Only the visit behind the switch is written. -/
theorem stream_stroll :
    (after httpsLibrary .compact (stroll "red".toList)).stream
      = framed '\n' [LineWriter.compact.write loginEnvelope.toValueDict] := by
  rfl

theorem observationArgs_stroll :
    let line := LineWriter.compact.write loginEnvelope.toValueDict
    ∃ past call rest args, stroll "red".toList = past ++ .callback call :: rest
      ∧ enabledAfter past = true ∧ observationArgs (fun _ => none) line = pure args
      ∧ subscript args.payload ["provenance", "source_type"] = some (.str "sensor")
      ∧ ∃ url ∈ urls call, subscript args.payload ["page", "url"] = some (.str (String.ofList
        (UrlSanitizer.sanitizeUrl httpsLibrary url (policyAfter past)))) := by
  refine @observationArgs_line (fun _ => none) .compact readsBack_compact httpsLibrary
    (stroll "red".toList) _ _ (List.prefix_refl _) ?_
  rw [stream_stroll, received_framed fun m hm => ?_]
  · exact List.mem_singleton_self _
  · rw [List.mem_singleton.mp hm]
    exact LineWriter.compact.newline_not_mem_write _

end ObservationPipeline

/-! ## Whatever is sent -/

namespace Channel

open ObservationPipeline (exists_written exists_map_eq_of_perm)

end Channel

end ThoriumFrugal.Cognitia

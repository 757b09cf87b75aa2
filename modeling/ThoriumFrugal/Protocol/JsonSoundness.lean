import ThoriumFrugal.Protocol.JsonRoundTrip

/-!
# What the reader accepts

Whatever text `json.loads` accepts, the value is one that `json.dumps` writes and `json.loads`
reads back: an object has a key once, a float is what its `repr` reads as. So an envelope that
`from_json` accepts is written as a text that `from_json` accepts again, as the same envelope.
-/

namespace ThoriumFrugal.Protocol

open Lib

namespace Json

open MessageEnvelope (Decode fail)

variable {readFloat : ReadFloat} {s : Text}

/-- `float(repr(x)) == x`, and the `repr` of a float is the text of a number. -/
def ReprsReadBack (readFloat : ReadFloat) : Prop :=
  ∀ t value repr, readFloat t = some (value, repr) →
    scanNumber readFloat repr.toList = some (pure (.float value repr, []))

/-! ## Dictionaries -/

/-- A key that is set twice keeps its place, and a new one comes last. -/
theorem map_fst_setItem (entries : List (String × Json)) (key : String) (value : Json) :
    (setItem entries key value).map Prod.fst
      = if hasKey entries key then entries.map Prod.fst else entries.map Prod.fst ++ [key] := by
  unfold setItem
  split
  · rw [List.map_map]
    refine List.map_congr_left fun entry _ => ?_
    by_cases heq : entry.1 = key
    · simp [heq]
    · simp [heq]
  · rw [List.map_append]
    rfl

/-- A key that is not found is no key of an entry. -/
theorem not_mem_of_hasKey_eq_false {entries : List (String × Json)} {key : String}
    (h : ¬hasKey entries key = true) : key ∉ entries.map Prod.fst := by
  intro hmem
  obtain ⟨entry, hentry, rfl⟩ := List.mem_map.mp hmem
  unfold hasKey get? at h
  rw [Bool.not_eq_true, Option.isSome_eq_false_iff, Option.isNone_iff_eq_none,
    List.lookup_eq_none_iff] at h
  have hne := h entry hentry
  simp at hne

/-- A key has one place. -/
theorem nodup_dictOf (pairs : List (String × Json)) : ((dictOf pairs).map Prod.fst).Nodup := by
  unfold dictOf
  induction pairs using List.reverseRecOn with
  | nil => exact List.nodup_nil
  | append_singleton pairs pair ih =>
    rw [List.foldl_append, List.foldl_cons, List.foldl_nil, map_fst_setItem]
    split
    · exact ih
    · next hkey =>
      rw [← List.concat_eq_append]
      exact ih.concat (not_mem_of_hasKey_eq_false hkey)

/-- An entry after setting a key is an old one or the new one. -/
theorem mem_setItem {entries : List (String × Json)} {key : String} {value : Json}
    {entry : String × Json} (h : entry ∈ setItem entries key value) :
    entry ∈ entries ∨ entry = (key, value) := by
  unfold setItem at h
  split at h
  · obtain ⟨old, hold, rfl⟩ := List.mem_map.mp h
    split
    · exact .inr rfl
    · exact .inl hold
  · rwa [List.mem_append, List.mem_singleton] at h

/-- No value is made up. -/
theorem mem_of_mem_dictOf {pairs : List (String × Json)} {entry : String × Json}
    (h : entry ∈ dictOf pairs) : entry ∈ pairs := by
  unfold dictOf at h
  induction pairs using List.reverseRecOn with
  | nil => exact h
  | append_singleton pairs pair ih =>
    rw [List.foldl_append, List.foldl_cons, List.foldl_nil] at h
    rw [List.mem_append, List.mem_singleton]
    exact (mem_setItem h).imp_left ih

/-- A dictionary of readable values is readable: each key is in it once. -/
theorem readable_dictOf {pairs : List (String × Json)}
    (h : ∀ pair ∈ pairs, pair.2.Readable readFloat) :
    (Json.obj (dictOf pairs)).Readable readFloat :=
  ⟨nodup_dictOf pairs, readableEntries_iff.mpr fun entry hentry =>
    h entry (mem_of_mem_dictOf hentry)⟩

/-! ## Values -/

/-- A number that is read is an integer, or a float whose text reads back. -/
theorem readable_scanNumber (hfloat : ReprsReadBack readFloat) {result : Decode (Json × Text)}
    (h : scanNumber readFloat s = some result) :
    Yields (fun p => p.1.Readable readFloat) result := by
  unfold scanNumber at h
  rw [Option.map_eq_some_iff] at h
  obtain ⟨⟨integer, r⟩, -, rfl⟩ := h
  simp only
  split
  · exact .pure trivial
  · split
    · next value repr hread => exact .pure (hfloat _ value repr hread)
    · exact .outside

/-- The values without parts are readable. -/
theorem readable_scanAtom (hfloat : ReprsReadBack readFloat) (s : Text) :
    Yields (fun p => p.1.Readable readFloat) (scanAtom readFloat s) := by
  unfold scanAtom
  split
  · exact .pure trivial
  split
  · exact .pure trivial
  split
  · exact .pure trivial
  split
  · next h => exact readable_scanNumber hfloat h
  split
  · exact .outside
  · exact .fail

/-- Reading builds readable values. -/
theorem readable_scan (hfloat : ReprsReadBack readFloat) (n : ℕ) :
    (∀ s, Yields (fun p => p.1.Readable readFloat) (scanOnce readFloat n s))
      ∧ (∀ s, Yields (fun p => ∀ item ∈ p.1, item.Readable readFloat) (scanItems readFloat n s))
      ∧ ∀ s, Yields (fun p => ∀ pair ∈ p.1, pair.2.Readable readFloat)
        (scanPairs readFloat n s) := by
  -- the rounds as in `leaves_scan`
  induction n with
  | zero => exact ⟨fun _ => .outside, fun _ => .outside, fun _ => .outside⟩
  | succ n ih =>
    obtain ⟨honce, hitems, hpairs⟩ := ih
    refine ⟨fun s => ?_, fun s => ?_, fun s => ?_⟩
    · unfold scanOnce
      split
      · next heq => cases heq
      · exact Yields.bind (P := fun _ => True) (fun _ _ => trivial) fun p _ => .pure trivial
      · -- an array of readable items
        next rounds r heq =>
        obtain rfl := Nat.succ.inj heq
        split
        · exact .pure trivial
        · exact (hitems _).bind fun p hp => .pure (readableItems_iff.mpr hp)
      · -- an object, whose keys are made distinct
        next rounds r heq =>
        obtain rfl := Nat.succ.inj heq
        split
        · exact .pure ⟨List.nodup_nil, trivial⟩
        · exact (hpairs _).bind fun p hp => .pure (readable_dictOf hp)
        · exact .fail
      · exact readable_scanAtom hfloat _
    · rw [scanItems]
      refine (honce s).bind fun p hp => ?_
      simp only
      split
      · exact .pure (List.forall_mem_singleton.mpr hp)
      · exact (hitems _).bind fun q hq => .pure (List.forall_mem_cons.mpr ⟨hp, hq⟩)
      · exact .fail
    · rw [scanPairs]
      refine Yields.bind (P := fun _ => True) (fun _ _ => trivial) fun key _ => ?_
      simp only
      split
      · refine (honce _).bind fun p hp => ?_
        split
        · exact .pure (List.forall_mem_singleton.mpr hp)
        · split
          · exact (hpairs _).bind fun q hq => .pure (List.forall_mem_cons.mpr ⟨hp, hq⟩)
          · exact .fail
        · exact .fail
      · exact .fail

/-- Every value that is read is readable. -/
theorem readable_loads (hfloat : ReprsReadBack readFloat) (s : Text) :
    Yields (fun v => v.Readable readFloat) (loads readFloat s) := by
  unfold loads
  split
  · exact .fail
  · refine ((readable_scan hfloat _).1 _).bind fun p hp => ?_
    simp only
    split
    · exact .pure hp
    · exact .fail

end Json

/-! ## Envelopes -/

namespace MessageEnvelope

open Json

variable {readFloat : ReadFloat} {s : Text}

/-- So is what stands under a key of a readable dictionary. -/
theorem readable_itemOr {d : List (String × Json)} {key : String} {default : Json}
    (hd : (Json.obj d).Readable readFloat) (hdefault : default.Readable readFloat) :
    (itemOr d key default).Readable readFloat := by
  unfold itemOr
  cases hget : get? d key with
  | none => exact hdefault
  | some value =>
    obtain ⟨front, back, rfl, -⟩ := List.lookup_eq_some_iff.mp hget
    exact readableEntries_iff.mp hd.2 (key, value) (by simp)

/-- The constructor leaves the payload as it is. -/
theorem readable_make {protocolVersion : String} {messageType : MessageType}
    {messageId sessionId : String} {sequenceNumber : ℤ} {timestamp : String}
    {source : SourceIdentity} {payload : Json} {correlationId causationId : Option String}
    (h : payload.Readable readFloat) :
    Yields (fun e => e.payload.Readable readFloat) (make protocolVersion messageType messageId
      sessionId sequenceNumber timestamp source payload correlationId causationId) := by
  unfold make
  split
  · split
    · split
      · exact .pure h
      · exact .fail
    · exact .fail
  · exact .fail

/-- The payload of an envelope is part of what it is decoded from. -/
theorem readable_fromDict {raw : Json} (h : raw.Readable readFloat) :
    Yields (fun e => e.payload.Readable readFloat) (fromDict raw) := by
  unfold fromDict
  refine Yields.bind (P := fun d => (Json.obj d).Readable readFloat) ?_ fun d hd => ?_
  · cases raw with
    | obj entries => exact .pure h
    | _ => exact .fail
  have hpayload : (itemOr d "payload" (.obj [])).Readable readFloat :=
    readable_itemOr hd ⟨List.nodup_nil, trivial⟩
  repeat refine Yields.bind (P := fun _ => True) (fun _ _ => trivial) fun _ _ => ?_
  exact readable_make hpayload

/-- The payload of an envelope that was read is readable. -/
theorem readable_fromJson (hfloat : ReprsReadBack readFloat) (s : Text) :
    Yields (fun e => e.payload.Readable readFloat) (fromJson readFloat s) :=
  (readable_loads hfloat s).bind fun _ hraw => readable_fromDict hraw

/-- A text that `from_json` reads as an envelope of the model (its fields have the declared types,
and there is no `NaN`, no infinity and no lone surrogate in it) has a normal form, which is read as
the same envelope, up to the order of the keys in the payload, and which writing it again gives
back. -/
theorem fromJson_normalizes (hfloat : ReprsReadBack readFloat) {e : MessageEnvelope}
    (h : fromJson readFloat s = pure e) :
    fromJson readFloat e.toJson = pure e.sortPayload ∧ e.sortPayload.toJson = e.toJson :=
  ⟨fromJson_written (readable_fromJson hfloat s e h), toJson_sortPayload e⟩

/-- A text with blanks, escapes, a key twice, and keys that are not in order or missing. -/
def loose : Text :=
  "\x7b \"protocol_version\":\"1.1\", \"message_type\":\"OBSERVATION\",".toList
    ++ " \"session_id\":\"s\",\"message_id\":\"00000000-0000-0000-0000-000000000007\",".toList
    ++ " \"timestamp\":\"t\",".toList
    ++ "\"sequence_number\":1, \"sequence_number\":2.0,".toList
    ++ " \"payload\" : \x7b\"b\":[2.0, -7,null],\t\"a\":\"\\u00e9\\/\"\x7d\n\x7d ".toList

/-- `float("2.0")`. -/
def readTwo : ReadFloat := fun t => if t = "2.0".toList then some (2, "2.0") else none

/-- The same, as it is written. -/
def normalForm : Text :=
  "\x7b\"causation_id\": null, \"correlation_id\": null,".toList
    ++ " \"message_id\": \"00000000-0000-0000-0000-000000000007\",".toList
    ++ " \"message_type\": \"OBSERVATION\",".toList
    ++ " \"payload\": \x7b\"a\": \"é/\", \"b\": [2.0, -7, null]\x7d,".toList
    ++ " \"protocol_version\": \"1.1\", \"sequence_number\": 2, \"session_id\": \"s\",".toList
    ++ " \"source\": \x7b\"adapter\": \"cognitia_adapter\", \"application\": \"thorium\",".toList
    ++ " \"component\": \"observation_collector\",".toList
    ++ " \"instance_id\": \"default_instance\"\x7d,".toList
    ++ " \"timestamp\": \"t\"\x7d".toList

/-- Decoding that succeeds has a result, and what is computed from it is known. -/
theorem exists_eq_pure {α β : Type} {x : Decode α} {f : α → β} {b : β}
    (h : (x.run.bind Except.toOption).map f = some b) : ∃ a, x = pure a ∧ f a = b := by
  match x, h with
  | some (.ok a), h => exact ⟨a, rfl, Option.some.inj h⟩

/-- The reader of one float reads it back. -/
theorem reprsReadBack_readTwo : ReprsReadBack readTwo := by
  intro t value repr h
  unfold readTwo at h
  split at h
  · obtain ⟨rfl, rfl⟩ := Prod.mk.inj (Option.some.inj h)
    rfl
  · cases h

/-- The loose text and its normal form. -/
theorem fromJson_normalizes_loose :
    ∃ e, fromJson readTwo loose = pure e ∧ e.toJson = normalForm
      ∧ fromJson readTwo e.toJson = pure e.sortPayload ∧ e.sortPayload.toJson = e.toJson := by
  obtain ⟨e, hread, hwritten⟩ : ∃ e, fromJson readTwo loose = pure e ∧ e.toJson = normalForm :=
    exists_eq_pure (by decide +kernel)
  exact ⟨e, hread, hwritten, fromJson_normalizes reprsReadBack_readTwo hread⟩

end MessageEnvelope
end ThoriumFrugal.Protocol

import ThoriumFrugal.Protocol.JsonAscii
import ThoriumFrugal.Protocol.MockCognitiaDaemon

/-!
# Recording and replay

`EventRecorder` and `ReplayHarness` of `replay_harness.py`, and `MessageEnvelope.from_dict`. SHA-256
is a parameter; a hasher is what it was updated with. `TraceFile` has the file of a recorder.
-/

namespace ThoriumFrugal.Protocol

open Lib

/-! ## Decoding -/

namespace MessageEnvelope

/-- The result of decoding, none for a dictionary with a field of a type that no envelope of the
model has: Python does not check the types of the fields. -/
abbrev Decode := ExceptT PyError Option

/-- `raise err`. -/
def fail {α : Type} (err : PyError) : Decode α := ExceptT.mk (some (.error err))

/-- `entries[key]`. -/
def item (entries : List (String × Json)) (key : String) : Decode Json :=
  match Json.get? entries key with
  | some value => pure value
  | none => fail .keyError

/-- `entries.get(key, default)`. -/
def itemOr (entries : List (String × Json)) (key : String) (default : Json) : Json :=
  (Json.get? entries key).getD default

/-- A field of a dictionary, which `value` has to be. -/
def dict (value : Json) : Decode (List (String × Json)) :=
  match value with
  | .obj entries => pure entries
  | _ => fail .attributeError

/-- A field that an envelope of the model has as a string. Python checks no types here and takes any
other value as well, for instance `"session_id": 7`; such an envelope is outside the model. -/
def text (value : Json) : Decode String :=
  match value with
  | .str s => pure s
  | _ => ExceptT.lift none

/-- A string or `None`; any other value, which Python takes as well, is outside the model. -/
def optionText (value : Json) : Decode (Option String) :=
  match value with
  | .null => pure none
  | .str s => pure (some s)
  | _ => ExceptT.lift none

/-- `int(value)`. Of the strings `int` takes those that hold an integer, such as `"5"`, and raises a
`ValueError` on the others; both are outside the model. -/
def pyInt (value : Json) : Decode ℤ :=
  match value with
  | .int n => pure n
  | .bool b => pure (if b then 1 else 0)
  | .float value _ => pure (value.num.tdiv value.den)
  | .str _ => ExceptT.lift none
  | _ => fail .typeError

/-- `MessageType(value)`. -/
def messageTypeOf (value : Json) : Decode MessageType :=
  match value with
  | .str s =>
    match MessageType.ofValue? s with
    | some t => pure t
    | none => fail .valueError
  | _ => fail .valueError

/-- `SourceIdentity(…)` of the entries of a source. -/
def sourceOf (entries : List (String × Json)) : Decode SourceIdentity := do
  let application ← text (itemOr entries "application" (.str "thorium"))
  let adapter ← text (itemOr entries "adapter" (.str "cognitia_adapter"))
  let component ← text (itemOr entries "component" (.str "observation_collector"))
  let instanceId ← text (itemOr entries "instance_id" (.str "default_instance"))
  return { application, adapter, component, instanceId }

/-- The constructor, with the checks of `__post_init__`. -/
def make (protocolVersion : String) (messageType : MessageType) (messageId sessionId : String)
    (sequenceNumber : ℤ) (timestamp : String) (source : SourceIdentity) (payload : Json)
    (correlationId causationId : Option String) : Decode MessageEnvelope :=
  if version_supported : supportedVersion protocolVersion = true then
    if sequence_pos : 1 ≤ sequenceNumber.toNat then
      if messageId_uuid : (Uuid.parse messageId).isSome = true then
        return {
          protocolVersion, messageType, messageId, sessionId
          sequenceNumber := sequenceNumber.toNat
          timestamp, source, payload, correlationId, causationId
          version_supported, sequence_pos, messageId_uuid }
      else fail .valueError
    else fail .valueError
  else fail .valueError

/-- `from_dict`. -/
def fromDict (raw : Json) : Decode MessageEnvelope := do
  let d ← dict raw
  let srcRaw ← dict (itemOr d "source" (.obj []))
  let src ← sourceOf srcRaw
  let protocolVersion ← text (← item d "protocol_version")
  let messageType ← messageTypeOf (← item d "message_type")
  let messageId ← text (← item d "message_id")
  let sessionId ← text (← item d "session_id")
  let sequenceNumber ← pyInt (← item d "sequence_number")
  let timestamp ← text (← item d "timestamp")
  let payload := itemOr d "payload" (.obj [])
  let correlationId ← optionText (itemOr d "correlation_id" .null)
  let causationId ← optionText (itemOr d "causation_id" .null)
  make protocolVersion messageType messageId sessionId sequenceNumber timestamp src payload
    correlationId causationId

end MessageEnvelope

/-! ## Hashing -/

/-- `hashlib.sha256()`, as the bytes it was updated with. -/
structure Hasher where
  input : ByteArray := .empty

namespace Hasher

/-- `update` of a hash object. -/
def update (hasher : Hasher) (bytes : ByteArray) : Hasher :=
  { hasher with input := hasher.input ++ bytes }

/-- `hexdigest`, by the hash of what was put in. -/
def hexdigest (sha256 : ByteArray → String) (hasher : Hasher) : String := sha256 hasher.input

end Hasher

/-- `text.encode("utf-8")`. -/
def encode (text : Text) : ByteArray := (String.ofList text).toUTF8

/-- `hasher.update(json.dumps(event, sort_keys=True).encode("utf-8"))`. -/
def hashEvent (hasher : Hasher) (event : Json) : Hasher :=
  hasher.update (encode (Json.dumpsAscii event))

/-! ## The recorder -/

/-- The events in the order in which they came. -/
structure EventRecorder where
  recordedEvents : List Json := []

namespace EventRecorder

/-- `record_envelope`. -/
def recordEnvelope (recorder : EventRecorder) (envelope : MessageEnvelope) : EventRecorder :=
  { recorder with recordedEvents := recorder.recordedEvents ++ [envelope.toDict] }

/-- The hasher of `get_trace_sha256` after its loop. -/
def traceHasher (recorder : EventRecorder) : Hasher := recorder.recordedEvents.foldl hashEvent {}

/-- `get_trace_sha256`. -/
def getTraceSha256 (sha256 : ByteArray → String) (recorder : EventRecorder) : String :=
  recorder.traceHasher.hexdigest sha256

/-- `clear`. -/
def clear (recorder : EventRecorder) : EventRecorder := { recorder with recordedEvents := [] }

end EventRecorder

/-! ## The harness -/

/-- The summary of a replay. -/
structure ReplaySummary where
  processedCount : ℕ
  traceSha256 : String
  finalSessionId : Option String
  observationsCount : ℕ
  authorizationsCount : ℕ
  resultsCount : ℕ
  status : String := "PASS"

/-- An exception that ends a loop over events, with the index of the event. -/
structure Raised where
  index : ℕ
  error : PyError

/-- The attributes of the harness. -/
structure ReplayHarness where
  daemonToken : String := "mock_secret_token"

namespace ReplayHarness

/-- The local variables of `replay_events`. -/
structure ReplayState where
  daemon : MockCognitiaDaemon
  validator : ProtocolValidator := {}
  secValidator : SecurityValidator := {}
  processedCount : ℕ := 0
  hasher : Hasher := {}

/-- The body of the loop, for a decoded event. -/
def replayEnvelope (lib : PyLib) (w : World) (s : ReplayState) (rawEvt : Json)
    (envelope : MessageEnvelope) : Except PyError ReplayState := do
  let validated := s.validator.validateEnvelope envelope
  let () ← validated.1
  let () ← s.secValidator.validateMessageSecurity lib envelope
  let processed := s.daemon.processIncomingEnvelope lib w envelope
  let _ ← processed.1
  return { s with
    daemon := processed.2
    validator := validated.2
    processedCount := s.processedCount + 1
    hasher := hashEvent s.hasher rawEvt }

/-- The loop over the events; `ws n` is what the daemon reads at the event with index `n`. -/
def replayLoop (lib : PyLib) (ws : ℕ → World) (s : ReplayState) :
    List Json → Option (Except Raised ReplayState)
  | [] => some (.ok s)
  | rawEvt :: events =>
    match (MessageEnvelope.fromDict rawEvt).run with
    | none => none
    | some (.error err) => some (.error ⟨s.processedCount, err⟩)
    | some (.ok envelope) =>
      match replayEnvelope lib (ws s.processedCount) s rawEvt envelope with
      | .error err => some (.error ⟨s.processedCount, err⟩)
      | .ok s => replayLoop lib ws s events

/-- The summary of the state behind the loop. -/
def summary (sha256 : ByteArray → String) (s : ReplayState) : ReplaySummary :=
  { processedCount := s.processedCount
    traceSha256 := s.hasher.hexdigest sha256
    finalSessionId := s.daemon.activeSessionId
    observationsCount := s.daemon.observationsStore.length
    authorizationsCount := s.daemon.authorizationsStore.keys.card
    resultsCount := s.daemon.executionResultsStore.keys.card }

/-- The summary of the replay, or what it raises; none for events that the model has no envelopes
for. -/
def replayEvents (lib : PyLib) (sha256 : ByteArray → String) (ws : ℕ → World)
    (harness : ReplayHarness) (events : List Json) : Option (Except Raised ReplaySummary) :=
  (replayLoop lib ws { daemon := { expectedToken := harness.daemonToken } } events).map
    fun outcome => outcome.map (summary sha256)

end ReplayHarness
end ThoriumFrugal.Protocol

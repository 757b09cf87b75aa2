import ThoriumFrugal.Protocol.Types

/-!
# The protocol validator

`validateEnvelope` returns the outcome of a call together with the state it leaves behind: an
exception after the session check leaves the changes of that check in place. The stages of the
call are definitions of their own, in the order of the source.
-/

namespace ThoriumFrugal.Protocol

open Lib

/-- The attributes of the validator. -/
structure ProtocolValidator where
  activeSessionId : Option String := none
  lastSequenceNumber : ℕ := 0
  seenMessageIds : Finset String := ∅
  sessionEstablished : Bool := false
  seenSequenceNumbers : Finset ℕ := ∅

/-- The truth value of a session id: `None` and the empty string are false. -/
def truthy : Option String → Bool
  | none => false
  | some s => s ≠ ""

@[simp] theorem truthy_some (s : String) : truthy (some s) = true ↔ s ≠ "" := by
  simp [truthy]

namespace ProtocolValidator

/-- `reset_session`. -/
def resetSession (v : ProtocolValidator) (sessionId : Option String) : ProtocolValidator :=
  { v with
    activeSessionId := sessionId
    lastSequenceNumber := 0
    seenMessageIds := ∅
    seenSequenceNumbers := ∅
    sessionEstablished := sessionId.isSome }

/-! ## Payloads -/

/-- The error of a payload without a required field. -/
def missingField (what : String) : PyError :=
  .protocolValidation "ERR_PAYLOAD_MISSING_FIELD" [.text what]

/-- `entries.get(key)`. -/
def getOrNone (entries : List (String × Json)) (key : String) : Json :=
  (Json.get? entries key).getD .null

/-- Whether the context of an observation is a dictionary with the required keys. -/
def isContext : Option Json → Bool
  | some (.obj ctx) => Json.hasKey ctx "tab_id" && Json.hasKey ctx "url"
  | _ => false

/-- Whether a value is one of the statuses. -/
def isStatus (value : Option Json) : Bool := validStatuses.any fun s => Json.isStr value s

/-- `_validate_payload`. -/
def validatePayload (msgType : MessageType) (payload : Json) : Except PyError Unit :=
  match payload with
  | .obj entries =>
    match msgType with
    | .observation => do
      raiseIf (¬Json.hasKey entries "observation_type")
        (missingField "Observation payload missing 'observation_type'.")
      raiseIf (¬Json.hasKey entries "context")
        (missingField "Observation payload missing 'context'.")
      raiseIf (¬isContext (Json.get? entries "context"))
        (missingField "Observation context missing tab_id or url.")
    | .candidateActionProposal => do
      raiseIf (¬Json.hasKey entries "proposal_id") (missingField "Proposal missing 'proposal_id'.")
      raiseIf (¬Json.isStr (Json.get? entries "authority") "NONE")
        (.protocolValidation "ERR_AUTHORITY_VIOLATION"
          [.text "Proposal authority must be 'NONE', got '",
            .value (getOrNone entries "authority"), .text "'."])
    | .executionAuthorizationObserved => do
      raiseIf (¬Json.hasKey entries "proposal_id" ∨ ¬Json.hasKey entries "decision_source")
        (missingField "Execution authorization missing required fields.")
      raiseIf (¬Json.isStr (Json.get? entries "cognitia_authority") "NONE")
        (.protocolValidation "ERR_AUTHORITY_VIOLATION"
          [.text "Cognitia authority must be 'NONE'."])
      raiseIf (Json.isStr (Json.get? entries "decision_source") "COGNITIA")
        (.protocolValidation "ERR_AUTHORITY_VIOLATION"
          [.text "Decision source cannot be COGNITIA."])
    | .executionResultObserved => do
      raiseIf (¬Json.hasKey entries "proposal_id" ∨ ¬Json.hasKey entries "status")
        (missingField "Execution result missing proposal_id or status.")
      raiseIf (¬isStatus (Json.get? entries "status"))
        (.protocolValidation "ERR_INVALID_STATUS"
          [.text "Unknown execution status: ", .value (getOrNone entries "status")])
    | .directionalSpec => do
      raiseIf (¬Json.hasKey entries "spec_id") (missingField "DirectionalSpec missing 'spec_id'.")
      raiseIf (¬Json.hasKey entries "domain_id")
        (missingField "DirectionalSpec missing 'domain_id'.")
      raiseIf (¬Json.hasKey entries "desired_direction")
        (missingField "DirectionalSpec missing 'desired_direction'.")
    | _ => .ok ()
  | _ => .error (.protocolValidation "ERR_MALFORMED_PAYLOAD"
      [.text "Payload must be a JSON object (dict)."])

/-! ## The stages of a call -/

/-- Version, format of the message id, and its uniqueness. -/
def checkMessageId (v : ProtocolValidator) (e : MessageEnvelope) : Except PyError Unit := do
  raiseIf (¬supportedVersion e.protocolVersion)
    (.protocolValidation "ERR_VERSION_MISMATCH"
      [.text "Unsupported protocol major version: '", .text e.protocolVersion,
        .text "'. Expected '1.x'."])
  raiseIf ((Uuid.parse e.messageId).isNone)
    (.protocolValidation "ERR_MALFORMED_MESSAGE_ID"
      [.text "Message ID '", .text e.messageId, .text "' is not a valid UUID."])
  raiseIf (e.messageId ∈ v.seenMessageIds)
    (.protocolValidation "ERR_DUPLICATE_MESSAGE_ID"
      [.text "Duplicate message ID observed: '", .text e.messageId, .text "'."])

/-- Session lifecycle and handshake: the state for the rest of the call. -/
def checkSession (v : ProtocolValidator) (e : MessageEnvelope) :
    Except PyError ProtocolValidator :=
  match e.messageType with
  | .sessionHello =>
    if v.sessionEstablished ∧ v.activeSessionId ≠ some e.sessionId then
      .ok (v.resetSession (some e.sessionId))
    else if ¬v.sessionEstablished then
      .ok { v with activeSessionId := some e.sessionId }
    else .ok v
  | .sessionAccept =>
    -- no check: an accept moves the session wherever it says
    .ok { v with activeSessionId := some e.sessionId, sessionEstablished := true }
  | .sessionClose =>
    if truthy v.activeSessionId ∧ v.activeSessionId ≠ some e.sessionId then
      .error (.protocolValidation "ERR_SESSION_MISMATCH"
        [.text "Session close for unknown session '", .text e.sessionId, .text "', active is '",
          .value (optionStr v.activeSessionId), .text "'."])
    else .ok v
  | _ =>
    -- a closed session is not established, but its id is still the active one
    if ¬v.sessionEstablished ∧ v.activeSessionId ≠ some e.sessionId then
      .error (.protocolValidation "ERR_NO_ACTIVE_SESSION"
        [.text "Message type '", .text e.messageType.str,
          .text "' received before session established."])
    else if truthy v.activeSessionId ∧ v.activeSessionId ≠ some e.sessionId then
      .error (.protocolValidation "ERR_STALE_SESSION"
        [.text "Session mismatch: message session '", .text e.sessionId,
          .text "' != active session '", .value (optionStr v.activeSessionId), .text "'."])
    else .ok v

/-- No sequence number twice; a `SESSION_ACCEPT` does not count. -/
def checkDuplicate (v : ProtocolValidator) (e : MessageEnvelope) : Except PyError Unit :=
  raiseIf (e.messageType ≠ .sessionAccept ∧ e.sequenceNumber ∈ v.seenSequenceNumbers)
    (.protocolValidation "ERR_DUPLICATE_SEQUENCE"
      [.text "Duplicate sequence number ", .value (.int e.sequenceNumber), .text " in session '",
        .text e.sessionId, .text "'."])

/-- Outside handshakes the number is the successor of the last one. -/
def checkOrder (v : ProtocolValidator) (e : MessageEnvelope) : Except PyError Unit :=
  if e.messageType ≠ .sessionHello ∧ e.messageType ≠ .sessionAccept then
    if e.sequenceNumber ≠ v.lastSequenceNumber + 1 then
      if e.sequenceNumber ≤ v.lastSequenceNumber then
        .error (.protocolValidation "ERR_OUT_OF_ORDER_SEQUENCE"
          [.text "Out-of-order sequence number ", .value (.int e.sequenceNumber),
            .text " (last was ", .value (.int v.lastSequenceNumber), .text ")."])
      else
        .error (.protocolValidation "ERR_SEQUENCE_GAP"
          [.text "Sequence gap detected: received ", .value (.int e.sequenceNumber),
            .text ", expected ", .value (.int (v.lastSequenceNumber + 1)), .text "."])
    else .ok ()
  else .ok ()

/-- `timestamp.replace("Z", "+00:00")`. -/
def cleanTimestamp (timestamp : String) : Text :=
  timestamp.toList.flatMap fun c => if c = 'Z' then "+00:00".toList else [c]

/-- The time stamp has to be readable. -/
def checkTimestamp (e : MessageEnvelope) : Except PyError Unit :=
  raiseIf (¬IsoFormat.fromisoformat (cleanTimestamp e.timestamp))
    (.protocolValidation "ERR_INVALID_TIMESTAMP"
      [.text "Timestamp '", .text e.timestamp, .text "' is not valid ISO 8601 UTC."])

/-- The checks behind the session check. -/
def checkContent (v : ProtocolValidator) (e : MessageEnvelope) : Except PyError Unit := do
  checkDuplicate v e
  checkOrder v e
  checkTimestamp e
  validatePayload e.messageType e.payload

/-- What an accepted envelope leaves behind. -/
def record (v : ProtocolValidator) (e : MessageEnvelope) : ProtocolValidator :=
  { v with
    seenMessageIds := insert e.messageId v.seenMessageIds
    seenSequenceNumbers :=
      if e.messageType = .sessionAccept then v.seenSequenceNumbers
      else insert e.sequenceNumber v.seenSequenceNumbers
    lastSequenceNumber :=
      if e.messageType = .sessionAccept then v.lastSequenceNumber else e.sequenceNumber
    sessionEstablished := v.sessionEstablished && e.messageType ≠ .sessionClose }

/-- `validate_envelope`, with the attributes after it. -/
def validateEnvelope (v : ProtocolValidator) (e : MessageEnvelope) :
    Except PyError Unit × ProtocolValidator :=
  match checkMessageId v e with
  | .error err => (.error err, v)
  | .ok () =>
    match checkSession v e with
    | .error err => (.error err, v)
    | .ok v' =>
      match checkContent v' e with
      -- the session check has already changed the state
      | .error err => (.error err, v')
      | .ok () => (.ok (), record v' e)

/-- The state after a call. -/
def after (v : ProtocolValidator) (e : MessageEnvelope) : ProtocolValidator :=
  (validateEnvelope v e).2

/-- The call returns. -/
def Accepts (v : ProtocolValidator) (e : MessageEnvelope) : Prop :=
  (validateEnvelope v e).1 = .ok ()

instance (v : ProtocolValidator) (e : MessageEnvelope) : Decidable (Accepts v e) :=
  inferInstanceAs (Decidable ((validateEnvelope v e).1 = .ok ()))

end ProtocolValidator
end ThoriumFrugal.Protocol

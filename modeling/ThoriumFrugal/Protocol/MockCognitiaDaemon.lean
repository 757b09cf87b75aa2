import ThoriumFrugal.Protocol.ProtocolValidator
import ThoriumFrugal.Protocol.SecurityValidator
import Mathlib.Data.Finmap

/-!
# The daemon

The endpoint that receives envelopes: it validates them, answers handshakes and files
observations, authorizations and execution results. Every call returns its outcome together with
the state it leaves behind.
-/

namespace ThoriumFrugal.Protocol

open Lib

/-- The attributes of the daemon. -/
structure MockCognitiaDaemon where
  expectedToken : String := "mock_secret_token"
  activeSessionId : Option String := none
  protocolValidator : ProtocolValidator := {}
  securityValidator : SecurityValidator := {}
  observationsStore : List Json := []
  proposalsStore : Finmap (fun _ : String => Json) := ∅
  authorizationsStore : Finmap (fun _ : Json.Key => Json) := ∅
  executionResultsStore : Finmap (fun _ : Json.Key => Json) := ∅
  auditLog : List Json := []
  sequenceNumber : ℕ := 0

namespace MockCognitiaDaemon

/-- `self.source`. -/
def source : SourceIdentity :=
  { application := "cognitia"
    adapter := "daemon_ipc"
    component := "governance_and_inference"
    instanceId := "cognitia_daemon_proc" }

/-- An entry of the audit log. -/
def auditEntry (timestamp direction : String) (e : MessageEnvelope) : Json :=
  .obj [("timestamp", .str timestamp), ("direction", .str direction), ("envelope", e.toDict)]

/-! ## Incoming envelopes -/

/-- The result of a call: `(success, response)`. -/
abbrev Reply := Bool × Option MessageEnvelope

/-- The envelope of an answer to a handshake. -/
def response (w : World) (uuid : ℕ) (messageType : MessageType) (payload : Json)
    (e : MessageEnvelope) : MessageEnvelope where
  protocolVersion := "1.0"
  messageType := messageType
  messageId := w.uuidStr uuid
  sessionId := e.sessionId
  sequenceNumber := 1
  timestamp := w.timestamp 1
  source := source
  payload := payload
  correlationId := some e.messageId
  causationId := some e.messageId
  version_supported := supportedVersion_mock
  sequence_pos := Nat.one_pos
  messageId_uuid := w.uuidStr_valid uuid

/-- `_handle_session_hello`: a wrong token is answered with a reject. -/
def handleSessionHello (w : World) (d : MockCognitiaDaemon) (e : MessageEnvelope) :
    Except PyError Reply × MockCognitiaDaemon :=
  match SecurityValidator.asDict e.payload with
  | .error err => (.error err, d)
  | .ok entries =>
    let authToken := (Json.get? entries "auth_token").getD (.str "")
    -- the counter starts over before the token is looked at
    let d := { d with sequenceNumber := 1 }
    if ¬Json.isStr authToken d.expectedToken then
      let rejectPayload : SessionRejectData :=
        { reasonCode := "AUTH_FAILED"
          message := "Invalid or missing peer authentication token." }
      (.ok (false, some (response w 0 .sessionReject rejectPayload.toDict e)), d)
    else
      let acceptPayload : SessionAcceptData :=
        { sessionId := e.sessionId
          negotiatedVersion := "1.0.0"
          negotiatedCapabilities := ["OBSERVATION", "SANITIZATION_V1", "ADVISORY_PROPOSALS"]
          heartbeatIntervalMs := 5000
          serverNonce := w.uuidStr 0 }
      (.ok (true, some (response w 1 .sessionAccept acceptPayload.toDict e)),
        { d with activeSessionId := some e.sessionId })

/-- `_handle_observation`. -/
def handleObservation (d : MockCognitiaDaemon) (e : MessageEnvelope) : MockCognitiaDaemon :=
  { d with observationsStore := d.observationsStore ++ [e.toDict] }

/-- The key under which a payload is filed: `payload["proposal_id"]`, if it can be one. -/
def proposalKey (payload : Json) : Except PyError Json.Key :=
  match payload with
  | .obj entries =>
    match Json.get? entries "proposal_id" with
    | none => .error .keyError
    | some propId =>
      match propId.toKey with
      | none => .error .typeError
      | some key => .ok key
  | _ => .error .typeError

/-- `_handle_execution_auth_observed`. -/
def handleExecutionAuthObserved (d : MockCognitiaDaemon) (e : MessageEnvelope) :
    Except PyError Reply × MockCognitiaDaemon :=
  match proposalKey e.payload with
  | .error err => (.error err, d)
  | .ok key =>
    (.ok (true, none), { d with authorizationsStore := d.authorizationsStore.insert key e.payload })

/-- `_handle_execution_result_observed`. -/
def handleExecutionResultObserved (d : MockCognitiaDaemon) (e : MessageEnvelope) :
    Except PyError Reply × MockCognitiaDaemon :=
  match proposalKey e.payload with
  | .error err => (.error err, d)
  | .ok key =>
    (.ok (true, none),
      { d with executionResultsStore := d.executionResultsStore.insert key e.payload })

/-- What follows the checks and the audit log. -/
def handleMessage (w : World) (d : MockCognitiaDaemon) (e : MessageEnvelope) :
    Except PyError Reply × MockCognitiaDaemon :=
  match e.messageType with
  | .sessionHello => handleSessionHello w d e
  | .observation => (.ok (true, none), handleObservation d e)
  | .executionAuthorizationObserved => handleExecutionAuthObserved d e
  | .executionResultObserved => handleExecutionResultObserved d e
  | .sessionClose => (.ok (true, none), { d with activeSessionId := none })
  | _ => (.ok (true, none), d)

/-- The entry of the audit log for an envelope that passed. -/
def logInbound (w : World) (d : MockCognitiaDaemon) (e : MessageEnvelope) : MockCognitiaDaemon :=
  { d with auditLog := d.auditLog ++ [auditEntry (w.timestamp 0) "INBOUND" e] }

/-- `process_incoming_envelope`: both validators, the log and the handler. -/
def processIncomingEnvelope (lib : PyLib) (w : World) (d : MockCognitiaDaemon)
    (e : MessageEnvelope) : Except PyError Reply × MockCognitiaDaemon :=
  let validated := d.protocolValidator.validateEnvelope e
  let d := { d with protocolValidator := validated.2 }
  match validated.1 with
  | .error err => (.error err, d)
  | .ok () =>
    -- the validator has recorded the envelope, whatever comes of this check
    match d.securityValidator.validateMessageSecurity lib e with
    | .error err => (.error err, d)
    | .ok () => handleMessage w (logInbound w d e) e

/-! ## Proposals -/

/-- The arguments of `generate_candidate_proposal`. -/
structure ProposalArgs where
  domainId : String
  intent : String
  target : String
  candidateAction : Json
  rationale : String
  causationMessageId : Option String := none

/-- The payload of a proposal. -/
def proposalData (w : World) (args : ProposalArgs) : CandidateActionProposalData where
  proposalId := w.uuidStr 0
  sourceModel := "cognitia_laya_surrogate_v1"
  domainId := args.domainId
  intent := args.intent
  target := args.target
  candidateAction := args.candidateAction
  rationale := args.rationale
  constraints := ["USER_CONFIRMATION_REQUIRED", "DOMAIN_MATCH"]
  riskClassification := .low
  createdAt := w.timestamp 0
  authority := "NONE"
  authority_none := rfl

/-- The envelope of a proposal with the number `seq + 1`. -/
def proposalEnvelope (w : World) (args : ProposalArgs) (sessionId : String) (seq : ℕ) :
    MessageEnvelope where
  protocolVersion := "1.0"
  messageType := .candidateActionProposal
  messageId := w.uuidStr 1
  sessionId := sessionId
  sequenceNumber := seq + 1
  timestamp := w.timestamp 1
  source := source
  payload := (proposalData w args).toDict
  correlationId := args.causationMessageId
  causationId := args.causationMessageId
  version_supported := supportedVersion_mock
  sequence_pos := Nat.succ_pos seq
  messageId_uuid := w.uuidStr_valid 1

/-- `generate_candidate_proposal`. -/
def generateCandidateProposal (w : World) (d : MockCognitiaDaemon) (args : ProposalArgs) :
    Except PyError MessageEnvelope × MockCognitiaDaemon :=
  if truthy d.activeSessionId then
    let envelope := proposalEnvelope w args (d.activeSessionId.getD "") d.sequenceNumber
    (.ok envelope,
      { d with
        sequenceNumber := d.sequenceNumber + 1
        proposalsStore := d.proposalsStore.insert (w.uuidStr 0) (proposalData w args).toDict
        auditLog := d.auditLog ++ [auditEntry (w.timestamp 2) "OUTBOUND" envelope] })
  else
    (.error (.runtimeError [.text "Cannot generate proposal without an active session."]), d)

end MockCognitiaDaemon
end ThoriumFrugal.Protocol

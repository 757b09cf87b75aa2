import ThoriumFrugal.Protocol.IsoFormat
import ThoriumFrugal.Protocol.Json
import ThoriumFrugal.Protocol.Uuid

/-!
# The messages of the protocol

Envelopes and payloads with the checks of their constructors as fields, and the
dictionaries that `to_dict` makes of them.
-/

namespace ThoriumFrugal.Protocol

open Lib

/-! ## Enumerations -/

/-- `MessageType`. -/
inductive MessageType
  | sessionHello
  | sessionAccept
  | sessionReject
  | sessionClose
  | observation
  | observationBatch
  | directionalSpec
  | candidateActionProposal
  | executionAuthorizationObserved
  | executionResultObserved
  | error
  | heartbeat
deriving DecidableEq

/-- The value of a message type. -/
def MessageType.value : MessageType → String
  | .sessionHello => "SESSION_HELLO"
  | .sessionAccept => "SESSION_ACCEPT"
  | .sessionReject => "SESSION_REJECT"
  | .sessionClose => "SESSION_CLOSE"
  | .observation => "OBSERVATION"
  | .observationBatch => "OBSERVATION_BATCH"
  | .directionalSpec => "DIRECTIONAL_SPEC"
  | .candidateActionProposal => "CANDIDATE_ACTION_PROPOSAL"
  | .executionAuthorizationObserved => "EXECUTION_AUTHORIZATION_OBSERVED"
  | .executionResultObserved => "EXECUTION_RESULT_OBSERVED"
  | .error => "ERROR"
  | .heartbeat => "HEARTBEAT"

/-- The member with this value. -/
def MessageType.ofValue? (s : String) : Option MessageType :=
  [.sessionHello, .sessionAccept, .sessionReject, .sessionClose, .observation, .observationBatch,
    .directionalSpec, .candidateActionProposal, .executionAuthorizationObserved,
    .executionResultObserved, .error, .heartbeat].find? fun t => t.value = s

theorem MessageType.ofValue?_value (t : MessageType) : ofValue? t.value = some t := by
  cases t <;> decide

/-- The member in a format string. -/
def MessageType.str (t : MessageType) : String := "MessageType." ++ t.value

/-- `ExecutionStatus`. -/
inductive ExecutionStatus
  | proposed
  | authorizedExternally
  | executed
  | failed
  | rejected
  | cancelled
  | unknown
deriving DecidableEq

/-- The value of a status. -/
def ExecutionStatus.value : ExecutionStatus → String
  | .proposed => "PROPOSED"
  | .authorizedExternally => "AUTHORIZED_EXTERNALLY"
  | .executed => "EXECUTED"
  | .failed => "FAILED"
  | .rejected => "REJECTED"
  | .cancelled => "CANCELLED"
  | .unknown => "UNKNOWN"

/-- `[e.value for e in ExecutionStatus]`. -/
def validStatuses : List String :=
  [ExecutionStatus.proposed, .authorizedExternally, .executed, .failed, .rejected, .cancelled,
    .unknown].map ExecutionStatus.value

/-- `RiskClassification`. -/
inductive RiskClassification
  | low
  | medium
  | high
  | critical
deriving DecidableEq

/-- The value of a risk. -/
def RiskClassification.value : RiskClassification → String
  | .low => "LOW"
  | .medium => "MEDIUM"
  | .high => "HIGH"
  | .critical => "CRITICAL"

/-! ## Exceptions -/

/-- A piece of an exception's text; a value is kept as it is, not rendered. -/
inductive MessagePart
  | text (s : String)
  | value (v : Json)

/-- An exception that leaves a call. -/
inductive PyError
  | protocolValidation (code : String) (message : List MessagePart)
  | securityViolation (invariantId : String) (message : List MessagePart)
  | runtimeError (message : List MessagePart)
  | valueError
  | typeError
  | keyError
  | attributeError

/-- `if cond: raise err`. -/
def raiseIf (cond : Prop) [Decidable cond] (err : PyError) : Except PyError Unit :=
  if cond then .error err else .ok ()

@[simp] theorem raiseIf_eq_ok {cond : Prop} [Decidable cond] {err : PyError} :
    raiseIf cond err = .ok () ↔ ¬cond := by
  unfold raiseIf
  split <;> simp_all

instance (x : Except PyError Unit) : Decidable (x = .ok ()) :=
  match x with
  | .ok () => isTrue rfl
  | .error _ => isFalse fun h => by cases h

/-- A check followed by more passes if both do. -/
theorem check_bind_eq_ok {α : Type} {x : Except PyError Unit} {f : Unit → Except PyError α}
    {a : α} :
    (x >>= f) = .ok a ↔ x = .ok () ∧ f () = .ok a := by
  cases x with
  | error err => simp [bind, Except.bind]
  | ok u => simp [bind, Except.bind]

/-! ## Envelopes -/

/-- `None` or a string, as a value. -/
def optionStr : Option String → Json
  | none => .null
  | some s => .str s

/-- `SourceIdentity`, with its defaults. -/
structure SourceIdentity where
  application : String := "thorium"
  adapter : String := "cognitia_adapter"
  component : String := "observation_collector"
  instanceId : String := "default_instance"
deriving DecidableEq

/-- Its `to_dict`. -/
def SourceIdentity.toDict (s : SourceIdentity) : Json :=
  .obj [("application", .str s.application), ("adapter", .str s.adapter),
    ("component", .str s.component), ("instance_id", .str s.instanceId)]

/-- `version.startswith("1.")`. -/
def supportedVersion (version : String) : Bool := "1.".toList.isPrefixOf version.toList

/-- The version that the mock sends. -/
theorem supportedVersion_mock : supportedVersion "1.0" = true := by decide

/-- An envelope, with what its constructor checks. The payload of a received message may be
any value. -/
structure MessageEnvelope where
  protocolVersion : String
  messageType : MessageType
  messageId : String
  sessionId : String
  sequenceNumber : ℕ
  timestamp : String
  source : SourceIdentity
  payload : Json
  correlationId : Option String := none
  causationId : Option String := none
  version_supported : supportedVersion protocolVersion = true
  sequence_pos : 1 ≤ sequenceNumber
  messageId_uuid : (Uuid.parse messageId).isSome = true

namespace MessageEnvelope

/-- `to_dict`. -/
def toDict (e : MessageEnvelope) : Json :=
  .obj [("protocol_version", .str e.protocolVersion), ("message_type", .str e.messageType.value),
    ("message_id", .str e.messageId), ("session_id", .str e.sessionId),
    ("sequence_number", .int e.sequenceNumber), ("timestamp", .str e.timestamp),
    ("source", e.source.toDict), ("payload", e.payload),
    ("correlation_id", optionStr e.correlationId), ("causation_id", optionStr e.causationId)]

/-- `to_json`. -/
def toJson (e : MessageEnvelope) : Text := Json.dumps e.toDict

end MessageEnvelope

/-! ## Payloads -/

/-- `SessionHelloData`, with its defaults. -/
structure SessionHelloData where
  clientVersion : String := "1.0.0"
  clientCapabilities : List String := ["OBSERVATION", "SANITIZATION_V1"]
  authToken : String := ""
  nonce : String := ""

/-- Its `to_dict`. -/
def SessionHelloData.toDict (d : SessionHelloData) : Json :=
  .obj [("client_version", .str d.clientVersion),
    ("client_capabilities", .arr (d.clientCapabilities.map .str)),
    ("auth_token", .str d.authToken), ("nonce", .str d.nonce)]

/-- `SessionAcceptData`. -/
structure SessionAcceptData where
  sessionId : String
  negotiatedVersion : String := "1.0.0"
  negotiatedCapabilities : List String := ["OBSERVATION", "SANITIZATION_V1"]
  heartbeatIntervalMs : ℤ := 5000
  serverNonce : String := ""

/-- Its `to_dict`. -/
def SessionAcceptData.toDict (d : SessionAcceptData) : Json :=
  .obj [("session_id", .str d.sessionId), ("negotiated_version", .str d.negotiatedVersion),
    ("negotiated_capabilities", .arr (d.negotiatedCapabilities.map .str)),
    ("heartbeat_interval_ms", .int d.heartbeatIntervalMs), ("server_nonce", .str d.serverNonce)]

/-- `SessionRejectData`. -/
structure SessionRejectData where
  reasonCode : String
  message : String

/-- Its `to_dict`. -/
def SessionRejectData.toDict (d : SessionRejectData) : Json :=
  .obj [("reason_code", .str d.reasonCode), ("message", .str d.message)]

/-- `ObservationContext`. -/
structure ObservationContext where
  profileId : String
  tabId : ℤ
  isIncognito : Bool
  url : String
  title : String := ""
  navigationId : Option String := none

/-- Its `to_dict`. -/
def ObservationContext.toDict (c : ObservationContext) : Json :=
  .obj [("profile_id", .str c.profileId), ("tab_id", .int c.tabId),
    ("is_incognito", .bool c.isIncognito), ("url", .str c.url), ("title", .str c.title),
    ("navigation_id", optionStr c.navigationId)]

/-- `ObservationData`, with its defaults. -/
structure ObservationData where
  observationType : String
  context : ObservationContext
  data : Json
  epistemicStatus : String := "UNRESOLVED"
  sourceType : String := "SENSOR"

/-- Its `to_dict`. -/
def ObservationData.toDict (d : ObservationData) : Json :=
  .obj [("observation_type", .str d.observationType), ("context", d.context.toDict),
    ("data", d.data), ("epistemic_status", .str d.epistemicStatus),
    ("source_type", .str d.sourceType)]

/-- A proposal; its authority is always `NONE`. -/
structure CandidateActionProposalData where
  proposalId : String
  sourceModel : String
  domainId : String
  intent : String
  target : String
  candidateAction : Json
  rationale : String
  constraints : List String
  riskClassification : RiskClassification
  createdAt : String
  authority : String := "NONE"
  authority_none : authority = "NONE"

/-- Its `to_dict`. -/
def CandidateActionProposalData.toDict (d : CandidateActionProposalData) : Json :=
  .obj [("proposal_id", .str d.proposalId), ("source_model", .str d.sourceModel),
    ("domain_id", .str d.domainId), ("intent", .str d.intent), ("target", .str d.target),
    ("candidate_action", d.candidateAction), ("rationale", .str d.rationale),
    ("constraints", .arr (d.constraints.map .str)),
    ("risk_classification", .str d.riskClassification.value), ("created_at", .str d.createdAt),
    ("authority", .str d.authority)]

/-! ## The world outside -/

/-- What one call reads from outside: the successive values of `datetime.now(timezone.utc)`
and of `uuid.uuid4()`. -/
structure World where
  now : ℕ → IsoFormat.UtcDateTime
  uuid4 : ℕ → Fin (2 ^ 128)

namespace World

/-- `datetime.datetime.now(datetime.timezone.utc).isoformat()`. -/
def timestamp (w : World) (i : ℕ) : String := (w.now i).isoformat

/-- `str(uuid.uuid4())`. -/
def uuidStr (w : World) (i : ℕ) : String := Uuid.strUuid (w.uuid4 i)

theorem uuidStr_valid (w : World) (i : ℕ) : (Uuid.parse (w.uuidStr i)).isSome = true := by
  unfold uuidStr
  rw [Uuid.parse_strUuid (w.uuid4 i).isLt]
  rfl

/-- A clock that stands still, and UUIDs that count from `n` on. -/
def sample (n : ℕ) : World where
  now := fun _ =>
    { year := 2026
      month := 1
      day := 1
      hour := 0
      minute := 0
      second := 0
      microsecond := 0
      date_valid := by decide
      time_valid := by decide
      microsecond_lt := by decide }
  uuid4 := fun i => Fin.ofNat _ (n + i)

end World
end ThoriumFrugal.Protocol

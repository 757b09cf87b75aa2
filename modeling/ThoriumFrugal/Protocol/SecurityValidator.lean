import ThoriumFrugal.Protocol.Types

/-!
# The security validator

URL sanitizing, the check of a message against the security invariants and the search for
prompt injections. `urllib.parse` and `re` are parameters.
-/

namespace ThoriumFrugal.Protocol

open Lib

/-- The components of `urllib.parse.urlparse`. -/
structure ParseResult where
  scheme : Text
  netloc : Text
  path : Text
  params : Text
  query : Text
  fragment : Text

/-- What the validator calls from Python's library. -/
structure PyLib where
  /-- `urllib.parse.urlparse`, none where it raises. -/
  urlparse : Text → Option ParseResult
  urlunparse : ParseResult → Text
  /-- `urllib.parse.parse_qsl(query, keep_blank_values=True)`. -/
  parseQsl : Text → List (Text × Text)
  urlencode : List (Text × Text) → Text
  /-- Whether `re.compile(pattern, re.IGNORECASE).search(text)` finds a match. -/
  search : Text → Text → Bool

/-- `s.split(c, 1)` for a string that holds the character. -/
def splitOnce (s : Text) (c : Char) : Text × Text :=
  (s.takeWhile (· ≠ c), (s.dropWhile (· ≠ c)).drop 1)

/-- `parsed.password`: what follows the first colon in front of the last `@`. -/
def ParseResult.password (parsed : ParseResult) : Option Text :=
  if '@' ∈ parsed.netloc then
    let userinfo := (splitOnce parsed.netloc.reverse '@').2.reverse
    if ':' ∈ userinfo then some (splitOnce userinfo ':').2 else none
  else none

/-- The library on URLs of the form `scheme://host/path` and texts that match no pattern. -/
def PyLib.sample : PyLib where
  urlparse := fun url => some
    { scheme := (splitOnce url ':').1
      netloc := ((splitOnce url ':').2.drop 2).takeWhile (· ≠ '/')
      path := ((splitOnce url ':').2.drop 2).dropWhile (· ≠ '/')
      params := []
      query := []
      fragment := [] }
  urlunparse := fun parsed => parsed.scheme ++ "://".toList ++ parsed.netloc ++ parsed.path
  parseQsl := fun _ => []
  urlencode := fun _ => []
  search := fun _ _ => false

/-- `s.lower()` for a comparison with ASCII text; the Kelvin sign is the one other character
whose lower case is an ASCII letter. -/
def lower (s : Text) : Text := s.map fun c => if c = '\u212a' then 'k' else c.toLower

/-- The attributes of the validator. -/
structure SecurityValidator where
  maxPayloadBytes : ℕ := 1048576

namespace SecurityValidator

/-- `SENSITIVE_QUERY_PARAMS`. -/
def sensitiveQueryParams : List Text :=
  ["token", "auth", "password", "secret", "session", "sig", "key", "access_token", "api_key",
    "passwd", "pwd", "client_secret", "refresh_token", "credential", "private_key", "bearer",
    "nonce", "csrf"].map String.toList

/-- `PROMPT_INJECTION_PATTERNS`. -/
def promptInjectionPatterns : List Text :=
  ["ignore\\s+(all\\s+)?previous\\s+instructions", "system\\s*:\\s*you\\s+are",
    "override\\s+system\\s+prompt", "you\\s+must\\s+now\\s+execute",
    "download\\s+this\\s+file\\s+immediately", "exfiltrate"].map String.toList

/-! ## Sanitizing -/

/-- The authority with its userinfo redacted; it is split at the first `@`. -/
def redactUserinfo (netloc : Text) : Text :=
  if '@' ∈ netloc then
    let (userinfo, host) := splitOnce netloc '@'
    if ':' ∈ userinfo then (splitOnce userinfo ':').1 ++ ":***@".toList ++ host
    else "***@".toList ++ host
  else netloc

/-- The query with the values of sensitive keys redacted. -/
def redactQuery (lib : PyLib) (query : Text) : Text :=
  if query ≠ [] then
    lib.urlencode ((lib.parseQsl query).map fun (k, v) =>
      if lower k ∈ sensitiveQueryParams then (k, "[REDACTED]".toList) else (k, v))
  else []

/-- `sanitize_url`. -/
def sanitizeUrl (lib : PyLib) (rawUrl : String) : String :=
  if rawUrl = "" then ""
  else
    match lib.urlparse rawUrl.toList with
    | none => "[MALFORMED_URL]"
    | some parsed => String.ofList (lib.urlunparse
        { parsed with
          netloc := redactUserinfo parsed.netloc
          query := redactQuery lib parsed.query })

/-- `detect_prompt_injection_in_observation`. -/
def detectPromptInjectionInObservation (lib : PyLib) (textContent : String) : Bool :=
  if textContent = "" then false
  else promptInjectionPatterns.any fun pattern => lib.search pattern textContent.toList

/-! ## Checking a message -/

/-- The keys that may not carry a raw secret. -/
def credentialKeys : List Text :=
  ["password", "passwd", "client_secret", "private_key", "cookie", "set-cookie",
    "authorization"].map String.toList

/-- A string that is neither empty nor one of the redaction marks. -/
def isRawSecret : Json → Bool
  | .str s => s ≠ "" ∧ s ≠ "[REDACTED]" ∧ s ≠ "[REDACTED_HEADER]"
  | _ => false

/-- The check of one entry, without what its value holds. -/
def checkEntry (lib : PyLib) (key : String) (value : Json) : Except PyError Unit :=
  if lower key.toList ∈ credentialKeys then
    raiseIf (isRawSecret value) (.securityViolation "S3_CREDENTIAL_LEAKAGE"
      [.text "Unredacted sensitive field '", .text key, .text "' detected in message payload."])
  else if lower key.toList = "url".toList then
    match value with
    | .str v =>
      if '@' ∈ v.toList then
        match lib.urlparse v.toList with
        | none => .error .valueError
        | some parsed =>
          raiseIf (parsed.password.getD [] ≠ []) (.securityViolation "S3_URL_CREDENTIAL_LEAKAGE"
            [.text "Unredacted userinfo password in URL: '", .text v, .text "'."])
      else .ok ()
    | _ => .ok ()
  else .ok ()

mutual

/-- `_check_credential_leakage`. -/
def checkCredentialLeakage (lib : PyLib) : Json → Except PyError Unit
  | .obj entries => checkLeakageEntries lib entries
  | .arr items => checkLeakageItems lib items
  | _ => .ok ()

/-- The loop over the entries of a dictionary. -/
def checkLeakageEntries (lib : PyLib) : List (String × Json) → Except PyError Unit
  | [] => .ok ()
  | (key, value) :: entries => do
    checkEntry lib key value
    checkCredentialLeakage lib value
    checkLeakageEntries lib entries

/-- The loop over the items of a list. -/
def checkLeakageItems (lib : PyLib) : List Json → Except PyError Unit
  | [] => .ok ()
  | item :: items => do
    checkCredentialLeakage lib item
    checkLeakageItems lib items

end

/-- The entries of a value that is used as a dictionary. -/
def asDict : Json → Except PyError (List (String × Json))
  | .obj entries => .ok entries
  | _ => .error .attributeError

/-- Authority of proposals and of observed authorizations; status and incognito constraints of
observations. -/
def checkInvariants (e : MessageEnvelope) : Except PyError Unit :=
  match e.messageType with
  | .candidateActionProposal => do
    let entries ← asDict e.payload
    raiseIf (¬Json.isStr (Json.get? entries "authority") "NONE")
      (.securityViolation "S7_AUTHORITY_VIOLATION"
        [.text "CandidateActionProposal MUST have authority='NONE'. Found authority='",
          .value ((Json.get? entries "authority").getD .null), .text "'."])
  | .executionAuthorizationObserved => do
    let entries ← asDict e.payload
    raiseIf (¬Json.isStr (Json.get? entries "cognitia_authority") "NONE")
      (.securityViolation "S16_EXECUTION_AUTHORITY_VIOLATION"
        [.text "Execution authorization must record Cognitia authority as 'NONE', got '",
          .value ((Json.get? entries "cognitia_authority").getD .null), .text "'."])
    raiseIf (Json.isStr (Json.get? entries "decision_source") "COGNITIA")
      (.securityViolation "S7_DIRECT_EXECUTION_FORBIDDEN"
        [.text "Cognitia cannot be the decision_source for execution authorization."])
  | .observation => do
    let entries ← asDict e.payload
    let epistemicStatus := (Json.get? entries "epistemic_status").getD (.str "UNRESOLVED")
    let sourceType := (Json.get? entries "source_type").getD (.str "SENSOR")
    raiseIf (¬Json.isStr sourceType "SENSOR" ∨ ¬Json.isStr epistemicStatus "UNRESOLVED")
      (.securityViolation "S1_UNTRUSTED_CONTENT_STATUS"
        [.text "Observation web content must have source_type='SENSOR' and ",
          .text "epistemic_status='UNRESOLVED'. Got (", .value sourceType, .text ", ",
          .value epistemicStatus, .text ")."])
    let ctx ← asDict ((Json.get? entries "context").getD (.obj []))
    match Json.get? ctx "is_incognito" with
    | some (.bool true) =>
      raiseIf (Json.hasKey ctx "persistent_user_id" ∨ Json.hasKey ctx "sync_account")
        (.securityViolation "S12_INCOGNITO_PRIVACY_LEAK"
          [.text "Incognito observation context must not include persistent profile identifiers."])
    | _ => .ok ()
  | _ => .ok ()

/-- `validate_message_security`. -/
def validateMessageSecurity (s : SecurityValidator) (lib : PyLib) (e : MessageEnvelope) :
    Except PyError Unit := do
  raiseIf (Json.utf8Length e.toJson > s.maxPayloadBytes)
    (.securityViolation "S10_PAYLOAD_LIMIT"
      [.text "Message payload size ", .value (.int (Json.utf8Length e.toJson)),
        .text " bytes exceeds max budget ", .value (.int s.maxPayloadBytes), .text " bytes."])
  checkCredentialLeakage lib e.payload
  checkInvariants e

end SecurityValidator
end ThoriumFrugal.Protocol

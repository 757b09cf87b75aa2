import ThoriumFrugal.Privacy.TrackerBlocker
import ThoriumFrugal.Privacy.TrackingParameterFilter

/-!
# The privacy policy manager

`SiteExceptionsManager` of `site_exceptions.h` and `PrivacyPolicyManager` of
`privacy_policy_manager.cc`. A call returns the events it dispatches, in order, next to its
result and the manager after it. The clock is an argument, already written as the source's
ISO-8601 text.
-/

namespace ThoriumFrugal.Privacy

open Lib

/-! ## Site exceptions -/

/-- The enumeration of the same name in `site_exceptions.h`. -/
inductive SitePolicyException
  /-- Apply standard privacy filtering. -/
  | kDefault
  /-- Disable tracker blocking for this site. -/
  | kAllowAll
  /-- Strict mode: block all third-party requests. -/
  | kBlockAll
deriving DecidableEq, Repr

/-- The exceptions, by the host or domain as it was given. -/
abbrev SiteExceptionsManager := AList fun _ : Text => SitePolicyException

namespace SiteExceptionsManager

/-- `SiteExceptionsManager::SetSiteException`: the default removes the entry. -/
def setSiteException (exceptions : SiteExceptionsManager) (hostOrDomain : Text)
    (exception : SitePolicyException) : SiteExceptionsManager :=
  if exception = .kDefault then exceptions.erase hostOrDomain
  else exceptions.insert hostOrDomain exception

/-- `SiteExceptionsManager::GetSiteException`. -/
def getSiteException (exceptions : SiteExceptionsManager) (hostOrDomain : Text) :
    SitePolicyException :=
  match exceptions.lookup hostOrDomain with
  | some exception => exception
  | none => .kDefault

end SiteExceptionsManager

/-! ## The manager -/

/-- `eventCounter` is the source's `std::atomic<uint64_t>`. -/
structure PrivacyPolicyManager where
  enabled : Bool := true
  eventCounter : UInt64 := 1
  processPrefix : Text
  trackerBlocker : TrackerBlocker := {}
  parameterFilter : TrackingParameterFilter := {}
  siteExceptions : SiteExceptionsManager := ∅

namespace PrivacyPolicyManager

/-- `GenerateEventId`, with the counter after it. -/
def generateEventId (manager : PrivacyPolicyManager) : Text × PrivacyPolicyManager :=
  let count := manager.eventCounter
  (manager.processPrefix ++ (Nat.toDigits 10 count.toNat).leftpad 6 '0',
    { manager with eventCounter := count + 1 })

/-- `SetPrivacyProtectionEnabled`. -/
def setPrivacyProtectionEnabled (manager : PrivacyPolicyManager) (enabled : Bool) :
    PrivacyPolicyManager :=
  { manager with enabled := enabled }

/-- `SetSiteException` of the manager. -/
def setSiteException (manager : PrivacyPolicyManager) (hostOrDomain : Text)
    (exception : SitePolicyException) : PrivacyPolicyManager :=
  { manager with
    siteExceptions := manager.siteExceptions.setSiteException hostOrDomain exception }

/-- `GetSiteException` of the manager. -/
def getSiteException (manager : PrivacyPolicyManager) (hostOrDomain : Text) :
    SitePolicyException :=
  manager.siteExceptions.getSiteException hostOrDomain

/-! ## Telemetry URLs -/

/-- The query keys whose values are redacted. -/
def sensitiveQueryKeys : List Text := [
  "token", "auth", "key", "secret",
  "password", "passwd", "access_token",
  "api_key", "apikey", "session", "session_id"].map String.toList

/-- A key is compared in lower case. -/
def isSensitiveQueryKey (key : Text) : Bool :=
  Text.toLower key ∈ sensitiveQueryKeys

/-- Step 1 of `SanitizeUrlForTelemetry`: drop what stands before the first `@` of the
authority. -/
def stripUserinfo (url : Text) : Text :=
  let start := ThirdPartyClassifier.schemeEnd url
  match Text.find url '@' start, Text.find url '/' start with
  | some atPos, none => url.take start ++ url.drop (atPos + 1)
  | some atPos, some slashPos =>
    -- an `@` behind the first slash belongs to the path
    if atPos < slashPos then url.take start ++ url.drop (atPos + 1) else url
  | none, _ => url

/-- A query item with the value of a sensitive key redacted. -/
def redactItem (item : Text) : Text :=
  -- a bare sensitive key gains a value
  if isSensitiveQueryKey (itemKey item) then itemKey item ++ "=[REDACTED]".toList else item

/-- `SanitizeUrlForTelemetry`: the userinfo cut out, the values of sensitive keys redacted. -/
def sanitizeUrlForTelemetry (rawUrl : Text) : Text :=
  if rawUrl = [] then []
  else
    let url := stripUserinfo rawUrl
    match splitUrl url with
    | none => url
    | some parts =>
      let newQuery := Text.join "&".toList ((queryItems parts.query).map redactItem)
      parts.base ++ (if newQuery = [] then [] else '?' :: newQuery) ++ parts.fragment

/-! ## Calls that dispatch events -/

/-- `SanitizeUrl`: the stripped URL, and the event where something was removed. -/
def sanitizeUrl (manager : PrivacyPolicyManager) (urlStr now : Text) :
    FilterResult × List PrivacyEvent × PrivacyPolicyManager :=
  if manager.enabled = false then ({ cleanedUrl := urlStr }, [], manager)
  else
    let result := manager.parameterFilter.stripTrackingParameters urlStr
    if result.parametersRemoved then
      let event : PrivacyEvent :=
        { eventId := manager.generateEventId.1
          eventType := "privacy.tracking_parameter_removed".toList
          host := ThirdPartyClassifier.extractHostname result.cleanedUrl
          sanitizedUrl := sanitizeUrlForTelemetry result.cleanedUrl
          strippedParameters := result.removedParameters
          timestamp := now }
      (result, [event], manager.generateEventId.2)
    else (result, [], manager)

/-- Step 1 of `EvaluateRequest`: the exception stored for the initiator's host, else the one
for its registrable domain. -/
def lookupException (manager : PrivacyPolicyManager) (initiatorOriginStr : Text) :
    SitePolicyException :=
  let initHost := ThirdPartyClassifier.extractHostname initiatorOriginStr
  let initDomain := ThirdPartyClassifier.getDomain initHost
  let exception := manager.getSiteException initHost
  if exception = .kDefault ∧ initDomain ≠ [] then manager.getSiteException initDomain
  else exception

/-- The fields that the three events of `EvaluateRequest` share. -/
def requestEvent (eventId eventType targetUrlStr initiatorOriginStr : Text)
    (partyContext : PartyContext) (resourceType : ResourceType) (now : Text) : PrivacyEvent :=
  { eventId := eventId
    eventType := eventType
    host := ThirdPartyClassifier.extractHostname targetUrlStr
    sanitizedUrl := sanitizeUrlForTelemetry targetUrlStr
    initiatorOrigin := initiatorOriginStr
    partyContext := partyContext
    resourceType := resourceTypeToString resourceType
    timestamp := now }

/-- The event that step 3 dispatches for a result of the tracker rules, if any. -/
def ruleEventType (result : PrivacyEvaluationResult) : Option Text :=
  if result.decision = .kBlock then some "privacy.request_blocked".toList
  else if result.classification = .kKnownTracker then some "privacy.tracker_detected".toList
  else none

/-- `EvaluateRequest`: the switch, the exception of the site, and then the blocker. -/
def evaluateRequest (manager : PrivacyPolicyManager) (targetUrlStr initiatorOriginStr : Text)
    (resourceType : ResourceType) (now : Text) :
    PrivacyEvaluationResult × List PrivacyEvent × PrivacyPolicyManager :=
  let result : PrivacyEvaluationResult :=
    { decision := .kAllow
      partyContext := ThirdPartyClassifier.classify targetUrlStr initiatorOriginStr
      classification := .kNotTracker }
  if manager.enabled = false then (result, [], manager)
  else if manager.lookupException initiatorOriginStr = .kAllowAll then
    let result :=
      { result with
        decision := .kAllow
        exceptionApplied := true
        reason := "Site exception: allow all third-party requests".toList }
    (result,
      [requestEvent manager.generateEventId.1 "privacy.policy_exception_applied".toList
        targetUrlStr initiatorOriginStr result.partyContext resourceType now],
      manager.generateEventId.2)
  else
    let result :=
      manager.trackerBlocker.evaluateRequest targetUrlStr initiatorOriginStr resourceType
    match ruleEventType result with
    | some eventType =>
      (result,
        [{ requestEvent manager.generateEventId.1 eventType targetUrlStr initiatorOriginStr
            result.partyContext resourceType now with
          classification := result.classification
          ruleId := result.matchedRule.ruleId }],
        manager.generateEventId.2)
    | none => (result, [], manager)

/-- The verdict of the manager, whatever events it dispatches. -/
theorem result_evaluateRequest (manager : PrivacyPolicyManager) (url initiator : Text)
    (type : ResourceType) (now : Text) :
    (manager.evaluateRequest url initiator type now).1
      = if manager.enabled = false then
          { decision := .kAllow
            partyContext := ThirdPartyClassifier.classify url initiator
            classification := .kNotTracker }
        else if manager.lookupException initiator = .kAllowAll then
          { decision := .kAllow
            partyContext := ThirdPartyClassifier.classify url initiator
            classification := .kNotTracker
            exceptionApplied := true
            reason := "Site exception: allow all third-party requests".toList }
        else manager.trackerBlocker.evaluateRequest url initiator type := by
  unfold evaluateRequest
  split
  · rfl
  · split
    · rfl
    · simp only
      split <;> rfl

/-- What such a call does: it dispatches nothing and leaves the manager, or it dispatches one event
about the host and URL, with the next id. -/
inductive Dispatch (manager : PrivacyPolicyManager) (host sanitizedUrl : Text) :
    List PrivacyEvent × PrivacyPolicyManager → Prop
  | nothing : Dispatch manager host sanitizedUrl ([], manager)
  | event (event : PrivacyEvent) (hid : event.eventId = manager.generateEventId.1)
    (hhost : event.host = host) (hurl : event.sanitizedUrl = sanitizedUrl) :
    Dispatch manager host sanitizedUrl ([event], manager.generateEventId.2)

/-- The rest of the manager stays as it is. -/
theorem Dispatch.exists_counter {manager : PrivacyPolicyManager} {host sanitizedUrl : Text}
    {r : List PrivacyEvent × PrivacyPolicyManager} (h : Dispatch manager host sanitizedUrl r) :
    ∃ n, r.2 = { manager with eventCounter := n } := by
  cases h with
  | nothing => exact ⟨manager.eventCounter, rfl⟩
  | event => exact ⟨manager.eventCounter + 1, rfl⟩

theorem dispatch_sanitizeUrl (manager : PrivacyPolicyManager) (urlStr now : Text) :
    let cleaned := (manager.sanitizeUrl urlStr now).1.cleanedUrl
    Dispatch manager (ThirdPartyClassifier.extractHostname cleaned)
      (sanitizeUrlForTelemetry cleaned) (manager.sanitizeUrl urlStr now).2 := by
  unfold sanitizeUrl
  split
  · exact .nothing
  · simp only
    split
    · exact .event _ rfl rfl rfl
    · exact .nothing

theorem dispatch_evaluateRequest (manager : PrivacyPolicyManager) (url initiator : Text)
    (type : ResourceType) (now : Text) :
    Dispatch manager (ThirdPartyClassifier.extractHostname url) (sanitizeUrlForTelemetry url)
      (manager.evaluateRequest url initiator type now).2 := by
  unfold evaluateRequest
  split
  · exact .nothing
  · split
    · exact .event _ rfl rfl rfl
    · simp only
      split
      · exact .event _ rfl rfl rfl
      · exact .nothing

/-! ## Histories of a manager -/

/-- A call on a manager or on the rule database behind it. -/
inductive Op
  | setPrivacyProtectionEnabled (enabled : Bool)
  | setSiteException (hostOrDomain : Text) (exception : SitePolicyException)
  | updateRules (op : RuleDatabase.Op)
  | addTrackingParameter (paramName : Text)
  | sanitizeUrl (urlStr now : Text)
  | evaluateRequest (targetUrlStr initiatorOriginStr : Text) (resourceType : ResourceType)
      (now : Text)

/-- What a call does to the manager. -/
def apply (manager : PrivacyPolicyManager) : Op → PrivacyPolicyManager
  | .setPrivacyProtectionEnabled enabled => manager.setPrivacyProtectionEnabled enabled
  | .setSiteException hostOrDomain exception => manager.setSiteException hostOrDomain exception
  | .updateRules op =>
    { manager with
      trackerBlocker := { database := manager.trackerBlocker.database.map (·.apply op) } }
  | .addTrackingParameter paramName =>
    { manager with parameterFilter := manager.parameterFilter.addTrackingParameter paramName }
  | .sanitizeUrl urlStr now => (manager.sanitizeUrl urlStr now).2.2
  | .evaluateRequest targetUrlStr initiatorOriginStr resourceType now =>
    (manager.evaluateRequest targetUrlStr initiatorOriginStr resourceType now).2.2

/-- The manager after a sequence of calls on a new one. -/
def reached (processPrefix : Text) (ops : List Op) : PrivacyPolicyManager :=
  run apply { processPrefix := processPrefix } ops

end PrivacyPolicyManager
end ThoriumFrugal.Privacy

import ThoriumFrugal.Privacy.PrivacyPolicyManagerTheorems

/-!
# The throttles

`LeanPrivacyURLLoaderThrottle` of `lean_privacy_url_loader_throttle.cc` and
`LeanPrivacyNavigationThrottle` of `lean_privacy_navigation_throttle.cc`. A URL is the
string its `spec()` returns; `gurl` stands for building a `GURL` from a string and reading
its `spec()` back.
-/

namespace ThoriumFrugal.Privacy

open Lib
open PrivacyPolicyManager (withRules)

/-- The parts of `network::ResourceRequest` that the throttle reads. -/
structure ResourceRequest where
  url : Text
  requestInitiator : Option Text
  resourceType : ℤ

/-- The parts of `net::RedirectInfo` that the throttle reads. -/
structure RedirectInfo where
  newUrl : Text
  newInitiator : Option Text

/-- What a throttle callback leaves behind: the URL it puts in place, the reason it cancels
with if it does, the events and the manager. -/
structure ThrottleOutcome where
  url : Text
  cancelled : Option Text
  events : List PrivacyEvent
  manager : PrivacyPolicyManager

namespace LeanPrivacyURLLoaderThrottle

/-- Maps Chromium resource types to those of the privacy engine. -/
def convertResourceType (requestResourceType : ℤ) : ResourceType :=
  match requestResourceType with
  | 0 => .kMainFrame
  | 1 => .kSubFrame
  | 2 => .kStylesheet
  | 3 => .kScript
  | 4 => .kImage
  | 5 => .kFont
  | 6 => .kSubFrame
  | 7 => .kOther
  | 8 => .kMedia
  | 9 => .kWebSocket
  | 10 => .kPingBeacon
  | 11 => .kXhrFetch
  | _ => .kOther

/-- The body of both callbacks: sanitize the URL, evaluate it, enforce the decision. -/
def filterAndEvaluate (gurl : Text → Text) (manager : PrivacyPolicyManager) (url : Text)
    (initiator : Option Text) (resourceType : ResourceType) (cancelReason now : Text) :
    ThrottleOutcome :=
  let (filterRes, sanitizeEvents, manager) := manager.sanitizeUrl url now
  let url := if filterRes.parametersRemoved then gurl filterRes.cleanedUrl else url
  let initiatorStr := initiator.getD []
  let (result, events, manager) := manager.evaluateRequest url initiatorStr resourceType now
  { url := url
    cancelled := if result.decision = .kBlock then some cancelReason else none
    events := sanitizeEvents ++ events
    manager := manager }

/-- `WillStartRequest`: the request is stripped first and then judged. -/
def willStartRequest (gurl : Text → Text) (manager : PrivacyPolicyManager)
    (request : ResourceRequest) (now : Text) : ThrottleOutcome :=
  filterAndEvaluate gurl manager request.url request.requestInitiator
    (convertResourceType request.resourceType) "Lean Thorium Privacy Blocked".toList now

/-- A redirect is evaluated as `kOther`, whatever the request's resource type. -/
def willRedirectRequest (gurl : Text → Text) (manager : PrivacyPolicyManager)
    (redirectInfo : RedirectInfo) (now : Text) : ThrottleOutcome :=
  filterAndEvaluate gurl manager redirectInfo.newUrl redirectInfo.newInitiator .kOther
    "Lean Thorium Privacy Blocked Redirect".toList now

end LeanPrivacyURLLoaderThrottle

namespace LeanPrivacyNavigationThrottle

/-- `CheckPrivacyPolicy`, which both callbacks of the navigation throttle return. -/
def checkPrivacyPolicy (manager : PrivacyPolicyManager) (url : Text) (initiator : Option Text)
    (isInMainFrame : Bool) (now : Text) : ThrottleOutcome :=
  let resType := if isInMainFrame then ResourceType.kMainFrame else .kSubFrame
  let (result, events, manager) := manager.evaluateRequest url (initiator.getD []) resType now
  { url := url
    cancelled :=
      if result.decision = .kBlock then some "Lean Thorium Privacy Blocked".toList else none
    events := events
    manager := manager }

end LeanPrivacyNavigationThrottle

/-! ## Requests and redirects -/

namespace LeanPrivacyURLLoaderThrottle

section

variable (gurl : Text → Text) (manager : PrivacyPolicyManager) (url : Text)

/-- The URL that a callback evaluates: the one it is given, without tracking parameters. -/
def evaluatedUrl : Text :=
  let filterRes := manager.parameterFilter.stripTrackingParameters url
  if manager.enabled = true ∧ filterRes.parametersRemoved = true then gurl filterRes.cleanedUrl
  else url

variable (initiator : Option Text) (type : ResourceType)

/-- The request that a callback evaluates, with the resource type it passes on. -/
def evaluatedRequest : Request :=
  { targetUrl := evaluatedUrl gurl manager url
    initiatorOrigin := initiator.getD []
    resourceType := type }

/-- A callback evaluates `evaluatedUrl`, and sanitizing it changes nothing that the
evaluation reads. -/
theorem sanitizeUrl_frame (now : Text) :
    (if (manager.sanitizeUrl url now).1.parametersRemoved
        then gurl (manager.sanitizeUrl url now).1.cleanedUrl else url)
        = evaluatedUrl gurl manager url
      ∧ (manager.sanitizeUrl url now).2.2.enabled = manager.enabled
      ∧ (manager.sanitizeUrl url now).2.2.trackerBlocker = manager.trackerBlocker
      ∧ (manager.sanitizeUrl url now).2.2.siteExceptions = manager.siteExceptions := by
  unfold PrivacyPolicyManager.sanitizeUrl evaluatedUrl
  by_cases hon : manager.enabled = true
  · cases hr : (manager.parameterFilter.stripTrackingParameters url).parametersRemoved
    · simp [hon, hr]
    · simp [hon, hr, PrivacyPolicyManager.generateEventId]
  · simp [hon]

/-- When a callback cancels, over a database that stores the rules `l`. -/
theorem cancelled_filterAndEvaluate {db : RuleDatabase} {l : List ParsedRule}
    (hdb : manager.trackerBlocker.database = some db) (h : db.Represents l)
    (reason now : Text) :
    (filterAndEvaluate gurl manager url initiator type reason now).cancelled.isSome = true
      ↔ manager.enabled = true ∧ manager.lookupException (initiator.getD []) ≠ .kAllowAll
        ∧ (evaluatedRequest gurl manager url initiator type).host ≠ []
        ∧ RulesBlock l (evaluatedRequest gurl manager url initiator type) := by
  obtain ⟨hurl, henabled, hblocker, hexc⟩ := sanitizeUrl_frame gurl manager url now
  have hlookup : ∀ o, (manager.sanitizeUrl url now).2.2.lookupException o
      = manager.lookupException o := fun o => by
    unfold PrivacyPolicyManager.lookupException PrivacyPolicyManager.getSiteException
    rw [hexc]
  simp only [filterAndEvaluate, hurl]
  by_cases hon : manager.enabled = true
  · rw [PrivacyPolicyManager.decision_evaluateRequest (henabled.trans hon), hlookup, hblocker]
    have hmk : manager.trackerBlocker = { database := some db } :=
      congrArg TrackerBlocker.mk hdb
    have hdecision : (({ database := some db } : TrackerBlocker).evaluateRequest
        (evaluatedUrl gurl manager url) (initiator.getD []) type).decision = .kBlock
          ↔ (evaluatedRequest gurl manager url initiator type).host ≠ []
            ∧ RulesBlock l (evaluatedRequest gurl manager url initiator type) :=
      TrackerBlocker.decision_evaluate h (evaluatedRequest gurl manager url initiator type)
    rw [hmk]
    by_cases hall : manager.lookupException (initiator.getD []) = .kAllowAll
    · simp [hall]
    · simpa [hall, hon] using hdecision
  · have hoff := Bool.eq_false_iff.mpr hon
    rw [PrivacyPolicyManager.decision_evaluateRequest_of_disabled (henabled.trans hoff)]
    simp [hoff]

end

/-- A redirect is cancelled like a request of its type exactly when the stored rules decide
alike for that type and for `kOther`, or never get to decide. -/
theorem redirect_cancelled_iff_request_cancelled (gurl : Text → Text)
    (manager : PrivacyPolicyManager) (ops : List RuleDatabase.Op) (url : Text)
    (initiator : Option Text) (resourceType : ℤ) (now now' : Text) :
    ((willStartRequest gurl (withRules manager ops)
          { url := url, requestInitiator := initiator, resourceType := resourceType }
          now).cancelled.isSome = true
        ↔ (willRedirectRequest gurl (withRules manager ops)
          { newUrl := url, newInitiator := initiator } now').cancelled.isSome = true)
      ↔ manager.enabled = false
        ∨ manager.lookupException (initiator.getD []) = .kAllowAll
        ∨ (evaluatedRequest gurl manager url initiator .kOther).host = []
        ∨ (RulesBlock (RuleDatabase.stored ops) (evaluatedRequest gurl manager url initiator
              (convertResourceType resourceType))
            ↔ RulesBlock (RuleDatabase.stored ops)
              (evaluatedRequest gurl manager url initiator .kOther)) := by
  have hrep := RuleDatabase.represents_reached ops
  have hcancel := fun type reason now => cancelled_filterAndEvaluate gurl (withRules manager ops)
    url initiator type rfl hrep reason now
  have hrules : ∀ type, evaluatedRequest gurl (withRules manager ops) url initiator type
      = evaluatedRequest gurl manager url initiator type := fun _ => rfl
  have hhost : ∀ type, (evaluatedRequest gurl manager url initiator type).host
      = (evaluatedRequest gurl manager url initiator .kOther).host := fun _ => rfl
  have hlookup : (withRules manager ops).lookupException (initiator.getD [])
      = manager.lookupException (initiator.getD []) := rfl
  have henabled : (withRules manager ops).enabled = manager.enabled := rfl
  -- up to the resource type both callbacks evaluate the same request
  unfold willStartRequest willRedirectRequest
  rw [hcancel, hcancel, hrules, hrules, hhost (convertResourceType resourceType), hlookup,
    henabled]
  cases manager.enabled with
  | false => simp
  | true =>
    by_cases hall : manager.lookupException (initiator.getD []) = .kAllowAll
    · simp [hall]
    · by_cases hnil : (evaluatedRequest gurl manager url initiator .kOther).host = []
      · simp [hnil]
      · simp [hall, hnil]

/-- A script blocked by a script rule loads through a redirect. -/
theorem redirect_launders_blocked_script :
    let manager : PrivacyPolicyManager :=
      withRules { processPrefix := "lt_priv_1000_".toList }
        [.loadFromText "||tracker.com^$script".toList]
    let url := "https://tracker.com/t.js".toList
    let initiator := some "https://news.example/".toList
    (willStartRequest id manager
        { url := url, requestInitiator := initiator, resourceType := 3 } []).cancelled.isSome = true
      ∧ (willRedirectRequest id manager
        { newUrl := url, newInitiator := initiator } []).cancelled.isSome = false := by
  decide

end LeanPrivacyURLLoaderThrottle
end ThoriumFrugal.Privacy

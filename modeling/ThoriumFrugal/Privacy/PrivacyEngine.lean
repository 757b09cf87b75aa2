import ThoriumFrugal.Privacy.Throttle

/-!
# The privacy engine in the browser

The manager together with the throttles that ask it. `MaybeCreate` and `MaybeCreateThrottleFor`
give a throttle to a request or navigation only while the protection is enabled, and only what
has a throttle is ever evaluated. Settings may change between any two callbacks, also during
the redirects of one request.
-/

namespace ThoriumFrugal.Privacy

open Lib

/-- What a throttle may be created for. -/
inductive Guarded
  | request (id : ℕ)
  | navigation (id : ℕ)
deriving DecidableEq, Repr

/-- The parts of `content::NavigationHandle` that the navigation throttle reads. -/
structure NavigationHandle where
  url : Text
  initiatorOrigin : Option Text
  isInMainFrame : Bool
deriving DecidableEq, Repr

/-- The manager of the process, and what has a throttle. -/
structure PrivacyEngine where
  manager : PrivacyPolicyManager
  /-- What has a throttle. -/
  throttles : List Guarded := []

namespace PrivacyEngine

/-- A change of the settings, a throttle's creation, or a callback. -/
inductive Step
  | setPrivacyProtectionEnabled (enabled : Bool)
  | setSiteException (hostOrDomain : Text) (exception : SitePolicyException)
  | updateRules (op : RuleDatabase.Op)
  | addTrackingParameter (paramName : Text)
  | maybeCreate (id : ℕ)
  | maybeCreateThrottleFor (id : ℕ)
  | willStartRequest (id : ℕ) (request : ResourceRequest) (now : Text)
  | willRedirectRequest (id : ℕ) (redirectInfo : RedirectInfo) (now : Text)
  /-- Both callbacks of the navigation throttle. -/
  | checkPrivacyPolicy (id : ℕ) (handle : NavigationHandle) (now : Text)

/-- The call on the manager that changes a setting. -/
def Step.settingOp : Step → Option PrivacyPolicyManager.Op
  | .setPrivacyProtectionEnabled enabled => some (.setPrivacyProtectionEnabled enabled)
  | .setSiteException hostOrDomain exception => some (.setSiteException hostOrDomain exception)
  | .updateRules op => some (.updateRules op)
  | .addTrackingParameter paramName => some (.addTrackingParameter paramName)
  | _ => none

/-- The throttle that a step creates if the protection is enabled. -/
def Step.creates : Step → Option Guarded
  | .maybeCreate id => some (.request id)
  | .maybeCreateThrottleFor id => some (.navigation id)
  | _ => none

variable (gurl : Text → Text)

/-- What a callback does if its throttle exists. -/
def outcome (s : PrivacyEngine) : Step → Option ThrottleOutcome
  | .willStartRequest id request now =>
    if .request id ∈ s.throttles then
      some (LeanPrivacyURLLoaderThrottle.willStartRequest gurl s.manager request now)
    else none
  | .willRedirectRequest id redirectInfo now =>
    if .request id ∈ s.throttles then
      some (LeanPrivacyURLLoaderThrottle.willRedirectRequest gurl s.manager redirectInfo now)
    else none
  | .checkPrivacyPolicy id handle now =>
    if .navigation id ∈ s.throttles then
      some (LeanPrivacyNavigationThrottle.checkPrivacyPolicy s.manager handle.url
        handle.initiatorOrigin handle.isInMainFrame now)
    else none
  | _ => none

def step (s : PrivacyEngine) (x : Step) : PrivacyEngine :=
  match x.settingOp with
  | some op => { s with manager := s.manager.apply op }
  | none =>
    match x.creates with
    | some guarded =>
      if s.manager.enabled then { s with throttles := guarded :: s.throttles } else s
    | none =>
      match outcome gurl s x with
      | some o => { s with manager := o.manager }
      | none => s

/-- The engine of a new process after the steps. -/
def after (processPrefix : Text) (steps : List Step) : PrivacyEngine :=
  run (step gurl) { manager := { processPrefix := processPrefix } } steps

@[simp] theorem after_concat (processPrefix : Text) (steps : List Step) (x : Step) :
    after gurl processPrefix (steps ++ [x]) = (after gurl processPrefix steps).step gurl x :=
  run_concat steps x

/-! ## What a callback evaluates -/

/-- The throttle whose callback a step is. -/
def Step.guarded? : Step → Option Guarded
  | .willStartRequest id _ _ => some (.request id)
  | .willRedirectRequest id _ _ => some (.request id)
  | .checkPrivacyPolicy id _ _ => some (.navigation id)
  | _ => none

/-- The request that a callback passes to the manager. -/
def evaluated (manager : PrivacyPolicyManager) : Step → Request
  | .willStartRequest _ request _ =>
    LeanPrivacyURLLoaderThrottle.evaluatedRequest gurl manager request.url
      request.requestInitiator
      (LeanPrivacyURLLoaderThrottle.convertResourceType request.resourceType)
  | .willRedirectRequest _ redirectInfo _ =>
    LeanPrivacyURLLoaderThrottle.evaluatedRequest gurl manager redirectInfo.newUrl
      redirectInfo.newInitiator .kOther
  | .checkPrivacyPolicy _ handle _ =>
    { targetUrl := handle.url
      initiatorOrigin := handle.initiatorOrigin.getD []
      resourceType := if handle.isInMainFrame then .kMainFrame else .kSubFrame }
  | _ => { targetUrl := [], initiatorOrigin := [], resourceType := .kOther }

/-- What the manager dispatches for a URL that loses parameters. -/
def sanitizeEvents (manager : PrivacyPolicyManager) : Step → List PrivacyEvent
  | .willStartRequest _ request now => (manager.sanitizeUrl request.url now).2.1
  | .willRedirectRequest _ redirectInfo now => (manager.sanitizeUrl redirectInfo.newUrl now).2.1
  | _ => []

end PrivacyEngine
end ThoriumFrugal.Privacy

import ThoriumFrugal.Lib.Text

/-!
# Privacy engine: shared types

The enumerations and records of `privacy_types.h`, `rule_parser.h` and `privacy_event.h`.
A C++ `std::string` is the list of its bytes, each written as the character of that code.
-/

namespace ThoriumFrugal.Privacy

open Lib

/-- Outcome for a network request. -/
inductive PrivacyDecision
  | kAllow
  | kBlock
deriving DecidableEq, Repr

/-- Relationship between the target of a request and the document that initiated it. -/
inductive PartyContext
  | kFirstParty
  | kSameSite
  | kThirdParty
deriving DecidableEq, Repr

/-- Classification of the target from the rule lists. -/
inductive TrackerClassification
  | kNotTracker
  | kKnownTracker
  | kUnclassified
deriving DecidableEq, Repr

/-- Resource type of a request. -/
inductive ResourceType
  | kMainFrame
  | kSubFrame
  | kScript
  | kImage
  | kStylesheet
  | kFont
  | kXhrFetch
  | kPingBeacon
  | kWebSocket
  | kMedia
  | kOther
deriving DecidableEq, Repr

namespace ResourceType

/-- The enumerator's integer value, its bit position in a rule's resource mask. -/
def value : ResourceType → ℕ
  | kMainFrame => 0
  | kSubFrame => 1
  | kScript => 2
  | kImage => 3
  | kStylesheet => 4
  | kFont => 5
  | kXhrFetch => 6
  | kPingBeacon => 7
  | kWebSocket => 8
  | kMedia => 9
  | kOther => 10

end ResourceType

/-- The name of a resource type in privacy events. -/
def resourceTypeToString : ResourceType → Text
  | .kMainFrame => "main_frame".toList
  | .kSubFrame => "sub_frame".toList
  | .kScript => "script".toList
  | .kImage => "image".toList
  | .kStylesheet => "stylesheet".toList
  | .kFont => "font".toList
  | .kXhrFetch => "xhr_fetch".toList
  | .kPingBeacon => "ping_beacon".toList
  | .kWebSocket => "websocket".toList
  | .kMedia => "media".toList
  | .kOther => "other".toList

/-- Rule match metadata. -/
structure RuleMatch where
  matched : Bool := false
  ruleId : Text := []
  pattern : Text := []
  isAllowRule : Bool := false
deriving DecidableEq, Repr

/-- Result of evaluating a request. -/
structure PrivacyEvaluationResult where
  decision : PrivacyDecision := .kAllow
  partyContext : PartyContext := .kFirstParty
  classification : TrackerClassification := .kNotTracker
  matchedRule : RuleMatch := {}
  reason : Text := []
  exceptionApplied : Bool := false
deriving DecidableEq, Repr

/-- The enumeration of the same name. -/
inductive RuleType
  | kBlock
  | kAllow
deriving DecidableEq, Repr

/-- A filter-list rule. `resourceTypeMask` is the source's `unsigned int`. -/
structure ParsedRule where
  ruleId : Text := []
  ruleType : RuleType := .kBlock
  domainPattern : Text := []
  pathPattern : Text := []
  matchSubdomains : Bool := true
  requireThirdParty : Bool := false
  requireFirstParty : Bool := false
  resourceTypeMask : BitVec 32 := 0xFFFFFFFF#32
  originalRuleText : Text := []
  isValid : Bool := false
deriving DecidableEq, Repr

/-- A telemetry event. -/
structure PrivacyEvent where
  eventId : Text := []
  eventType : Text := []
  host : Text := []
  sanitizedUrl : Text := []
  initiatorOrigin : Text := []
  partyContext : PartyContext := .kFirstParty
  resourceType : Text := []
  classification : TrackerClassification := .kNotTracker
  ruleId : Text := []
  strippedParameters : List Text := []
  timestamp : Text := []
deriving DecidableEq, Repr

end ThoriumFrugal.Privacy

import ThoriumFrugal.Privacy.RuleDatabase
import ThoriumFrugal.Privacy.ThirdPartyClassifier

/-!
# The tracker blocker

`TrackerBlocker` of `tracker_blocker.cc`.
-/

namespace ThoriumFrugal.Privacy

open Lib

/-- The blocker holds a pointer to its database, which `SetDatabase` may make null. -/
structure TrackerBlocker where
  database : Option RuleDatabase := some {}

namespace TrackerBlocker

/-- `ExtractPath`: from the first slash behind the authority up to the query or the fragment. -/
def extractPath (urlStr : Text) : Text :=
  match Text.find urlStr '/' (ThirdPartyClassifier.schemeEnd urlStr) with
  | none => "/".toList
  | some slashPos =>
    match Text.findFirstOf urlStr "?#".toList slashPos with
    | none => urlStr.drop slashPos
    | some queryPos => Text.substr urlStr slashPos (queryPos - slashPos)

/-- The path of what stands behind the scheme: from its first slash up to a query or fragment. -/
def pathBehindScheme (rest : Text) : Text :=
  if '/' ∈ rest then (rest.dropWhile (· ≠ '/')).takeWhile fun c => !"?#".toList.contains c
  else "/".toList

theorem extractPath_eq (urlStr : Text) : extractPath urlStr
    = pathBehindScheme (urlStr.drop (ThirdPartyClassifier.schemeEnd urlStr)) := by
  unfold extractPath pathBehindScheme
  generalize ThirdPartyClassifier.schemeEnd urlStr = start
  by_cases hslash : '/' ∈ urlStr.drop start
  · obtain ⟨a, b, hrest, ha⟩ := List.eq_append_cons_of_mem hslash
    have hpath : (urlStr.drop start).dropWhile (· ≠ '/') = urlStr.drop (start + a.length) := by
      rw [← List.drop_drop, hrest, List.drop_left,
        Text.dropWhile_append_stop (Text.ne_of_not_mem ha) (by simp)]
    rw [if_pos hslash, Text.find_of_drop_eq hrest ha, hpath, ← Text.substr_findFirstOf]
    simp only
    split
    · next hnone =>
      -- without a stop the path goes on to the end
      rw [hnone, Option.getD_none]
      unfold Text.substr
      rw [List.take_of_length_le (by simp)]
    · next queryPos hstop => rw [hstop, Option.getD_some]
  · rw [if_neg hslash, Text.find_of_not_mem_drop hslash]

/-- The authority does not change the path behind it. -/
theorem extractPath_of_authority {urlStr authority tail : Text}
    (hdrop : urlStr.drop (ThirdPartyClassifier.schemeEnd urlStr) = authority ++ tail)
    (hauthority : ∀ c ∈ authority, c ∉ "/?#".toList) :
    extractPath urlStr = pathBehindScheme tail := by
  have hslash : '/' ∉ authority := fun h => hauthority _ h (by decide)
  rw [extractPath_eq, hdrop]
  unfold pathBehindScheme
  rw [List.dropWhile_append_of_pos (Text.ne_of_not_mem hslash)]
  simp [hslash]

/-- The three `continue` conditions of both loops. -/
def skipsRule (resourceType : ResourceType) (partyContext : PartyContext) (rule : ParsedRule) :
    Bool :=
  !RuleParser.matchesResourceType resourceType rule.resourceTypeMask
    || (rule.requireThirdParty && partyContext != .kThirdParty)
    || (rule.requireFirstParty && partyContext != .kFirstParty && partyContext != .kSameSite)

/-- A loop over rules, which returns at the first rule it does not skip. -/
def firstApplied (resourceType : ResourceType) (partyContext : PartyContext)
    (rules : List ParsedRule) : Option ParsedRule :=
  rules.find? fun rule => !skipsRule resourceType partyContext rule

/-- The result when an allow rule is found. -/
def allowedBy (result : PrivacyEvaluationResult) (rule : ParsedRule) : PrivacyEvaluationResult :=
  { result with
    decision := .kAllow
    matchedRule :=
      { matched := true
        ruleId := rule.ruleId
        pattern := rule.originalRuleText
        isAllowRule := true }
    reason := "Matched allow rule: ".toList ++ rule.originalRuleText }

/-- The reason where a block rule is found and not applied. -/
def allowedByPolicyReason : Text :=
  "Matched tracker rule in first-party context (allowed by policy)".toList

/-- The result when a block rule is found. -/
def blockedBy (result : PrivacyEvaluationResult) (rule : ParsedRule) : PrivacyEvaluationResult :=
  let result :=
    { result with
      matchedRule :=
        { matched := true
          ruleId := rule.ruleId
          pattern := rule.originalRuleText
          isAllowRule := false }
      classification := .kKnownTracker }
  -- otherwise a third-party rule has met another party, which the loops skip
  if result.partyContext = .kThirdParty ∨ rule.requireThirdParty = false then
    { result with
      decision := .kBlock
      reason := "Matched block rule: ".toList ++ rule.originalRuleText }
  else
    { result with
      decision := .kAllow
      reason := allowedByPolicyReason }

/-- Allow rules are evaluated first, then block rules. -/
def applyRules (database : RuleDatabase) (result : PrivacyEvaluationResult) (host path : Text)
    (resourceType : ResourceType) : PrivacyEvaluationResult :=
  match firstApplied resourceType result.partyContext
      (database.findMatchingAllowRules host path) with
  | some rule => allowedBy result rule
  | none =>
    match firstApplied resourceType result.partyContext
        (database.findMatchingBlockRules host path) with
    | some rule => blockedBy result rule
    | none => result

/-- `EvaluateRequest`: exceptions come before block rules. -/
def evaluateRequest (blocker : TrackerBlocker) (targetUrlStr initiatorOriginStr : Text)
    (resourceType : ResourceType) : PrivacyEvaluationResult :=
  let result : PrivacyEvaluationResult :=
    { decision := .kAllow
      partyContext := ThirdPartyClassifier.classify targetUrlStr initiatorOriginStr
      classification := .kNotTracker }
  let host := ThirdPartyClassifier.extractHostname targetUrlStr
  let path := extractPath targetUrlStr
  match blocker.database with
  | none => result
  | some database =>
    if host = [] then result
    else
      let result :=
        if database.isKnownTrackerHost host then
          { result with classification := .kKnownTracker }
        else result
      applyRules database result host path resourceType

end TrackerBlocker
end ThoriumFrugal.Privacy

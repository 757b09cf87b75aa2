import ThoriumFrugal.Privacy.PrivacyPolicyManager
import ThoriumFrugal.Privacy.StepwiseRules

/-!
# The URL functions, operation by operation

The classifier, the blocker, the parameter filter and the telemetry sanitizer with every slice,
index and difference of positions of the source and with their loops. As in the rule engine, none
of them faults, whatever delimiters a URL string has or lacks.
-/

namespace ThoriumFrugal.Privacy

open Lib

/-! ## Hosts and domains -/

namespace ThirdPartyClassifier

theorem schemeEnd_le (urlStr : Text) : schemeEnd urlStr ≤ urlStr.length := by
  unfold schemeEnd
  cases hfind : Text.findStr urlStr "://".toList 0 with
  | none => exact Nat.zero_le _
  | some schemePos => exact Text.length_le_of_findStr_eq_some hfind

namespace Stepwise

/-- `ExtractHostname`: what stands behind the scheme, up to the next of `/?#:`. -/
def extractHostname (urlStr : Text) : Faulty Text :=
  if urlStr = [] then return []
  else do
    let start := schemeEnd urlStr
    let stop := (Text.findFirstOf urlStr "/?#:".toList start).getD urlStr.length
    let n ← Faulty.sub stop start
    let host ← Faulty.substr urlStr start n
    return Text.toLower host

/-- `parts[parts.size() - k]`. -/
def partFromEnd (parts : List Text) (k : ℕ) : Faulty Text := do
  let i ← Faulty.sub parts.length k
  Faulty.index parts i

/-- The part of `GetDomain` behind the local hosts. -/
def domainOfParts (lowerHost : Text) : Faulty Text := do
  let parts ← Faulty.split lowerHost '.'
  if parts.length ≤ 2 then return lowerHost
  else
    let second ← partFromEnd parts 2
    let last ← partFromEnd parts 1
    let potentialTwoPart := second ++ '.' :: last
    if potentialTwoPart ∈ kTwoPartTlds then
      -- there are three parts here, so the `else` is dead in the source too
      if parts.length ≥ 3 then
        let third ← partFromEnd parts 3
        return third ++ '.' :: potentialTwoPart
      else return lowerHost
    else return potentialTwoPart

/-- `GetDomain`; local hosts stay as they are. -/
def getDomain (hostname : Text) : Faulty Text :=
  let lowerHost := Text.toLower hostname
  if lowerHost = [] then return []
  else do
    let lowerHost ← Faulty.dropFinalDot lowerHost
    if lowerHost = "localhost".toList ∨ lowerHost = "127.0.0.1".toList
        ∨ lowerHost = "::1".toList then return lowerHost
    else domainOfParts lowerHost

/-- `Classify`, from the two host names and their domains. -/
def classify (targetUrlStr initiatorOriginStr : Text) : Faulty PartyContext :=
  if initiatorOriginStr = [] then return .kFirstParty
  else do
    let targetHost ← extractHostname targetUrlStr
    let initHost ← extractHostname initiatorOriginStr
    if targetHost = [] ∨ initHost = [] then return .kFirstParty
    else if targetHost = initHost then return .kFirstParty
    else
      let targetDomain ← getDomain targetHost
      let initDomain ← getDomain initHost
      return if targetDomain = initDomain then .kSameSite else .kThirdParty

/-- Every position that it cuts at was found, so it does not fault. -/
theorem extractHostname_ok (urlStr : Text) :
    extractHostname urlStr = .ok (ThirdPartyClassifier.extractHostname urlStr) := by
  unfold extractHostname ThirdPartyClassifier.extractHostname
  split
  · rfl
  · have hstart := schemeEnd_le urlStr
    have hstop : schemeEnd urlStr
        ≤ (Text.findFirstOf urlStr "/?#:".toList (schemeEnd urlStr)).getD urlStr.length := by
      cases hfind : Text.findFirstOf urlStr "/?#:".toList (schemeEnd urlStr) with
      | none => exact hstart
      | some stop => exact (Text.bounds_of_findFirstOf_eq_some hfind).1
    simp only [Faulty.sub_ok hstop, Faulty.substr_ok hstart, Faulty.ok_bind, Faulty.pure_eq]

/-- A part is there if as many parts are. -/
theorem partFromEnd_ok {parts : List Text} {k : ℕ} {part : Text} (hk : k ≤ parts.length)
    (h : parts[parts.length - k]? = some part) : partFromEnd parts k = .ok part := by
  unfold partFromEnd
  rw [Faulty.sub_ok hk, Faulty.ok_bind, Faulty.index_ok h]

/-- The parts that are read are there, since their number was tested before. -/
theorem domainOfParts_ok (lowerHost : Text) :
    domainOfParts lowerHost = .ok (match (lowerHost.splitOn '.').reverse with
      | last :: second :: third :: _ =>
        let potentialTwoPart := second ++ '.' :: last
        if potentialTwoPart ∈ kTwoPartTlds then third ++ '.' :: potentialTwoPart
        else potentialTwoPart
      | _ => lowerHost) := by
  unfold domainOfParts
  rw [Faulty.split_ok, Faulty.ok_bind]
  generalize lowerHost.splitOn '.' = parts
  obtain ⟨rev, rfl⟩ : ∃ rev : List Text, parts = rev.reverse := ⟨_, (parts.reverse_reverse).symm⟩
  rw [List.reverse_reverse, List.length_reverse]
  -- the parts are read from the end
  rcases rev with _ | ⟨last, _ | ⟨second, _ | ⟨third, rest⟩⟩⟩
  · rfl
  · rfl
  · rfl
  · have hparts : (last :: second :: third :: rest).reverse
        = rest.reverse ++ [third, second, last] := by simp
    have hthird : partFromEnd (rest.reverse ++ [third, second, last]) 3 = .ok third :=
      partFromEnd_ok (by simp) (by simp)
    have hsecond : partFromEnd (rest.reverse ++ [third, second, last]) 2 = .ok second :=
      partFromEnd_ok (by simp) (by simp)
    have hlast : partFromEnd (rest.reverse ++ [third, second, last]) 1 = .ok last :=
      partFromEnd_ok (by simp) (by simp)
    have hthree : (last :: second :: third :: rest).length ≥ 3 := by simp
    rw [if_neg (by simp), hparts, hsecond, Faulty.ok_bind, hlast, Faulty.ok_bind, hthird]
    simp only [if_pos hthree, Faulty.ok_bind, Faulty.pure_eq]
    split <;> rfl

/-- So the domain is found without a fault. -/
theorem getDomain_ok (hostname : Text) :
    getDomain hostname = .ok (ThirdPartyClassifier.getDomain hostname) := by
  unfold getDomain ThirdPartyClassifier.getDomain
  dsimp only
  split
  · rfl
  · next hhost =>
    rw [Faulty.dropFinalDot_ok hhost, Faulty.ok_bind]
    split
    · rfl
    · exact domainOfParts_ok _

/-- And so is the party. -/
theorem classify_ok (targetUrlStr initiatorOriginStr : Text) :
    classify targetUrlStr initiatorOriginStr
      = .ok (ThirdPartyClassifier.classify targetUrlStr initiatorOriginStr) := by
  unfold classify ThirdPartyClassifier.classify
  simp only [extractHostname_ok, getDomain_ok, Faulty.ok_bind, Faulty.pure_eq]
  split_ifs <;> rfl

end Stepwise
end ThirdPartyClassifier

/-! ## Requests -/

namespace TrackerBlocker.Stepwise

/-- `ExtractPath`: from the first slash behind the authority up to the query or the fragment. -/
def extractPath (urlStr : Text) : Faulty Text :=
  match Text.find urlStr '/' (ThirdPartyClassifier.schemeEnd urlStr) with
  | none => return "/".toList
  | some slashPos =>
    match Text.findFirstOf urlStr "?#".toList slashPos with
    | none => Faulty.substrFrom urlStr slashPos
    | some queryPos => do
      let n ← Faulty.sub queryPos slashPos
      Faulty.substr urlStr slashPos n

/-- The two loops over the rules that were found. -/
def applyRules (database : RuleDatabase) (result : PrivacyEvaluationResult) (host path : Text)
    (resourceType : ResourceType) : Faulty PrivacyEvaluationResult := do
  let allowRules ← RuleDatabase.Stepwise.findMatchingAllowRules database host path
  match firstApplied resourceType result.partyContext allowRules with
  | some rule => return allowedBy result rule
  | none =>
    let blockRules ← RuleDatabase.Stepwise.findMatchingBlockRules database host path
    match firstApplied resourceType result.partyContext blockRules with
    | some rule => return blockedBy result rule
    | none => return result

/-- `TrackerBlocker::EvaluateRequest`. -/
def evaluateRequest (blocker : TrackerBlocker) (targetUrlStr initiatorOriginStr : Text)
    (resourceType : ResourceType) : Faulty PrivacyEvaluationResult := do
  let partyContext ← ThirdPartyClassifier.Stepwise.classify targetUrlStr initiatorOriginStr
  let result : PrivacyEvaluationResult :=
    { decision := .kAllow
      partyContext := partyContext
      classification := .kNotTracker }
  let host ← ThirdPartyClassifier.Stepwise.extractHostname targetUrlStr
  let path ← extractPath targetUrlStr
  match blocker.database with
  | none => return result
  | some database =>
    if host = [] then return result
    else
      let known ← RuleDatabase.Stepwise.isKnownTrackerHost database host
      let result := if known then { result with classification := .kKnownTracker } else result
      applyRules database result host path resourceType

/-- The path is cut at positions that were found. -/
theorem extractPath_ok (urlStr : Text) :
    extractPath urlStr = .ok (TrackerBlocker.extractPath urlStr) := by
  unfold extractPath TrackerBlocker.extractPath
  cases hslash : Text.find urlStr '/' (ThirdPartyClassifier.schemeEnd urlStr) with
  | none => rfl
  | some slashPos =>
    have hpath := (Text.bounds_of_find_eq_some hslash).2.le
    cases hquery : Text.findFirstOf urlStr "?#".toList slashPos with
    | none => simp only [hquery, Faulty.substrFrom_ok hpath]
    | some queryPos =>
      simp only [hquery, Faulty.sub_ok (Text.bounds_of_findFirstOf_eq_some hquery).1,
        Faulty.substr_ok hpath, Faulty.ok_bind]

/-- The loops do not index, and the lookups do not fault. -/
theorem applyRules_ok (database : RuleDatabase) (result : PrivacyEvaluationResult)
    (host path : Text) (resourceType : ResourceType) :
    applyRules database result host path resourceType
      = .ok (TrackerBlocker.applyRules database result host path resourceType) := by
  unfold applyRules TrackerBlocker.applyRules
  rw [RuleDatabase.Stepwise.findMatchingAllowRules_ok, Faulty.ok_bind]
  cases firstApplied resourceType result.partyContext
      (database.findMatchingAllowRules host path) with
  | some rule => rfl
  | none =>
    -- no exception applies, so the block rules are looked up
    rw [RuleDatabase.Stepwise.findMatchingBlockRules_ok, Faulty.ok_bind]
    cases firstApplied resourceType result.partyContext
        (database.findMatchingBlockRules host path) with
    | some rule => rfl
    | none => rfl

/-- So the engine evaluates every request. -/
theorem evaluateRequest_ok (blocker : TrackerBlocker) (targetUrlStr initiatorOriginStr : Text)
    (resourceType : ResourceType) :
    evaluateRequest blocker targetUrlStr initiatorOriginStr resourceType
      = .ok (blocker.evaluateRequest targetUrlStr initiatorOriginStr resourceType) := by
  unfold evaluateRequest TrackerBlocker.evaluateRequest
  simp only [ThirdPartyClassifier.Stepwise.classify_ok, extractPath_ok,
    ThirdPartyClassifier.Stepwise.extractHostname_ok, Faulty.ok_bind]
  cases blocker.database with
  | none => rfl
  | some database =>
    dsimp only
    split
    · rfl
    · rw [RuleDatabase.Stepwise.isKnownTrackerHost_ok, Faulty.ok_bind, applyRules_ok]

end TrackerBlocker.Stepwise

/-! ## Queries -/

namespace Stepwise

/-- `query_str` or `query_part`: up to the `#`, or to the end. -/
def queryText (urlStr : Text) (queryPos : ℕ) : Option ℕ → Faulty Text
  | none => Faulty.substrFrom urlStr (queryPos + 1)
  | some hashPos => do
    let n ← Faulty.sub hashPos (queryPos + 1)
    Faulty.substr urlStr (queryPos + 1) n

/-- The fragment with its `#`, cut off at the position where it was found. -/
def fragmentText (urlStr : Text) : Option ℕ → Faulty Text
  | some hashPos => Faulty.substrFrom urlStr hashPos
  | none => return []

/-- The URL in front of the query, the query and the fragment. -/
def splitUrl (urlStr : Text) : Faulty (Option UrlParts) :=
  match Text.find urlStr '?' 0 with
  | none => return none
  | some queryPos => do
    let hashPos := Text.find urlStr '#' queryPos
    let base ← Faulty.substr urlStr 0 queryPos
    let query ← queryText urlStr queryPos hashPos
    let fragment ← fragmentText urlStr hashPos
    return some { base := base, query := query, fragment := fragment }

/-- The key of an item: what stands in front of its `=`, if there is one. -/
def itemKey (item : Text) : Faulty Text :=
  match Text.find item '=' 0 with
  | some eqPos => Faulty.substr item 0 eqPos
  | none => return item

/-- The positions are in order: the fragment is searched behind the query's mark. -/
theorem splitUrl_ok (urlStr : Text) :
    splitUrl urlStr = .ok (Privacy.splitUrl urlStr) := by
  unfold splitUrl Privacy.splitUrl
  cases hquery : Text.find urlStr '?' 0 with
  | none => rfl
  | some queryPos =>
    have hin := (Text.bounds_of_find_eq_some hquery).2
    cases hhash : Text.find urlStr '#' queryPos with
    | none =>
      simp only [hhash, queryText, fragmentText, Faulty.substr_zero, Faulty.substrFrom_ok hin,
        Faulty.ok_bind, Faulty.pure_eq]
    | some hashPos =>
      -- the two searches start at one place, but do not look for one character
      have horder := Text.lt_of_find_eq_some_of_ne hquery hhash (by decide)
      simp only [hhash, queryText, fragmentText, Faulty.substr_zero, Faulty.sub_ok horder,
        Faulty.substr_ok hin, Faulty.substrFrom_ok (Text.bounds_of_find_eq_some hhash).2.le,
        Faulty.ok_bind, Faulty.pure_eq]

/-- The key ends at a position that was found. -/
theorem itemKey_ok (item : Text) : itemKey item = .ok (Privacy.itemKey item) := by
  unfold itemKey Privacy.itemKey
  cases Text.find item '=' 0 with
  | none => rfl
  | some eqPos => exact Faulty.substr_zero item eqPos

end Stepwise

/-! ## Stripping -/

namespace TrackingParameterFilter.Stepwise

/-- The body of the loop over the items, on the result and the pairs to preserve. -/
def stripItem (filter : TrackingParameterFilter) (state : FilterResult × List Text)
    (item : Text) : Faulty (FilterResult × List Text) :=
  if item = [] then return state
  else do
    let (result, preserved) := state
    let key ← Stepwise.itemKey item
    if filter.isTrackingParameter key then
      return ({ result with
        parametersRemoved := true
        removedParameters := result.removedParameters ++ [key] }, preserved)
    else return (result, preserved ++ [item])

/-- `StripTrackingParameters`, item by item. -/
def stripTrackingParameters (filter : TrackingParameterFilter) (urlStr : Text) :
    Faulty FilterResult := do
  let result : FilterResult := { cleanedUrl := urlStr, parametersRemoved := false }
  match ← Stepwise.splitUrl urlStr with
  | none => return result
  | some url =>
    if url.query = [] then return result
    else
      let (result, preserved) ←
        Faulty.forLines '&' (stripItem filter) url.query.length (result, []) url.query
      if result.parametersRemoved = false then return result
      else
        let newQuery ← Faulty.join "&".toList preserved
        return { result with
          cleanedUrl :=
            if newQuery = [] then url.base ++ url.fragment
            else url.base ++ '?' :: newQuery ++ url.fragment }

/-- An item that is not empty is removed or kept. -/
theorem stripItem_of_ne_nil (filter : TrackingParameterFilter) (result : FilterResult)
    (preserved : List Text) {item : Text} (hitem : item ≠ []) :
    stripItem filter (result, preserved) item
      = .ok (if filter.isTrackingParameter (itemKey item) then
          ({ result with
            parametersRemoved := true
            removedParameters := result.removedParameters ++ [itemKey item] }, preserved)
        else (result, preserved ++ [item])) := by
  unfold stripItem
  rw [if_neg hitem, Stepwise.itemKey_ok]
  simp only [Faulty.ok_bind, Faulty.pure_eq]
  split <;> rfl

/-- The loop parts the items into removed and preserved ones. -/
theorem foldlM_stripItem (filter : TrackingParameterFilter) (items : List Text)
    (result : FilterResult) (preserved : List Text) :
    items.foldlM (stripItem filter) (result, preserved)
      = .ok (let parted := (items.filter (· ≠ [])).partition fun item =>
          filter.isTrackingParameter (itemKey item)
        ({ result with
            parametersRemoved := result.parametersRemoved || !parted.1.isEmpty
            removedParameters := result.removedParameters ++ parted.1.map itemKey },
          preserved ++ parted.2)) := by
  simp only [List.partition_eq_filter_filter]
  induction items generalizing result preserved with
  | nil => simp
  | cons item items ih =>
    rw [List.foldlM_cons]
    by_cases hitem : item = []
    · -- an empty item adds nothing
      subst hitem
      exact ih result preserved
    · rw [stripItem_of_ne_nil filter result preserved hitem, Faulty.ok_bind,
        List.filter_cons_of_pos (by simpa using hitem)]
      -- a tracking item is recorded, any other kept
      by_cases hkey : filter.isTrackingParameter (itemKey item) = true
      · rw [if_pos hkey, ih]
        simp [hkey]
      · rw [if_neg hkey, ih]
        simp [hkey]

/-- The filter returns on every text. -/
theorem stripTrackingParameters_ok (filter : TrackingParameterFilter) (urlStr : Text) :
    stripTrackingParameters filter urlStr = .ok (filter.stripTrackingParameters urlStr) := by
  unfold stripTrackingParameters TrackingParameterFilter.stripTrackingParameters queryItems
  rw [Stepwise.splitUrl_ok, Faulty.ok_bind]
  cases splitUrl urlStr with
  | none => rfl
  | some url =>
    dsimp only
    split
    · rfl
    · rw [Faulty.forLines_eq _ _ _ _ _ le_rfl, foldlM_stripItem, Faulty.ok_bind]
      -- what is removed decides whether a URL is put together
      generalize (List.filter _ _).partition _ = parted
      obtain ⟨removed, preserved⟩ := parted
      cases removed with
      | nil => rfl
      | cons item removed =>
        simp only [List.nil_append, Faulty.join_ok, Faulty.ok_bind]
        rfl

end TrackingParameterFilter.Stepwise

/-! ## Telemetry URLs -/

namespace PrivacyPolicyManager.Stepwise

/-- `url.substr(0, start) + url.substr(at_pos + 1)`. -/
def withoutUserinfo (url : Text) (start atPos : ℕ) : Faulty Text := do
  let front ← Faulty.substr url 0 start
  let rest ← Faulty.substrFrom url (atPos + 1)
  return front ++ rest

/-- The first step of `SanitizeUrlForTelemetry`: the userinfo is cut out, if an `@` comes before any
slash. -/
def stripUserinfo (url : Text) : Faulty Text :=
  let start := ThirdPartyClassifier.schemeEnd url
  match Text.find url '@' start, Text.find url '/' start with
  | some atPos, none => withoutUserinfo url start atPos
  | some atPos, some slashPos =>
    if atPos < slashPos then withoutUserinfo url start atPos else return url
  | none, _ => return url

/-- The body of the loop over the pairs. -/
def sanitizePair (sanitized : List Text) (pair : Text) : Faulty (List Text) :=
  if pair = [] then return sanitized
  else do
    let key ← Stepwise.itemKey pair
    if isSensitiveQueryKey key then return sanitized ++ [key ++ "=[REDACTED]".toList]
    else return sanitized ++ [pair]

/-- `SanitizeUrlForTelemetry`, pair by pair. -/
def sanitizeUrlForTelemetry (rawUrl : Text) : Faulty Text :=
  if rawUrl = [] then return []
  else do
    let url ← stripUserinfo rawUrl
    match ← Stepwise.splitUrl url with
    | none => return url
    | some parts =>
      let sanitized ← Faulty.forLines '&' sanitizePair parts.query.length [] parts.query
      let newQuery ← Faulty.join "&".toList sanitized
      return parts.base ++ (if newQuery = [] then [] else '?' :: newQuery) ++ parts.fragment

/-- The text behind a position in the URL can be taken. -/
theorem withoutUserinfo_ok {url : Text} {atPos : ℕ} (start : ℕ) (h : atPos < url.length) :
    withoutUserinfo url start atPos = .ok (url.take start ++ url.drop (atPos + 1)) := by
  unfold withoutUserinfo
  rw [Faulty.substr_zero, Faulty.ok_bind, Faulty.substrFrom_ok h]
  rfl

/-- So cutting the userinfo out does not fault. -/
theorem stripUserinfo_ok (url : Text) :
    stripUserinfo url = .ok (PrivacyPolicyManager.stripUserinfo url) := by
  unfold stripUserinfo PrivacyPolicyManager.stripUserinfo
  cases hat : Text.find url '@' (ThirdPartyClassifier.schemeEnd url) with
  | none =>
    simp only [hat]
    rfl
  | some atPos =>
    -- the `@` was found, so the text behind it can be taken
    have hin := (Text.bounds_of_find_eq_some hat).2
    cases hslash : Text.find url '/' (ThirdPartyClassifier.schemeEnd url) with
    | none => simp only [hat, hslash, withoutUserinfo_ok _ hin]
    | some slashPos =>
      simp only [hat, hslash, withoutUserinfo_ok _ hin]
      split <;> rfl

/-- A pair that is not empty is redacted or kept. -/
theorem sanitizePair_of_ne_nil (sanitized : List Text) {pair : Text} (hpair : pair ≠ []) :
    sanitizePair sanitized pair = .ok (sanitized ++ [redactItem pair]) := by
  unfold sanitizePair redactItem
  rw [if_neg hpair, Stepwise.itemKey_ok, Faulty.ok_bind]
  split <;> rfl

/-- The loop redacts the non-empty pairs one by one. -/
theorem foldlM_sanitizePair (pairs sanitized : List Text) :
    pairs.foldlM sanitizePair sanitized
      = .ok (sanitized ++ (pairs.filter (· ≠ [])).map redactItem) := by
  induction pairs generalizing sanitized with
  | nil => simp
  | cons pair pairs ih =>
    rw [List.foldlM_cons]
    by_cases hpair : pair = []
    · subst hpair
      exact ih sanitized
    · rw [sanitizePair_of_ne_nil sanitized hpair, Faulty.ok_bind, ih, List.append_assoc,
        List.filter_cons_of_pos (by simpa using hpair), List.map_cons, List.singleton_append]

/-- The sanitizer returns on every text. -/
theorem sanitizeUrlForTelemetry_ok (rawUrl : Text) :
    sanitizeUrlForTelemetry rawUrl = .ok (PrivacyPolicyManager.sanitizeUrlForTelemetry rawUrl) := by
  unfold sanitizeUrlForTelemetry PrivacyPolicyManager.sanitizeUrlForTelemetry queryItems
  split
  · rfl
  · rw [stripUserinfo_ok, Faulty.ok_bind]
    dsimp only
    rw [Stepwise.splitUrl_ok, Faulty.ok_bind]
    cases splitUrl (PrivacyPolicyManager.stripUserinfo rawUrl) with
    | none => rfl
    | some parts =>
      simp only [Faulty.forLines_eq _ _ _ _ _ le_rfl, foldlM_sanitizePair, Faulty.ok_bind,
        Faulty.join_ok, List.nil_append, Faulty.pure_eq]

end PrivacyPolicyManager.Stepwise

/-! ## The engine -/

/-- On every text, URL string, resource type and rule database, the functions of the engine return,
with what their total versions compute: no position or index is out of range, and every loop
ends. -/
theorem engine_never_faults (textContent rawLine ruleIdPrefix host path urlStr
    initiatorOriginStr : Text) (resourceType : ResourceType) (db : RuleDatabase)
    (blocker : TrackerBlocker) (filter : TrackingParameterFilter) :
    RuleParser.Stepwise.parseText textContent = .ok (RuleParser.parseText textContent)
      ∧ RuleParser.Stepwise.parseLine rawLine ruleIdPrefix
        = .ok (RuleParser.parseLine rawLine ruleIdPrefix)
      ∧ RuleDatabase.Stepwise.generateCandidateDomains host
        = .ok (RuleDatabase.generateCandidateDomains host)
      ∧ RuleDatabase.Stepwise.findMatchingAllowRules db host path
        = .ok (db.findMatchingAllowRules host path)
      ∧ RuleDatabase.Stepwise.findMatchingBlockRules db host path
        = .ok (db.findMatchingBlockRules host path)
      ∧ RuleDatabase.Stepwise.isKnownTrackerHost db host = .ok (db.isKnownTrackerHost host)
      ∧ ThirdPartyClassifier.Stepwise.extractHostname urlStr
        = .ok (ThirdPartyClassifier.extractHostname urlStr)
      ∧ ThirdPartyClassifier.Stepwise.getDomain host = .ok (ThirdPartyClassifier.getDomain host)
      ∧ ThirdPartyClassifier.Stepwise.classify urlStr initiatorOriginStr
        = .ok (ThirdPartyClassifier.classify urlStr initiatorOriginStr)
      ∧ TrackerBlocker.Stepwise.extractPath urlStr = .ok (TrackerBlocker.extractPath urlStr)
      ∧ TrackerBlocker.Stepwise.evaluateRequest blocker urlStr initiatorOriginStr resourceType
        = .ok (blocker.evaluateRequest urlStr initiatorOriginStr resourceType)
      ∧ TrackingParameterFilter.Stepwise.stripTrackingParameters filter urlStr
        = .ok (filter.stripTrackingParameters urlStr)
      ∧ PrivacyPolicyManager.Stepwise.sanitizeUrlForTelemetry urlStr
        = .ok (PrivacyPolicyManager.sanitizeUrlForTelemetry urlStr) :=
  ⟨RuleParser.Stepwise.parseText_ok textContent,
    RuleParser.Stepwise.parseLine_ok rawLine ruleIdPrefix,
    RuleDatabase.Stepwise.generateCandidateDomains_ok host,
    RuleDatabase.Stepwise.findMatchingAllowRules_ok db host path,
    RuleDatabase.Stepwise.findMatchingBlockRules_ok db host path,
    RuleDatabase.Stepwise.isKnownTrackerHost_ok db host,
    ThirdPartyClassifier.Stepwise.extractHostname_ok urlStr,
    ThirdPartyClassifier.Stepwise.getDomain_ok host,
    ThirdPartyClassifier.Stepwise.classify_ok urlStr initiatorOriginStr,
    TrackerBlocker.Stepwise.extractPath_ok urlStr,
    TrackerBlocker.Stepwise.evaluateRequest_ok blocker urlStr initiatorOriginStr resourceType,
    TrackingParameterFilter.Stepwise.stripTrackingParameters_ok filter urlStr,
    PrivacyPolicyManager.Stepwise.sanitizeUrlForTelemetry_ok urlStr⟩

end ThoriumFrugal.Privacy

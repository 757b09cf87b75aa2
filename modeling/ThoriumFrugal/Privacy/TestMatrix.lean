import ThoriumFrugal.Lib.Whitespace
import ThoriumFrugal.Privacy.Types

/-!
# The classes of the test matrix

The classifier, the parameter filter, the rule parser and the blocker that `test_privacy_p1.py` has
of its own; the blocker scans two lists of rules in order. Strings are Unicode, and what the suite
uses of Python's library besides them is a parameter.
-/

namespace ThoriumFrugal.Privacy.TestMatrix

open Lib

/-- What the script uses of the library. -/
structure Library where
  /-- `urllib.parse.urlparse(url).hostname`, none where parsing raises. -/
  hostname : Text → Option (Option Text)
  /-- `s.lower()`. -/
  lower : Text → Text

variable (lib : Library)

/-! ## `ThirdPartyClassifier` -/

/-- `TWO_PART_TLDS`. -/
def twoPartTlds : List Text := [
  "co.uk", "org.uk", "gov.uk", "ac.uk", "com.au", "net.au", "org.au",
  "co.jp", "ne.jp", "co.nz", "co.za", "com.br", "com.cn", "co.in"].map String.toList

/-- `s.split(sep)[-1]`. -/
def lastPiece (sep s : Text) : Text :=
  match (s.tails.filter (sep.isPrefixOf ·)).getLast? with
  | some t => t.drop sep.length
  | none => s

/-- None where `urlparse` raises. -/
def extractHostname (urlStr : Text) : Option Text :=
  if urlStr = [] then some []
  else do
    let parsed ← lib.hostname urlStr
    let fallback := ((lastPiece "://".toList urlStr).takeWhile (· ≠ '/')).takeWhile (· ≠ ':')
    let hostname := parsed.getD []
    let host := if hostname = [] then fallback else hostname
    return lib.lower host

/-- `get_domain`. -/
def getDomain (hostname : Text) : Text :=
  let host := ((lib.lower hostname).reverse.dropWhile (· = '.')).reverse
  if host = "localhost".toList ∨ host = "127.0.0.1".toList ∨ host = "::1".toList then host
  else
    match (host.splitOn '.').reverse with
    | last :: second :: third :: _ =>
      let potentialTwoPart := second ++ '.' :: last
      if potentialTwoPart ∈ twoPartTlds then third ++ '.' :: potentialTwoPart
      else potentialTwoPart
    | _ => host

/-- `classify`, none where a host cannot be parsed. -/
def classify (targetUrl initiatorOrigin : Text) : Option PartyContext :=
  if initiatorOrigin = [] then some .kFirstParty
  else do
    let tHost ← extractHostname lib targetUrl
    let iHost ← extractHostname lib initiatorOrigin
    if tHost = [] ∨ iHost = [] ∨ tHost = iHost then return .kFirstParty
    else if getDomain lib tHost = getDomain lib iHost then return .kSameSite
    else return .kThirdParty

/-! ## `TrackingParameterFilter` -/

/-- What `urllib.parse.urlsplit` returns. -/
structure SplitResult where
  scheme : Text
  netloc : Text
  path : Text
  query : Text
  fragment : Text

/-- What the filter uses of the library. -/
structure QueryLibrary where
  /-- `urllib.parse.urlsplit`, none where it raises. -/
  urlsplit : Text → Option SplitResult
  urlunsplit : SplitResult → Text
  /-- `urllib.parse.parse_qsl(query, keep_blank_values=True)`. -/
  parseQsl : Text → List (Text × Text)
  urlencode : List (Text × Text) → Text
  lower : Text → Text

/-- `DEFAULT_TRACKING_PARAMS`. -/
def defaultTrackingParams : List Text := [
  "utm_source", "utm_medium", "utm_campaign", "utm_term", "utm_content",
  "utm_id", "utm_source_platform", "gclid", "gbraid", "wbraid", "fbclid",
  "msclkid", "dclid", "mc_eid", "mc_cid", "yclid", "_openstat", "igshid",
  "twclid", "mkt_tok", "_hsenc", "_hsmi", "elqtrackid"].map String.toList

/-- The cleaned URL, whether it was stripped, and the removed keys; none where `urlsplit` raises. -/
def stripTrackingParameters (lib : QueryLibrary) (urlStr : Text) :
    Option (Text × Bool × List Text) := do
  let parsed ← lib.urlsplit urlStr
  if parsed.query = [] then return (urlStr, false, [])
  else
    let (removed, keptPairs) := (lib.parseQsl parsed.query).partition fun pair =>
      lib.lower pair.1 ∈ defaultTrackingParams
    if removed = [] then return (urlStr, false, [])
    else return (lib.urlunsplit { parsed with query := lib.urlencode keptPairs }, true,
      removed.map Prod.fst)

/-! ## `RuleParser` -/

/-- The dictionary of a rule; an invalid one has the first entry only. -/
structure Rule where
  isValid : Bool := false
  ruleType : RuleType := .kBlock
  domainPattern : Text := []
  pathPattern : Text := []
  matchSubdomains : Bool := false
  requireThirdParty : Bool := false
  requireFirstParty : Bool := false
  resourceTypes : List Text := []
  originalText : Text := []

/-- The options that are no resource types. -/
def partyOptions : List Text := ["third-party", "3p", "first-party", "1p"].map String.toList

/-- The entries of the options. -/
def withOptions (rule : Rule) (options : List Text) : Rule :=
  { rule with
    requireThirdParty := options.contains "third-party".toList || options.contains "3p".toList
    requireFirstParty := options.contains "first-party".toList || options.contains "1p".toList
    resourceTypes := options.filter fun o => !partyOptions.contains o }

/-- The options behind the first `$`, and what stands in front of it. -/
def splitOptions (line : Text) : Text × List Text :=
  if '$' ∈ line then
    (line.takeWhile (· ≠ '$'), (((line.dropWhile (· ≠ '$')).drop 1).splitOn ',').map fun o =>
      lib.lower (Text.strip o))
  else (line, [])

/-- `parse_line`. -/
def parseLine (rawLine : Text) : Rule :=
  let line := Text.strip rawLine
  if line = [] ∨ line.head? = some '!' ∨ line.head? = some '#' ∨ line.length > 1024 then {}
  else
    let (ruleType, line) :=
      if "@@".toList.isPrefixOf line then (RuleType.kAllow, line.drop 2) else (.kBlock, line)
    let (line, options) := splitOptions lib line
    let (matchSubdomains, line) :=
      if "||".toList.isPrefixOf line then (true, line.drop 2) else (false, line)
    let line := (line.reverse.dropWhile (· = '^')).reverse
    let domain := line.takeWhile (· ≠ '/')
    withOptions
      { isValid := domain ≠ []
        ruleType
        domainPattern := lib.lower domain
        pathPattern := line.dropWhile (· ≠ '/')
        matchSubdomains
        originalText := line } options

/-! ## `TrackerBlocker` -/

/-- The two lists of rules. -/
structure Blocker where
  allowRules : List Rule := []
  blockRules : List Rule := []

namespace Blocker

/-- The body of the loop of `load_from_text`. -/
def addRule (b : Blocker) (r : Rule) : Blocker :=
  if r.isValid then
    match r.ruleType with
    | .kAllow => { b with allowRules := b.allowRules ++ [r] }
    | .kBlock => { b with blockRules := b.blockRules ++ [r] }
  else b

/-- `load_from_text`. -/
def loadFromText (b : Blocker) (text : Text) : Blocker :=
  ((Text.splitlines (Text.strip text)).map (parseLine lib)).foldl addRule b

/-- `_matches`. -/
def ruleMatches (rule : Rule) (host url : Text) (party : PartyContext) (resType : Text) : Bool :=
  if host ≠ rule.domainPattern
      ∧ ¬(rule.matchSubdomains = true ∧ ('.' :: rule.domainPattern).isSuffixOf host) then false
  else if rule.pathPattern ≠ [] ∧ (Text.findStr url rule.pathPattern 0).isNone then false
  else if rule.requireThirdParty = true ∧ party ≠ .kThirdParty then false
  else if rule.requireFirstParty = true ∧ party = .kThirdParty then false
  else if rule.resourceTypes ≠ [] ∧ resType ∉ rule.resourceTypes then false
  else true

/-- The dictionary that `evaluate` returns. -/
structure Verdict where
  decision : PrivacyDecision
  partyContext : PartyContext
  classification : TrackerClassification
  matchedRule : Option Text

/-- None where `urlparse` raises. -/
def evaluate (b : Blocker) (targetUrl initiatorOrigin resourceType : Text) : Option Verdict := do
  let party ← classify lib targetUrl initiatorOrigin
  let targetHost ← extractHostname lib targetUrl
  match b.allowRules.find? (ruleMatches · targetHost targetUrl party resourceType) with
  | some r =>
    return { decision := .kAllow, partyContext := party, classification := .kNotTracker
             matchedRule := some r.originalText }
  | none =>
    match b.blockRules.find? (fun r => ruleMatches r targetHost targetUrl party resourceType
        && (party = .kThirdParty || !r.requireThirdParty)) with
    | some r =>
      return { decision := .kBlock, partyContext := party, classification := .kKnownTracker
               matchedRule := some r.originalText }
    | none =>
      return { decision := .kAllow, partyContext := party, classification := .kNotTracker
               matchedRule := none }

end Blocker
end ThoriumFrugal.Privacy.TestMatrix

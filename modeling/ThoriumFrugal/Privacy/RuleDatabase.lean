import ThoriumFrugal.Lib.Labels
import ThoriumFrugal.Lib.Multimap
import ThoriumFrugal.Lib.Run
import ThoriumFrugal.Privacy.RuleParser

/-!
# The rule database

`RuleDatabase` of `rule_database.cc`: two domain indexes and two lists of domain-less
rules. `index` and `generic` pick the pair of a rule type, so that what holds of the allow
half and of the block half is stated once.
-/

namespace ThoriumFrugal.Privacy

open Lib

/-- The rules by domain, those without a domain, and their number. -/
structure RuleDatabase where
  allowRulesByDomain : Multimap Text ParsedRule := ∅
  blockRulesByDomain : Multimap Text ParsedRule := ∅
  genericAllowRules : List ParsedRule := []
  genericBlockRules : List ParsedRule := []
  totalRules : ℕ := 0

namespace RuleDatabase

/-- Capacity of the database ("bounded memory protection"). -/
def maxRules : ℕ := 50000

/-! ## Candidate domains -/

/-- `lower_host` of `GenerateCandidateDomains`: lower case, without one trailing dot. -/
def normalizeHost (host : Text) : Text := Text.dropFinalDot (Text.toLower host)

/-- The loop over the dots of the host, from `dotPos` on. -/
def parentDomains (lowerHost : Text) : ℕ → Option ℕ → List Text
  | fuel + 1, some dotPos =>
    -- the condition of the `while`: a final dot ends the loop
    if dotPos + 1 < lowerHost.length then
      let parent := lowerHost.drop (dotPos + 1)
      (if parent ≠ [] then [parent] else [])
        ++ parentDomains lowerHost fuel (Text.find lowerHost '.' (dotPos + 1))
    else []
  | _, _ => []

/-- `GenerateCandidateDomains`: the host, and what follows each of its dots. -/
def generateCandidateDomains (host : Text) : List Text :=
  if host = [] then []
  else
    let lowerHost := normalizeHost host
    lowerHost :: parentDomains lowerHost lowerHost.length (Text.find lowerHost '.' 0)

/-! ## Updates -/

/-- The bucket of a rule, by the lower-cased domain pattern. -/
def domainKey (rule : ParsedRule) : Text := Text.toLower rule.domainPattern

/-- The part of `AddRule` behind its two guards. -/
def storeRule (db : RuleDatabase) (rule : ParsedRule) : RuleDatabase :=
  let db :=
    match rule.ruleType with
    | .kAllow =>
      if domainKey rule ≠ [] then
        { db with allowRulesByDomain := db.allowRulesByDomain.push (domainKey rule) rule }
      else { db with genericAllowRules := db.genericAllowRules ++ [rule] }
    | .kBlock =>
      if domainKey rule ≠ [] then
        { db with blockRulesByDomain := db.blockRulesByDomain.push (domainKey rule) rule }
      else { db with genericBlockRules := db.genericBlockRules ++ [rule] }
  { db with totalRules := db.totalRules + 1 }

/-- `AddRule`; an invalid rule is not added, nor one beyond the capacity. -/
def addRule (db : RuleDatabase) (rule : ParsedRule) : Bool × RuleDatabase :=
  if rule.isValid = false then (false, db)
  else if db.totalRules ≥ maxRules then (false, db)
  else (true, db.storeRule rule)

/-- The loop of `LoadFromText` over the parsed rules; it counts the rules added. -/
def loadRules (db : RuleDatabase) (rules : List ParsedRule) : ℕ × RuleDatabase :=
  rules.foldl (fun (loaded, db) r =>
    let (added, db) := db.addRule r
    (if added then loaded + 1 else loaded, db)) (0, db)

/-- `LoadFromText`, with the number of rules that were added. -/
def loadFromText (db : RuleDatabase) (textContent : Text) : ℕ × RuleDatabase :=
  db.loadRules (RuleParser.parseText textContent)

/-- `RuleCount`. -/
def ruleCount (db : RuleDatabase) : ℕ := db.totalRules

/-- `Clear`. -/
def clear (_db : RuleDatabase) : RuleDatabase := {}

/-! ## Lookups -/

/-- `MatchesPathAndOptions`, which looks at the path only. -/
def matchesPathAndOptions (rule : ParsedRule) (path : Text) : Bool :=
  if rule.pathPattern ≠ [] then (Text.findStr path rule.pathPattern 0).isSome else true

/-- The body shared by the two lookups: the buckets of the candidate domains, then the
domain-less rules. A parent domain counts only for rules that match subdomains. -/
def findMatchingRules (index : Multimap Text ParsedRule) (generic : List ParsedRule)
    (host path : Text) : List ParsedRule :=
  let candidates := generateCandidateDomains host
  (candidates.flatMap fun domain =>
    (index.bucket domain).filter fun rule =>
      (candidates.head? = some domain || rule.matchSubdomains)
        && matchesPathAndOptions rule path)
    ++ generic.filter (matchesPathAndOptions · path)

/-- `FindMatchingAllowRules`. -/
def findMatchingAllowRules (db : RuleDatabase) (host path : Text) : List ParsedRule :=
  findMatchingRules db.allowRulesByDomain db.genericAllowRules host path

/-- `FindMatchingBlockRules`. -/
def findMatchingBlockRules (db : RuleDatabase) (host path : Text) : List ParsedRule :=
  findMatchingRules db.blockRulesByDomain db.genericBlockRules host path

/-- `IsKnownTrackerHost`: a block rule stands under a candidate domain. -/
def isKnownTrackerHost (db : RuleDatabase) (host : Text) : Bool :=
  let candidates := generateCandidateDomains host
  candidates.any fun domain =>
    (db.blockRulesByDomain.bucket domain).any fun rule =>
      candidates.head? = some domain || rule.matchSubdomains

/-! ## Histories of a database -/

/-- A call that changes the database. -/
inductive Op
  | addRule (rule : ParsedRule)
  | loadFromText (textContent : Text)
  | clear

/-- What a call does to the database. -/
def apply (db : RuleDatabase) : Op → RuleDatabase
  | .addRule rule => (db.addRule rule).2
  | .loadFromText textContent => (db.loadFromText textContent).2
  | .clear => db.clear

/-- The database after a sequence of calls on an empty one. -/
def reached (ops : List Op) : RuleDatabase := run apply {} ops

/-- The rules among `rules` for which `AddRule` returns true when they are added in order. -/
def successes (db : RuleDatabase) : List ParsedRule → List ParsedRule
  | [] => []
  | r :: rs =>
    let (added, db) := db.addRule r
    if added then r :: db.successes rs else db.successes rs

/-- The log of successful additions since the last `Clear`. -/
def log (db : RuleDatabase) (stored : List ParsedRule) : Op → List ParsedRule
  | .addRule rule => stored ++ db.successes [rule]
  | .loadFromText textContent => stored ++ db.successes (RuleParser.parseText textContent)
  | .clear => []

/-- One call on a database that keeps this log. -/
def loggedStep (s : RuleDatabase × List ParsedRule) (op : Op) : RuleDatabase × List ParsedRule :=
  (s.1.apply op, s.1.log s.2 op)

/-- The rules successfully added by `ops` since the last `Clear`, in order. -/
def stored (ops : List Op) : List ParsedRule := (run loggedStep ({}, []) ops).2

/-! ## Accessors by rule type -/

/-- The domain index of a rule type. -/
def index (db : RuleDatabase) : RuleType → Multimap Text ParsedRule
  | .kAllow => db.allowRulesByDomain
  | .kBlock => db.blockRulesByDomain

/-- The domain-less rules of a rule type. -/
def generic (db : RuleDatabase) : RuleType → List ParsedRule
  | .kAllow => db.genericAllowRules
  | .kBlock => db.genericBlockRules

end RuleDatabase
end ThoriumFrugal.Privacy

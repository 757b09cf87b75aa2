import ThoriumFrugal.Lib.Faulty
import ThoriumFrugal.Privacy.RuleDatabase

/-!
# The rule engine, operation by operation

`RuleParser` and `RuleDatabase` once more, with every slice, index and difference of positions of
the source and with its loops. None of them faults on any text: each function returns what its
total version does.
-/

namespace ThoriumFrugal.Privacy

open Lib

/-! ## The parser -/

namespace RuleParser.Stepwise

/-- `ParseResourceTypeMask`: the bits of the options between the commas. -/
def parseResourceTypeMask (optionsStr : Text) : Faulty (BitVec 32) := do
  let opts ← Faulty.split optionsStr ','
  let mask ← opts.foldlM (fun mask opt => do
    let o ← Faulty.trim opt blanks
    return mask ||| optionBits (Text.toLower o)) 0
  return if mask = 0 then 0xFFFFFFFF#32 else mask

/-- Step 1: comments, empty lines and lines that are too long. -/
def isSkipped (line : Text) : Faulty Bool :=
  if line = [] then .ok true
  else do
    let first ← Faulty.index line 0
    return first = '!' ∨ first = '#' ∨ line.length > 1024

/-- Step 2. -/
def parseAllowMark (rule : ParsedRule) (line : Text) : Faulty (ParsedRule × Text) :=
  if "@@".toList.isPrefixOf line then do
    let line ← Faulty.substrFrom line 2
    return ({ rule with ruleType := .kAllow }, line)
  else return ({ rule with ruleType := .kBlock }, line)

/-- Step 3. -/
def splitOptions (line : Text) : Faulty (Text × Text) :=
  match Text.find line '$' 0 with
  | some optPos => do
    let optionsStr ← Faulty.substrFrom line (optPos + 1)
    let line ← Faulty.substr line 0 optPos
    return (optionsStr, line)
  | none => return ([], line)

/-- Step 4. -/
def parseOptions (rule : ParsedRule) (optionsStr : Text) : Faulty ParsedRule :=
  if optionsStr = [] then return rule
  else do
    let opts ← Faulty.split optionsStr ','
    let rule ← opts.foldlM (fun rule opt => do
      let o ← Faulty.trim opt blanks
      return parsePartyOption rule (Text.toLower o)) rule
    let mask ← parseResourceTypeMask optionsStr
    return { rule with resourceTypeMask := mask }

/-- The `||` of step 5. -/
def parseSubdomainMark (rule : ParsedRule) (line : Text) : Faulty (ParsedRule × Text) :=
  if "||".toList.isPrefixOf line then do
    let line ← Faulty.substrFrom line 2
    return ({ rule with matchSubdomains := true }, line)
  else return (rule, line)

/-- The trailing `^` of step 5. -/
def stripBoundary (line : Text) : Faulty Text :=
  if line = [] then return line
  else do
    let last ← Faulty.back line
    if last = '^' then Faulty.popBack line else return line

/-- Step 5: the `||` in front and the `^` at the end. -/
def parseAnchors (rule : ParsedRule) (line : Text) : Faulty (ParsedRule × Text) := do
  let (rule, line) ← parseSubdomainMark rule line
  let line ← stripBoundary line
  return (rule, line)

/-- The line cut at its first slash. -/
def splitPath (line : Text) : Faulty (Text × Text) :=
  match Text.find line '/' 0 with
  | some slashPos => do
    let domain ← Faulty.substr line 0 slashPos
    let path ← Faulty.substrFrom line slashPos
    return (domain, path)
  | none => return (line, [])

/-- The domain, the path and the id of a rule. -/
def parsePatterns (rule : ParsedRule) (line ruleIdPrefix : Text) : Faulty ParsedRule := do
  let (domain, path) ← splitPath line
  let rule := { rule with domainPattern := Text.toLower domain, pathPattern := path }
  return if rule.domainPattern = [] then rule
    else { rule with isValid := true, ruleId := ruleIdPrefix ++ rule.domainPattern }

/-- `ParseLine`, cut at its numbered steps. -/
def parseLine (rawLine ruleIdPrefix : Text) : Faulty ParsedRule := do
  let line ← Faulty.trim rawLine blanks
  let rule : ParsedRule := { originalRuleText := line }
  let skipped ← isSkipped line
  if skipped then return { rule with isValid := false }
  else
    let (rule, line) ← parseAllowMark rule line
    let (optionsStr, line) ← splitOptions line
    let rule ← parseOptions rule optionsStr
    let (rule, line) ← parseAnchors rule line
    parsePatterns rule line ruleIdPrefix

/-- The identifier prefix of the rule in a line. -/
def ruleIdPrefix (count : ℕ) : Text := "rule_".toList ++ (toString count).toList ++ "_".toList

/-- The body of the loop of `ParseText`, on the rules read so far and their count. -/
def parseNext (state : List ParsedRule × ℕ) (line : Text) : Faulty (List ParsedRule × ℕ) := do
  let (rules, count) := state
  let count := count + 1
  let rule ← parseLine line (ruleIdPrefix count)
  return (if rule.isValid then rules ++ [rule] else rules, count)

/-- `ParseText`: the valid rules of the lines. -/
def parseText (textContent : Text) : Faulty (List ParsedRule) := do
  let (rules, _) ← Faulty.forLines '\n' parseNext textContent.length ([], 0) textContent
  return rules

/-- Splitting and trimming do not fault, so the mask is found for every text. -/
theorem parseResourceTypeMask_ok (optionsStr : Text) :
    parseResourceTypeMask optionsStr = .ok (RuleParser.parseResourceTypeMask optionsStr) := by
  unfold parseResourceTypeMask RuleParser.parseResourceTypeMask optionNames
  rw [Faulty.split_ok, Faulty.ok_bind, Faulty.foldlM_ok _ fun mask opt _ => by
    rw [Faulty.trim_ok, Faulty.ok_bind, Faulty.pure_eq], Faulty.ok_bind, List.foldl_map]
  rfl

/-- The first character is read only of a line that is not empty. -/
theorem isSkipped_ok (line : Text) :
    isSkipped line = .ok (decide (line = [] ∨ line.head? = some '!' ∨ line.head? = some '#'
      ∨ line.length > 1024)) := by
  cases line with
  | nil => rfl
  | cons c line =>
    unfold isSkipped
    rw [if_neg (List.cons_ne_nil c line), Faulty.index_ok rfl, Faulty.ok_bind, Faulty.pure_eq]
    simp

/-- A line can be cut behind a mark that it starts with. -/
theorem substrFrom_of_marked {mark line : Text} {n : ℕ} (hn : mark.length = n)
    (hmark : mark.isPrefixOf line = true) : Faulty.substrFrom line n = .ok (line.drop n) := by
  apply Faulty.substrFrom_ok
  rw [← hn]
  exact (List.isPrefixOf_iff_prefix.mp hmark).length_le

/-- The two characters of the mark are there when they are cut off. -/
theorem parseAllowMark_ok (rule : ParsedRule) (line : Text) :
    parseAllowMark rule line = .ok (RuleParser.parseAllowMark rule line) := by
  unfold parseAllowMark RuleParser.parseAllowMark
  split
  · next hmark =>
    rw [substrFrom_of_marked (n := 2) rfl hmark]
    rfl
  · rfl

/-- The options are cut off at the position of the `$`. -/
theorem splitOptions_ok (line : Text) :
    splitOptions line = .ok (RuleParser.splitOptions line) := by
  unfold splitOptions RuleParser.splitOptions
  cases hfind : Text.find line '$' 0 with
  | none => rfl
  | some optPos =>
    simp only [Faulty.substrFrom_ok (Text.bounds_of_find_eq_some hfind).2, Faulty.substr_zero]
    rfl

/-- Step 4 does not fault either. -/
theorem parseOptions_ok (rule : ParsedRule) (optionsStr : Text) :
    parseOptions rule optionsStr = .ok (RuleParser.parseOptions rule optionsStr) := by
  unfold parseOptions RuleParser.parseOptions
  split
  · rfl
  · unfold optionNames
    rw [Faulty.split_ok, Faulty.ok_bind, Faulty.foldlM_ok _ fun rule opt _ => by
      rw [Faulty.trim_ok, Faulty.ok_bind, Faulty.pure_eq], Faulty.ok_bind, List.foldl_map,
      parseResourceTypeMask_ok]
    rfl

/-- The mark is cut off only where it stands. -/
theorem parseSubdomainMark_ok (rule : ParsedRule) (line : Text) :
    parseSubdomainMark rule line
      = .ok (if "||".toList.isPrefixOf line then
          ({ rule with matchSubdomains := true }, line.drop 2) else (rule, line)) := by
  unfold parseSubdomainMark
  split
  · next hmark =>
    rw [substrFrom_of_marked (n := 2) rfl hmark]
    rfl
  · rfl

/-- The last character is read only of a line that is not empty. -/
theorem stripBoundary_ok (line : Text) :
    stripBoundary line = .ok (if line.getLast? = some '^' then line.dropLast else line) := by
  unfold stripBoundary
  split
  · next hnil =>
    subst hnil
    rfl
  · next hnil =>
    have hlast := List.getLast?_eq_some_getLast hnil
    rw [Faulty.back_ok hlast, Faulty.ok_bind, hlast, Faulty.popBack_ok hnil]
    simp only [Option.some.injEq]
    split <;> rfl

/-- So the anchors are stripped without a fault. -/
theorem parseAnchors_ok (rule : ParsedRule) (line : Text) :
    parseAnchors rule line = .ok (RuleParser.parseAnchors rule line) := by
  unfold parseAnchors RuleParser.parseAnchors
  rw [parseSubdomainMark_ok, Faulty.ok_bind]
  simp only [stripBoundary_ok]
  rfl

/-- The path is cut off at the position of its slash. -/
theorem parsePatterns_ok (rule : ParsedRule) (line ruleIdPrefix : Text) :
    parsePatterns rule line ruleIdPrefix
      = .ok (RuleParser.parsePatterns rule line ruleIdPrefix) := by
  unfold parsePatterns RuleParser.parsePatterns splitPath
  cases hfind : Text.find line '/' 0 with
  | none => rfl
  | some slashPos =>
    simp only [Faulty.substr_zero,
      Faulty.substrFrom_ok (Text.bounds_of_find_eq_some hfind).2.le]
    rfl

/-- Every line is parsed. -/
theorem parseLine_ok (rawLine ruleIdPrefix : Text) :
    parseLine rawLine ruleIdPrefix = .ok (RuleParser.parseLine rawLine ruleIdPrefix) := by
  unfold parseLine RuleParser.parseLine
  rw [Faulty.trim_ok, Faulty.ok_bind]
  simp only [isSkipped_ok, Faulty.ok_bind, decide_eq_true_eq]
  split
  · rfl
  · simp only [parseAllowMark_ok, splitOptions_ok, parseOptions_ok, parseAnchors_ok,
      parsePatterns_ok, Faulty.ok_bind]

/-- A line is counted, and its rule is kept if it is valid. -/
theorem parseNext_ok (rules : List ParsedRule) (count : ℕ) (line : Text) :
    parseNext (rules, count) line
      = .ok (rules ++ [RuleParser.parseLine line (ruleIdPrefix (count + 1))].filter (·.isValid),
        count + 1) := by
  unfold parseNext
  simp only [parseLine_ok, Faulty.ok_bind, Faulty.pure_eq]
  split
  · next hvalid => rw [List.filter_cons_of_pos hvalid, List.filter_nil]
  · next hvalid => rw [List.filter_cons_of_neg hvalid, List.filter_nil, List.append_nil]

/-- The loop counts the lines and keeps the valid rules. -/
theorem foldlM_parseNext (lines : List Text) (rules : List ParsedRule) (count : ℕ) :
    lines.foldlM parseNext (rules, count)
      = .ok (rules ++ ((lines.zipIdx (count + 1)).map fun (line, n) =>
          RuleParser.parseLine line (ruleIdPrefix n)).filter (·.isValid),
        count + lines.length) := by
  induction lines generalizing rules count with
  | nil => simp
  | cons line lines ih =>
    -- each line is counted, also one without a rule
    have hcount : count + 1 + lines.length = count + (line :: lines).length := by
      rw [List.length_cons]
      omega
    rw [List.foldlM_cons, parseNext_ok, Faulty.ok_bind, ih, hcount, List.append_assoc,
      ← List.filter_append]
    rfl

/-- Every text is parsed. -/
theorem parseText_ok (textContent : Text) :
    parseText textContent = .ok (RuleParser.parseText textContent) := by
  unfold parseText RuleParser.parseText
  rw [Faulty.forLines_eq _ _ _ _ _ le_rfl, foldlM_parseNext]
  rfl

end RuleParser.Stepwise

/-! ## The database -/

namespace RuleDatabase.Stepwise

/-- The loop of `GenerateCandidateDomains`. -/
def candidateLoop (lowerHost : Text) : ℕ → List Text → Option ℕ → Faulty (List Text)
  | fuel + 1, candidates, some dotPos =>
    if dotPos + 1 < lowerHost.length then do
      let parent ← Faulty.substrFrom lowerHost (dotPos + 1)
      candidateLoop lowerHost fuel (if parent ≠ [] then candidates ++ [parent] else candidates)
        (Text.find lowerHost '.' (dotPos + 1))
    else return candidates
  | _, candidates, none => return candidates
  | 0, _, some _ => .error .outOfFuel

/-- `GenerateCandidateDomains`: the host and its parent domains. -/
def generateCandidateDomains (host : Text) : Faulty (List Text) :=
  let lowerHost := Text.toLower host
  if lowerHost = [] then return []
  else do
    let lowerHost ← Faulty.dropFinalDot lowerHost
    candidateLoop lowerHost lowerHost.length [lowerHost] (Text.find lowerHost '.' 0)

/-- The body of the inner loop of the two lookups. -/
def matchRule (candidates : List Text) (path domain : Text) (found : List ParsedRule)
    (rule : ParsedRule) : Faulty (List ParsedRule) := do
  let exact ← Faulty.index candidates 0
  if domain ≠ exact ∧ rule.matchSubdomains = false then return found
  else return if matchesPathAndOptions rule path then found ++ [rule] else found

/-- The body that both lookups share. -/
def findMatchingRules (index : Multimap Text ParsedRule) (generic : List ParsedRule)
    (host path : Text) : Faulty (List ParsedRule) := do
  let candidates ← generateCandidateDomains host
  let found ← candidates.foldlM (fun found domain =>
    (index.bucket domain).foldlM (matchRule candidates path domain) found) []
  return generic.foldl (fun found rule =>
    if matchesPathAndOptions rule path then found ++ [rule] else found) found

/-- `FindMatchingAllowRules`. -/
def findMatchingAllowRules (db : RuleDatabase) (host path : Text) : Faulty (List ParsedRule) :=
  findMatchingRules db.allowRulesByDomain db.genericAllowRules host path

/-- `FindMatchingBlockRules`. -/
def findMatchingBlockRules (db : RuleDatabase) (host path : Text) : Faulty (List ParsedRule) :=
  findMatchingRules db.blockRulesByDomain db.genericBlockRules host path

/-- `IsKnownTrackerHost`. -/
def isKnownTrackerHost (db : RuleDatabase) (host : Text) : Faulty Bool := do
  let candidates ← generateCandidateDomains host
  candidates.anyM fun domain =>
    (db.blockRulesByDomain.bucket domain).anyM fun rule => do
      let exact ← Faulty.index candidates 0
      return domain = exact ∨ rule.matchSubdomains

/-- The loop moves on with every dot, so the length of the host is fuel enough. -/
theorem candidateLoop_ok (lowerHost : Text) (fuel : ℕ) (candidates : List Text) (pos : ℕ)
    (hfuel : lowerHost.length ≤ pos + fuel) :
    candidateLoop lowerHost fuel candidates (Text.find lowerHost '.' pos)
      = .ok (candidates ++ parentDomains lowerHost fuel (Text.find lowerHost '.' pos)) := by
  -- each round goes on behind the dot found before
  induction fuel generalizing candidates pos with
  | zero =>
    have hnil : lowerHost.drop pos = [] := List.drop_eq_nil_of_le (by omega)
    rw [Text.find_of_not_mem_drop (by simp [hnil])]
    simp [candidateLoop, parentDomains]
  | succ fuel ih =>
    cases hfind : Text.find lowerHost '.' pos with
    | none => simp [candidateLoop, parentDomains]
    | some dotPos =>
      have hbounds := Text.bounds_of_find_eq_some hfind
      unfold candidateLoop parentDomains
      by_cases hrest : dotPos + 1 < lowerHost.length
      · rw [if_pos hrest, if_pos hrest, Faulty.substrFrom_ok hrest.le, Faulty.ok_bind,
          ih _ _ (by omega), Except.ok.injEq, ← List.append_assoc]
        split <;> simp only [List.append_nil]
      · rw [if_neg hrest, if_neg hrest, List.append_nil]
        rfl

/-- The candidates are found for every host. -/
theorem generateCandidateDomains_ok (host : Text) :
    generateCandidateDomains host = .ok (RuleDatabase.generateCandidateDomains host) := by
  unfold generateCandidateDomains RuleDatabase.generateCandidateDomains
  simp only [Text.toLower_eq_nil]
  split
  · rfl
  · next hhost =>
    rw [Faulty.dropFinalDot_ok (Text.toLower_eq_nil.not.mpr hhost), Faulty.ok_bind,
      candidateLoop_ok _ _ _ _ (Nat.le_add_left _ _)]
    rfl

/-- A candidate is at hand wherever the loops ask for the first one. -/
theorem index_candidates {candidates : List Text} {domain : Text} (h : domain ∈ candidates) :
    ∃ exact, candidates.head? = some exact ∧ Faulty.index candidates 0 = .ok exact := by
  cases candidates with
  | nil => cases h
  | cons exact candidates => exact ⟨exact, rfl, rfl⟩

/-- The first candidate is there, since a domain is among the candidates. -/
theorem matchRule_ok {candidates : List Text} {domain : Text} (h : domain ∈ candidates)
    (path : Text) (found : List ParsedRule) (rule : ParsedRule) :
    matchRule candidates path domain found rule
      = .ok (if (candidates.head? = some domain || rule.matchSubdomains)
          && matchesPathAndOptions rule path then found ++ [rule] else found) := by
  obtain ⟨exact, hhead, hindex⟩ := index_candidates h
  unfold matchRule
  rw [hindex, Faulty.ok_bind, hhead]
  simp only [Option.some.injEq, Faulty.pure_eq]
  by_cases hexact : exact = domain
  · simp [hexact]
  · cases rule.matchSubdomains <;> simp [hexact, Ne.symm hexact]

/-- A lookup does not fault. -/
theorem findMatchingRules_ok (index : Multimap Text ParsedRule) (generic : List ParsedRule)
    (host path : Text) :
    findMatchingRules index generic host path
      = .ok (RuleDatabase.findMatchingRules index generic host path) := by
  unfold findMatchingRules RuleDatabase.findMatchingRules
  rw [generateCandidateDomains_ok, Faulty.ok_bind]
  rw [Faulty.foldlM_ok _ fun found domain hdomain =>
    (Faulty.foldlM_ok _ (fun found rule _ => matchRule_ok hdomain path found rule) found).trans
      (congrArg Except.ok (Faulty.foldl_append_filter _ _ found))]
  rw [List.foldl_append_eq_append, Faulty.ok_bind, Faulty.foldl_append_filter, List.nil_append,
    ← List.flatMap_def]
  rfl

/-- Nor does that of the allow rules. -/
theorem findMatchingAllowRules_ok (db : RuleDatabase) (host path : Text) :
    findMatchingAllowRules db host path = .ok (db.findMatchingAllowRules host path) :=
  findMatchingRules_ok _ _ host path

/-- Nor does that of the block rules. -/
theorem findMatchingBlockRules_ok (db : RuleDatabase) (host path : Text) :
    findMatchingBlockRules db host path = .ok (db.findMatchingBlockRules host path) :=
  findMatchingRules_ok _ _ host path

/-- Nor does the test for a tracker. -/
theorem isKnownTrackerHost_ok (db : RuleDatabase) (host : Text) :
    isKnownTrackerHost db host = .ok (db.isKnownTrackerHost host) := by
  unfold isKnownTrackerHost RuleDatabase.isKnownTrackerHost
  rw [generateCandidateDomains_ok, Faulty.ok_bind]
  refine Faulty.anyM_ok _ fun domain hdomain => Faulty.anyM_ok _ fun rule _ => ?_
  obtain ⟨exact, hhead, hindex⟩ := index_candidates hdomain
  rw [hindex, Faulty.ok_bind, hhead, Faulty.pure_eq]
  simp only [Option.some.injEq, Bool.decide_or, Bool.decide_eq_true, @eq_comm _ domain exact]

end RuleDatabase.Stepwise
end ThoriumFrugal.Privacy

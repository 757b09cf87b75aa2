import ThoriumFrugal.Privacy.Types

/-!
# The filter-list parser

`RuleParser` of `rule_parser.cc`. `parseLine` is cut at the numbered steps of the source:
each step takes the rule built so far and the text still to be read, and hands both on.
-/

namespace ThoriumFrugal.Privacy

open Lib

namespace RuleParser

/-- The blanks that `Trim` removes. -/
def blanks : Text := " \t\r\n".toList

/-- The resource types an option name stands for, as the bits it adds to the mask. -/
def optionBits (o : Text) : BitVec 32 :=
  let bit (t : ResourceType) : BitVec 32 := 1#32 <<< t.value
  if o = "script".toList then bit .kScript
  else if o = "image".toList ∨ o = "img".toList then bit .kImage
  else if o = "stylesheet".toList ∨ o = "css".toList then bit .kStylesheet
  else if o = "font".toList then bit .kFont
  else if o = "xmlhttprequest".toList ∨ o = "xhr".toList ∨ o = "fetch".toList then bit .kXhrFetch
  else if o = "ping".toList ∨ o = "beacon".toList then bit .kPingBeacon
  else if o = "websocket".toList then bit .kWebSocket
  else if o = "subdocument".toList ∨ o = "frame".toList then bit .kSubFrame
  else if o = "media".toList then bit .kMedia
  else 0

/-- The options of an option list, trimmed and in lower case. -/
def optionNames (optionsStr : Text) : List Text :=
  (optionsStr.splitOn ',').map fun opt => Text.toLower (Text.trim opt blanks)

/-- `ParseResourceTypeMask`: the bits of the options; an unknown option adds none. -/
def parseResourceTypeMask (optionsStr : Text) : BitVec 32 :=
  let mask := (optionNames optionsStr).foldl (fun mask o => mask ||| optionBits o) 0
  -- a list that names no type means every type
  if mask = 0 then 0xFFFFFFFF#32 else mask

/-- `MatchesResourceType`. -/
def matchesResourceType (type : ResourceType) (mask : BitVec 32) : Bool :=
  if type.value < 32 then mask &&& (1#32 <<< type.value) != 0 else true

/-- Step 2: the `@@` mark of an allow rule. -/
def parseAllowMark (rule : ParsedRule) (line : Text) : ParsedRule × Text :=
  if "@@".toList.isPrefixOf line then ({ rule with ruleType := .kAllow }, line.drop 2)
  else ({ rule with ruleType := .kBlock }, line)

/-- Step 3: the option list behind the first `$`, and the line without it. -/
def splitOptions (line : Text) : Text × Text :=
  match Text.find line '$' 0 with
  | some optPos => (line.drop (optPos + 1), line.take optPos)
  | none => ([], line)

/-- One option of step 4. -/
def parsePartyOption (rule : ParsedRule) (o : Text) : ParsedRule :=
  if o = "third-party".toList ∨ o = "3p".toList then { rule with requireThirdParty := true }
  else if o = "first-party".toList ∨ o = "1p".toList then { rule with requireFirstParty := true }
  else rule

/-- Step 4: party and resource type options. -/
def parseOptions (rule : ParsedRule) (optionsStr : Text) : ParsedRule :=
  if optionsStr = [] then rule
  else
    { (optionNames optionsStr).foldl parsePartyOption rule with
      resourceTypeMask := parseResourceTypeMask optionsStr }

/-- Step 5: the `||` anchor and the trailing `^`. -/
def parseAnchors (rule : ParsedRule) (line : Text) : ParsedRule × Text :=
  let (rule, line) :=
    -- the flag is set by default, so a line without the anchor matches subdomains too
    if "||".toList.isPrefixOf line then ({ rule with matchSubdomains := true }, line.drop 2)
    else (rule, line)
  (rule, if line.getLast? = some '^' then line.dropLast else line)

/-- The domain and path patterns of what is left of the line. -/
def parsePatterns (rule : ParsedRule) (line : Text) (ruleIdPrefix : Text) : ParsedRule :=
  let rule :=
    match Text.find line '/' 0 with
    | some slashPos =>
      { rule with
        domainPattern := Text.toLower (line.take slashPos)
        pathPattern := line.drop slashPos }
    | none => { rule with domainPattern := Text.toLower line, pathPattern := [] }
  if rule.domainPattern = [] then rule
  else { rule with isValid := true, ruleId := ruleIdPrefix ++ rule.domainPattern }

/-- `ParseLine`; its steps are numbered as in the source. -/
def parseLine (rawLine ruleIdPrefix : Text) : ParsedRule :=
  let line := Text.trim rawLine blanks
  let rule : ParsedRule := { originalRuleText := line }
  if line = [] ∨ line.head? = some '!' ∨ line.head? = some '#' ∨ line.length > 1024 then
    { rule with isValid := false }
  else
    let (rule, line) := parseAllowMark rule line
    let (optionsStr, line) := splitOptions line
    let rule := parseOptions rule optionsStr
    let (rule, line) := parseAnchors rule line
    parsePatterns rule line ruleIdPrefix

/-- The valid rules of a filter-list text, in order. Lines are counted from 1. -/
def parseText (textContent : Text) : List ParsedRule :=
  (((Text.getlines textContent '\n').zipIdx 1).map fun (line, count) =>
    parseLine line ("rule_".toList ++ (toString count).toList ++ "_".toList)).filter (·.isValid)

example : (parseLine " @@||CDN.example.com/tr^$script, 3p".toList "rule_".toList)
    = { ruleId := "rule_cdn.example.com".toList
        ruleType := .kAllow
        domainPattern := "cdn.example.com".toList
        pathPattern := "/tr".toList
        requireThirdParty := true
        resourceTypeMask := 4#32
        originalRuleText := "@@||CDN.example.com/tr^$script, 3p".toList
        isValid := true } := by decide

theorem isValid_of_mem_parseText {text : Text} {r : ParsedRule} (h : r ∈ parseText text) :
    r.isValid = true := by
  rw [parseText, List.mem_filter] at h
  exact h.2

end RuleParser
end ThoriumFrugal.Privacy

import ThoriumFrugal.Privacy.RuleParser

/-!
# The parser on any line

What `parseLine` makes of a line, read off the text: the pieces in front of and behind the
first `$`, the anchors and the first slash. From it, which lines the parser treats as the supported
syntax asks, and which it makes into rules for more than they say.
-/

namespace ThoriumFrugal.Privacy.RuleParser

open Lib

/-! ## The pieces of a trimmed line -/

/-- Step 1 drops the line. -/
def Skipped (line : Text) : Prop :=
  line = [] ∨ line.head? = some '!' ∨ line.head? = some '#' ∨ line.length > 1024

instance (line : Text) : Decidable (Skipped line) := inferInstanceAs (Decidable (_ ∨ _ ∨ _ ∨ _))

/-- The line behind the mark of an allow rule. -/
def unmarked (line : Text) : Text := if "@@".toList.isPrefixOf line then line.drop 2 else line

/-- The line of a rule carries the anchor `||`. -/
def IsAnchored (line : Text) : Prop := "||".toList <+: unmarked line

instance (line : Text) : Decidable (IsAnchored line) := inferInstanceAs (Decidable (_ <+: _))

/-- The text behind the first `$`. -/
def optionText (line : Text) : Text := ((unmarked line).dropWhile (· ≠ '$')).drop 1

/-- The text without the anchors `||` and `^`. -/
def unanchored (front : Text) : Text :=
  let front := if "||".toList.isPrefixOf front then front.drop 2 else front
  if front.getLast? = some '^' then front.dropLast else front

/-- The text in front of the options, without its anchors. -/
def patternText (line : Text) : Text := unanchored ((unmarked line).takeWhile (· ≠ '$'))

/-- The pattern up to its first slash. -/
def domainText (line : Text) : Text := (patternText line).takeWhile (· ≠ '/')

/-- The pattern from its first slash on. -/
def pathText (line : Text) : Text := (patternText line).dropWhile (· ≠ '/')

/-- The parser makes no rule of the line: it is skipped, or nothing stands where a domain should. -/
def Discarded (line : Text) : Prop := Skipped line ∨ domainText line = []

instance (line : Text) : Decidable (Discarded line) := inferInstanceAs (Decidable (_ ∨ _))

/-! ## What each stage reads -/

section

variable (rule : ParsedRule) (line ruleIdPrefix : Text)

/-- Step 2 leaves the line without its mark. -/
theorem parseAllowMark_snd : (parseAllowMark rule line).2 = unmarked line := by
  unfold parseAllowMark unmarked
  split <;> rfl

/-- Step 3 cuts the line at its first `$`. -/
theorem splitOptions_eq : splitOptions line
    = ((line.dropWhile (· ≠ '$')).drop 1, line.takeWhile (· ≠ '$')) := by
  unfold splitOptions
  split
  · next optPos hfind =>
    obtain ⟨htake, hdrop⟩ := Text.cut_of_find_eq_some hfind
    rw [← List.drop_drop, htake, hdrop]
  · next hfind =>
    obtain ⟨htake, hdrop⟩ := Text.cut_of_find_eq_none hfind
    rw [htake, hdrop, List.drop_nil]

/-- Step 5 leaves the line without its anchors. -/
theorem parseAnchors_snd : (parseAnchors rule line).2 = unanchored line := by
  unfold parseAnchors unanchored
  by_cases hanchor : "||".toList.isPrefixOf line
  · rw [if_pos hanchor, if_pos hanchor]
  · rw [if_neg hanchor, if_neg hanchor]

/-- The fields that the patterns of a line fill. -/
theorem parsePatterns_eq : parsePatterns rule line ruleIdPrefix
    = if line.takeWhile (· ≠ '/') = [] then
        { rule with domainPattern := [], pathPattern := line.dropWhile (· ≠ '/') }
      else
        { rule with
          domainPattern := Text.toLower (line.takeWhile (· ≠ '/'))
          pathPattern := line.dropWhile (· ≠ '/')
          isValid := true
          ruleId := ruleIdPrefix ++ Text.toLower (line.takeWhile (· ≠ '/')) } := by
  unfold parsePatterns
  cases hfind : Text.find line '/' 0 with
  | some slashPos =>
    obtain ⟨htake, hdrop⟩ := Text.cut_of_find_eq_some hfind
    simp only [htake, hdrop, Text.toLower_eq_nil]
    by_cases hnil : line.takeWhile (· ≠ '/') = []
    · rw [if_pos hnil, if_pos hnil, Text.toLower_eq_nil.mpr hnil]
    · rw [if_neg hnil, if_neg hnil]
  | none =>
    obtain ⟨htake, hdrop⟩ := Text.cut_of_find_eq_none hfind
    simp only [htake, hdrop, Text.toLower_eq_nil]
    by_cases hnil : line = []
    · rw [if_pos hnil, if_pos hnil, Text.toLower_eq_nil.mpr hnil]
    · rw [if_neg hnil, if_neg hnil]

end

/-- A rule of a line whose patterns are still to be read: the other stages fill other fields. -/
structure Unread (line : Text) (rule : ParsedRule) : Prop where
  matchSubdomains : rule.matchSubdomains = true
  originalRuleText : rule.originalRuleText = line
  isValid : rule.isValid = false

namespace Unread

variable {line : Text} {rule : ParsedRule} (h : Unread line rule)
include h

theorem parseAllowMark (t : Text) : Unread line (parseAllowMark rule t).1 := by
  unfold RuleParser.parseAllowMark
  split
  · exact ⟨h.matchSubdomains, h.originalRuleText, h.isValid⟩
  · exact ⟨h.matchSubdomains, h.originalRuleText, h.isValid⟩

theorem parsePartyOption (o : Text) : Unread line (parsePartyOption rule o) := by
  unfold RuleParser.parsePartyOption
  split
  · exact ⟨h.matchSubdomains, h.originalRuleText, h.isValid⟩
  · split
    · exact ⟨h.matchSubdomains, h.originalRuleText, h.isValid⟩
    · exact h

theorem parseOptions (optionsStr : Text) : Unread line (parseOptions rule optionsStr) := by
  have hfold : ∀ (names : List Text) {rule : ParsedRule}, Unread line rule →
      Unread line (names.foldl RuleParser.parsePartyOption rule) := by
    intro names
    induction names with
    | nil => exact id
    | cons o names ih => exact fun h => ih (h.parsePartyOption o)
  have hparty := hfold (optionNames optionsStr) h
  unfold RuleParser.parseOptions
  split
  · exact h
  · exact ⟨hparty.matchSubdomains, hparty.originalRuleText, hparty.isValid⟩

/-- The flag that the anchor sets is set from the start. -/
theorem parseAnchors (t : Text) : Unread line (parseAnchors rule t).1 := by
  unfold RuleParser.parseAnchors
  by_cases hanchor : "||".toList.isPrefixOf t
  · rw [if_pos hanchor]
    exact ⟨rfl, h.originalRuleText, h.isValid⟩
  · rw [if_neg hanchor]
    exact h

end Unread

/-! ## The rule of a line -/

section

variable {rawLine ruleIdPrefix : Text}

theorem isValid_of_skipped (h : Skipped (Text.trim rawLine blanks)) :
    (parseLine rawLine ruleIdPrefix).isValid = false := by
  unfold Skipped at h
  unfold parseLine
  simp only
  rw [if_pos h]

/-- Of a line that is not skipped, the last stage reads the text in front of the options. -/
theorem parseLine_of_not_skipped (h : ¬Skipped (Text.trim rawLine blanks)) :
    ∃ rule, Unread (Text.trim rawLine blanks) rule
      ∧ parseLine rawLine ruleIdPrefix
        = parsePatterns rule (patternText (Text.trim rawLine blanks)) ruleIdPrefix := by
  unfold Skipped at h
  unfold parseLine patternText
  generalize Text.trim rawLine blanks = line at h ⊢
  have hunread : Unread line { originalRuleText := line } := ⟨rfl, rfl, rfl⟩
  simp only
  rw [if_neg h, splitOptions_eq, parseAllowMark_snd]
  exact ⟨_, ((hunread.parseAllowMark line).parseOptions _).parseAnchors _,
    by rw [parseAnchors_snd]⟩

/-- A rule is made of every line that is not discarded. -/
theorem isValid_parseLine_iff :
    (parseLine rawLine ruleIdPrefix).isValid = true ↔ ¬Discarded (Text.trim rawLine blanks) := by
  unfold Discarded
  by_cases hskip : Skipped (Text.trim rawLine blanks)
  · simp [isValid_of_skipped hskip, hskip]
  · obtain ⟨rule, hunread, heq⟩ := @parseLine_of_not_skipped rawLine ruleIdPrefix hskip
    rw [heq, parsePatterns_eq, or_iff_right hskip]
    by_cases hnil : domainText (Text.trim rawLine blanks) = []
    · unfold domainText at hnil
      rw [if_pos hnil]
      exact iff_of_false (by simp [hunread.isValid]) (not_not_intro hnil)
    · unfold domainText at hnil
      rw [if_neg hnil]
      exact iff_of_true rfl hnil

/-- The fields of a rule that name the hosts and paths it is for. -/
theorem patterns_parseLine (h : (parseLine rawLine ruleIdPrefix).isValid = true) :
    let line := Text.trim rawLine blanks
    let rule := parseLine rawLine ruleIdPrefix
    rule.domainPattern = Text.toLower (domainText line)
      ∧ rule.pathPattern = pathText line
      ∧ rule.matchSubdomains = true
      ∧ rule.originalRuleText = line := by
  rw [isValid_parseLine_iff] at h
  obtain ⟨hskip, hdomain⟩ := not_or.mp h
  obtain ⟨rule, hunread, heq⟩ := @parseLine_of_not_skipped rawLine ruleIdPrefix hskip
  unfold domainText at hdomain
  simp only
  rw [heq, parsePatterns_eq, if_neg hdomain]
  exact ⟨rfl, rfl, hunread.matchSubdomains, hunread.originalRuleText⟩

/-- So no rule is without a domain. -/
theorem domainPattern_ne_nil (h : (parseLine rawLine ruleIdPrefix).isValid = true) :
    (parseLine rawLine ruleIdPrefix).domainPattern ≠ [] := by
  rw [(patterns_parseLine h).1]
  exact Text.toLower_eq_nil.not.mpr (not_or.mp (isValid_parseLine_iff.mp h)).2

end

/-! ## Lines outside the supported syntax -/

/-- A name that one of the two loops over the options knows. -/
def IsSupported (o : Text) : Prop :=
  o ∈ ["third-party", "3p", "first-party", "1p"].map String.toList ∨ optionBits o ≠ 0

instance (o : Text) : Decidable (IsSupported o) := inferInstanceAs (Decidable (_ ∨ _))

/-- The characters of host names. -/
def isHostChar (c : Char) : Bool := c.isAlphanum || "-_.".toList.contains c

/-- A rule of the line has no option but the supported ones, and the name of a host. -/
def KeepsSyntax (rawLine ruleIdPrefix : Text) : Prop :=
  let rule := parseLine rawLine ruleIdPrefix
  rule.isValid = true →
    (∀ o ∈ optionNames (optionText (Text.trim rawLine blanks)), o ≠ [] → IsSupported o)
      ∧ ∀ c ∈ rule.domainPattern, isHostChar c = true

instance (rawLine ruleIdPrefix : Text) : Decidable (KeepsSyntax rawLine ruleIdPrefix) :=
  inferInstanceAs (Decidable (_ → _))

/-- A line `[@@][||]domain[/path][^][$option,...]` of the supported syntax. -/
structure SyntaxLine where
  allow : Bool
  anchored : Bool
  domain : Text
  path : Text
  closed : Bool
  options : Option Text
  domain_ne_nil : domain ≠ []
  domain_host : ∀ c ∈ domain, isHostChar c = true
  path_start : ∀ c ∈ path.head?, c = '/'
  path_clean : '$' ∉ path
  path_end : closed = false → path.getLast? ≠ some '^'
  options_supported : ∀ os ∈ options, ∀ o ∈ optionNames os, o ≠ [] → IsSupported o

namespace SyntaxLine

variable (line : SyntaxLine)

/-- The anchored pattern. -/
def front : Text :=
  (if line.anchored then "||".toList else [])
    ++ (line.domain ++ line.path ++ (if line.closed then ['^'] else []))

/-- The options behind their `$`. -/
def back : Text :=
  match line.options with
  | some os => '$' :: os
  | none => []

/-- The whole line. -/
def text : Text := (if line.allow then "@@".toList else []) ++ (line.front ++ line.back)

variable {line}

theorem ne_of_mem_domain {c d : Char} (hc : c ∈ line.domain) (hd : isHostChar d = false) :
    c ≠ d := by
  rintro rfl
  rw [line.domain_host c hc] at hd
  cases hd

/-- Behind the mark stand the pattern and the options. -/
theorem unmarked_text : unmarked line.text = line.front ++ line.back := by
  unfold unmarked text
  cases line.allow with
  | true => simp
  | false =>
    -- the line starts with its anchor or with a host
    obtain ⟨c, t, hdomain⟩ := List.exists_cons_of_ne_nil line.domain_ne_nil
    have hc : '@' ≠ c := (ne_of_mem_domain (hdomain ▸ List.mem_cons_self) (by decide)).symm
    unfold front
    cases line.anchored <;> simp [hdomain, hc]

/-- The pattern ends before the options. -/
theorem dollar_not_mem_front : '$' ∉ line.front := by
  have hdomain : '$' ∉ line.domain := fun h => ne_of_mem_domain h (by decide) rfl
  unfold front
  cases line.anchored <;> cases line.closed <;> simp [hdomain, line.path_clean]

theorem head_back : ∀ c ∈ line.back.head?, decide (c ≠ '$') = false := by
  unfold back
  cases line.options <;> simp

/-- The options are found again. -/
theorem optionText_text : optionText line.text = line.options.getD [] := by
  unfold optionText
  rw [unmarked_text, Text.dropWhile_append_stop (Text.ne_of_not_mem dollar_not_mem_front) head_back]
  unfold back
  cases line.options <;> rfl

/-- So are the domain and the path, without the anchors. -/
theorem unanchored_front : unanchored line.front = line.domain ++ line.path := by
  obtain ⟨c, t, hdomain⟩ := List.exists_cons_of_ne_nil line.domain_ne_nil
  have hc : '|' ≠ c := (ne_of_mem_domain (hdomain ▸ List.mem_cons_self) (by decide)).symm
  have hfront : (if "||".toList.isPrefixOf line.front then line.front.drop 2 else line.front)
      = line.domain ++ line.path ++ (if line.closed then ['^'] else []) := by
    unfold front
    cases line.anchored <;> simp [hdomain, hc]
  unfold unanchored
  simp only [hfront]
  cases hclosed : line.closed with
  | true => simp
  | false =>
    -- without the closing anchor the text ends like the path or like the host
    have hlast : (line.domain ++ line.path).getLast? ≠ some '^' := by
      rw [List.getLast?_append]
      intro h
      rcases Option.or_eq_some_iff.mp h with hpath | ⟨-, hhost⟩
      · exact line.path_end hclosed hpath
      · exact ne_of_mem_domain (List.mem_of_getLast? hhost) (by decide) rfl
    rw [if_neg Bool.false_ne_true, List.append_nil, if_neg hlast]

/-- The domain ends at the first slash. -/
theorem domainText_text : domainText line.text = line.domain := by
  have hslash : '/' ∉ line.domain := fun h => ne_of_mem_domain h (by decide) rfl
  unfold domainText patternText
  rw [unmarked_text, Text.takeWhile_append_stop (Text.ne_of_not_mem dollar_not_mem_front) head_back,
    unanchored_front, Text.takeWhile_append_stop (Text.ne_of_not_mem hslash)
      (Text.stop_of_head line.path_start)]

end SyntaxLine

section

variable {line : Text}

theorem mark_append_unmarked (line : Text) :
    (if "@@".toList.isPrefixOf line then "@@".toList else []) ++ unmarked line = line := by
  unfold unmarked
  by_cases hmark : "@@".toList.isPrefixOf line
  · obtain ⟨t, rfl⟩ := List.isPrefixOf_iff_prefix.mp hmark
    simp
  · rw [if_neg hmark, if_neg hmark, List.nil_append]

/-- The anchors put back. -/
theorem exists_anchors (front : Text) : ∃ anchored closed : Bool,
    (if anchored then "||".toList else [])
        ++ (unanchored front ++ (if closed then ['^'] else [])) = front
      ∧ (closed = false → (unanchored front).getLast? ≠ some '^') := by
  have hclose : ∀ t : Text, ∃ closed : Bool,
      (if t.getLast? = some '^' then t.dropLast else t) ++ (if closed then ['^'] else []) = t
        ∧ (closed = false →
          (if t.getLast? = some '^' then t.dropLast else t).getLast? ≠ some '^') := by
    intro t
    by_cases hlast : t.getLast? = some '^'
    · obtain ⟨a, rfl⟩ := List.getLast?_eq_some_iff.mp hlast
      exact ⟨true, by simp, by simp⟩
    · exact ⟨false, by simp [hlast], by simp [hlast]⟩
  unfold unanchored
  by_cases hanchor : "||".toList.isPrefixOf front
  · obtain ⟨t, rfl⟩ := List.isPrefixOf_iff_prefix.mp hanchor
    obtain ⟨closed, htext, hend⟩ := hclose t
    refine ⟨true, closed, ?_, by simpa using hend⟩
    simpa using htext
  · simp only
    rw [if_neg hanchor]
    obtain ⟨closed, htext, hend⟩ := hclose front
    exact ⟨false, closed, htext, hend⟩

/-- The options put back behind their `$`. -/
theorem exists_options (body : Text) : ∃ options : Option Text,
    (match options with
      | some os => '$' :: os
      | none => []) = body.dropWhile (· ≠ '$')
      ∧ ∀ os ∈ options, os = (body.dropWhile (· ≠ '$')).drop 1 := by
  have hhead := Text.head_dropWhile_ne body '$'
  cases hback : body.dropWhile (· ≠ '$') with
  | nil => exact ⟨none, rfl, by simp⟩
  | cons c os =>
    rw [hback] at hhead
    obtain rfl := hhead c rfl
    exact ⟨some os, rfl, by simp⟩

/-- A line whose domain and options are of the syntax is a line of the syntax. -/
theorem exists_syntaxLine (hdomain : domainText line ≠ [])
    (hhost : ∀ c ∈ domainText line, isHostChar c = true)
    (hoptions : ∀ o ∈ optionNames (optionText line), o ≠ [] → IsSupported o) :
    ∃ l : SyntaxLine, line = l.text := by
  obtain ⟨anchored, closed, hfront, hclosed⟩ :=
    exists_anchors ((unmarked line).takeWhile (· ≠ '$'))
  obtain ⟨options, hback, hos⟩ := exists_options (unmarked line)
  have hpattern : domainText line ++ pathText line
      = unanchored ((unmarked line).takeWhile (· ≠ '$')) :=
    List.takeWhile_append_dropWhile
  rw [← hpattern] at hfront hclosed
  have hdollar : '$' ∉ pathText line := by
    intro hmem
    apply Text.not_mem_takeWhile_ne (unmarked line) '$'
    rw [← hfront]
    simp [hmem]
  refine ⟨{
    allow := "@@".toList.isPrefixOf line
    anchored := anchored
    domain := domainText line
    path := pathText line
    closed := closed
    options := options
    domain_ne_nil := hdomain
    domain_host := hhost
    path_start := Text.head_dropWhile_ne _ '/'
    path_clean := hdollar
    path_end := fun hopen hlast => hclosed hopen (by simp [hlast])
    options_supported := fun os h => ?_ }, ?_⟩
  · rw [hos os h]
    exact hoptions
  · unfold SyntaxLine.text SyntaxLine.front SyntaxLine.back
    simp only
    rw [hfront, hback, List.takeWhile_append_dropWhile, mark_append_unmarked]

end

theorem isHostChar_toLower (c : Char) : isHostChar c.toLower = isHostChar c := by
  by_cases hupper : c.isUpper = true
  · -- both are letters
    have halpha : c.isAlpha = true := by simp [Char.isAlpha, hupper]
    have hlower : c.toLower.isAlpha = true := by rw [Char.isAlpha_toLower_eq_isAlpha, halpha]
    simp [isHostChar, Char.isAlphanum, halpha, hlower]
  · rw [Char.toLower_eq_of_not_isUpper hupper]

theorem forall_mem_toLower_isHostChar {t : Text} :
    (∀ c ∈ Text.toLower t, isHostChar c = true) ↔ ∀ c ∈ t, isHostChar c = true := by
  unfold Text.toLower
  simp only [List.forall_mem_map, isHostChar_toLower]

/-- The parser keeps to the supported syntax on the lines it discards and the lines of the syntax.
Of every other line it makes a rule. -/
theorem keepsSyntax_iff (rawLine ruleIdPrefix : Text) :
    KeepsSyntax rawLine ruleIdPrefix
      ↔ Discarded (Text.trim rawLine blanks)
        ∨ ∃ line : SyntaxLine, Text.trim rawLine blanks = line.text := by
  by_cases hdiscard : Discarded (Text.trim rawLine blanks)
  · have hinvalid := (@isValid_parseLine_iff rawLine ruleIdPrefix).not.mpr (not_not_intro hdiscard)
    exact iff_of_true (fun hvalid => absurd hvalid hinvalid) (Or.inl hdiscard)
  · have hvalid := (@isValid_parseLine_iff rawLine ruleIdPrefix).mpr hdiscard
    obtain ⟨hdomain, -⟩ := patterns_parseLine hvalid
    unfold KeepsSyntax
    simp only [hvalid, forall_const, hdomain, forall_mem_toLower_isHostChar, hdiscard, false_or]
    constructor
    · rintro ⟨hoptions, hhost⟩
      exact exists_syntaxLine (not_or.mp hdiscard).2 hhost hoptions
    · rintro ⟨line, hline⟩
      rw [hline, line.domainText_text, line.optionText_text]
      refine ⟨?_, line.domain_host⟩
      cases hoptions : line.options with
      | none => simp [optionNames, Text.trim, Text.toLower]
      | some os => exact line.options_supported os hoptions

/-- A list of names that stand for no type gives a rule for every type. -/
theorem parseResourceTypeMask_of_unknown {optionsStr : Text}
    (h : ∀ o ∈ optionNames optionsStr, optionBits o = 0) :
    parseResourceTypeMask optionsStr = 0xFFFFFFFF#32 := by
  have hfold : ∀ names : List Text, (∀ o ∈ names, optionBits o = 0) →
      names.foldl (fun mask o => mask ||| optionBits o) 0 = 0 := by
    intro names hnames
    induction names with
    | nil => rfl
    | cons o names ih =>
      obtain ⟨ho, hnames⟩ := List.forall_mem_cons.mp hnames
      rw [List.foldl_cons, ho]
      exact ih hnames
  unfold parseResourceTypeMask
  simp only [hfold _ h, if_true]

/-- A list means every type but scripts, and the parser makes a rule for all types of it. -/
theorem not_keepsSyntax_negated :
    ¬KeepsSyntax "||example.com^$~script".toList "rule_".toList
      ∧ ∀ type, matchesResourceType type
        (parseLine "||example.com^$~script".toList "rule_".toList).resourceTypeMask = true := by
  refine ⟨by decide, fun type => ?_⟩
  cases type <;> decide

end ThoriumFrugal.Privacy.RuleParser

import ThoriumFrugal.Privacy.RuleParser

/-!
# The rule syntax

The lines `[@@]||domain/path^[$option,...]` of the supported syntax as data. A line is written with
its blanks and its letter case, and each stage of the parser reads one part of it off.
-/

namespace ThoriumFrugal.Privacy.RuleParser

open Lib

/-! ## Options -/

/-- What an option asks of a request. -/
inductive RuleOption
  | thirdParty
  | firstParty
  | resource (type : ResourceType)
deriving DecidableEq

namespace RuleOption

/-- The names of an option. There is none for main frames and for other types. -/
def names : RuleOption → List Text
  | thirdParty => ["third-party", "3p"].map String.toList
  | firstParty => ["first-party", "1p"].map String.toList
  | resource .kMainFrame => []
  | resource .kSubFrame => ["subdocument", "frame"].map String.toList
  | resource .kScript => ["script"].map String.toList
  | resource .kImage => ["image", "img"].map String.toList
  | resource .kStylesheet => ["stylesheet", "css"].map String.toList
  | resource .kFont => ["font"].map String.toList
  | resource .kXhrFetch => ["xmlhttprequest", "xhr", "fetch"].map String.toList
  | resource .kPingBeacon => ["ping", "beacon"].map String.toList
  | resource .kWebSocket => ["websocket"].map String.toList
  | resource .kMedia => ["media"].map String.toList
  | resource .kOther => []

/-- The bits of the mask that an option sets. -/
def bits : RuleOption → BitVec 32
  | thirdParty => 0
  | firstParty => 0
  | resource type => 1#32 <<< type.value

/-- The party that an option asks for. -/
def require (rule : ParsedRule) : RuleOption → ParsedRule
  | thirdParty => { rule with requireThirdParty := true }
  | firstParty => { rule with requireFirstParty := true }
  | resource _ => rule

variable {option : RuleOption} {name : Text}

/-- The names of an option give its bits. -/
theorem optionBits_eq (h : name ∈ option.names) : optionBits name = option.bits := by
  revert name
  rcases option with _ | _ | type
  · decide
  · decide
  · cases type <;> decide

/-- The names that stand for a party. -/
theorem party_names (h : name ∈ option.names) :
    ((name = "third-party".toList ∨ name = "3p".toList) ↔ option = thirdParty)
      ∧ ((name = "first-party".toList ∨ name = "1p".toList) ↔ option = firstParty) := by
  revert name
  rcases option with _ | _ | type
  · decide
  · decide
  · cases type <;> decide

/-- And they make the rule require what the option says. -/
theorem parsePartyOption_eq (h : name ∈ option.names) (rule : ParsedRule) :
    parsePartyOption rule name = option.require rule := by
  unfold parsePartyOption
  simp only [(party_names h).1, (party_names h).2]
  rcases option with _ | _ | type <;> simp [require]

/-- No name holds a comma or a blank. -/
theorem names_clean (h : name ∈ option.names) : name ≠ [] ∧ ',' ∉ name ∧ ' ' ∉ name
    ∧ '\t' ∉ name ∧ '\r' ∉ name ∧ '\n' ∉ name := by
  revert name
  rcases option with _ | _ | type
  · decide +kernel
  · decide +kernel
  · cases type <;> decide +kernel

end RuleOption

/-- An option as it is written: one of its names in any letter case, between blanks. -/
structure WrittenOption where
  option : RuleOption
  before : Text
  name : Text
  after : Text
  before_blank : ∀ c ∈ before, c ∈ blanks
  after_blank : ∀ c ∈ after, c ∈ blanks
  name_mem : Text.toLower name ∈ option.names

namespace WrittenOption

variable (o : WrittenOption)

/-- The option with the blanks around it. -/
def text : Text := o.before ++ (o.name ++ o.after)

theorem name_ne_nil : o.name ≠ [] := by
  rw [ne_eq, ← Text.toLower_eq_nil]
  exact (RuleOption.names_clean o.name_mem).1

theorem comma_not_mem_name : ',' ∉ o.name := by
  rw [← Text.mem_toLower (by decide)]
  exact (RuleOption.names_clean o.name_mem).2.1

theorem blank_not_mem_name {c : Char} (hc : c ∈ o.name) : c ∉ blanks := by
  obtain ⟨-, -, hspace, htab, hreturn, hline⟩ := RuleOption.names_clean o.name_mem
  rw [Text.mem_toLower (by decide)] at hspace htab hreturn hline
  intro hblank
  have hblank : c = ' ' ∨ c = '\t' ∨ c = '\r' ∨ c = '\n' := by simpa [blanks] using hblank
  rcases hblank with rfl | rfl | rfl | rfl
  · exact hspace hc
  · exact htab hc
  · exact hreturn hc
  · exact hline hc

theorem comma_not_mem_text : ',' ∉ o.text := by
  have hbefore : ',' ∉ o.before := fun h => absurd (o.before_blank _ h) (by decide)
  have hafter : ',' ∉ o.after := fun h => absurd (o.after_blank _ h) (by decide)
  simp [text, hbefore, hafter, o.comma_not_mem_name]

theorem trim_text : Text.trim o.text blanks = o.name :=
  Text.trim_append o.before_blank o.after_blank
    (fun _ hc => o.blank_not_mem_name (List.mem_of_mem_head? hc))
    fun _ hc => o.blank_not_mem_name (List.mem_of_getLast? hc)

/-- The option without the blanks behind it. -/
def trimmed : WrittenOption where
  option := o.option
  before := o.before
  name := o.name
  after := []
  before_blank := o.before_blank
  after_blank := by simp
  name_mem := o.name_mem

end WrittenOption

/-- The names that the parser reads off a list of options. -/
theorem optionNames_join {options : List WrittenOption} (hne : options ≠ []) :
    optionNames (Text.join [','] (options.map WrittenOption.text))
      = options.map fun o => Text.toLower o.name := by
  have hcomma : ∀ t ∈ options.map WrittenOption.text, ',' ∉ t := by
    intro t ht
    obtain ⟨o, -, rfl⟩ := List.mem_map.mp ht
    exact o.comma_not_mem_text
  unfold optionNames Text.join
  rw [List.splitOn_intercalate ',' hcomma (by simpa using hne), List.map_map]
  refine List.map_congr_left fun o _ => ?_
  rw [Function.comp, o.trim_text]

/-! ## What the options of a rule ask for -/

section

variable (options : List RuleOption)

/-- The resource mask of a list of options. -/
def maskOf : BitVec 32 :=
  let mask := options.foldl (fun mask option => mask ||| option.bits) 0
  if mask = 0 then 0xFFFFFFFF#32 else mask

/-- The mask has no bit of `m` exactly if no option has one. -/
theorem foldl_bits_and_eq_zero (m mask : BitVec 32) :
    (options.foldl (fun mask option => mask ||| option.bits) mask) &&& m = 0
      ↔ mask &&& m = 0 ∧ ∀ option ∈ options, option.bits &&& m = 0 := by
  induction options generalizing mask with
  | nil => simp
  | cons option options ih =>
    have hor : (mask ||| option.bits) &&& m = (mask &&& m) ||| (option.bits &&& m) := by
      ext i
      simp [Bool.and_or_distrib_right]
    rw [List.foldl_cons, ih, List.forall_mem_cons, ← and_assoc, hor]
    exact and_congr_left fun _ => BitVec.or_eq_zero_iff

/-- The bits of an option meet the bit of a type exactly when the option names the type. -/
theorem bits_and_eq_zero (option : RuleOption) (type : ResourceType) :
    option.bits &&& (1#32 <<< type.value) = 0 ↔ option ≠ .resource type := by
  revert option type
  rintro (_ | _ | t) type
  · cases type <;> decide
  · cases type <;> decide
  · cases t <;> cases type <;> decide

/-- The mask accepts a type exactly when an option names it or none names a type. -/
theorem matchesResourceType_maskOf (type : ResourceType) :
    matchesResourceType type (maskOf options) = true
      ↔ .resource type ∈ options ∨ ∀ t, .resource t ∉ options := by
  have hlt : type.value < 32 := by cases type <;> decide
  have hbit := foldl_bits_and_eq_zero options (1#32 <<< type.value) 0
  have hzero := foldl_bits_and_eq_zero options (BitVec.allOnes 32) 0
  have hnone : ∀ option : RuleOption, option.bits = 0 ↔ ∀ t, option ≠ .resource t := by
    rintro (_ | _ | t)
    · simp [RuleOption.bits]
    · simp [RuleOption.bits]
    · cases t <;> simp [RuleOption.bits, ResourceType.value]
  simp only [BitVec.and_allOnes, true_and, hnone] at hzero
  simp only [bits_and_eq_zero] at hbit
  unfold matchesResourceType maskOf
  rw [if_pos hlt]
  simp only
  by_cases hmask : options.foldl (fun mask option => mask ||| option.bits) 0 = 0
  · -- no option names a type, and the mask of a rule without types has all bits
    rw [if_pos hmask]
    have hall : (0xFFFFFFFF#32 &&& 1#32 <<< type.value != 0) = true := by
      cases type <;> decide
    exact iff_of_true hall (Or.inr fun t ht => hzero.mp hmask _ ht t rfl)
  · rw [if_neg hmask, bne_iff_ne, ne_eq, hbit]
    have htyped : ¬∀ t, RuleOption.resource t ∉ options := fun h =>
      hmask (hzero.mpr fun option hoption t e => h t (e ▸ hoption))
    rw [or_iff_left htyped]
    simp

/-- The requirements of the options add up. -/
theorem foldl_require (rule : ParsedRule) :
    options.foldl RuleOption.require rule
      = { rule with
          requireThirdParty := rule.requireThirdParty || decide (.thirdParty ∈ options)
          requireFirstParty := rule.requireFirstParty || decide (.firstParty ∈ options) } := by
  induction options generalizing rule with
  | nil => simp
  | cons option options ih =>
    rw [List.foldl_cons, ih]
    rcases option with _ | _ | type <;> simp [RuleOption.require]

end

/-! ## Lines -/

/-- The options behind their `$`; nothing without an option. -/
def optionsText (options : List WrittenOption) : Text :=
  if options = [] then [] else '$' :: Text.join [','] (options.map WrittenOption.text)

/-- A line of the rule syntax, between blanks. -/
structure RuleLine where
  allow : Bool
  domain : Text
  path : Text
  options : List WrittenOption
  before : Text
  after : Text
  domain_ne_nil : domain ≠ []
  domain_clean : ∀ c ∈ domain, c ∉ "/$^|".toList
  path_start : ∀ c ∈ path.head?, c = '/'
  path_clean : '$' ∉ path
  before_blank : ∀ c ∈ before, c ∈ blanks
  after_blank : ∀ c ∈ after, c ∈ blanks

namespace RuleLine

variable (r : RuleLine)

/-- The domain and the path between their anchors. -/
def pattern : Text := "||".toList ++ (r.domain ++ (r.path ++ ['^']))

/-- The mark of an allow rule. -/
def mark : Text := if r.allow then "@@".toList else []

/-- The line. -/
def text : Text :=
  r.before ++ (r.mark ++ (r.pattern ++ optionsText r.options) ++ r.after)

theorem head_line (t : Text) : ∀ c ∈ (r.mark ++ (r.pattern ++ t)).head?, c ∉ blanks := by
  unfold mark pattern
  split <;> simp [blanks]

/-- The line without its blanks is the line of the same options, the last one without the blanks
behind it. -/
theorem exists_trim_text : ∃ options : List WrittenOption,
    options.map WrittenOption.option = r.options.map WrittenOption.option
      ∧ Text.trim r.text blanks = r.mark ++ (r.pattern ++ optionsText options) := by
  rcases List.eq_nil_or_concat r.options with hnil | ⟨front, o, hoptions⟩
  · refine ⟨[], by rw [hnil], ?_⟩
    have hcore : r.mark ++ (r.pattern ++ [])
        = r.mark ++ ("||".toList ++ (r.domain ++ r.path)) ++ ['^'] := by
      simp [pattern]
    have hlast : ∀ c ∈ (r.mark ++ (r.pattern ++ [])).getLast?, c ∉ blanks := by
      rw [hcore, List.getLast?_concat]
      simp [blanks]
    unfold text
    rw [hnil, List.append_assoc r.mark, ← List.append_assoc r.mark]
    exact Text.trim_append r.before_blank r.after_blank (r.head_line []) hlast
  · refine ⟨front ++ [o.trimmed], by simp [hoptions, WrittenOption.trimmed], ?_⟩
    -- what stands behind the `$`, up to the name of the last option
    obtain ⟨joined, hjoined⟩ : ∃ joined, ∀ last : WrittenOption,
        optionsText (front ++ [last]) = '$' :: (joined ++ last.text) := by
      refine ⟨if front.map WrittenOption.text = [] then []
        else Text.join [','] (front.map WrittenOption.text) ++ [','], fun last => ?_⟩
      unfold optionsText
      rw [if_neg (by simp), List.map_append, List.map_singleton, Text.join_concat]
    have hcore : r.mark ++ (r.pattern ++ optionsText (front ++ [o.trimmed]))
        = r.mark ++ (r.pattern ++ '$' :: (joined ++ o.before)) ++ o.name := by
      simp [hjoined, WrittenOption.text, WrittenOption.trimmed]
    have htext : r.text = r.before ++ (r.mark ++ (r.pattern ++ optionsText (front ++ [o.trimmed]))
        ++ (o.after ++ r.after)) := by
      rw [hcore]
      simp [text, hoptions, hjoined, WrittenOption.text]
    have hlast : ∀ c ∈ (r.mark ++ (r.pattern ++ optionsText (front ++ [o.trimmed]))).getLast?,
        c ∉ blanks := by
      rw [hcore, List.getLast?_append_of_ne_nil _ o.name_ne_nil]
      exact fun c hc => o.blank_not_mem_name (List.mem_of_getLast? hc)
    rw [htext]
    refine Text.trim_append r.before_blank (fun c hc => ?_) (r.head_line _) hlast
    exact (List.mem_append.mp hc).elim (o.after_blank c) (r.after_blank c)

end RuleLine

/-! ## The stages of the parser -/

namespace RuleLine

variable (r : RuleLine)

/-- Step 2 on a line of this form. -/
theorem parseAllowMark_line (rule : ParsedRule) (t : Text) :
    parseAllowMark rule (r.mark ++ (r.pattern ++ t))
      = ({ rule with ruleType := if r.allow then .kAllow else .kBlock }, r.pattern ++ t) := by
  unfold parseAllowMark mark pattern
  cases r.allow <;> simp

/-- Step 3, with options as they are written. -/
theorem splitOptions_pattern (options : List WrittenOption) :
    splitOptions (r.pattern ++ optionsText options)
      = (Text.join [','] (options.map WrittenOption.text), r.pattern) := by
  have hdomain : '$' ∉ r.domain := fun h => r.domain_clean _ h (by decide)
  have hpattern : '$' ∉ r.pattern := by simp [pattern, hdomain, r.path_clean]
  unfold splitOptions optionsText
  by_cases hnil : options = []
  · rw [if_pos hnil, hnil, List.append_nil, Text.find_eq_none hpattern]
    rfl
  · rw [if_neg hnil, Text.find_zero_append hpattern]
    simp only [List.take_left, ← List.drop_drop, List.drop_left, List.drop_one, List.tail_cons]

/-- Step 5 finds both anchors. -/
theorem parseAnchors_pattern (rule : ParsedRule) :
    parseAnchors rule r.pattern = ({ rule with matchSubdomains := true }, r.domain ++ r.path) := by
  have hanchor : "||".toList.isPrefixOf r.pattern = true := by simp [pattern]
  have hdrop : r.pattern.drop 2 = r.domain ++ r.path ++ ['^'] := by simp [pattern]
  unfold parseAnchors
  rw [if_pos hanchor, hdrop]
  simp only [List.getLast?_concat, if_true, List.dropLast_concat]

/-- What is left are the domain and the path. -/
theorem parsePatterns_line (rule : ParsedRule) (ruleIdPrefix : Text) :
    parsePatterns rule (r.domain ++ r.path) ruleIdPrefix
      = { rule with
          domainPattern := Text.toLower r.domain
          pathPattern := r.path
          isValid := true
          ruleId := ruleIdPrefix ++ Text.toLower r.domain } := by
  have hdomain : '/' ∉ r.domain := fun h => r.domain_clean _ h (by decide)
  have hne : Text.toLower r.domain ≠ [] := Text.toLower_eq_nil.not.mpr r.domain_ne_nil
  unfold parsePatterns
  cases hpath : r.path with
  | nil =>
    rw [List.append_nil, Text.find_eq_none hdomain]
    simp only
    rw [if_neg hne]
  | cons c path =>
    obtain rfl : c = '/' := r.path_start c (by rw [hpath]; rfl)
    rw [Text.find_zero_append hdomain]
    simp only [List.take_left, List.drop_left]
    rw [if_neg hne]

end RuleLine

/-- The options are read in their order. -/
theorem foldl_parsePartyOption (options : List WrittenOption) (rule : ParsedRule) :
    (options.map fun o => Text.toLower o.name).foldl parsePartyOption rule
      = (options.map WrittenOption.option).foldl RuleOption.require rule := by
  induction options generalizing rule with
  | nil => rfl
  | cons o options ih =>
    rw [List.map_cons, List.map_cons, List.foldl_cons, List.foldl_cons, ih,
      RuleOption.parsePartyOption_eq o.name_mem]

/-- So are the bits. -/
theorem foldl_optionBits (options : List WrittenOption) (mask : BitVec 32) :
    (options.map fun o => Text.toLower o.name).foldl (fun mask o => mask ||| optionBits o) mask
      = (options.map WrittenOption.option).foldl (fun mask option => mask ||| option.bits)
        mask := by
  induction options generalizing mask with
  | nil => rfl
  | cons o options ih =>
    rw [List.map_cons, List.map_cons, List.foldl_cons, List.foldl_cons, ih,
      RuleOption.optionBits_eq o.name_mem]

/-- What the options change in a rule without a mask of its own. -/
theorem parseOptions_join (rule : ParsedRule) (hmask : rule.resourceTypeMask = 0xFFFFFFFF#32)
    (options : List WrittenOption) :
    parseOptions rule (Text.join [','] (options.map WrittenOption.text))
      = { rule with
          requireThirdParty := rule.requireThirdParty
            || decide (.thirdParty ∈ options.map WrittenOption.option)
          requireFirstParty := rule.requireFirstParty
            || decide (.firstParty ∈ options.map WrittenOption.option)
          resourceTypeMask := maskOf (options.map WrittenOption.option) } := by
  -- the parser skips an empty text of options
  by_cases hnil : options = []
  · have hnone : maskOf [] = rule.resourceTypeMask := hmask.symm
    simp [hnil, parseOptions, Text.join, hnone]
  · have hne : Text.join [','] (options.map WrittenOption.text) ≠ [] := by
      obtain ⟨o, options, rfl⟩ := List.exists_cons_of_ne_nil hnil
      obtain ⟨c, name, hname⟩ := List.exists_cons_of_ne_nil o.name_ne_nil
      have hmem : c ∈ o.text := by simp [WrittenOption.text, hname]
      have hsub : o.text ⊆ Text.join [','] ((o :: options).map WrittenOption.text) :=
        Text.subset_join (List.mem_map_of_mem List.mem_cons_self)
      exact List.ne_nil_of_mem (hsub hmem)
    unfold parseOptions parseResourceTypeMask maskOf
    rw [if_neg hne, optionNames_join hnil, foldl_parsePartyOption, foldl_optionBits, foldl_require]

/-- The parser reads the parts of a line back. -/
theorem parseLine_text (r : RuleLine) (ruleIdPrefix : Text)
    (hlength : (Text.trim r.text blanks).length ≤ 1024) :
    let rule := parseLine r.text ruleIdPrefix
    let options := r.options.map WrittenOption.option
    rule.isValid = true
      ∧ rule.ruleType = (if r.allow then .kAllow else .kBlock)
      ∧ rule.domainPattern = Text.toLower r.domain
      ∧ rule.pathPattern = r.path
      ∧ rule.matchSubdomains = true
      ∧ (rule.requireThirdParty = true ↔ .thirdParty ∈ options)
      ∧ (rule.requireFirstParty = true ↔ .firstParty ∈ options)
      ∧ ∀ type, matchesResourceType type rule.resourceTypeMask = true
        ↔ .resource type ∈ options ∨ ∀ t, .resource t ∉ options := by
  obtain ⟨options, hoptions, htrim⟩ := r.exists_trim_text
  -- the line starts with its mark or its anchor, so it is no comment
  have hread : ¬(Text.trim r.text blanks = [] ∨ (Text.trim r.text blanks).head? = some '!'
      ∨ (Text.trim r.text blanks).head? = some '#' ∨ (Text.trim r.text blanks).length > 1024) := by
    obtain ⟨c, hc, hhead⟩ :
        ∃ c, (Text.trim r.text blanks).head? = some c ∧ (c = '@' ∨ c = '|') := by
      rw [htrim]
      unfold RuleLine.mark RuleLine.pattern
      split
      · exact ⟨'@', rfl, Or.inl rfl⟩
      · exact ⟨'|', rfl, Or.inr rfl⟩
    have hne : Text.trim r.text blanks ≠ [] := by
      rintro hnil
      rw [hnil] at hc
      cases hc
    rw [hc]
    rcases hhead with rfl | rfl <;> simp [hne, hlength]
  intro rule
  -- the stages in the order of the source
  rw [← hoptions]
  simp only [rule, parseLine]
  rw [if_neg hread, htrim, r.parseAllowMark_line]
  simp only [r.splitOptions_pattern]
  rw [parseOptions_join _ rfl]
  simp only [r.parseAnchors_pattern, r.parsePatterns_line]
  simp [matchesResourceType_maskOf]

/-- An allow rule for the scripts of a host, with blanks in all places. -/
def cdnLine : RuleLine where
  allow := true
  domain := "CDN.example.com".toList
  path := "/tr".toList
  options := [
    ⟨.resource .kScript, " ".toList, "Script".toList, [], by simp [blanks], by simp, by decide⟩,
    ⟨.thirdParty, [], "3P".toList, " ".toList, by simp, by simp [blanks], by decide⟩]
  before := "\t".toList
  after := " ".toList
  domain_ne_nil := by decide
  domain_clean := by simp
  path_start := by simp
  path_clean := by decide
  before_blank := by simp [blanks]
  after_blank := by simp [blanks]

theorem parseLine_cdnLine :
    cdnLine.text = "\t@@||CDN.example.com/tr^$ Script,3P  ".toList
      ∧ (parseLine cdnLine.text "rule_".toList).pathPattern = "/tr".toList :=
  ⟨by decide, (parseLine_text cdnLine "rule_".toList (by decide)).2.2.2.1⟩

end ThoriumFrugal.Privacy.RuleParser

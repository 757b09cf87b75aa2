import ThoriumFrugal.Privacy.RuleIndexTheorems
import ThoriumFrugal.Privacy.RuleSyntaxTheorems
import ThoriumFrugal.Privacy.RuleTextTheorems
import ThoriumFrugal.Privacy.TestMatrix
import ThoriumFrugal.Privacy.TrackerBlockerTheorems

/-!
# The test matrix and the engine

On lists of anchored rules and requests between web URLs the blocker of the test matrix and the one
of the engine decide alike: the two parsers read the same rule off each line, and the scan of two
lists finds a rule when the lookup in the indexes does.
-/

namespace ThoriumFrugal.Privacy

open Lib RuleParser

/-! ## Lines -/

/-- A tab or a printable ASCII character. -/
def isPlain (c : Char) : Bool := c = '\t' ∨ 32 ≤ c.toNat ∧ c.toNat < 127

/-- A line of anchored rule syntax that both parsers read the same way. Left out are what they read
differently: a path that ends in `^`, resource options that are not spelled as the type's own name
(the test matrix keeps `img` and then compares it with `image`), blanks at the end, characters that
are not plain, and lines over the limit. -/
structure FixtureLine extends RuleLine where
  plain : ∀ c ∈ toRuleLine.text, isPlain c = true
  short : (toRuleLine.mark ++ (toRuleLine.pattern ++ optionsText options)).length ≤ 1024
  path_end : path.getLast? ≠ some '^'
  after_nil : after = []
  option_after_nil : ∀ o ∈ options, o.after = []
  canonical : ∀ o ∈ options, ∀ type, o.option = .resource type →
    Text.toLower o.name = resourceTypeToString type

namespace FixtureLine

variable (r : FixtureLine)

/-- The line without the blanks in front of it. -/
def core : Text := r.mark ++ (r.pattern ++ optionsText r.options)

theorem text_eq : r.text = r.before ++ r.core := by
  unfold RuleLine.text core
  rw [r.after_nil, List.append_nil]

theorem last_core : ∀ c ∈ r.core.getLast?, c ∉ blanks := by
  intro c hc
  rcases List.eq_nil_or_concat r.options with hnil | ⟨front, o, hoptions⟩
  · have hcore : r.core = r.mark ++ ("||".toList ++ (r.domain ++ r.path)) ++ ['^'] := by
      simp [core, hnil, optionsText, RuleLine.pattern]
    rw [hcore, List.getLast?_concat] at hc
    obtain rfl := Option.some.inj hc
    decide
  · have ho : o.after = [] := r.option_after_nil o (by simp [hoptions])
    obtain ⟨joined, hjoined⟩ : ∃ joined, r.core = joined ++ o.name := by
      refine ⟨r.mark ++ (r.pattern ++ '$' :: ((if front.map WrittenOption.text = [] then []
        else Text.join [','] (front.map WrittenOption.text) ++ [',']) ++ o.before)), ?_⟩
      simp [core, hoptions, optionsText, Text.join_concat, WrittenOption.text, ho]
    rw [hjoined, List.getLast?_append_of_ne_nil _ o.name_ne_nil] at hc
    exact o.blank_not_mem_name (List.mem_of_getLast? hc)

/-- Trimming leaves what stands between the blanks. -/
theorem trim_text : Text.trim r.text blanks = r.core := by
  have htrim := Text.trim_append (b := []) r.before_blank (by simp) (r.head_line _) r.last_core
  rw [List.append_nil] at htrim
  rw [r.text_eq]
  exact htrim

/-- Among the characters of a line the blanks are the whitespace. -/
theorem mem_whitespace_iff {c : Char} (h : isPlain c = true) :
    c ∈ Text.whitespace ↔ c ∈ blanks := by
  have hforth : Text.whitespace.filter isPlain = ['\t', ' '] := by decide
  refine ⟨fun hc => ?_, fun hc => ?_⟩
  · have hmem : c ∈ ['\t', ' '] := by
      rw [← hforth, List.mem_filter]
      exact ⟨hc, h⟩
    have hcases : c = '\t' ∨ c = ' ' := by simpa using hmem
    rcases hcases with rfl | rfl
    all_goals decide
  · have hcases : c = ' ' ∨ c = '\t' ∨ c = '\r' ∨ c = '\n' := by simpa [blanks] using hc
    rcases hcases with rfl | rfl | rfl | rfl
    all_goals decide

/-- Within a line of the fixture both sides know the same blanks. -/
theorem strip_eq_trim {s : Text} (h : s ⊆ r.text) : Text.strip s = Text.trim s blanks :=
  Text.trim_congr fun c hc => mem_whitespace_iff (r.plain c (h hc))

theorem strip_text : Text.strip r.text = r.core := by
  rw [r.strip_eq_trim (List.Subset.refl _), r.trim_text]

theorem subset_option {o : WrittenOption} (ho : o ∈ r.options) : o.text ⊆ r.text := by
  have hne : r.options ≠ [] := List.ne_nil_of_mem ho
  have htext : o.text ⊆ Text.join [','] (r.options.map WrittenOption.text) :=
    Text.subset_join (List.mem_map_of_mem ho)
  intro c hc
  have hmem : c ∈ optionsText r.options := by
    unfold optionsText
    rw [if_neg hne]
    exact List.mem_cons_of_mem _ (htext hc)
  rw [r.text_eq]
  simp [core, hmem]

/-- The pattern ends before the options. -/
theorem dollar_not_mem_pattern : '$' ∉ r.pattern := by
  have hdomain : '$' ∉ r.domain := fun h => r.domain_clean _ h (by decide)
  simp [RuleLine.pattern, hdomain, r.path_clean]

/-- Neither parser skips the line. -/
theorem not_skipped : ¬(r.core = [] ∨ r.core.head? = some '!' ∨ r.core.head? = some '#'
    ∨ r.core.length > 1024) := by
  have hhead : ∃ c t, r.core = c :: t ∧ (c = '@' ∨ c = '|') := by
    unfold core RuleLine.mark RuleLine.pattern
    cases r.allow with
    | true => exact ⟨'@', _, rfl, .inl rfl⟩
    | false => exact ⟨'|', _, rfl, .inr rfl⟩
  have hshort : ¬r.core.length > 1024 := Nat.not_lt.mpr r.short
  obtain ⟨c, t, hcore, hc⟩ := hhead
  rw [hcore] at hshort ⊢
  rcases hc with rfl | rfl
  all_goals simpa using hshort

/-- A part of a line has no letters but the ASCII ones. -/
theorem ascii {s : Text} (h : s ⊆ r.text) : ∀ c ∈ s, c.toNat < 128 := by
  intro c hc
  rcases of_decide_eq_true (r.plain c (h hc)) with rfl | hplain
  · decide
  · omega

/-- What the options of the line are. -/
def ruleOptions : List RuleOption := r.options.map WrittenOption.option

/-- When the rule of the line is one for a request. -/
def Covers (host path : Text) (party : PartyContext) (type : ResourceType) : Prop :=
  (host = Text.toLower r.domain ∨ ('.' :: Text.toLower r.domain) <:+ host)
    ∧ r.path <:+: path
    ∧ (.thirdParty ∈ r.ruleOptions → party = .kThirdParty)
    ∧ (.firstParty ∈ r.ruleOptions → party ≠ .kThirdParty)
    ∧ (.resource type ∈ r.ruleOptions ∨ ∀ t, .resource t ∉ r.ruleOptions)

end FixtureLine

/-! ## URLs -/

/-- The characters of a scheme. -/
def isSchemeChar (c : Char) : Bool := c.isAlphanum || "+-.".toList.contains c

/-- `scheme://host[:port]`, and a path, a query, a fragment or nothing behind it. -/
structure HostUrl where
  scheme : Text
  host : Text
  port : Text
  tail : Text
  scheme_start : ∃ c t, scheme = c :: t ∧ c.isAlpha = true
  scheme_clean : ∀ c ∈ scheme, isSchemeChar c = true
  host_ne_nil : host ≠ []
  host_clean : ∀ c ∈ host, isHostChar c = true
  host_end : host.getLast? ≠ some '.'
  port_start : ∀ c ∈ port.head?, c = ':'
  port_clean : ∀ c ∈ port, c = ':' ∨ c.isDigit = true
  tail_start : ∀ c ∈ tail.head?, c ∈ "/?#".toList

namespace HostUrl

variable (u : HostUrl)

/-- The URL string. -/
def spec : Text := u.scheme ++ "://".toList ++ (u.host ++ u.port ++ u.tail)

theorem spec_ne_nil : u.spec ≠ [] := by simp [spec]

/-- The name of the host. -/
def name : Text := Text.toLower u.host

theorem name_ne_nil : u.name ≠ [] := Text.toLower_eq_nil.not.mpr u.host_ne_nil

/-- Behind the scheme stand host, port and tail. -/
theorem drop_schemeEnd : u.spec.drop (ThirdPartyClassifier.schemeEnd u.spec)
    = u.host ++ u.port ++ u.tail := by
  refine ThirdPartyClassifier.drop_schemeEnd_append (fun hmark => ?_) _
  exact absurd (u.scheme_clean ':' (hmark.subset (by decide))) (by decide)

theorem not_mem_host {c : Char} (hc : isHostChar c = false) : c ∉ u.host := fun h =>
  Bool.false_ne_true (hc.symm.trans (u.host_clean c h))

/-- The engine reads the host's name off the URL. -/
theorem extractHostname_spec : ThirdPartyClassifier.extractHostname u.spec = u.name := by
  have hauthority : ∀ c ∈ u.host ++ u.port, c ∉ "/?#".toList := by
    intro c hc hdelim
    have hcases : c = '/' ∨ c = '?' ∨ c = '#' := by simpa using hdelim
    rcases List.mem_append.mp hc with hhost | hport
    · rcases hcases with rfl | rfl | rfl
      all_goals exact u.not_mem_host (by decide) hhost
    · rcases hcases with rfl | rfl | rfl
      all_goals exact (u.port_clean _ hport).elim (by decide) (by decide)
  rw [ThirdPartyClassifier.extractHostname_of_authority u.drop_schemeEnd hauthority u.tail_start,
    Text.takeWhile_append_stop (Text.ne_of_not_mem (u.not_mem_host (by decide)))
      (Text.stop_of_head u.port_start)]
  rfl

/-- The name does not end with a dot. -/
theorem getLast?_name : u.name.getLast? ≠ some '.' := by
  intro hlast
  unfold name Text.toLower at hlast
  rw [List.getLast?_map, Option.map_eq_some_iff] at hlast
  obtain ⟨c, hc, hdot⟩ := hlast
  have hlower : c.toLower = '.' := hdot
  have hmem : '.' ∈ Text.toLower [c] := by simp [Text.toLower, hlower]
  rw [Text.mem_toLower (by decide), List.mem_singleton] at hmem
  exact u.host_end (hmem ▸ hc)

/-- The name is ASCII, so both lower cases agree on it. -/
theorem ascii_name : ∀ c ∈ u.name, c.toNat < 128 := by
  intro c hc
  have hhost := forall_mem_toLower_isHostChar.mpr u.host_clean c hc
  rcases Bool.or_eq_true_iff.mp hhost with h | h
  · exact Text.toNat_lt_of_isAlphanum h
  · have hcases : c = '-' ∨ c = '_' ∨ c = '.' := by simpa using h
    rcases hcases with rfl | rfl | rfl
    all_goals decide

@[simp] theorem toLower_name : Text.toLower u.name = u.name := Text.toLower_toLower u.host

/-- The table of the test matrix has every suffix of the engine's table that the host is under. -/
def SharesTable : Prop :=
  ∀ suffix ∈ ThirdPartyClassifier.kTwoPartTlds, ('.' :: suffix) <:+ u.name →
    suffix ∈ TestMatrix.twoPartTlds

instance : Decidable u.SharesTable := List.decidableBAll _ ThirdPartyClassifier.kTwoPartTlds

end HostUrl

namespace TestMatrix

/-- What is documented of the library for ASCII texts and web URLs. -/
structure Library.Documented (lib : Library) : Prop where
  lower_ascii : ∀ s : Text, (∀ c ∈ s, c.toNat < 128) → lib.lower s = Text.toLower s
  hostname_spec : ∀ u : HostUrl, lib.hostname u.spec = some (some u.name)

variable {lib : Library} (hlib : lib.Documented) (u : HostUrl)

include hlib

theorem lower_name : lib.lower u.name = u.name := by
  rw [hlib.lower_ascii u.name u.ascii_name, u.toLower_name]

theorem extractHostname_spec : extractHostname lib u.spec = some u.name := by
  unfold extractHostname
  rw [if_neg u.spec_ne_nil, hlib.hostname_spec u]
  simp only [Option.bind_eq_bind, Option.bind_some, Option.getD_some, if_neg u.name_ne_nil,
    lower_name hlib u]
  rfl

/-- The registrable domain by either table. -/
theorem getDomain_name (hshared : u.SharesTable) :
    getDomain lib u.name = ThirdPartyClassifier.getDomain u.name := by
  have hdots : (u.name.reverse.dropWhile (· = '.')).reverse = u.name := by
    rcases List.eq_nil_or_concat u.name with hnil | ⟨front, c, hname⟩
    · exact absurd hnil u.name_ne_nil
    · have hc : c ≠ '.' := by
        rintro rfl
        exact u.getLast?_name (by rw [hname, List.concat_eq_append, List.getLast?_concat])
      rw [hname, List.concat_eq_append, List.reverse_append]
      simp [hc]
  have hdot : Text.dropFinalDot u.name = u.name := if_neg u.getLast?_name
  unfold getDomain ThirdPartyClassifier.getDomain
  rw [lower_name hlib u, hdots, u.toLower_name, if_neg u.name_ne_nil, hdot]
  simp only
  split
  · rfl
  have hjoin : Text.join ['.'] (u.name.splitOn '.') = u.name := List.intercalate_splitOn '.'
  rcases hlabels : (u.name.splitOn '.').reverse with _ | ⟨last, _ | ⟨second, _ | ⟨third, rest⟩⟩⟩
  case cons.cons.cons =>
    -- the two last labels stand behind a dot
    have hsuffix : ('.' :: (second ++ '.' :: last)) <:+ u.name := by
      rw [List.reverse_eq_iff.mp hlabels, List.reverse_cons, List.reverse_cons, Text.join_concat,
        if_neg (by simp), Text.join_concat, if_neg (by simp)] at hjoin
      exact ⟨Text.join ['.'] (third :: rest).reverse, by simpa using hjoin⟩
    have htable : second ++ '.' :: last ∈ ThirdPartyClassifier.kTwoPartTlds
        ↔ second ++ '.' :: last ∈ twoPartTlds := by
      have hsubset : twoPartTlds ⊆ ThirdPartyClassifier.kTwoPartTlds := by decide
      exact ⟨fun h => hshared _ h hsuffix, fun h => hsubset h⟩
    simp only [htable]
  all_goals rfl

/-- Both classifiers see the same party. -/
theorem classify_spec (u : HostUrl) (initiator : Option HostUrl) (hu : u.SharesTable)
    (hinitiator : ∀ i ∈ initiator, i.SharesTable) :
    classify lib u.spec (initiator.elim [] HostUrl.spec)
      = some (ThirdPartyClassifier.classify u.spec (initiator.elim [] HostUrl.spec)) := by
  cases initiator with
  | none => rfl
  | some i =>
    unfold classify ThirdPartyClassifier.classify
    simp only [Option.elim_some, if_neg i.spec_ne_nil, extractHostname_spec hlib,
      HostUrl.extractHostname_spec, Option.bind_eq_bind, Option.bind_some, u.name_ne_nil,
      i.name_ne_nil, false_or, getDomain_name hlib u hu,
      getDomain_name hlib i (hinitiator i rfl)]
    split
    · rfl
    split
    · rfl
    · rfl

/-! ## Lines as the test matrix reads them -/

variable (r : FixtureLine)

/-- The options of a line. -/
theorem splitOptions_core : splitOptions lib (r.pattern ++ optionsText r.options)
    = (r.pattern, r.options.map fun o => Text.toLower o.name) := by
  have hdollar := r.dollar_not_mem_pattern
  unfold splitOptions optionsText
  by_cases hnil : r.options = []
  · rw [if_pos hnil, List.append_nil, if_neg hdollar, hnil]
    rfl
  · -- each option is trimmed and lowered to its name
    have hread : ∀ o ∈ r.options, lib.lower (Text.strip o.text) = Text.toLower o.name := by
      intro o ho
      have hname : o.name ⊆ r.text := fun c hc =>
        r.subset_option ho (by simp [WrittenOption.text, hc])
      rw [r.strip_eq_trim (r.subset_option ho), o.trim_text, hlib.lower_ascii _ (r.ascii hname)]
    -- no option holds a comma, so the list is cut between them
    have hcomma : ∀ t ∈ r.options.map WrittenOption.text, ',' ∉ t := by
      intro t ht
      obtain ⟨o, -, rfl⟩ := List.mem_map.mp ht
      exact o.comma_not_mem_text
    rw [if_neg hnil, if_pos (by simp), Text.takeWhile_append_stop (Text.ne_of_not_mem hdollar)
      (by simp), Text.dropWhile_append_stop (Text.ne_of_not_mem hdollar) (by simp),
      List.drop_one, List.tail_cons]
    unfold Text.join
    rw [List.splitOn_intercalate ',' hcomma (by simpa using hnil), List.map_map]
    exact congrArg _ (List.map_congr_left hread)

/-- The rule that the test matrix reads off a line. -/
theorem parseLine_fixture : parseLine lib r.text = withOptions
    { isValid := true
      ruleType := if r.allow then .kAllow else .kBlock
      domainPattern := Text.toLower r.domain
      pathPattern := r.path
      matchSubdomains := true
      originalText := r.domain ++ r.path } (r.options.map fun o => Text.toLower o.name) := by
  -- the steps of the parser, in their order
  have hmark : (if "@@".toList.isPrefixOf r.core then (RuleType.kAllow, r.core.drop 2)
      else (.kBlock, r.core))
      = (if r.allow then RuleType.kAllow else .kBlock, r.pattern ++ optionsText r.options) := by
    unfold FixtureLine.core RuleLine.mark RuleLine.pattern
    cases r.allow with
    | true => rfl
    | false => rfl
  have hanchor : (if "||".toList.isPrefixOf r.pattern then (true, r.pattern.drop 2)
      else (false, r.pattern)) = (true, r.domain ++ r.path ++ ['^']) := by
    simp [RuleLine.pattern]
  -- neither a domain nor a path ends in a caret, so one is stripped
  have hclose : ((r.domain ++ r.path ++ ['^']).reverse.dropWhile (· = '^')).reverse
      = r.domain ++ r.path := by
    obtain ⟨front, c, hfront⟩ : ∃ front c, r.domain ++ r.path = front ++ [c] :=
      (List.eq_nil_or_concat' _).resolve_left (by simp [r.domain_ne_nil])
    have hc : c ≠ '^' := by
      rintro rfl
      have hlast : (r.domain ++ r.path).getLast? = some '^' := by
        rw [hfront, List.getLast?_concat]
      rcases List.eq_nil_or_concat' r.path with hnil | ⟨path, d, hpath⟩
      · rw [hnil, List.append_nil] at hlast
        exact r.domain_clean '^' (List.mem_of_getLast? hlast) (by decide)
      · rw [hpath, ← List.append_assoc, List.getLast?_concat] at hlast
        exact r.path_end (by rw [hpath, List.getLast?_concat, hlast])
    rw [hfront, List.reverse_append]
    simp [hc]
  -- the domain ends at the first slash
  have hslash : '/' ∉ r.domain := fun h => r.domain_clean _ h (by decide)
  have hdomain : (r.domain ++ r.path).takeWhile (· ≠ '/') = r.domain :=
    Text.takeWhile_append_stop (Text.ne_of_not_mem hslash) (Text.stop_of_head r.path_start)
  have hpath : (r.domain ++ r.path).dropWhile (· ≠ '/') = r.path :=
    Text.dropWhile_append_stop (Text.ne_of_not_mem hslash) (Text.stop_of_head r.path_start)
  have hlower : lib.lower r.domain = Text.toLower r.domain := by
    refine hlib.lower_ascii _ (r.ascii fun c hc => ?_)
    rw [r.text_eq]
    simp [FixtureLine.core, RuleLine.pattern, hc]
  unfold parseLine
  rw [r.strip_text]
  simp only
  rw [if_neg r.not_skipped, hmark]
  simp only
  rw [splitOptions_core hlib, hanchor]
  simp only
  rw [hclose, hdomain, hpath, hlower, decide_eq_true r.domain_ne_nil]

omit hlib

/-! ## What a rule of the test matrix matches -/

theorem resourceTypeToString_injective : Function.Injective resourceTypeToString := by
  intro type type' h
  cases type <;> cases type' <;> first | rfl | exact absurd h (by decide)

/-- The options that are no resource types are those about the party. -/
theorem mem_partyOptions_iff (o : WrittenOption) : Text.toLower o.name ∈ partyOptions
    ↔ ∀ type, o.option ≠ .resource type := by
  obtain ⟨hthird, hfirst⟩ := RuleOption.party_names o.name_mem
  simp only [partyOptions, List.map_cons, List.map_nil, List.mem_cons, List.not_mem_nil, or_false]
  rw [← or_assoc, hthird, hfirst]
  cases o.option <;> simp

/-- One of the two names of a party is among the options. -/
theorem contains_iff {a b : Text} {option : RuleOption}
    (h : ∀ o : WrittenOption, (Text.toLower o.name = a ∨ Text.toLower o.name = b)
      ↔ o.option = option) (options : List WrittenOption) :
    ((options.map fun o => Text.toLower o.name).contains a
        || (options.map fun o => Text.toLower o.name).contains b) = true
      ↔ option ∈ options.map WrittenOption.option := by
  rw [Bool.or_eq_true, List.contains_iff_mem, List.contains_iff_mem]
  simp only [List.mem_map, ← exists_or, ← and_or_left, h]

/-- The types that are among the options. -/
theorem mem_resourceTypes_iff (rule : Rule) (type : ResourceType) :
    resourceTypeToString type
        ∈ (withOptions rule (r.options.map fun o => Text.toLower o.name)).resourceTypes
      ↔ .resource type ∈ r.ruleOptions := by
  unfold withOptions FixtureLine.ruleOptions
  simp only [List.mem_filter, List.mem_map, Bool.not_eq_true', ← Bool.not_eq_true,
    List.contains_iff_mem]
  constructor
  · rintro ⟨⟨o, ho, hname⟩, hparty⟩
    rw [← hname, mem_partyOptions_iff] at hparty
    push Not at hparty
    obtain ⟨t, ht⟩ := hparty
    have heq := resourceTypeToString_injective ((r.canonical o ho t ht).symm.trans hname)
    exact ⟨o, ho, heq ▸ ht⟩
  · rintro ⟨o, ho, ht⟩
    have hname := r.canonical o ho type ht
    refine ⟨⟨o, ho, hname⟩, ?_⟩
    rw [← hname, mem_partyOptions_iff]
    exact fun h => h type ht

/-- A rule is open to all types if no option names one. -/
theorem resourceTypes_eq_nil_iff (rule : Rule) :
    (withOptions rule (r.options.map fun o => Text.toLower o.name)).resourceTypes = []
      ↔ ∀ t, .resource t ∉ r.ruleOptions := by
  unfold withOptions FixtureLine.ruleOptions
  simp only [List.filter_eq_nil_iff, Bool.not_eq_true', Bool.not_eq_false, List.contains_iff_mem,
    List.mem_map]
  constructor
  · rintro h t ⟨o, ho, ht⟩
    exact (mem_partyOptions_iff o).mp (h _ ⟨o, ho, rfl⟩) t ht
  · rintro h _ ⟨o, ho, rfl⟩
    exact (mem_partyOptions_iff o).mpr fun t ht => h t ⟨o, ho, ht⟩

theorem requireThirdParty_iff (hlib : lib.Documented) :
    (parseLine lib r.text).requireThirdParty = true ↔ .thirdParty ∈ r.ruleOptions := by
  rw [parseLine_fixture hlib]
  exact contains_iff (fun o => (RuleOption.party_names o.name_mem).1) r.options

/-- The rule matches the requests that the line covers. -/
theorem ruleMatches_iff (hlib : lib.Documented) {host url path : Text}
    (hpath : r.path <:+: url ↔ r.path <:+: path) (party : PartyContext) (type : ResourceType) :
    Blocker.ruleMatches (parseLine lib r.text) host url party (resourceTypeToString type) = true
      ↔ r.Covers host path party type := by
  have hthird := requireThirdParty_iff r hlib
  have hfirst : (parseLine lib r.text).requireFirstParty = true ↔ .firstParty ∈ r.ruleOptions := by
    rw [parseLine_fixture hlib]
    exact contains_iff (fun o => (RuleOption.party_names o.name_mem).2) r.options
  have htypes : (parseLine lib r.text).resourceTypes = [] ↔ ∀ t, .resource t ∉ r.ruleOptions := by
    rw [parseLine_fixture hlib, resourceTypes_eq_nil_iff]
  have htype : resourceTypeToString type ∈ (parseLine lib r.text).resourceTypes
      ↔ .resource type ∈ r.ruleOptions := by
    rw [parseLine_fixture hlib, mem_resourceTypes_iff]
  have hdomain : (parseLine lib r.text).domainPattern = Text.toLower r.domain
      ∧ (parseLine lib r.text).matchSubdomains = true
      ∧ (parseLine lib r.text).pathPattern = r.path := by
    rw [parseLine_fixture hlib]
    exact ⟨rfl, rfl, rfl⟩
  -- an empty path pattern is never absent
  have habsent : (r.path ≠ [] ∧ (Text.findStr url r.path 0).isNone = true) ↔ ¬r.path <:+: path := by
    rw [← hpath, ← Text.findStr_isSome_iff, Bool.not_eq_true, Option.isSome_eq_false_iff]
    refine and_iff_right_of_imp fun hnone hnil => ?_
    have hsome : (Text.findStr url r.path 0).isSome = true := by
      rw [Text.findStr_isSome_iff, hnil]
      exact List.nil_infix
    rw [Option.isNone_iff_eq_none.mp hnone] at hsome
    cases hsome
  unfold Blocker.ruleMatches FixtureLine.Covers
  rw [hdomain.1, hdomain.2.1, hdomain.2.2]
  simp only [habsent, hthird, hfirst, htypes, htype, ne_eq, Bool.if_false_left, Bool.and_eq_true,
    Bool.not_eq_true', decide_eq_false_iff_not, List.isSuffixOf_iff_suffix, true_and, and_true]
  refine and_congr ?_ (and_congr not_not (and_congr ?_ (and_congr not_and ?_)))
  · rw [not_and_or, not_not, not_not]
  · rw [not_and, not_not]
  · rw [not_and_or, not_not, not_not, or_comm]

/-! ## The lists of rules -/

namespace Blocker

/-- Loading splits the rules by their type. -/
theorem foldl_addRule {rules : List Rule} (h : ∀ rule ∈ rules, rule.isValid = true) (b : Blocker) :
    rules.foldl addRule b
      = { allowRules := b.allowRules ++ rules.filter (·.ruleType = .kAllow)
          blockRules := b.blockRules ++ rules.filter (·.ruleType = .kBlock) } := by
  induction rules generalizing b with
  | nil => simp
  | cons rule rules ih =>
    obtain ⟨hvalid, hrules⟩ := List.forall_mem_cons.mp h
    rw [List.foldl_cons, ih hrules, addRule, if_pos hvalid]
    cases hrule : rule.ruleType with
    | kAllow => simp [hrule]
    | kBlock => simp [hrule]

end Blocker

/-- The text of a file with these lines. -/
def fileText (lines : List FixtureLine) : Text :=
  Text.join ['\n'] (lines.map fun r => r.text)

theorem not_mem_lineEnds (r : FixtureLine) : ∀ c ∈ r.text, c ∉ Text.lineEnds := by
  intro c hc hend
  have hforth : Text.lineEnds.filter isPlain = [] := by decide
  exact List.filter_eq_nil_iff.mp hforth c hend (r.plain c hc)

/-- The rules that the test matrix reads off a file. -/
theorem loadFromText_fileText (lines : List FixtureLine) :
    Blocker.loadFromText lib {} (fileText lines)
      = (lines.map fun r => parseLine lib r.text).foldl Blocker.addRule {} := by
  -- the script strips the text before it cuts it, and the lines again
  have hparse : parseLine lib = parseLine lib ∘ Text.strip := by
    funext t
    unfold parseLine
    rw [Function.comp_apply, Text.strip_strip]
  have hblank : ∀ t ∈ lines.map (fun r => r.text), Text.strip t ≠ [] := by
    intro t ht
    obtain ⟨r, -, rfl⟩ := List.mem_map.mp ht
    rw [r.strip_text]
    exact (not_or.mp r.not_skipped).1
  obtain ⟨ts, hstrip, hsame, hwithin⟩ := Text.exists_strip_join hblank
  have hlines : ∀ t ∈ ts, Text.IsLine t := by
    intro t ht
    obtain ⟨t', ht', hsub⟩ := hwithin t ht
    obtain ⟨r, -, rfl⟩ := List.mem_map.mp ht'
    refine ⟨?_, fun c hc => not_mem_lineEnds r c (hsub.subset hc)⟩
    rintro rfl
    have hmem : Text.strip [] ∈ (lines.map fun r => r.text).map Text.strip := by
      rw [← hsame]
      exact List.mem_map_of_mem ht
    obtain ⟨t, ht, hnil⟩ := List.mem_map.mp hmem
    exact hblank t ht hnil
  have hrules : ts.map (parseLine lib) = (lines.map fun r => r.text).map (parseLine lib) := by
    rw [hparse, ← List.map_map, hsame, List.map_map]
  unfold Blocker.loadFromText fileText
  rw [hstrip, Text.splitlines_join hlines, hrules, List.map_map]
  rfl

/-- What a list of lines decides for a request. -/
def LinesBlock (lines : List FixtureLine) (q : Request) : Prop :=
  (¬∃ r ∈ lines, r.allow = true ∧ r.Covers q.host q.path q.party q.resourceType)
    ∧ ∃ r ∈ lines, r.allow = false ∧ r.Covers q.host q.path q.party q.resourceType

theorem extractPath_spec_within (u : HostUrl) : TrackerBlocker.extractPath u.spec <:+: u.spec := by
  rw [TrackerBlocker.extractPath_eq]
  unfold TrackerBlocker.pathBehindScheme
  split
  · have hpath := (List.takeWhile_prefix (fun c => !"?#".toList.contains c)
      (l := (u.spec.drop (ThirdPartyClassifier.schemeEnd u.spec)).dropWhile (· ≠ '/'))).isInfix
    exact hpath.trans ((List.dropWhile_suffix _).isInfix.trans (List.drop_suffix _ _).isInfix)
  · exact ⟨u.scheme ++ ":/".toList, u.host ++ u.port ++ u.tail, by simp [HostUrl.spec]⟩

/-- A line of the fixture is a rule of its kind. -/
theorem ruleType_fixture (hlib : lib.Documented) (r : FixtureLine) :
    (parseLine lib r.text).isValid = true
      ∧ (parseLine lib r.text).ruleType = if r.allow then .kAllow else .kBlock := by
  rw [parseLine_fixture hlib]
  exact ⟨rfl, rfl⟩

/-- A scan of the rules of one type finds nothing if the lines of that type have nothing. -/
theorem find?_eq_none_iff (hlib : lib.Documented) {lines : List FixtureLine}
    {P : FixtureLine → Prop} {p : Rule → Bool}
    (hp : ∀ r ∈ lines, p (parseLine lib r.text) = true ↔ P r) (allow : Bool) :
    ((lines.map fun r => parseLine lib r.text).filter
        (·.ruleType = if allow then .kAllow else .kBlock)).find? p = none
      ↔ ¬∃ r ∈ lines, r.allow = allow ∧ P r := by
  have hallow : ∀ r : FixtureLine,
      (parseLine lib r.text).ruleType = (if allow then .kAllow else .kBlock)
        ↔ r.allow = allow := by
    intro r
    rw [(ruleType_fixture hlib r).2]
    cases r.allow <;> cases allow <;> simp
  simp only [List.find?_eq_none, List.mem_filter, List.mem_map, decide_eq_true_eq]
  constructor
  · rintro h ⟨r, hr, hsame, hP⟩
    exact h _ ⟨⟨r, hr, rfl⟩, (hallow r).mpr hsame⟩ ((hp r hr).mpr hP)
  · rintro h _ ⟨⟨r, hr, rfl⟩, htype⟩ hmatch
    exact h ⟨r, hr, (hallow r).mp htype, (hp r hr).mp hmatch⟩

/-- The verdict of the test matrix on a file. -/
theorem evaluate_fileText (hlib : lib.Documented) {lines : List FixtureLine} {u : HostUrl}
    {initiator : Option HostUrl} (hu : u.SharesTable) (hinitiator : ∀ i ∈ initiator, i.SharesTable)
    (hpaths : ∀ r ∈ lines, r.path <:+: u.spec → r.path <:+: TrackerBlocker.extractPath u.spec)
    (type : ResourceType) :
    let q : Request := ⟨u.spec, initiator.elim [] HostUrl.spec, type⟩
    ∃ verdict, (Blocker.loadFromText lib {} (fileText lines)).evaluate lib q.targetUrl
        q.initiatorOrigin (resourceTypeToString type) = some verdict
      ∧ verdict.partyContext = q.party
      ∧ (verdict.decision = .kBlock ↔ LinesBlock lines q) := by
  intro q
  have hhost : q.host = u.name := u.extractHostname_spec
  have hallow : ∀ r ∈ lines, Blocker.ruleMatches (parseLine lib r.text) u.name u.spec q.party
      (resourceTypeToString type) = true ↔ r.Covers q.host q.path q.party type := by
    intro r hr
    rw [hhost]
    exact ruleMatches_iff r hlib
      ⟨hpaths r hr, fun h => h.trans (extractPath_spec_within u)⟩ q.party type
  -- a rule that matches has met the party it asks for
  have hblock : ∀ r ∈ lines, (Blocker.ruleMatches (parseLine lib r.text) u.name u.spec q.party
      (resourceTypeToString type) && (q.party = .kThirdParty
        || !(parseLine lib r.text).requireThirdParty)) = true
      ↔ r.Covers q.host q.path q.party type := by
    intro r hr
    rw [Bool.and_eq_true, hallow r hr]
    refine and_iff_left_of_imp fun hcovers => ?_
    rw [Bool.or_eq_true, decide_eq_true_eq, Bool.not_eq_true', ← Bool.not_eq_true,
      requireThirdParty_iff r hlib]
    exact or_iff_not_imp_right.mpr fun h => hcovers.2.2.1 (not_not.mp h)
  have hvalid : ∀ rule ∈ lines.map (fun r => parseLine lib r.text), rule.isValid = true := by
    intro rule hrule
    obtain ⟨r, -, rfl⟩ := List.mem_map.mp hrule
    exact (ruleType_fixture hlib r).1
  have hallowed := find?_eq_none_iff (p := fun rule => Blocker.ruleMatches rule u.name u.spec
    q.party (resourceTypeToString type)) hlib hallow true
  have hblocked := find?_eq_none_iff (p := fun rule => Blocker.ruleMatches rule u.name u.spec
    q.party (resourceTypeToString type) && (q.party = .kThirdParty || !rule.requireThirdParty))
    hlib hblock false
  simp only [if_true, Bool.false_eq_true, if_false] at hallowed hblocked
  unfold Blocker.evaluate LinesBlock
  rw [loadFromText_fileText, Blocker.foldl_addRule hvalid, classify_spec hlib u initiator hu
    hinitiator, extractHostname_spec hlib u]
  simp only [Option.bind_eq_bind, Option.bind_some, List.nil_append]
  split
  · next rule hfind =>
    refine ⟨_, rfl, rfl, iff_of_false (by simp) fun h => ?_⟩
    exact absurd (hfind.symm.trans (hallowed.mpr h.1)) (by simp)
  · next hnone =>
    split
    · next rule hfind =>
      refine ⟨_, rfl, rfl, iff_of_true rfl ⟨hallowed.mp hnone, ?_⟩⟩
      by_contra h
      exact absurd (hfind.symm.trans (hblocked.mpr h)) (by simp)
    · next hnone' =>
      exact ⟨_, rfl, rfl, iff_of_false (by simp) fun h => hblocked.mp hnone' h.2⟩

end TestMatrix

/-! ## Lines as the engine reads them -/

namespace FixtureLine

variable (r : FixtureLine)

/-- The rule that the engine reads off a line. -/
theorem parseLine_eq (ruleIdPrefix : Text) : RuleParser.parseLine r.text ruleIdPrefix
    = { ruleId := ruleIdPrefix ++ Text.toLower r.domain
        ruleType := if r.allow then .kAllow else .kBlock
        domainPattern := Text.toLower r.domain
        pathPattern := r.path
        matchSubdomains := true
        requireThirdParty := decide (.thirdParty ∈ r.ruleOptions)
        requireFirstParty := decide (.firstParty ∈ r.ruleOptions)
        resourceTypeMask := maskOf r.ruleOptions
        originalRuleText := r.core
        isValid := true } := by
  unfold RuleParser.parseLine
  rw [r.trim_text]
  simp only
  rw [if_neg r.not_skipped]
  unfold core
  rw [r.parseAllowMark_line]
  simp only [r.splitOptions_pattern]
  rw [parseOptions_join _ rfl]
  simp only [r.parseAnchors_pattern, r.parsePatterns_line, Bool.false_or]
  rfl

/-- The rule applies to the requests that the line covers. -/
theorem applies_iff (ruleIdPrefix : Text) {q : Request}
    (hhost : Text.dropFinalDot (Text.toLower q.host) = q.host) :
    Applies (RuleParser.parseLine r.text ruleIdPrefix) q
      ↔ r.Covers q.host q.path q.party q.resourceType := by
  have hparty : q.party = .kFirstParty ∨ q.party = .kSameSite ↔ q.party ≠ .kThirdParty := by
    cases q.party <;> simp
  have hdomain : Text.toLower r.domain ≠ [] := Text.toLower_eq_nil.not.mpr r.domain_ne_nil
  unfold Applies RuleDatabase.LinearMatch RuleDatabase.DomainMatch OptionsMatch Covers
  rw [r.parseLine_eq, hhost]
  simp only [hdomain, false_or, Text.toLower_toLower, true_and, decide_eq_true_eq, hparty,
    ← matchesResourceType_eq, matchesResourceType_maskOf]
  rw [and_assoc]
  refine and_congr_right fun _ => and_congr_right fun _ => ?_
  rw [and_comm, and_assoc]

end FixtureLine

/-! ## Files as the engine reads them -/

open TestMatrix

/-- The engine splits the file into the lines. -/
theorem getlines_fileText (lines : List FixtureLine) :
    Text.getlines (fileText lines) '\n' = lines.map fun r => r.text := by
  have hne : ∀ t ∈ lines.map (fun r => r.text), t ≠ [] := by
    intro t ht
    obtain ⟨r, -, rfl⟩ := List.mem_map.mp ht
    simp [r.text_eq, (not_or.mp r.not_skipped).1]
  have hnewline : ∀ t ∈ lines.map (fun r => r.text), '\n' ∉ t := by
    intro t ht hmem
    obtain ⟨r, -, rfl⟩ := List.mem_map.mp ht
    exact not_mem_lineEnds r '\n' hmem (by decide)
  unfold fileText Text.getlines Text.join
  by_cases hnil : lines = []
  · rw [hnil]
    rfl
  · rw [List.splitOn_intercalate '\n' hnewline (by simpa using hnil)]
    exact if_neg fun hlast => hne [] (List.mem_of_getLast? hlast) rfl

/-- The engine has a rule of every line, and no other. -/
theorem exists_mem_parseText_iff (lines : List FixtureLine) {P : ParsedRule → Prop}
    {Q : FixtureLine → Prop} (h : ∀ r ∈ lines, ∀ ruleIdPrefix,
      P (RuleParser.parseLine r.text ruleIdPrefix) ↔ Q r) :
    (∃ rule ∈ RuleParser.parseText (fileText lines), P rule) ↔ ∃ r ∈ lines, Q r := by
  unfold RuleParser.parseText
  rw [getlines_fileText]
  constructor
  · rintro ⟨rule, hrule, hP⟩
    obtain ⟨⟨line, count⟩, hline, rfl⟩ := List.mem_map.mp (List.mem_of_mem_filter hrule)
    obtain ⟨r, hr, rfl⟩ := List.mem_map.mp (List.fst_mem_of_mem_zipIdx hline)
    exact ⟨r, hr, (h r hr _).mp hP⟩
  · rintro ⟨r, hr, hQ⟩
    -- the rule of a line is valid, so the parser keeps it
    have hmem : r.text ∈ ((lines.map fun r => r.text).zipIdx 1).map Prod.fst := by
      rw [List.zipIdx_map_fst]
      exact List.mem_map_of_mem hr
    obtain ⟨⟨line, count⟩, hline, heq⟩ := List.mem_map.mp hmem
    obtain rfl : line = r.text := heq
    refine ⟨_, List.mem_filter.mpr ⟨List.mem_map_of_mem hline, ?_⟩, (h r hr _).mpr hQ⟩
    show (RuleParser.parseLine r.text _).isValid = true
    rw [r.parseLine_eq]

/-- The rules of a file that fits. -/
theorem represents_loadFromText {lines : List FixtureLine}
    (hroom : lines.length ≤ RuleDatabase.maxRules) :
    RuleDatabase.Represents (({} : RuleDatabase).loadFromText (fileText lines)).2
      (RuleParser.parseText (fileText lines)) := by
  have hstored := RuleDatabase.represents_empty.apply (.loadFromText (fileText lines))
  have hlength : (RuleParser.parseText (fileText lines)).length ≤ RuleDatabase.maxRules := by
    refine (List.length_filter_le _ _).trans ?_
    rw [List.length_map, List.length_zipIdx, getlines_fileText, List.length_map]
    exact hroom
  have hall : ({} : RuleDatabase).successes (RuleParser.parseText (fileText lines))
      = RuleParser.parseText (fileText lines) := by
    rw [RuleDatabase.successes_eq_take fun r hr => RuleParser.isValid_of_mem_parseText hr]
    exact List.take_of_length_le hlength
  rw [RuleDatabase.log, hall, List.nil_append] at hstored
  exact hstored

/-- No rule changes the party of the result. -/
theorem partyContext_evaluate (db : RuleDatabase) (q : Request) :
    (TrackerBlocker.evaluate db q).partyContext = q.party := by
  by_cases hhost : q.host = []
  · rw [TrackerBlocker.evaluate_of_host_eq_nil db hhost]
  · obtain ⟨result, -, hparty, -, -, heval⟩ := TrackerBlocker.evaluate_of_host_ne_nil db hhost
    rw [heval, ← hparty]
    unfold TrackerBlocker.applyRules
    split
    · rfl
    split
    · unfold TrackerBlocker.blockedBy
      simp only
      split
      · rfl
      · rfl
    · rfl

/-- On a file of fixture lines and a request between host URLs (no userinfo, no IPv6 literal, no
final dot) the engine decides as the test matrix does, if each path of a rule that stands in the URL
stands in its path, and if the hosts are under no suffix that only the engine's table has. -/
theorem decision_eq_testMatrix {lib : Library} (hlib : lib.Documented) {lines : List FixtureLine}
    (hroom : lines.length ≤ RuleDatabase.maxRules) {u : HostUrl} {initiator : Option HostUrl}
    (hu : u.SharesTable) (hinitiator : ∀ i ∈ initiator, i.SharesTable)
    (hpaths : ∀ r ∈ lines, r.path <:+: u.spec → r.path <:+: TrackerBlocker.extractPath u.spec)
    (type : ResourceType) :
    let q : Request := ⟨u.spec, initiator.elim [] HostUrl.spec, type⟩
    let result := TrackerBlocker.evaluate (({} : RuleDatabase).loadFromText (fileText lines)).2 q
    ∃ verdict, (Blocker.loadFromText lib {} (fileText lines)).evaluate lib q.targetUrl
        q.initiatorOrigin (resourceTypeToString type) = some verdict
      ∧ verdict.decision = result.decision ∧ verdict.partyContext = result.partyContext := by
  intro q result
  obtain ⟨verdict, heval, hparty, hdecision⟩ :=
    evaluate_fileText hlib hu hinitiator hpaths type
  refine ⟨verdict, heval, ?_, hparty.trans (partyContext_evaluate _ q).symm⟩
  have hhost : q.host = u.name := u.extractHostname_spec
  have hname : Text.dropFinalDot (Text.toLower q.host) = q.host := by
    rw [hhost, u.toLower_name]
    exact if_neg u.getLast?_name
  -- a stored rule of either kind is that of a line
  have hrule : ∀ allow : Bool, (∃ rule ∈ RuleParser.parseText (fileText lines),
      rule.ruleType = (if allow then .kAllow else .kBlock) ∧ Applies rule q)
      ↔ ∃ r ∈ lines, r.allow = allow ∧ r.Covers q.host q.path q.party q.resourceType := by
    intro allow
    refine exists_mem_parseText_iff lines fun r _ ruleIdPrefix => ?_
    rw [r.applies_iff ruleIdPrefix hname, r.parseLine_eq]
    refine and_congr_left fun _ => ?_
    cases r.allow <;> cases allow <;> simp
  -- so both sides block by the same condition
  have hengine : result.decision = .kBlock ↔ LinesBlock lines q := by
    have hne : q.host ≠ [] := hhost ▸ u.name_ne_nil
    have hallow := hrule true
    have hblock := hrule false
    simp only [if_true, Bool.false_eq_true, if_false] at hallow hblock
    rw [TrackerBlocker.decision_evaluate (represents_loadFromText hroom) q, and_iff_right hne]
    unfold RulesBlock LinesBlock
    rw [hallow, hblock]
  have hsame : verdict.decision = .kBlock ↔ result.decision = .kBlock :=
    hdecision.trans hengine.symm
  cases hverdict : verdict.decision <;> cases hresult : result.decision <;> simp_all

theorem nil_blank : ∀ c ∈ ([] : Text), c ∈ blanks := nofun

theorem dollar_not_mem_tr : '$' ∉ "/tr".toList := by decide

/-- The pixels of a third party. -/
def pixelLine : FixtureLine where
  allow := false
  domain := "facebook.com".toList
  path := "/tr".toList
  options := [⟨.resource .kImage, [], "Image".toList, [], nil_blank, nil_blank, by decide⟩,
    ⟨.thirdParty, "  ".toList, "3p".toList, [], by simp [blanks], nil_blank, by decide⟩]
  before := "  ".toList
  after := []
  domain_ne_nil := by decide
  domain_clean := by simp
  path_start := fun _ hc => (Option.some.inj hc).symm
  path_clean := dollar_not_mem_tr
  before_blank := by simp [blanks]
  after_blank := nil_blank
  plain := List.all_eq_true.mp (by decide)
  short := by decide
  path_end := by decide
  after_nil := rfl
  option_after_nil := by simp
  canonical := by
    intro o ho type htype
    simp only [List.mem_cons, List.not_mem_nil, or_false] at ho
    rcases ho with rfl | rfl
    · cases htype
      decide
    · cases htype

/-- A host that is never blocked. -/
def exceptionLine : FixtureLine where
  allow := true
  domain := "cdnjs.cloudflare.com".toList
  path := []
  options := []
  before := []
  after := []
  domain_ne_nil := by decide
  domain_clean := by simp
  path_start := by simp
  path_clean := by decide
  before_blank := nil_blank
  after_blank := nil_blank
  plain := List.all_eq_true.mp (by decide)
  short := by decide
  path_end := by decide
  after_nil := rfl
  option_after_nil := by simp
  canonical := by simp

/-- The pixel. -/
def pixelUrl : HostUrl where
  scheme := "https".toList
  host := "www.Facebook.com".toList
  port := []
  tail := "/tr?id=123".toList
  scheme_start := ⟨'h', "ttps".toList, rfl, rfl⟩
  scheme_clean := List.all_eq_true.mp (by decide)
  host_ne_nil := by decide
  host_clean := List.all_eq_true.mp (by decide)
  host_end := by decide
  port_start := by simp
  port_clean := by simp
  tail_start := by
    rintro c ⟨⟩
    decide

/-- The URL of a shop. -/
def shopUrl : HostUrl where
  scheme := "https".toList
  host := "shop.example.co.uk".toList
  port := ":8443".toList
  tail := []
  scheme_start := ⟨'h', "ttps".toList, rfl, rfl⟩
  scheme_clean := List.all_eq_true.mp (by decide)
  host_ne_nil := by decide
  host_clean := List.all_eq_true.mp (by decide)
  host_end := by decide
  port_start := by simp
  port_clean := by simp
  tail_start := nofun

/-- The library on web URLs. -/
def webLibrary : Library where
  hostname := fun url => some (some (ThirdPartyClassifier.extractHostname url))
  lower := Text.toLower

/-- The sample library does what is documented. -/
theorem documented_webLibrary : webLibrary.Documented where
  lower_ascii := fun _ _ => rfl
  hostname_spec := fun u => congrArg (fun name => some (some name)) u.extractHostname_spec

example : fileText [pixelLine, exceptionLine]
    = "  ||facebook.com/tr^$Image,  3p\n@@||cdnjs.cloudflare.com^".toList := by
  decide

theorem decision_eq_fixture :
    let q : Request := ⟨pixelUrl.spec, shopUrl.spec, .kImage⟩
    let text := fileText [pixelLine, exceptionLine]
    let result := TrackerBlocker.evaluate (({} : RuleDatabase).loadFromText text).2 q
    ∃ verdict, (Blocker.loadFromText webLibrary {} text).evaluate webLibrary q.targetUrl
        q.initiatorOrigin "image".toList = some verdict
      ∧ verdict.decision = result.decision ∧ verdict.partyContext = result.partyContext :=
  @decision_eq_testMatrix webLibrary documented_webLibrary [pixelLine, exceptionLine] (by decide)
    pixelUrl (some shopUrl) (by decide +kernel) (by rintro i ⟨⟩; decide +kernel)
    (by decide +kernel) .kImage

-- both block the pixel
example : (TrackerBlocker.evaluate
    (({} : RuleDatabase).loadFromText (fileText [pixelLine, exceptionLine])).2
    ⟨pixelUrl.spec, shopUrl.spec, .kImage⟩).decision = .kBlock := by
  decide +kernel

end ThoriumFrugal.Privacy

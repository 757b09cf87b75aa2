import ThoriumFrugal.Privacy.RuleTextTheorems
import ThoriumFrugal.Privacy.TrackerBlockerTheorems

/-!
# The scope of a loaded rule

From the text of a line to the lookups: for which hosts and paths the rule of a line is found once
it is stored. The `||` anchor of the line and the start of the path do not bound it as the filter
syntax has it, and the results say for which requests this shows.
-/

namespace ThoriumFrugal.Privacy

open Lib

namespace RuleDatabase

open RuleParser

/-! ## What the lookups find -/

/-- One of the two lookups returns the rule. -/
def Finds (db : RuleDatabase) (rule : ParsedRule) (host path : Text) : Prop :=
  rule ∈ db.findMatchingBlockRules host path ∨ rule ∈ db.findMatchingAllowRules host path

instance (db : RuleDatabase) (rule : ParsedRule) (host path : Text) :
    Decidable (Finds db rule host path) := inferInstanceAs (Decidable (_ ∨ _))

/-- The host is the domain or lies below it. -/
def OnDomain (domain host : Text) : Prop :=
  normalizeHost host = domain ∨ ('.' :: domain) <:+ normalizeHost host

instance (domain host : Text) : Decidable (OnDomain domain host) :=
  inferInstanceAs (Decidable (_ ∨ _))

theorem OnDomain.ne_nil {domain host : Text} (h : OnDomain domain host) (hdomain : domain ≠ []) :
    host ≠ [] := by
  rintro rfl
  have hnormal : normalizeHost [] = [] := rfl
  unfold OnDomain at h
  rw [hnormal, List.suffix_nil] at h
  rcases h with hown | hbelow
  · exact hdomain hown.symm
  · cases hbelow

/-- A stored rule is found for the hosts and paths it matches. -/
theorem Represents.finds_iff {db : RuleDatabase} {l : List ParsedRule} (h : Represents db l)
    {rule : ParsedRule} (hmem : rule ∈ l) (host path : Text) :
    Finds db rule host path ↔ LinearMatch rule host path := by
  unfold Finds
  rw [(h.findMatchingBlockRules_perm host path).mem_iff,
    (h.findMatchingAllowRules_perm host path).mem_iff]
  simp only [List.mem_filter, hmem, true_and, decide_eq_true_eq, ← or_and_right]
  refine and_iff_right ?_
  cases rule.ruleType
  · exact Or.inl rfl
  · exact Or.inr rfl

/-- The rule of a line matches the hosts on its domain, whatever its anchor. -/
theorem linearMatch_parseLine_iff {rawLine ruleIdPrefix : Text}
    (h : (parseLine rawLine ruleIdPrefix).isValid = true) (host path : Text) :
    LinearMatch (parseLine rawLine ruleIdPrefix) host path
      ↔ OnDomain (Text.toLower (domainText (Text.trim rawLine blanks))) host
        ∧ pathText (Text.trim rawLine blanks) <:+: path := by
  obtain ⟨hdomain, hpath, hsub, -⟩ := patterns_parseLine h
  have hne := domainPattern_ne_nil h
  rw [hdomain] at hne
  unfold LinearMatch DomainMatch OnDomain normalizeHost
  simp only [hdomain, hpath, hsub, hne, Text.toLower_toLower, false_or, true_and]

/-! ## The anchor -/

/-- The rule that a load of `text` adds for one of its lines. -/
structure LoadedFrom (before : List Op) (text line : Text) (rule : ParsedRule) : Prop where
  read : ∃ count, (line, count) ∈ (Text.getlines text '\n').zipIdx 1
    ∧ rule = parseLine line ("rule_".toList ++ (toString count).toList ++ "_".toList)
  added : rule ∈ (reached before).successes (parseText text)

section

variable {before : List Op} {text line : Text} {rule : ParsedRule}

theorem LoadedFrom.isValid (h : LoadedFrom before text line rule) : rule.isValid = true :=
  isValid_of_mem_parseText ((successes_sublist _ _).subset h.added)

theorem LoadedFrom.mem_stored (h : LoadedFrom before text line rule) :
    rule ∈ stored (before ++ [.loadFromText text]) := by
  rw [stored_concat]
  exact List.mem_append_right _ h.added

/-- A rule without the anchor is found for its own domain only, a rule with it for that domain and
all its subdomains, on the paths of the rule. -/
def FollowsAnchor (db : RuleDatabase) (line : Text) (rule : ParsedRule) (host path : Text) : Prop :=
  (¬IsAnchored (Text.trim line blanks) → Finds db rule host path →
      normalizeHost host = rule.domainPattern)
    ∧ (IsAnchored (Text.trim line blanks) → OnDomain rule.domainPattern host →
      matchesPathAndOptions rule path = true → Finds db rule host path)

instance (db : RuleDatabase) (line : Text) (rule : ParsedRule) (host path : Text) :
    Decidable (FollowsAnchor db line rule host path) := inferInstanceAs (Decidable (_ ∧ _))

/-- The lookups follow the anchor of a line, except that they also find the rule of a line without
it for the hosts below its domain. -/
theorem followsAnchor_iff (h : LoadedFrom before text line rule) (host path : Text) :
    FollowsAnchor (reached (before ++ [.loadFromText text])) line rule host path
      ↔ IsAnchored (Text.trim line blanks)
        ∨ ¬(('.' :: Text.toLower (domainText (Text.trim line blanks))) <:+ normalizeHost host
          ∧ pathText (Text.trim line blanks) <:+: path) := by
  have hvalid := h.isValid
  have hfinds := (represents_reached (before ++ [.loadFromText text])).finds_iff h.mem_stored
    host path
  obtain ⟨count, -, rfl⟩ := h.read
  obtain ⟨hdomain, hpath, -, -⟩ := patterns_parseLine hvalid
  rw [linearMatch_parseLine_iff hvalid] at hfinds
  unfold FollowsAnchor
  rw [hfinds, hdomain, matchesPathAndOptions_iff, hpath]
  by_cases hanchor : IsAnchored (Text.trim line blanks)
  · exact iff_of_true ⟨fun hnot => absurd hanchor hnot, fun _ hhost hpath => ⟨hhost, hpath⟩⟩
      (Or.inl hanchor)
  · rw [or_iff_right hanchor]
    constructor
    · rintro ⟨hown, -⟩ ⟨hbelow, hpath⟩
      -- a host below the domain is longer than the domain
      have heq := hown hanchor ⟨Or.inr hbelow, hpath⟩
      have hlen := hbelow.length_le
      rw [heq, List.length_cons] at hlen
      omega
    · intro hnot
      refine ⟨fun _ hmatch => ?_, fun h => absurd h hanchor⟩
      obtain ⟨hown | hbelow, hpath⟩ := hmatch
      · exact hown
      · exact absurd ⟨hbelow, hpath⟩ hnot

end

/-- A list of one anchored rule finds it for a subdomain. -/
theorem followsAnchor_cdn :
    FollowsAnchor (reached [.loadFromText "||example.com^".toList]) "||example.com^".toList
      (parseLine "||example.com^".toList "rule_1_".toList) "CDN.example.com.".toList
      "/".toList := by
  have hload : LoadedFrom [] "||example.com^".toList "||example.com^".toList
      (parseLine "||example.com^".toList "rule_1_".toList) :=
    ⟨⟨1, by decide +kernel, by decide +kernel⟩, by decide +kernel⟩
  exact (followsAnchor_iff hload _ _).mpr (Or.inl (by decide))

/-- A list of one bare host name finds it for a subdomain too. -/
theorem not_followsAnchor_bare :
    LoadedFrom [] "example.com^".toList "example.com^".toList
        (parseLine "example.com^".toList "rule_1_".toList)
      ∧ ¬FollowsAnchor (reached [.loadFromText "example.com^".toList])
        "example.com^".toList (parseLine "example.com^".toList "rule_1_".toList)
        "cdn.example.com".toList "/".toList := by
  refine ⟨⟨⟨1, ?_, ?_⟩, ?_⟩, ?_⟩
  · decide +kernel
  · decide +kernel
  · decide +kernel
  · decide +kernel

end RuleDatabase

namespace TrackerBlocker

open RuleParser RuleDatabase

/-! ## The path -/

/-- The rule is one of those that the loops go over for the request. -/
def Considers (db : RuleDatabase) (rule : ParsedRule) (q : Request) : Prop :=
  q.host ≠ [] ∧ Finds db rule q.host q.path

instance (db : RuleDatabase) (rule : ParsedRule) (q : Request) : Decidable (Considers db rule q) :=
  inferInstanceAs (Decidable (_ ∧ _))

/-- The rule behind a decision to block is one of them. -/
theorem exists_considers_of_block {db : RuleDatabase} {q : Request}
    (h : (evaluate db q).decision = .kBlock) :
    ∃ rule, Considers db rule q ∧ OptionsMatch rule q.party q.resourceType := by
  by_cases hhost : q.host = []
  · rw [evaluate_of_host_eq_nil db hhost] at h
    cases h
  · obtain ⟨result, hresult, hparty, -, -, heval⟩ := evaluate_of_host_ne_nil db hhost
    rw [heval, decision_applyRules hresult, hparty] at h
    obtain ⟨-, rule, hmem, hoptions⟩ := h
    exact ⟨rule, ⟨hhost, Or.inl hmem⟩, hoptions⟩

/-- The rule is considered only for requests whose path starts with its path pattern. -/
def MatchesByPrefix (db : RuleDatabase) (rule : ParsedRule) (q : Request) : Prop :=
  Considers db rule q → rule.pathPattern <+: q.path

instance (db : RuleDatabase) (rule : ParsedRule) (q : Request) :
    Decidable (MatchesByPrefix db rule q) := inferInstanceAs (Decidable (_ → _))

/-- A request on the domain of a stored rule is matched by prefix, unless its path holds the path
of the rule further on only. -/
theorem matchesByPrefix_iff {ops : List Op} {rawLine ruleIdPrefix : Text}
    (hstored : parseLine rawLine ruleIdPrefix ∈ stored ops) {q : Request}
    (hhost : OnDomain (parseLine rawLine ruleIdPrefix).domainPattern q.host) :
    MatchesByPrefix (reached ops) (parseLine rawLine ruleIdPrefix) q
      ↔ (pathText (Text.trim rawLine blanks) <:+: q.path →
        pathText (Text.trim rawLine blanks) <+: q.path) := by
  have hvalid := (represents_reached ops).valid _ hstored
  obtain ⟨hdomain, hpath, -, -⟩ := patterns_parseLine hvalid
  have hne : q.host ≠ [] := hhost.ne_nil (domainPattern_ne_nil hvalid)
  rw [hdomain] at hhost
  unfold MatchesByPrefix Considers
  rw [(represents_reached ops).finds_iff hstored, linearMatch_parseLine_iff hvalid, hpath]
  simp only [hne, hhost, ne_eq, not_false_eq_true, true_and]

/-- The rule of the Meta pixel, on a request for the pixel. -/
theorem matchesByPrefix_pixel :
    MatchesByPrefix (reached [.loadFromText "||facebook.com/tr^$third-party".toList])
      (parseLine "||facebook.com/tr^$third-party".toList "rule_1_".toList)
      ⟨"https://www.facebook.com/tr?id=7".toList, "https://news.example".toList, .kImage⟩ := by
  refine (matchesByPrefix_iff ?_ ?_).mpr fun _ => ?_
  · decide +kernel
  · decide
  · decide

/-- The rule of the Meta pixel also blocks a script whose path holds its text further on. -/
theorem not_matchesByPrefix_translations :
    let db := reached [.loadFromText "||facebook.com/tr^$third-party".toList]
    let q : Request := ⟨"https://www.facebook.com/assets/translations.js".toList,
      "https://news.example".toList, .kScript⟩
    ¬MatchesByPrefix db (parseLine "||facebook.com/tr^$third-party".toList "rule_1_".toList) q
      ∧ (evaluate db q).decision = .kBlock := by
  decide +kernel

end TrackerBlocker
end ThoriumFrugal.Privacy

import ThoriumFrugal.Privacy.RuleDatabaseTheorems
import ThoriumFrugal.Privacy.TrackerBlocker

/-!
# The verdict of the tracker blocker

`Applies` says when a rule applies to a request and `RulesBlock` what a set of rules
decides: allow rules override block rules. The decision of `evaluateRequest` is this
verdict on the stored rules, so it does not depend on the order of the lookups' results.
-/

namespace ThoriumFrugal.Privacy

open Lib

/-! ## Options of a rule -/

theorem RuleParser.matchesResourceType_eq (type : ResourceType) (mask : BitVec 32) :
    matchesResourceType type mask = mask.getLsbD type.value := by
  have hlt : type.value < 32 := by cases type <;> decide
  have hbit : (1#32 <<< type.value) = BitVec.twoPow 32 type.value := (BitVec.twoPow_eq ..).symm
  rw [matchesResourceType, if_pos hlt, hbit, BitVec.and_twoPow]
  cases h : mask.getLsbD type.value
  · simp
  · have : BitVec.twoPow 32 type.value ≠ 0#32 := by cases type <;> decide
    simpa using this

/-- The option part of a match: the mask contains the type, and the party is one the rule
asks for. -/
def OptionsMatch (rule : ParsedRule) (party : PartyContext) (type : ResourceType) : Prop :=
  rule.resourceTypeMask.getLsbD type.value = true
    ∧ (rule.requireThirdParty = true → party = .kThirdParty)
    ∧ (rule.requireFirstParty = true → party = .kFirstParty ∨ party = .kSameSite)

instance (rule : ParsedRule) (party : PartyContext) (type : ResourceType) :
    Decidable (OptionsMatch rule party type) := inferInstanceAs (Decidable (_ ∧ _ ∧ _))

/-- A request as the blocker sees it: target URL, initiator and resource type. -/
structure Request where
  targetUrl : Text
  initiatorOrigin : Text
  resourceType : ResourceType
deriving DecidableEq, Repr

namespace Request

/-- The host that the engine reads off the target. -/
def host (q : Request) : Text := ThirdPartyClassifier.extractHostname q.targetUrl

/-- The path that it reads off the target. -/
def path (q : Request) : Text := TrackerBlocker.extractPath q.targetUrl

/-- The party that it finds. -/
def party (q : Request) : PartyContext :=
  ThirdPartyClassifier.classify q.targetUrl q.initiatorOrigin

end Request

/-- A rule applies to a request: its domain and path match, and its options do. -/
def Applies (rule : ParsedRule) (q : Request) : Prop :=
  RuleDatabase.LinearMatch rule q.host q.path ∧ OptionsMatch rule q.party q.resourceType

instance (rule : ParsedRule) (q : Request) : Decidable (Applies rule q) :=
  inferInstanceAs (Decidable (_ ∧ _))

/-! ## Allow rules override block rules -/

/-- What a list of rules decides for a request. -/
def RulesBlock (l : List ParsedRule) (q : Request) : Prop :=
  (¬∃ r ∈ l, r.ruleType = .kAllow ∧ Applies r q) ∧ ∃ r ∈ l, r.ruleType = .kBlock ∧ Applies r q

instance (l : List ParsedRule) (q : Request) : Decidable (RulesBlock l q) :=
  inferInstanceAs (Decidable (_ ∧ _))

/-- The verdict does not depend on the order of the rules. -/
theorem rulesBlock_perm {l l' : List ParsedRule} (h : l.Perm l') (q : Request) :
    RulesBlock l q ↔ RulesBlock l' q := by
  unfold RulesBlock
  simp only [h.mem_iff]

/-- One more allow rule can only unblock. -/
theorem RulesBlock.of_append_allow {l l' : List ParsedRule} {q : Request}
    (hallow : ∀ r ∈ l', r.ruleType = .kAllow) (h : RulesBlock (l ++ l') q) : RulesBlock l q := by
  obtain ⟨hnone, r, hr, hblock, happ⟩ := h
  refine ⟨fun ⟨r, hr, hrest⟩ => hnone ⟨r, List.mem_append_left _ hr, hrest⟩, r, ?_, hblock, happ⟩
  rcases List.mem_append.mp hr with hr | hr
  · exact hr
  · rw [hallow r hr] at hblock
    cases hblock

namespace TrackerBlocker

/-! ## The two loops -/

theorem skipsRule_eq_false_iff {type : ResourceType} {party : PartyContext} {rule : ParsedRule} :
    skipsRule type party rule = false ↔ OptionsMatch rule party type := by
  unfold skipsRule OptionsMatch
  rw [RuleParser.matchesResourceType_eq]
  cases party <;> simp

/-- A rule that is not skipped and asks for a third party has one: the branch that allows a
tracker "by policy" is dead. -/
theorem not_allowedByPolicy {type : ResourceType} {party : PartyContext} {rule : ParsedRule}
    (h : OptionsMatch rule party type) :
    party = .kThirdParty ∨ rule.requireThirdParty = false := by
  cases ht : rule.requireThirdParty
  · exact Or.inr rfl
  · exact Or.inl (h.2.1 ht)

theorem optionsMatch_of_firstApplied {type : ResourceType} {party : PartyContext}
    {rules : List ParsedRule} {r : ParsedRule} (h : firstApplied type party rules = some r) :
    r ∈ rules ∧ OptionsMatch r party type :=
  ⟨List.mem_of_find?_eq_some h, skipsRule_eq_false_iff.mp (by simpa using List.find?_some h)⟩

theorem firstApplied_eq_none_iff {type : ResourceType} {party : PartyContext}
    {rules : List ParsedRule} :
    firstApplied type party rules = none ↔ ¬∃ r ∈ rules, OptionsMatch r party type := by
  unfold firstApplied
  rw [List.find?_eq_none]
  simp [← skipsRule_eq_false_iff]

/-- What the two loops can do: stop at an allow rule, find none and stop at a block rule, or leave
the result as it is. -/
inductive LoopCase (db : RuleDatabase) (result : PrivacyEvaluationResult) (host path : Text)
    (type : ResourceType) : Prop
  | allowed (r : ParsedRule) (hr : r ∈ db.findMatchingAllowRules host path)
    (hmatch : OptionsMatch r result.partyContext type)
    (heq : applyRules db result host path type = allowedBy result r)
  | blocked (r : ParsedRule)
    (hallow : ¬∃ r ∈ db.findMatchingAllowRules host path, OptionsMatch r result.partyContext type)
    (hr : r ∈ db.findMatchingBlockRules host path)
    (hmatch : OptionsMatch r result.partyContext type)
    (hdecision : (applyRules db result host path type).decision = .kBlock)
    (hreason : (applyRules db result host path type).reason
      = "Matched block rule: ".toList ++ r.originalRuleText)
  | untouched
    (hallow : ¬∃ r ∈ db.findMatchingAllowRules host path, OptionsMatch r result.partyContext type)
    (hblock : ¬∃ r ∈ db.findMatchingBlockRules host path, OptionsMatch r result.partyContext type)
    (heq : applyRules db result host path type = result)

theorem loopCase (db : RuleDatabase) (result : PrivacyEvaluationResult) (host path : Text)
    (type : ResourceType) : LoopCase db result host path type := by
  cases hallow : firstApplied type result.partyContext (db.findMatchingAllowRules host path) with
  | some r =>
    obtain ⟨hr, hmatch⟩ := optionsMatch_of_firstApplied hallow
    exact .allowed r hr hmatch (by simp only [applyRules, hallow])
  | none =>
    have hnone := firstApplied_eq_none_iff.mp hallow
    cases hblock : firstApplied type result.partyContext
        (db.findMatchingBlockRules host path) with
    | some r =>
      obtain ⟨hr, hmatch⟩ := optionsMatch_of_firstApplied hblock
      -- of the two ways to report a block rule only the first is left
      have hparty := not_allowedByPolicy hmatch
      refine .blocked r hnone hr hmatch ?_ ?_
      · simp only [applyRules, hallow, hblock, blockedBy, hparty, if_true]
      · simp only [applyRules, hallow, hblock, blockedBy, hparty, if_true]
    | none =>
      exact .untouched hnone (firstApplied_eq_none_iff.mp hblock)
        (by simp only [applyRules, hallow, hblock])

/-- The decision of the two loops on a result that so far allows. -/
theorem decision_applyRules {db : RuleDatabase} {result : PrivacyEvaluationResult}
    (hresult : result.decision = .kAllow) (host path : Text) (type : ResourceType) :
    (applyRules db result host path type).decision = .kBlock
      ↔ (¬∃ r ∈ db.findMatchingAllowRules host path, OptionsMatch r result.partyContext type)
        ∧ ∃ r ∈ db.findMatchingBlockRules host path,
          OptionsMatch r result.partyContext type := by
  cases loopCase db result host path type with
  | allowed r hr hmatch heq =>
    rw [heq]
    exact iff_of_false (by simp [allowedBy]) fun h => h.1 ⟨r, hr, hmatch⟩
  | blocked r hallow hr hmatch hdecision =>
    exact iff_of_true hdecision ⟨hallow, r, hr, hmatch⟩
  | untouched hallow hblock heq =>
    rw [heq, hresult]
    exact iff_of_false (by simp) fun h => hblock h.2

/-- The loops never allow a tracker "by policy". -/
theorem reason_applyRules {db : RuleDatabase} {result : PrivacyEvaluationResult}
    (hresult : result.reason ≠ allowedByPolicyReason) (host path : Text) (type : ResourceType) :
    (applyRules db result host path type).reason ≠ allowedByPolicyReason := by
  cases loopCase db result host path type with
  | allowed r hr hmatch heq =>
    rw [heq]
    intro h
    have hmark : "Matched allow rule: ".toList <+: allowedByPolicyReason := ⟨_, h⟩
    exact absurd hmark (by decide)
  | blocked r hallow hr hmatch hdecision hreason =>
    rw [hreason]
    intro h
    have hmark : "Matched block rule: ".toList <+: allowedByPolicyReason := ⟨_, h⟩
    exact absurd hmark (by decide)
  | untouched hallow hblock heq =>
    rw [heq]
    exact hresult

/-- When the loops do not block, they leave the classification as it was. -/
theorem classification_applyRules {db : RuleDatabase} {result : PrivacyEvaluationResult}
    {host path : Text} {type : ResourceType}
    (h : (applyRules db result host path type).decision ≠ .kBlock) :
    (applyRules db result host path type).classification = result.classification := by
  cases loopCase db result host path type with
  | allowed r hr hmatch heq =>
    rw [heq]
    rfl
  | blocked r hallow hr hmatch hdecision => exact absurd hdecision h
  | untouched hallow hblock heq => rw [heq]

/-! ## The verdict -/

/-- The request evaluated against a database. -/
def evaluate (db : RuleDatabase) (q : Request) : PrivacyEvaluationResult :=
  evaluateRequest { database := some db } q.targetUrl q.initiatorOrigin q.resourceType

theorem evaluate_of_host_eq_nil (db : RuleDatabase) {q : Request} (h : q.host = []) :
    evaluate db q = { partyContext := q.party } :=
  if_pos h

/-- For a request to a host, the loops start from a result without decision or reason. -/
theorem evaluate_of_host_ne_nil (db : RuleDatabase) {q : Request} (h : q.host ≠ []) :
    ∃ result : PrivacyEvaluationResult, result.decision = .kAllow
      ∧ result.partyContext = q.party ∧ result.reason = []
      ∧ (result.classification = .kKnownTracker ↔ db.isKnownTrackerHost q.host = true)
      ∧ evaluate db q = applyRules db result q.host q.path q.resourceType := by
  refine ⟨if db.isKnownTrackerHost q.host then
      { partyContext := q.party, classification := .kKnownTracker }
    else { partyContext := q.party }, ?_, ?_, ?_, ?_, if_neg h⟩
  · split <;> rfl
  · split <;> rfl
  · split <;> rfl
  · split
    · next hknown => simp [hknown]
    · next hknown => simp [hknown]

/-- The blocker blocks exactly the requests to a host that the stored rules block. -/
theorem decision_evaluate {db : RuleDatabase} {l : List ParsedRule} (h : db.Represents l)
    (q : Request) : (evaluate db q).decision = .kBlock ↔ q.host ≠ [] ∧ RulesBlock l q := by
  by_cases hhost : q.host = []
  · simp [evaluate_of_host_eq_nil db hhost, hhost]
  · obtain ⟨result, hresult, hparty, -, -, heval⟩ := evaluate_of_host_ne_nil db hhost
    rw [heval, decision_applyRules hresult, hparty]
    simp only [(h.findMatchingAllowRules_perm q.host q.path).mem_iff,
      (h.findMatchingBlockRules_perm q.host q.path).mem_iff, List.mem_filter, decide_eq_true_eq,
      and_assoc, ne_eq, hhost, not_false_eq_true, true_and, RulesBlock, Applies]

theorem reason_evaluate (db : RuleDatabase) (q : Request) :
    (evaluate db q).reason ≠ allowedByPolicyReason := by
  have hnil : ([] : Text) ≠ allowedByPolicyReason := by decide
  by_cases hhost : q.host = []
  · rw [evaluate_of_host_eq_nil db hhost]
    exact hnil
  · obtain ⟨result, -, -, hreason, -, heval⟩ := evaluate_of_host_ne_nil db hhost
    rw [heval]
    exact reason_applyRules (hreason ▸ hnil) _ _ _

/-- A request is classified as one to a known tracker when its host is one or the rules
block it. -/
theorem classification_evaluate {db : RuleDatabase} {l : List ParsedRule} (h : db.Represents l)
    {q : Request} (hdecision : (evaluate db q).decision ≠ .kBlock) :
    (evaluate db q).classification = .kKnownTracker
      ↔ q.host ≠ [] ∧ ∃ r ∈ l, r.ruleType = .kBlock ∧ r.domainPattern ≠ []
        ∧ RuleDatabase.DomainMatch r q.host := by
  by_cases hhost : q.host = []
  · simp [evaluate_of_host_eq_nil db hhost, hhost]
  · obtain ⟨result, -, -, -, hclass, heval⟩ := evaluate_of_host_ne_nil db hhost
    rw [heval] at hdecision ⊢
    rw [classification_applyRules hdecision, hclass, h.isKnownTrackerHost_iff]
    simp [hhost]

/-- The blocker looks at the target URL through its host and its path only. -/
theorem evaluateRequest_congr {url url' : Text}
    (hhost : ThirdPartyClassifier.extractHostname url = ThirdPartyClassifier.extractHostname url')
    (hpath : extractPath url = extractPath url') (blocker : TrackerBlocker) (initiator : Text)
    (type : ResourceType) :
    blocker.evaluateRequest url initiator type = blocker.evaluateRequest url' initiator type := by
  unfold evaluateRequest
  rw [hhost, hpath, ThirdPartyClassifier.classify_congr hhost]

/-- The verdict decides the decision. -/
theorem decision_evaluate_congr {db db' : RuleDatabase} {l l' : List ParsedRule}
    (h : db.Represents l) (h' : db'.Represents l') {q : Request}
    (hl : RulesBlock l q ↔ RulesBlock l' q) :
    (evaluate db q).decision = (evaluate db' q).decision := by
  have hiff : (evaluate db q).decision = .kBlock ↔ (evaluate db' q).decision = .kBlock := by
    rw [decision_evaluate h, decision_evaluate h', hl]
  cases hd : (evaluate db q).decision <;> cases hd' : (evaluate db' q).decision <;> simp_all

end TrackerBlocker

namespace TrackerBlocker

/-- Normative precedence. On every reachable database the blocker blocks exactly the
requests to a host to which no stored allow rule and some stored block rule applies. So the
decision is the same for every order of adding the same rules, the branch that allows a
tracker "by policy" is never taken, and an allow rule never turns Allow into Block. -/
theorem evaluate_precedence (ops : List RuleDatabase.Op) (q : Request) :
    ((evaluate (RuleDatabase.reached ops) q).decision = .kBlock
        ↔ q.host ≠ []
          ∧ (¬∃ r ∈ RuleDatabase.stored ops, r.ruleType = .kAllow ∧ Applies r q)
          ∧ ∃ r ∈ RuleDatabase.stored ops, r.ruleType = .kBlock ∧ Applies r q)
      ∧ (∀ rules rules' : List ParsedRule, rules.Perm rules' →
          (RuleDatabase.reached ops).ruleCount + rules.length ≤ 50000 →
          (evaluate (RuleDatabase.reached (ops ++ rules.map .addRule)) q).decision
            = (evaluate (RuleDatabase.reached (ops ++ rules'.map .addRule)) q).decision)
      ∧ (evaluate (RuleDatabase.reached ops) q).reason ≠ allowedByPolicyReason
      ∧ ∀ rule : ParsedRule, rule.ruleType = .kAllow →
          (evaluate (RuleDatabase.reached ops) q).decision = .kAllow →
          (evaluate (RuleDatabase.reached (ops ++ [.addRule rule])) q).decision = .kAllow := by
  have hrep := RuleDatabase.represents_reached
  refine ⟨decision_evaluate (hrep ops) q, fun rules rules' hperm hroom => ?_,
    reason_evaluate _ q, fun rule hallow hdecision => ?_⟩
  · refine decision_evaluate_congr (hrep _) (hrep _) (rulesBlock_perm ?_ q)
    rw [RuleDatabase.stored_append_addRule hroom,
      RuleDatabase.stored_append_addRule (hperm.length_eq ▸ hroom)]
    exact (hperm.filter _).append_left _
  · -- a block after the addition would be a block before it
    have hlog := RuleDatabase.stored_concat ops (.addRule rule)
    have hsucc : ∀ r ∈ (RuleDatabase.reached ops).successes [rule], r.ruleType = .kAllow :=
      fun r hr => List.mem_singleton.mp (RuleDatabase.successes_sublist _ _ |>.subset hr) ▸ hallow
    have hback : (evaluate (RuleDatabase.reached (ops ++ [.addRule rule])) q).decision = .kBlock →
        (evaluate (RuleDatabase.reached ops) q).decision = .kBlock := by
      rw [decision_evaluate (hrep _), decision_evaluate (hrep _), hlog]
      exact And.imp_right (RulesBlock.of_append_allow hsucc)
    cases hd : (evaluate (RuleDatabase.reached (ops ++ [.addRule rule])) q).decision with
    | kAllow => rfl
    | kBlock => exact absurd (hdecision.symm.trans (hback hd)) (by decide)

end TrackerBlocker
end ThoriumFrugal.Privacy

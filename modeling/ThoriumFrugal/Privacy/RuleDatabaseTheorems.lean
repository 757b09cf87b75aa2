import ThoriumFrugal.Privacy.RuleDatabase

/-!
# The rule database refines a list of rules

`LinearMatch` says when a rule matches a host and a path without any index. `Represents`
ties a database to the list of rules it stores; every call keeps the tie, and under it the
indexed lookups find exactly the stored rules a scan with `LinearMatch` finds.
-/

namespace ThoriumFrugal.Privacy

open Lib

namespace RuleDatabase

/-! ## Candidate domains -/

/-- The loop over the dots finds every label suffix, given enough rounds. -/
theorem parentDomains_eq {s : Text} {fuel pos : ℕ} (h : s.length ≤ pos + fuel) :
    parentDomains s fuel (Text.find s '.' pos) = Text.labelSuffixes (s.drop pos) := by
  induction fuel generalizing pos with
  | zero =>
    rw [List.drop_eq_nil_of_le (by omega), parentDomains]
    · rfl
    · simp
  | succ fuel ih =>
    by_cases hdot : '.' ∈ s.drop pos
    · -- `a` stands in front of the next dot, `b` behind it
      obtain ⟨a, b, hs, ha⟩ := List.eq_append_cons_of_mem hdot
      have hb : s.drop (pos + a.length + 1) = b := by
        rw [add_assoc, ← List.drop_drop, hs, ← List.drop_drop, List.drop_left]
        rfl
      have hlen : s.length = pos + a.length + 1 + b.length := by
        have := congrArg List.length hs
        simp only [List.length_drop, List.length_append, List.length_cons] at this
        omega
      rw [Text.find_of_drop_eq hs ha, parentDomains, ih (by omega), hb, hs,
        Text.labelSuffixes_append ha, Text.labelSuffixes]
      by_cases hnil : b = []
      · subst hnil
        rw [if_neg (by simp at hlen; omega), if_neg (by simp)]
        rfl
      · have := List.length_pos_iff.mpr hnil
        rw [if_pos (by omega), if_pos ⟨rfl, hnil⟩]
        simp [hnil]
    · rw [Text.find_of_not_mem_drop hdot, Text.labelSuffixes_of_not_mem hdot, parentDomains]
      simp

@[simp] theorem generateCandidateDomains_nil : generateCandidateDomains [] = [] := rfl

theorem generateCandidateDomains_of_ne_nil {host : Text} (h : host ≠ []) :
    generateCandidateDomains host
      = normalizeHost host :: Text.labelSuffixes (normalizeHost host) := by
  rw [generateCandidateDomains, if_neg h]
  simp only [parentDomains_eq (Nat.le_add_left _ 0), List.drop_zero]

theorem nodup_generateCandidateDomains (host : Text) :
    (generateCandidateDomains host).Nodup := by
  by_cases h : host = []
  · subst h
    exact List.nodup_nil
  · rw [generateCandidateDomains_of_ne_nil h]
    exact Text.nodup_cons_labelSuffixes _

/-- Which bucket keys the lookup accepts: the host itself, and its label suffixes for a
rule that matches subdomains. -/
theorem candidate_iff {key host : Text} (hkey : key ≠ []) (sub : Bool) :
    (key ∈ generateCandidateDomains host
        ∧ ((generateCandidateDomains host).head? = some key ∨ sub = true))
      ↔ (normalizeHost host = key ∨ (sub = true ∧ ('.' :: key) <:+ normalizeHost host)) := by
  by_cases h : host = []
  · subst h
    have hnil : normalizeHost [] = [] := rfl
    simp [hnil, Ne.symm hkey]
  · rw [generateCandidateDomains_of_ne_nil h]
    simp only [List.mem_cons, Text.mem_labelSuffixes, List.head?_cons, Option.some.injEq]
    constructor
    · rintro ⟨rfl | ⟨-, hs⟩, hh | hsub⟩
      · exact Or.inl rfl
      · exact Or.inl rfl
      · exact Or.inl hh
      · exact Or.inr ⟨hsub, hs⟩
    · rintro (rfl | ⟨hsub, hs⟩)
      · exact ⟨Or.inl rfl, Or.inl rfl⟩
      · exact ⟨Or.inr ⟨hkey, hs⟩, Or.inr hsub⟩

/-! ## Lookup by linear scan -/

/-- The domain part of a match: the rule has no domain, names the host, or names a parent
of the host and matches subdomains. -/
def DomainMatch (rule : ParsedRule) (host : Text) : Prop :=
  rule.domainPattern = []
    ∨ Text.dropFinalDot (Text.toLower host) = Text.toLower rule.domainPattern
    ∨ (rule.matchSubdomains = true
      ∧ ('.' :: Text.toLower rule.domainPattern) <:+ Text.dropFinalDot (Text.toLower host))

/-- When a rule matches a host and a path. -/
def LinearMatch (rule : ParsedRule) (host path : Text) : Prop :=
  DomainMatch rule host ∧ rule.pathPattern <:+: path

instance (rule : ParsedRule) (host : Text) : Decidable (DomainMatch rule host) :=
  inferInstanceAs (Decidable (_ ∨ _ ∨ _))

instance (rule : ParsedRule) (host path : Text) : Decidable (LinearMatch rule host path) :=
  inferInstanceAs (Decidable (_ ∧ _))

theorem matchesPathAndOptions_iff {rule : ParsedRule} {path : Text} :
    matchesPathAndOptions rule path = true ↔ rule.pathPattern <:+: path := by
  unfold matchesPathAndOptions
  split
  · exact Text.findStr_isSome_iff
  · next h => simp [not_not.mp h]

theorem domainKey_ne_nil {rule : ParsedRule} : domainKey rule ≠ [] ↔ rule.domainPattern ≠ [] :=
  Text.toLower_eq_nil.not

/-- A lookup in an index and a list of the domain-less rules of `l` finds what a scan of `l`
finds, each rule as often. -/
theorem findMatchingRules_perm {index : Multimap Text ParsedRule} {generic l : List ParsedRule}
    (hindex : index.Indexes domainKey (l.filter (·.domainPattern ≠ [])))
    (hgeneric : generic = l.filter (·.domainPattern = [])) (host path : Text) :
    (findMatchingRules index generic host path).Perm (l.filter (LinearMatch · host path)) := by
  have hprobe := hindex.probe_perm (nodup_generateCandidateDomains host) fun domain rule =>
    ((generateCandidateDomains host).head? = some domain || rule.matchSubdomains)
      && matchesPathAndOptions rule path
  rw [List.filter_filter] at hprobe
  -- rules with a domain come from the buckets, the others from the generic list
  have hsplit : (l.filter (LinearMatch · host path)) = l.filter fun r =>
      (decide (LinearMatch r host path) && decide (r.domainPattern ≠ []))
        || (matchesPathAndOptions r path && decide (r.domainPattern = [])) := by
    refine List.filter_congr fun r _ => Bool.eq_iff_iff.mpr ?_
    by_cases hr : r.domainPattern = []
    · simp [hr, LinearMatch, DomainMatch, matchesPathAndOptions_iff]
    · simp [hr]
  rw [hsplit]
  refine List.Perm.trans (List.Perm.append ?_ ?_) (Multimap.filter_or_perm ?_ l).symm
  · refine List.Perm.trans hprobe (List.Perm.of_eq (List.filter_congr fun r _ => ?_))
    -- behind a non-empty domain, the probed buckets are those of `DomainMatch`
    refine Bool.eq_iff_iff.mpr ?_
    by_cases hr : r.domainPattern = []
    · simp [hr]
    · have hc := @candidate_iff (domainKey r) host (domainKey_ne_nil.mpr hr) r.matchSubdomains
      simp only [hr, Bool.and_eq_true, decide_eq_true_eq, Bool.or_eq_true, LinearMatch,
        DomainMatch, matchesPathAndOptions_iff, ne_eq, not_false_eq_true, and_true, false_or,
        ← and_assoc]
      exact and_congr_left fun _ => hc
  · rw [hgeneric, List.filter_filter]
  · intro r hr
    simp only [Bool.and_eq_true, decide_eq_true_eq] at hr
    simp [hr.2]

/-! ## The stored rules -/

/-- `db` stores exactly the rules `l`, in the order they were added. -/
structure Represents (db : RuleDatabase) (l : List ParsedRule) : Prop where
  index : ∀ t, (db.index t).Indexes domainKey
    (l.filter fun r => r.ruleType = t ∧ r.domainPattern ≠ [])
  generic : ∀ t, db.generic t = l.filter fun r => r.ruleType = t ∧ r.domainPattern = []
  total : db.totalRules = l.length
  valid : ∀ r ∈ l, r.isValid = true
  bound : l.length ≤ maxRules

theorem represents_empty : Represents {} [] where
  index := by rintro (_ | _) <;> exact Multimap.indexes_empty domainKey
  generic := by rintro (_ | _) <;> rfl
  total := rfl
  valid := by simp
  bound := by simp

section

variable {db : RuleDatabase} {l : List ParsedRule}

theorem addRule_eq (db : RuleDatabase) (rule : ParsedRule) :
    db.addRule rule = if rule.isValid = true ∧ db.totalRules < maxRules
      then (true, db.storeRule rule) else (false, db) := by
  unfold addRule
  by_cases hv : rule.isValid = true
  · by_cases ht : db.totalRules < maxRules
    · simp [hv, ht]
    · simp [hv, ht]
  · simp [hv]

/-- Storing a rule touches the index of its type, and only if the rule has a domain. -/
theorem index_storeRule (db : RuleDatabase) (rule : ParsedRule) (t : RuleType) :
    (db.storeRule rule).index t = if rule.ruleType = t ∧ rule.domainPattern ≠ []
      then (db.index t).push (domainKey rule) rule else db.index t := by
  have hkey := @domainKey_ne_nil rule
  unfold storeRule
  by_cases hd : rule.domainPattern = []
  · cases hr : rule.ruleType <;> cases t <;> simp [index, hkey, hd]
  · cases hr : rule.ruleType <;> cases t <;> simp [index, hkey, hd]

theorem generic_storeRule (db : RuleDatabase) (rule : ParsedRule) (t : RuleType) :
    (db.storeRule rule).generic t = if rule.ruleType = t ∧ rule.domainPattern = []
      then db.generic t ++ [rule] else db.generic t := by
  have hkey := @domainKey_ne_nil rule
  unfold storeRule
  by_cases hd : rule.domainPattern = []
  · cases hr : rule.ruleType <;> cases t <;> simp [generic, hkey, hd]
  · cases hr : rule.ruleType <;> cases t <;> simp [generic, hkey, hd]

theorem totalRules_storeRule (db : RuleDatabase) (rule : ParsedRule) :
    (db.storeRule rule).totalRules = db.totalRules + 1 := by
  unfold storeRule
  cases rule.ruleType <;> by_cases hd : domainKey rule = [] <;> simp [hd]

theorem Represents.storeRule (h : Represents db l) {rule : ParsedRule}
    (hvalid : rule.isValid = true) (hroom : l.length < maxRules) :
    Represents (db.storeRule rule) (l ++ [rule]) where
  index t := by
    rw [index_storeRule, List.filter_append]
    split
    · next hr => simpa [hr.1, hr.2] using (h.index t).push rule
    · next hr => simpa [List.filter_cons, hr] using h.index t
  generic t := by
    rw [generic_storeRule, List.filter_append, h.generic t]
    split
    · next hr => simp [hr.1, hr.2]
    · next hr => simp [hr]
  total := by rw [totalRules_storeRule, h.total, List.length_append, List.length_singleton]
  valid := by
    simp only [List.mem_append, List.mem_singleton]
    rintro r (hr | rfl)
    · exact h.valid r hr
    · exact hvalid
  bound := by simpa using hroom

/-- An addition appends the rule to the stored ones if it succeeds. -/
theorem Represents.addRule (h : Represents db l) (rule : ParsedRule) :
    Represents (db.addRule rule).2 (l ++ db.successes [rule]) := by
  simp only [successes]
  rw [addRule_eq, h.total]
  split
  · next hr => exact h.storeRule hr.1 hr.2
  · simpa using h

theorem successes_cons (db : RuleDatabase) (r : ParsedRule) (rs : List ParsedRule) :
    db.successes (r :: rs) = db.successes [r] ++ (db.addRule r).2.successes rs := by
  simp only [successes]
  split <;> rfl

/-- The loop of `LoadFromText` counts the additions that succeed, and stores them. -/
theorem Represents.loadRules (h : Represents db l) (rules : List ParsedRule) :
    (db.loadRules rules).1 = (db.successes rules).length
      ∧ Represents (db.loadRules rules).2 (l ++ db.successes rules) := by
  -- the loop from any count
  obtain ⟨f, hf, hload⟩ : ∃ f : ℕ × RuleDatabase → ParsedRule → ℕ × RuleDatabase,
      (∀ n db r, f (n, db) r = (if (db.addRule r).1 then n + 1 else n, (db.addRule r).2))
        ∧ db.loadRules rules = rules.foldl f (0, db) := ⟨_, fun _ _ _ => rfl, rfl⟩
  suffices hloop : ∀ n, (rules.foldl f (n, db)).1 = n + (db.successes rules).length
      ∧ Represents (rules.foldl f (n, db)).2 (l ++ db.successes rules) by
    rw [hload]
    simpa using hloop 0
  clear hload
  induction rules generalizing db l with
  | nil => simpa [successes] using h
  | cons r rs ih =>
    intro n
    obtain ⟨hcount, hrep⟩ := ih (h.addRule r) (if (db.addRule r).1 then n + 1 else n)
    rw [List.foldl_cons, hf, successes_cons, ← List.append_assoc]
    refine ⟨hcount.trans ?_, hrep⟩
    rw [List.length_append]
    simp only [successes]
    split <;> simp [add_assoc]

theorem Represents.apply (h : Represents db l) (op : Op) :
    Represents (db.apply op) (db.log l op) := by
  cases op with
  | addRule rule => exact h.addRule rule
  | loadFromText textContent => exact (h.loadRules _).2
  | clear => exact represents_empty

end

/-- The log runs along with the database. -/
theorem run_loggedStep_fst (ops : List Op) : (run loggedStep ({}, []) ops).1 = reached ops := by
  induction ops using List.reverseRecOn with
  | nil => rfl
  | append_singleton ops op ih =>
    rw [reached, run_concat, run_concat]
    exact congrArg (RuleDatabase.apply · op) ih

theorem stored_concat (ops : List Op) (op : Op) :
    stored (ops ++ [op]) = (reached ops).log (stored ops) op := by
  rw [← run_loggedStep_fst, stored, run_concat]
  rfl

theorem reached_concat (ops : List Op) (op : Op) :
    reached (ops ++ [op]) = (reached ops).apply op :=
  run_concat ..

/-- After any sequence of calls the database stores the rules of the log. -/
theorem represents_reached (ops : List Op) : Represents (reached ops) (stored ops) := by
  induction ops using List.reverseRecOn with
  | nil => exact represents_empty
  | append_singleton ops op ih =>
    rw [stored_concat, reached_concat]
    exact ih.apply op

/-! ## Adding rules one by one -/

theorem successes_sublist (db : RuleDatabase) (rules : List ParsedRule) :
    (db.successes rules).Sublist rules := by
  induction rules generalizing db with
  | nil => exact List.Sublist.slnil
  | cons r rs ih =>
    simp only [successes]
    split
    · exact (ih _).cons_cons r
    · exact (ih _).cons r

theorem successes_singleton {db : RuleDatabase} (h : db.totalRules < maxRules)
    (rule : ParsedRule) : db.successes [rule] = [rule].filter (·.isValid) := by
  simp only [successes, addRule_eq, h, and_true, List.filter_cons, List.filter_nil]
  cases rule.isValid <;> rfl

/-- While there is room, adding rules stores the valid ones. -/
theorem stored_append_addRule {ops : List Op} {rules : List ParsedRule}
    (hroom : (reached ops).ruleCount + rules.length ≤ maxRules) :
    stored (ops ++ rules.map .addRule) = stored ops ++ rules.filter (·.isValid) := by
  induction rules generalizing ops with
  | nil => simp
  | cons r rs ih =>
    rw [List.length_cons] at hroom
    have htotal : ∀ ops, (reached ops).ruleCount = (stored ops).length :=
      fun ops => (represents_reached ops).total
    -- there is room for the first rule, so only its validity counts
    have hone : stored (ops ++ [.addRule r]) = stored ops ++ [r].filter (·.isValid) := by
      rw [stored_concat]
      exact congrArg (stored ops ++ ·)
        (successes_singleton (by change (reached ops).ruleCount < _; omega) r)
    have hrest := @ih (ops ++ [.addRule r]) (by
      have := List.length_filter_le (·.isValid) [r]
      rw [htotal] at hroom
      rw [htotal, hone, List.length_append]
      simp only [List.length_cons, List.length_nil] at this
      omega)
    rw [List.map_cons, ← List.singleton_append, ← List.append_assoc, hrest, hone,
      List.append_assoc, ← List.filter_append, List.singleton_append]

/-! ## The lookups -/

section

variable {db : RuleDatabase} {l : List ParsedRule}

/-- The lookup of a rule type finds the stored rules of that type that match, each as often
as it is stored. -/
theorem Represents.findMatchingRules_perm (h : Represents db l) (t : RuleType)
    (host path : Text) :
    (findMatchingRules (db.index t) (db.generic t) host path).Perm
      (l.filter fun r => r.ruleType = t ∧ LinearMatch r host path) := by
  have hfilter : (l.filter fun r => r.ruleType = t ∧ LinearMatch r host path)
      = (l.filter (·.ruleType = t)).filter (LinearMatch · host path) := by
    rw [List.filter_filter]
    exact List.filter_congr fun r _ => by simp [Bool.and_comm]
  rw [hfilter]
  refine RuleDatabase.findMatchingRules_perm ?_ ?_ host path
  · simpa [List.filter_filter, Bool.and_comm] using h.index t
  · simpa [List.filter_filter, Bool.and_comm] using h.generic t

theorem Represents.findMatchingAllowRules_perm (h : Represents db l) (host path : Text) :
    (db.findMatchingAllowRules host path).Perm
      (l.filter fun r => r.ruleType = .kAllow ∧ LinearMatch r host path) :=
  h.findMatchingRules_perm .kAllow host path

theorem Represents.findMatchingBlockRules_perm (h : Represents db l) (host path : Text) :
    (db.findMatchingBlockRules host path).Perm
      (l.filter fun r => r.ruleType = .kBlock ∧ LinearMatch r host path) :=
  h.findMatchingRules_perm .kBlock host path

/-- A host is a known tracker exactly when a stored block rule with a domain matches it. -/
theorem Represents.isKnownTrackerHost_iff (h : Represents db l) (host : Text) :
    db.isKnownTrackerHost host = true
      ↔ ∃ r ∈ l, r.ruleType = .kBlock ∧ r.domainPattern ≠ [] ∧ DomainMatch r host := by
  have hindex := h.index .kBlock
  unfold isKnownTrackerHost
  simp only [List.any_eq_true, Bool.or_eq_true, decide_eq_true_eq]
  constructor
  · rintro ⟨key, hkey, r, hr, hsub⟩
    rw [show db.blockRulesByDomain = db.index .kBlock from rfl, hindex key] at hr
    simp only [List.mem_filter, decide_eq_true_eq] at hr
    obtain ⟨⟨hrl, hblock, hdomain⟩, rfl⟩ := hr
    exact ⟨r, hrl, hblock, hdomain,
      Or.inr ((candidate_iff (domainKey_ne_nil.mpr hdomain) _).mp ⟨hkey, hsub⟩)⟩
  · rintro ⟨r, hrl, hblock, hdomain, hmatch⟩
    obtain ⟨hkey, hsub⟩ := (candidate_iff (domainKey_ne_nil.mpr hdomain) r.matchSubdomains).mpr
      (hmatch.resolve_left hdomain)
    refine ⟨domainKey r, hkey, r, ?_, hsub⟩
    rw [show db.blockRulesByDomain = db.index .kBlock from rfl, hindex]
    simp [hrl, hblock, hdomain]

end

/-- Indexed lookup is a linear scan: whatever calls built the database, each lookup returns
the successfully added rules of its type that match, each as often as it was added. -/
theorem find_perm_linear_scan (ops : List Op) (host path : Text) :
    ((reached ops).findMatchingBlockRules host path).Perm
        ((stored ops).filter fun r => r.ruleType = .kBlock ∧ LinearMatch r host path)
      ∧ ((reached ops).findMatchingAllowRules host path).Perm
        ((stored ops).filter fun r => r.ruleType = .kAllow ∧ LinearMatch r host path) :=
  ⟨(represents_reached ops).findMatchingBlockRules_perm host path,
    (represents_reached ops).findMatchingAllowRules_perm host path⟩

end RuleDatabase
end ThoriumFrugal.Privacy

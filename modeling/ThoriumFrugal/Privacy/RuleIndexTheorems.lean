import ThoriumFrugal.Privacy.RuleDatabaseTheorems
import ThoriumFrugal.Privacy.StepwiseRules

/-!
# The indexes of the rule database and their keys

What the lookups rely on. The keys they probe are the ones a host should have: `CandidateList` says
which, and determines them. The containers they read hold what their keys and types say, and
`RuleCount` counts them: `Consistent`, in every database that calls build. What a call adds to
the containers is `Adds`.
-/

namespace ThoriumFrugal.Privacy

open Lib

namespace RuleDatabase

/-! ## Candidate domains -/

/-- The candidate domains a host should have: none for the empty host, otherwise the host in
lower case without one trailing dot, and behind it the non-empty texts that follow a dot of
it, longer ones first. -/
def CandidateList (host : Text) : List Text → Prop
  | [] => host = []
  | name :: parents => host ≠ [] ∧ name = Text.dropFinalDot (Text.toLower host)
      ∧ (∀ parent, parent ∈ parents ↔ parent ≠ [] ∧ ('.' :: parent) <:+ name)
      ∧ (name :: parents).Pairwise fun longer shorter => shorter.length < longer.length

theorem candidateList_iff {host : Text} {candidates : List Text} :
    CandidateList host candidates ↔ candidates = generateCandidateDomains host := by
  by_cases hhost : host = []
  · subst hhost
    cases candidates with
    | nil => simp [CandidateList]
    | cons name parents => simp [CandidateList]
  · rw [generateCandidateDomains_of_ne_nil hhost]
    cases candidates with
    | nil => simp [CandidateList, hhost]
    | cons name parents =>
      rw [CandidateList, List.cons.injEq, Text.eq_labelSuffixes_iff, List.pairwise_cons]
      constructor
      · intro ⟨_, hname, hmem, _, horder⟩
        subst hname
        exact ⟨rfl, hmem, horder⟩
      · intro ⟨hname, hmem, horder⟩
        subst hname
        -- a parent is shorter by its dot at least
        have hshorter : ∀ parent ∈ parents, parent.length < (normalizeHost host).length := by
          intro parent hparent
          have := ((hmem parent).mp hparent).2.length_le
          simpa using this
        exact ⟨hhost, rfl, hmem, hshorter, horder⟩

/-- The loop over the dots ends on every host, and the candidates are the right ones. -/
theorem generateCandidateDomains_exact (host : Text) :
    Stepwise.generateCandidateDomains host = .ok (generateCandidateDomains host)
      ∧ (∀ candidates, CandidateList host candidates
          ↔ candidates = generateCandidateDomains host)
      ∧ (generateCandidateDomains host).Nodup :=
  ⟨Stepwise.generateCandidateDomains_ok host, fun _ => candidateList_iff,
    nodup_generateCandidateDomains host⟩

/-- Dots in front, doubled dots and two dots at the end. -/
example : (generateCandidateDomains ".A..b..".toList).map String.ofList
    = [".a..b.", "a..b.", ".b.", "b."] := by decide

/-! ## The containers -/

/-- The number of rules in the four containers. -/
def containedRules (db : RuleDatabase) : ℕ :=
  db.allowRulesByDomain.items.length + db.blockRulesByDomain.items.length
    + db.genericAllowRules.length + db.genericBlockRules.length

/-- The counter counts the rules, within the capacity, and each container holds rules of its
type: under their domains in lower case, or without a domain. -/
structure Consistent (db : RuleDatabase) : Prop where
  count : db.ruleCount = db.containedRules
  bound : db.ruleCount ≤ maxRules
  index : ∀ t key rules, (db.index t).lookup key = some rules →
    ∀ r ∈ rules, Text.toLower r.domainPattern = key ∧ r.ruleType = t
  generic : ∀ t, ∀ r ∈ db.generic t, r.domainPattern = [] ∧ r.ruleType = t

/-- `db'` holds what `db` holds and behind it the rules `added`, each in its container. -/
structure Adds (db db' : RuleDatabase) (added : List ParsedRule) : Prop where
  index : ∀ t key, (db'.index t).bucket key = (db.index t).bucket key
    ++ added.filter fun r => r.ruleType = t ∧ r.domainPattern ≠ [] ∧ domainKey r = key
  generic : ∀ t, db'.generic t = db.generic t
    ++ added.filter fun r => r.ruleType = t ∧ r.domainPattern = []
  count : db'.ruleCount = db.ruleCount + added.length

/-- Type and domain send every rule to one of four places. -/
theorem length_by_container (l : List ParsedRule) :
    (l.filter fun r => r.ruleType = .kAllow ∧ r.domainPattern ≠ []).length
      + (l.filter fun r => r.ruleType = .kBlock ∧ r.domainPattern ≠ []).length
      + (l.filter fun r => r.ruleType = .kAllow ∧ r.domainPattern = []).length
      + (l.filter fun r => r.ruleType = .kBlock ∧ r.domainPattern = []).length = l.length := by
  induction l with
  | nil => rfl
  | cons r l ih =>
    simp only [ne_eq, Bool.decide_and, decide_not] at ih
    by_cases hdomain : r.domainPattern = []
    · cases htype : r.ruleType <;> simp [hdomain, htype] <;> omega
    · cases htype : r.ruleType <;> simp [hdomain, htype] <;> omega

section

variable {db db' : RuleDatabase} {l added : List ParsedRule}

theorem Represents.containedRules_eq (h : Represents db l) : db.containedRules = l.length := by
  have hallow := (h.index .kAllow).items_perm.length_eq
  have hblock := (h.index .kBlock).items_perm.length_eq
  have hgenericAllow := congrArg List.length (h.generic .kAllow)
  have hgenericBlock := congrArg List.length (h.generic .kBlock)
  have htotal := length_by_container l
  simp only [RuleDatabase.index, RuleDatabase.generic] at hallow hblock hgenericAllow hgenericBlock
  unfold containedRules
  omega

theorem Represents.consistent (h : Represents db l) : Consistent db where
  count := by rw [h.containedRules_eq, ruleCount, h.total]
  bound := by
    rw [ruleCount, h.total]
    exact h.bound
  index := by
    intro t key rules hrules r hr
    rw [← Multimap.bucket_of_lookup hrules, h.index t key] at hr
    simp only [List.mem_filter, decide_eq_true_eq] at hr
    exact ⟨hr.2, hr.1.2.1⟩
  generic := by
    intro t r hr
    rw [h.generic t] at hr
    simp only [List.mem_filter, decide_eq_true_eq] at hr
    exact ⟨hr.2.2, hr.2.1⟩

theorem Represents.adds (h : Represents db l) (h' : Represents db' (l ++ added)) :
    Adds db db' added where
  index := by
    intro t key
    rw [h'.index t key, h.index t key, List.filter_append, List.filter_append]
    congr 1
    rw [List.filter_filter]
    refine List.filter_congr fun r _ => ?_
    rw [← Bool.decide_and]
    exact decide_eq_decide.mpr (by tauto)
  generic := by
    intro t
    rw [h'.generic t, h.generic t, List.filter_append]
  count := by rw [ruleCount, ruleCount, h'.total, h.total, List.length_append]

/-- Of valid rules, as many are added as there is room for. -/
theorem successes_eq_take {rules : List ParsedRule} (hvalid : ∀ r ∈ rules, r.isValid = true) :
    db.successes rules = rules.take (maxRules - db.totalRules) := by
  induction rules generalizing db with
  | nil => rw [List.take_nil, successes]
  | cons r rs ih =>
    have hr : r.isValid = true := hvalid r List.mem_cons_self
    have hrs : ∀ r ∈ rs, r.isValid = true := fun r h => hvalid r (List.mem_cons_of_mem _ h)
    by_cases hroom : db.totalRules < maxRules
    · have hadd : db.addRule r = (true, db.storeRule r) := by rw [addRule_eq, if_pos ⟨hr, hroom⟩]
      have hleft : maxRules - db.totalRules = maxRules - (db.totalRules + 1) + 1 := by omega
      rw [hleft, List.take_succ_cons, ← totalRules_storeRule db r, ← ih hrs]
      simp only [successes, hadd, if_true]
    · -- a full database stays as it is
      have hadd : db.addRule r = (false, db) := by
        rw [addRule_eq, if_neg (fun h => hroom h.2)]
      have hfull : maxRules - db.totalRules = 0 := by omega
      have hrest := @ih db hrs
      rw [hfull, List.take_zero] at hrest ⊢
      simpa only [successes, hadd, Bool.false_eq_true, if_false] using hrest

/-- Loading a text adds its first rules, up to the capacity, and returns their number. -/
theorem Represents.loadFromText (h : Represents db l) (textContent : Text) :
    ∃ added, added <+: RuleParser.parseText textContent
      ∧ (db.loadFromText textContent).1 = added.length
      ∧ Adds db (db.loadFromText textContent).2 added := by
  obtain ⟨hcount, hload⟩ := h.loadRules (RuleParser.parseText textContent)
  refine ⟨_, ?_, hcount, h.adds hload⟩
  rw [successes_eq_take fun r hr => RuleParser.isValid_of_mem_parseText hr]
  exact List.take_prefix _ _

theorem addRule_of_refused {rule : ParsedRule} (h : (db.addRule rule).1 = false) :
    (db.addRule rule).2 = db := by
  rw [addRule_eq] at h ⊢
  split at h
  · next hadded => simp at h
  · next hrefused => rw [if_neg hrefused]

end

/-- In every database that calls build the counter and the containers agree, a refused rule
leaves no trace, and a load adds the first of its rules, as many as it says. -/
theorem consistent_reached (ops : List Op) :
    Consistent (reached ops)
      ∧ (∀ rule, ((reached ops).addRule rule).1 = false →
          ((reached ops).addRule rule).2 = reached ops)
      ∧ ∀ textContent, ∃ added, added <+: RuleParser.parseText textContent
          ∧ Adds (reached ops) ((reached ops).loadFromText textContent).2 added
          ∧ (reached ops).ruleCount + ((reached ops).loadFromText textContent).1
            = ((reached ops).loadFromText textContent).2.ruleCount := by
  have hrep := represents_reached ops
  refine ⟨hrep.consistent, fun rule => addRule_of_refused, fun textContent => ?_⟩
  obtain ⟨added, hfirst, hcount, hadds⟩ := hrep.loadFromText textContent
  exact ⟨added, hfirst, hadds, by rw [hcount, hadds.count]⟩

end RuleDatabase
end ThoriumFrugal.Privacy

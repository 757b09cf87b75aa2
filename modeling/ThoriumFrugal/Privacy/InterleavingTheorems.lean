import ThoriumFrugal.Privacy.TrackerBlockerTheorems

/-!
# An evaluation among updates

Each method of the database holds its lock to its end, so it is one step; an evaluation takes
three of them, and another party may update the database in between. `evaluateAcross` is the
evaluation with a database of its own for each lookup. The decision mixes the allow rules of
one moment with the block rules of a later one.
-/

namespace ThoriumFrugal.Privacy

open Lib

namespace TrackerBlocker

/-! ## The evaluation -/

/-- The two loops, with a lookup in `dbAllow` and, if it is not settled, one in `dbBlock`. -/
def applyRulesAcross (dbAllow dbBlock : RuleDatabase) (result : PrivacyEvaluationResult)
    (host path : Text) (resourceType : ResourceType) : PrivacyEvaluationResult :=
  match firstApplied resourceType result.partyContext
      (dbAllow.findMatchingAllowRules host path) with
  | some rule => allowedBy result rule
  | none =>
    match firstApplied resourceType result.partyContext
        (dbBlock.findMatchingBlockRules host path) with
    | some rule => blockedBy result rule
    | none => result

/-- `EvaluateRequest` whose three lookups find three databases. -/
def evaluateAcross (dbKnown dbAllow dbBlock : RuleDatabase) (q : Request) :
    PrivacyEvaluationResult :=
  let result : PrivacyEvaluationResult :=
    { decision := .kAllow
      partyContext := q.party
      classification := .kNotTracker }
  if q.host = [] then result
  else
    let result :=
      if dbKnown.isKnownTrackerHost q.host then
        { result with classification := .kKnownTracker }
      else result
    applyRulesAcross dbAllow dbBlock result q.host q.path q.resourceType

theorem applyRulesAcross_self (db : RuleDatabase) (result : PrivacyEvaluationResult)
    (host path : Text) (type : ResourceType) :
    applyRulesAcross db db result host path type = applyRules db result host path type := by
  unfold applyRulesAcross applyRules
  rfl

/-- Without updates in between it is the evaluation of one database. -/
theorem evaluateAcross_self (db : RuleDatabase) (q : Request) :
    evaluateAcross db db db q = evaluate db q := by
  unfold evaluateAcross
  simp only [applyRulesAcross_self]
  rfl

end TrackerBlocker

/-! ## The rules that apply -/

/-- Some allow rule of the list applies. -/
def AllowApplies (l : List ParsedRule) (q : Request) : Prop :=
  ∃ r ∈ l, r.ruleType = .kAllow ∧ Applies r q

/-- Some block rule of the list applies. -/
def BlockApplies (l : List ParsedRule) (q : Request) : Prop :=
  ∃ r ∈ l, r.ruleType = .kBlock ∧ Applies r q

theorem rulesBlock_iff {l : List ParsedRule} {q : Request} :
    RulesBlock l q ↔ ¬AllowApplies l q ∧ BlockApplies l q := Iff.rfl

namespace TrackerBlocker

/-- The decision of the two loops on a result that so far allows. -/
theorem decision_applyRulesAcross {dbAllow dbBlock : RuleDatabase}
    {result : PrivacyEvaluationResult} (hresult : result.decision = .kAllow) (host path : Text)
    (type : ResourceType) :
    (applyRulesAcross dbAllow dbBlock result host path type).decision = .kBlock
      ↔ (¬∃ r ∈ dbAllow.findMatchingAllowRules host path,
            OptionsMatch r result.partyContext type)
        ∧ ∃ r ∈ dbBlock.findMatchingBlockRules host path,
          OptionsMatch r result.partyContext type := by
  unfold applyRulesAcross
  cases hallow : firstApplied type result.partyContext
      (dbAllow.findMatchingAllowRules host path) with
  | some r =>
    exact iff_of_false (by simp [allowedBy]) fun h => h.1 ⟨r, optionsMatch_of_firstApplied hallow⟩
  | none =>
    have hnone := firstApplied_eq_none_iff.mp hallow
    cases hblock : firstApplied type result.partyContext
        (dbBlock.findMatchingBlockRules host path) with
    | some r =>
      obtain ⟨hr, hmatch⟩ := optionsMatch_of_firstApplied hblock
      have hparty := not_allowedByPolicy hmatch
      refine iff_of_true ?_ ⟨hnone, r, hr, hmatch⟩
      simp only [blockedBy, hparty, if_true]
    | none => exact iff_of_false (by simp [hresult]) fun h => firstApplied_eq_none_iff.mp hblock h.2

/-- The decision is made by the allow rules of the second lookup and the block rules of the
third. -/
theorem decision_evaluateAcross (dbKnown : RuleDatabase) {dbAllow dbBlock : RuleDatabase}
    {lAllow lBlock : List ParsedRule} (hallow : dbAllow.Represents lAllow)
    (hblock : dbBlock.Represents lBlock) (q : Request) :
    (evaluateAcross dbKnown dbAllow dbBlock q).decision = .kBlock
      ↔ q.host ≠ [] ∧ ¬AllowApplies lAllow q ∧ BlockApplies lBlock q := by
  by_cases hhost : q.host = []
  · unfold evaluateAcross
    rw [if_pos hhost]
    simp [hhost]
  · obtain ⟨result, hresult, hparty, heval⟩ : ∃ result : PrivacyEvaluationResult,
        result.decision = .kAllow ∧ result.partyContext = q.party
        ∧ evaluateAcross dbKnown dbAllow dbBlock q
          = applyRulesAcross dbAllow dbBlock result q.host q.path q.resourceType := by
      refine ⟨_, ?_, ?_, if_neg hhost⟩
      · split <;> rfl
      · split <;> rfl
    rw [heval, decision_applyRulesAcross hresult, hparty]
    simp only [(hallow.findMatchingAllowRules_perm q.host q.path).mem_iff,
      (hblock.findMatchingBlockRules_perm q.host q.path).mem_iff, List.mem_filter,
      decide_eq_true_eq, and_assoc, ne_eq, hhost, not_false_eq_true, true_and, AllowApplies,
      BlockApplies, Applies]

end TrackerBlocker

/-! ## Interleavings -/

/-- An update that is one step. -/
inductive Update
  | addRule (rule : ParsedRule)
  | clear

namespace Update

/-- The call on the database that makes the update. -/
def toOp : Update → RuleDatabase.Op
  | .addRule rule => .addRule rule
  | .clear => .clear

/-- The steps that `LoadFromText` consists of. -/
def ofText (textContent : Text) : List Update :=
  (RuleParser.parseText textContent).map .addRule

theorem run_ofText (db : RuleDatabase) (textContent : Text) :
    run RuleDatabase.apply db ((ofText textContent).map toOp)
      = db.apply (.loadFromText textContent) := by
  -- the loop of `LoadFromText`, which carries a count along
  obtain ⟨f, hf, hload⟩ : ∃ f : ℕ × RuleDatabase → ParsedRule → ℕ × RuleDatabase,
      (∀ n db r, (f (n, db) r).2 = (db.addRule r).2)
        ∧ db.apply (.loadFromText textContent)
          = ((RuleParser.parseText textContent).foldl f (0, db)).2 := ⟨_, fun _ _ _ => rfl, rfl⟩
  rw [hload, ofText]
  clear hload
  generalize RuleParser.parseText textContent = rules
  generalize (0 : ℕ) = loaded
  induction rules generalizing db loaded with
  | nil => rfl
  | cons r rs ih =>
    have hround : f (loaded, db) r = ((f (loaded, db) r).1, (db.addRule r).2) :=
      Prod.ext rfl (hf loaded db r)
    rw [List.foldl_cons, hround, ← ih]
    rfl

end Update

/-- One evaluation among updates: the calls before its first lookup, the updates between the
first and the second, and those between the second and the third. -/
structure Interleaving where
  before : List RuleDatabase.Op
  untilAllow : List Update
  untilBlock : List Update

namespace Interleaving

/-- The calls up to the moment after the first `past` updates since the first lookup. -/
def opsAfter (i : Interleaving) (past : List Update) : List RuleDatabase.Op :=
  i.before ++ past.map Update.toOp

/-- The database after some updates. -/
def databaseAfter (i : Interleaving) (past : List Update) : RuleDatabase :=
  RuleDatabase.reached (i.opsAfter past)

/-- The rules stored at that moment. -/
def storedAfter (i : Interleaving) (past : List Update) : List ParsedRule :=
  RuleDatabase.stored (i.opsAfter past)

/-- The evaluation of a request whose lookups see the database at three moments. -/
def evaluate (i : Interleaving) (q : Request) : PrivacyEvaluationResult :=
  TrackerBlocker.evaluateAcross (i.databaseAfter []) (i.databaseAfter i.untilAllow)
    (i.databaseAfter (i.untilAllow ++ i.untilBlock)) q

/-- The updates between the first and the last lookup: there is no third one behind an allow
rule that applies, and none at all for a URL without a host. -/
def elapsed (i : Interleaving) (q : Request) : List Update :=
  if q.host = [] then []
  else if (TrackerBlocker.firstApplied q.resourceType q.party
      ((i.databaseAfter i.untilAllow).findMatchingAllowRules q.host q.path)).isSome then
    i.untilAllow
  else i.untilAllow ++ i.untilBlock

/-- Some database between the first and the last lookup gives the same decision. -/
def Linearizable (i : Interleaving) (q : Request) : Prop :=
  ∃ past, past <+: i.elapsed q
    ∧ (TrackerBlocker.evaluate (i.databaseAfter past) q).decision = (i.evaluate q).decision

/-! ## The rules between the lookups -/

variable {i : Interleaving} {q : Request} {past : List Update}

theorem represents_after (i : Interleaving) (past : List Update) :
    (i.databaseAfter past).Represents (i.storedAfter past) :=
  RuleDatabase.represents_reached _

theorem storedAfter_clear : i.storedAfter (past ++ [.clear]) = [] := by
  unfold storedAfter opsAfter
  rw [List.map_append, ← List.append_assoc]
  exact RuleDatabase.stored_concat _ _

theorem storedAfter_addRule (rule : ParsedRule) :
    i.storedAfter (past ++ [.addRule rule])
      = i.storedAfter past
        ++ if ((i.databaseAfter past).addRule rule).1 then [rule] else [] := by
  unfold storedAfter opsAfter
  rw [List.map_append, ← List.append_assoc]
  refine (RuleDatabase.stored_concat _ _).trans ?_
  simp only [RuleDatabase.log, RuleDatabase.successes, Update.toOp, databaseAfter, opsAfter]
  rfl

theorem allowApplies_append {l l' : List ParsedRule} :
    AllowApplies (l ++ l') q ↔ AllowApplies l q ∨ AllowApplies l' q := by
  unfold AllowApplies
  simp only [List.mem_append, or_and_right, exists_or]

theorem blockApplies_append {l l' : List ParsedRule} :
    BlockApplies (l ++ l') q ↔ BlockApplies l q ∨ BlockApplies l' q := by
  unfold BlockApplies
  simp only [List.mem_append, or_and_right, exists_or]

/-- Some update between the first and the last lookup stores a block rule that applies, while
no stored allow rule does. -/
def StoresBlockAlone (i : Interleaving) (q : Request) : Prop :=
  ∃ past rule rest, i.untilAllow ++ i.untilBlock = past ++ .addRule rule :: rest
    ∧ rule.ruleType = .kBlock ∧ Applies rule q
    ∧ ((i.databaseAfter past).addRule rule).1 = true ∧ ¬AllowApplies (i.storedAfter past) q

/-- The stored rules block the request at some moment between the lookups if they do at the
first one, or an update stores a block rule that no allow rule overrides. -/
theorem exists_rulesBlock_iff :
    (∃ past, past <+: i.untilAllow ++ i.untilBlock ∧ RulesBlock (i.storedAfter past) q)
      ↔ RulesBlock (i.storedAfter []) q ∨ i.StoresBlockAlone q := by
  constructor
  · intro h
    refine (exists_prefix_iff.mp h).imp_right ?_
    rintro ⟨past, update, rest, hsplit, hbefore, hnone, hblock⟩
    cases update with
    | clear =>
      rw [storedAfter_clear] at hblock
      obtain ⟨r, hr, -⟩ := hblock
      cases hr
    | addRule rule =>
      rw [storedAfter_addRule] at hnone hblock
      have hallow : ¬AllowApplies (i.storedAfter past) q :=
        fun h => hnone (allowApplies_append.mpr (.inl h))
      have hold : ¬BlockApplies (i.storedAfter past) q := fun h => hbefore ⟨hallow, h⟩
      -- so the rule that applies is the new one
      obtain ⟨r, hr, htype, happlies⟩ := (blockApplies_append.mp hblock).resolve_left hold
      split at hr
      · next hadded =>
        obtain rfl := List.mem_singleton.mp hr
        exact ⟨past, r, rest, hsplit, htype, happlies, hadded, hallow⟩
      · cases hr
  · rintro (hfirst | ⟨past, rule, rest, hsplit, htype, happlies, hadded, hallow⟩)
    · exact ⟨[], ⟨_, rfl⟩, hfirst⟩
    · refine ⟨past ++ [.addRule rule], ⟨rest, by rw [hsplit, List.append_assoc]; rfl⟩, ?_⟩
      rw [storedAfter_addRule, if_pos hadded, rulesBlock_iff, allowApplies_append,
        blockApplies_append]
      refine ⟨?_, .inr ⟨rule, List.mem_singleton_self rule, htype, happlies⟩⟩
      rintro (h | ⟨r, hr, hr', -⟩)
      · exact hallow h
      · rw [List.mem_singleton.mp hr, htype] at hr'
        cases hr'

/-! ## Decisions -/

theorem decision_eq_iff {d d' : PrivacyDecision} : d = d' ↔ (d = .kBlock ↔ d' = .kBlock) := by
  cases d <;> cases d' <;> simp

theorem firstApplied_isSome_iff (i : Interleaving) (q : Request) :
    (TrackerBlocker.firstApplied q.resourceType q.party
        ((i.databaseAfter i.untilAllow).findMatchingAllowRules q.host q.path)).isSome = true
      ↔ AllowApplies (i.storedAfter i.untilAllow) q := by
  rw [Option.isSome_iff_ne_none, ne_eq, TrackerBlocker.firstApplied_eq_none_iff, not_not]
  simp only [((i.represents_after i.untilAllow).findMatchingAllowRules_perm q.host q.path).mem_iff,
    List.mem_filter, decide_eq_true_eq, and_assoc, AllowApplies, Applies]

/-- The decision is one that a single database between the first and the last lookup gives,
except when no allow rule applies at the allow lookup, a block rule applies at the block
lookup, and at all times in between some allow rule overrides the block rules that apply. -/
theorem linearizable_iff (i : Interleaving) (q : Request) :
    i.Linearizable q
      ↔ q.host = []
        ∨ AllowApplies (i.storedAfter i.untilAllow) q
        ∨ ¬BlockApplies (i.storedAfter (i.untilAllow ++ i.untilBlock)) q
        ∨ RulesBlock (i.storedAfter []) q
        ∨ i.StoresBlockAlone q := by
  have hdecision : (i.evaluate q).decision = .kBlock
      ↔ q.host ≠ [] ∧ ¬AllowApplies (i.storedAfter i.untilAllow) q
        ∧ BlockApplies (i.storedAfter (i.untilAllow ++ i.untilBlock)) q :=
    TrackerBlocker.decision_evaluateAcross _ (i.represents_after _) (i.represents_after _) q
  have hwhole : ∀ past, (TrackerBlocker.evaluate (i.databaseAfter past) q).decision = .kBlock
      ↔ q.host ≠ [] ∧ RulesBlock (i.storedAfter past) q :=
    fun past => TrackerBlocker.decision_evaluate (i.represents_after past) q
  unfold Linearizable
  simp only [decision_eq_iff, hdecision, hwhole]
  by_cases hhost : q.host = []
  · simp only [hhost, true_or, iff_true]
    exact ⟨[], ⟨_, rfl⟩, by simp⟩
  by_cases hallow : AllowApplies (i.storedAfter i.untilAllow) q
  · -- the state of the allow lookup allows as well
    have helapsed : i.elapsed q = i.untilAllow := by
      unfold elapsed
      rw [if_neg hhost, if_pos ((firstApplied_isSome_iff i q).mpr hallow)]
    simp only [hallow, true_or, or_true, iff_true, helapsed]
    exact ⟨i.untilAllow, List.prefix_rfl, by simp [rulesBlock_iff, hallow]⟩
  have helapsed : i.elapsed q = i.untilAllow ++ i.untilBlock := by
    unfold elapsed
    rw [if_neg hhost, if_neg (fun h => hallow ((firstApplied_isSome_iff i q).mp h))]
  by_cases hblock : BlockApplies (i.storedAfter (i.untilAllow ++ i.untilBlock)) q
  · simp only [hhost, hallow, hblock, helapsed, not_true, false_or, ne_eq, not_false_eq_true,
      true_and, iff_true]
    exact exists_rulesBlock_iff
  · -- the state of the block lookup allows as well
    simp only [hblock, helapsed, not_false_eq_true, true_or, or_true, iff_true]
    exact ⟨_, List.prefix_rfl, by simp [rulesBlock_iff, hblock]⟩

/-- Between the two lookups another party adds an exception and, behind it, the rule it is an
exception to. -/
def exceptionFirst : Interleaving where
  before := []
  untilAllow := []
  untilBlock := Update.ofText "@@||tracker.com^\n||tracker.com^".toList

/-- A request for a script of a tracker. -/
def trackerScript : Request where
  targetUrl := "https://tracker.com/t.js".toList
  initiatorOrigin := "https://news.example".toList
  resourceType := .kScript

/-- The script is blocked, though every database of the time allows it. -/
theorem not_linearizable_exceptionFirst :
    ¬∀ (i : Interleaving) (q : Request), i.Linearizable q := by
  intro h
  obtain ⟨past, hpast, hsame⟩ := h exceptionFirst trackerScript
  have hblock : (exceptionFirst.evaluate trackerScript).decision = .kBlock := by decide +kernel
  have hallow : ∀ past ∈ (exceptionFirst.elapsed trackerScript).inits,
      (TrackerBlocker.evaluate (exceptionFirst.databaseAfter past) trackerScript).decision
        = .kAllow := by
    decide +kernel
  rw [hblock, hallow past ((List.mem_inits past _).mpr hpast)] at hsame
  cases hsame

end Interleaving
end ThoriumFrugal.Privacy

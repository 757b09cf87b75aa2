import ThoriumFrugal.Privacy.PrivacyEngine
import ThoriumFrugal.Privacy.SiteNameTheorems

/-!
# Verdicts and their audit trail

Through every history of settings, throttles and callbacks, a callback's verdict is a function
of the settings before it. What is blocked is reported: the `privacy.request_blocked` events
of a history are those of its cancellations, one each and in order, and each names a block rule
that was stored and applied.
-/

namespace ThoriumFrugal.Privacy

open Lib

namespace PrivacyEngine

variable {gurl : Text → Text} {processPrefix : Text} {s : PrivacyEngine} {x : Step}
  {m m' : PrivacyPolicyManager} {q : Request}

/-! ## Managers up to their counter -/

/-- The managers differ in their counters only. -/
def SameSettings (m m' : PrivacyPolicyManager) : Prop := ∃ n, m = { m' with eventCounter := n }

namespace SameSettings

theorem refl (m : PrivacyPolicyManager) : SameSettings m m := ⟨m.eventCounter, rfl⟩

theorem trans {m'' : PrivacyPolicyManager} (h : SameSettings m m') (h' : SameSettings m' m'') :
    SameSettings m m'' := by
  obtain ⟨n, rfl⟩ := h
  obtain ⟨n', rfl⟩ := h'
  exact ⟨n, rfl⟩

theorem enabled_eq (h : SameSettings m m') : m.enabled = m'.enabled := by
  obtain ⟨n, rfl⟩ := h
  rfl

theorem trackerBlocker_eq (h : SameSettings m m') : m.trackerBlocker = m'.trackerBlocker := by
  obtain ⟨n, rfl⟩ := h
  rfl

theorem lookupException_eq (h : SameSettings m m') (initiator : Text) :
    m.lookupException initiator = m'.lookupException initiator := by
  obtain ⟨n, rfl⟩ := h
  rfl

/-- Stripping counts an event at most, and changes no setting. -/
theorem sanitizeUrl (m : PrivacyPolicyManager) (url now : Text) :
    SameSettings (m.sanitizeUrl url now).2.2 m :=
  (m.dispatch_sanitizeUrl url now).exists_counter

/-- Nor does an evaluation. -/
theorem evaluateRequest (m : PrivacyPolicyManager) (url initiator : Text) (type : ResourceType)
    (now : Text) : SameSettings (m.evaluateRequest url initiator type now).2.2 m :=
  (m.dispatch_evaluateRequest url initiator type now).exists_counter

/-- A setting sets the same. -/
theorem apply_settingOp (h : SameSettings m m') {op : PrivacyPolicyManager.Op}
    (hop : x.settingOp = some op) : SameSettings (m.apply op) (m'.apply op) := by
  obtain ⟨n, rfl⟩ := h
  cases x with
  | setPrivacyProtectionEnabled enabled =>
    cases hop
    exact ⟨n, rfl⟩
  | setSiteException hostOrDomain exception =>
    cases hop
    exact ⟨n, rfl⟩
  | updateRules op =>
    cases hop
    exact ⟨n, rfl⟩
  | addTrackingParameter paramName =>
    cases hop
    exact ⟨n, rfl⟩
  | _ => cases hop

end SameSettings

/-! ## One callback -/

/-- Behind the events `before` the manager, up to its counter, evaluates the request, and the
outcome says what it says. -/
def Evaluates (m : PrivacyPolicyManager) (q : Request) (before : List PrivacyEvent)
    (o : ThrottleOutcome) : Prop :=
  ∃ m' now, SameSettings m' m
    ∧ let r := m'.evaluateRequest q.targetUrl q.initiatorOrigin q.resourceType now
      o.events = before ++ r.2.1 ∧ o.manager = r.2.2
        ∧ (o.cancelled.isSome = true ↔ r.1.decision = .kBlock)

theorem isSome_ite {α : Type*} {p : Prop} [Decidable p] (a : α) :
    (if p then some a else none).isSome = true ↔ p := by
  split
  · next hp => simp [hp]
  · next hp => simp [hp]

/-- A throttle evaluates the request that is left after stripping. -/
theorem evaluates_filterAndEvaluate (m : PrivacyPolicyManager) (url : Text)
    (initiator : Option Text) (type : ResourceType) (reason now : Text) :
    Evaluates m (LeanPrivacyURLLoaderThrottle.evaluatedRequest gurl m url initiator type)
      (m.sanitizeUrl url now).2.1
      (LeanPrivacyURLLoaderThrottle.filterAndEvaluate gurl m url initiator type reason now) := by
  obtain ⟨hurl, -⟩ := LeanPrivacyURLLoaderThrottle.sanitizeUrl_frame gurl m url now
  refine ⟨(m.sanitizeUrl url now).2.2, now, .sanitizeUrl m url now, ?_⟩
  simp only [LeanPrivacyURLLoaderThrottle.filterAndEvaluate, hurl, isSome_ite]
  exact ⟨rfl, rfl, Iff.rfl⟩

/-- A callback of a throttle that exists evaluates its request. -/
theorem evaluates_outcome {g : Guarded} (hx : x.guarded? = some g) (hg : g ∈ s.throttles) :
    ∃ o, outcome gurl s x = some o
      ∧ Evaluates s.manager (evaluated gurl s.manager x) (sanitizeEvents s.manager x) o := by
  cases x with
  | willStartRequest id request now =>
    cases hx
    exact ⟨_, if_pos hg, evaluates_filterAndEvaluate ..⟩
  | willRedirectRequest id redirectInfo now =>
    cases hx
    exact ⟨_, if_pos hg, evaluates_filterAndEvaluate ..⟩
  | checkPrivacyPolicy id handle now =>
    cases hx
    refine ⟨_, if_pos hg, s.manager, now, .refl _, rfl, rfl, ?_⟩
    exact isSome_ite _
  | _ => cases hx

/-- Without a throttle nothing happens. -/
theorem outcome_eq_none_iff :
    outcome gurl s x = none ↔ ∀ g, x.guarded? = some g → g ∉ s.throttles := by
  constructor
  · intro hnone g hx hg
    obtain ⟨o, ho, -⟩ := evaluates_outcome hx hg
    rw [ho] at hnone
    cases hnone
  · intro h
    cases x with
    | willStartRequest id request now => exact if_neg (h _ rfl)
    | willRedirectRequest id redirectInfo now => exact if_neg (h _ rfl)
    | checkPrivacyPolicy id handle now => exact if_neg (h _ rfl)
    | _ => rfl

/-- A verdict comes from a throttle. -/
theorem exists_guarded {o : ThrottleOutcome} (ho : outcome gurl s x = some o) :
    ∃ g, x.guarded? = some g ∧ g ∈ s.throttles := by
  by_contra hnone
  push Not at hnone
  rw [outcome_eq_none_iff.mpr hnone] at ho
  cases ho

/-- When a callback cancels, over a database that stores the rules `l`. -/
theorem Evaluates.cancelled_iff {before : List PrivacyEvent} {o : ThrottleOutcome}
    (h : Evaluates m q before o) {db : RuleDatabase} {l : List ParsedRule}
    (hdb : m.trackerBlocker.database = some db) (hl : db.Represents l) :
    o.cancelled.isSome = true
      ↔ m.enabled = true ∧ m.lookupException q.initiatorOrigin ≠ .kAllowAll ∧ q.host ≠ []
        ∧ RulesBlock l q := by
  obtain ⟨m', now, hsame, -, -, hcancelled⟩ := h
  rw [hcancelled]
  by_cases hon : m.enabled = true
  · rw [PrivacyPolicyManager.decision_evaluateRequest (hsame.enabled_eq.trans hon),
      hsame.lookupException_eq, hsame.trackerBlocker_eq]
    -- the blocker has no other field
    have hmk : m.trackerBlocker = { database := some db } := congrArg TrackerBlocker.mk hdb
    have hdecision := TrackerBlocker.decision_evaluate hl q
    unfold TrackerBlocker.evaluate at hdecision
    rw [hmk]
    by_cases hall : m.lookupException q.initiatorOrigin = .kAllowAll
    · simp [hall]
    · simp [hall, hon, hdecision]
  · -- with the protection off nothing is cancelled
    have hoff := Bool.eq_false_iff.mpr hon
    rw [PrivacyPolicyManager.decision_evaluateRequest_of_disabled
      (hsame.enabled_eq.trans hoff)]
    simp [hoff]

/-! ## Histories -/

/-- The settings that the steps make, as calls on the manager. -/
def settingOps (steps : List Step) : List PrivacyPolicyManager.Op :=
  steps.filterMap Step.settingOp

/-- The new setting of the protection, if the step sets it. -/
def Step.toggled? : Step → Option Bool
  | .setPrivacyProtectionEnabled enabled => some enabled
  | _ => none

/-- The last toggle decides; a new manager is enabled. -/
def enabledAfter (steps : List Step) : Bool := (steps.filterMap Step.toggled?).getLast?.getD true

/-- The rules stored by the updates among the steps. -/
def storedAfter (steps : List Step) : List ParsedRule :=
  RuleDatabase.stored (PrivacyPolicyManager.ruleOps (settingOps steps))

/-- The exception last set for the initiator's host, else for its domain. -/
def exceptionAfter (steps : List Step) (initiatorOriginStr : Text) : SitePolicyException :=
  PrivacyPolicyManager.siteException PrivacyPolicyManager.Spelled
    (PrivacyPolicyManager.settings (settingOps steps)) initiatorOriginStr

/-- The throttle was created at a moment when the protection was enabled. -/
def ThrottledAfter (steps : List Step) (g : Guarded) : Prop :=
  ∃ past x rest, steps = past ++ x :: rest ∧ x.creates = some g ∧ enabledAfter past = true

theorem settingOps_concat (steps : List Step) (x : Step) :
    settingOps (steps ++ [x]) = settingOps steps ++ x.settingOp.toList := by
  unfold settingOps
  rw [List.filterMap_append]
  cases h : x.settingOp <;> simp [h]

/-- A step that sets nothing leaves the settings. -/
theorem sameSettings_step (s : PrivacyEngine) (hx : x.settingOp = none) :
    SameSettings (s.step gurl x).manager s.manager := by
  unfold step
  rw [hx]
  cases hcreates : x.creates with
  | some g =>
    simp only
    split <;> exact .refl _
  | none =>
    by_cases hg : ∃ g, x.guarded? = some g ∧ g ∈ s.throttles
    · obtain ⟨g, hguarded, hmem⟩ := hg
      obtain ⟨o, ho, m', now, hsame, -, hmanager, -⟩ :=
        @evaluates_outcome gurl s x g hguarded hmem
      simp only [ho, hmanager]
      exact (SameSettings.evaluateRequest ..).trans hsame
    · have hnone : outcome gurl s x = none :=
        outcome_eq_none_iff.mpr fun g hguarded hmem => hg ⟨g, hguarded, hmem⟩
      simp only [hnone]
      exact .refl _

/-- The engine's manager is the one of the settings, up to its counter. -/
theorem sameSettings_after (steps : List Step) :
    SameSettings (after gurl processPrefix steps).manager
      (PrivacyPolicyManager.reached processPrefix (settingOps steps)) := by
  induction steps using List.reverseRecOn with
  | nil => exact .refl _
  | append_singleton steps x ih =>
    rw [after_concat, settingOps_concat]
    cases hx : x.settingOp with
    | some op =>
      rw [Option.toList_some, PrivacyPolicyManager.reached, run_concat,
        ← PrivacyPolicyManager.reached, step, hx]
      exact ih.apply_settingOp hx
    | none =>
      rw [Option.toList_none, List.append_nil]
      exact (sameSettings_step _ hx).trans ih

theorem enabledAfter_concat (steps : List Step) (x : Step) :
    enabledAfter (steps ++ [x]) = x.toggled?.getD (enabledAfter steps) := by
  unfold enabledAfter
  rw [List.filterMap_append]
  cases h : x.toggled? <;> simp [h]

/-- Only the toggle changes whether the protection is enabled. -/
theorem enabled_step (s : PrivacyEngine) (x : Step) :
    (s.step gurl x).manager.enabled = x.toggled?.getD s.manager.enabled := by
  cases hx : x.settingOp with
  | none =>
    rw [(sameSettings_step _ hx).enabled_eq]
    cases x with
    | setPrivacyProtectionEnabled enabled => cases hx
    | _ => rfl
  | some op =>
    rw [step, hx]
    cases x with
    | setPrivacyProtectionEnabled enabled =>
      cases hx
      rfl
    | setSiteException hostOrDomain exception =>
      cases hx
      rfl
    | updateRules op =>
      cases hx
      rfl
    | addTrackingParameter paramName =>
      cases hx
      rfl
    | _ => cases hx

/-- The switch is as the last toggle left it. -/
theorem enabled_after (steps : List Step) :
    (after gurl processPrefix steps).manager.enabled = enabledAfter steps := by
  induction steps using List.reverseRecOn with
  | nil => rfl
  | append_singleton steps x ih => rw [after_concat, enabled_step, enabledAfter_concat, ih]

/-- A step adds the throttle it creates, if the protection is enabled, and no other. -/
theorem mem_throttles_step {g : Guarded} :
    g ∈ (s.step gurl x).throttles
      ↔ g ∈ s.throttles ∨ x.creates = some g ∧ s.manager.enabled = true := by
  unfold step
  cases x with
  | maybeCreate id =>
    simp only [Step.settingOp, Step.creates]
    split
    · next hon => simp [hon, or_comm, eq_comm]
    · next hoff => simp [hoff]
  | maybeCreateThrottleFor id =>
    simp only [Step.settingOp, Step.creates]
    split
    · next hon => simp [hon, or_comm, eq_comm]
    · next hoff => simp [hoff]
  | willStartRequest id request now =>
    simp only [Step.settingOp, Step.creates, reduceCtorEq, false_and, or_false]
    split <;> rfl
  | willRedirectRequest id redirectInfo now =>
    simp only [Step.settingOp, Step.creates, reduceCtorEq, false_and, or_false]
    split <;> rfl
  | checkPrivacyPolicy id handle now =>
    simp only [Step.settingOp, Step.creates, reduceCtorEq, false_and, or_false]
    split <;> rfl
  | _ => simp [Step.settingOp, Step.creates]

/-- The throttles are those that were made. -/
theorem mem_throttles_after {g : Guarded} (steps : List Step) :
    g ∈ (after gurl processPrefix steps).throttles ↔ ThrottledAfter steps g := by
  induction steps using List.reverseRecOn with
  | nil => simp [after, ThrottledAfter]
  | append_singleton steps x ih =>
    rw [after_concat, mem_throttles_step, ih, enabled_after]
    unfold ThrottledAfter
    constructor
    · rintro (⟨past, y, rest, rfl, hy, hon⟩ | ⟨hx, hon⟩)
      · exact ⟨past, y, rest ++ [x], by simp, hy, hon⟩
      · exact ⟨steps, x, [], rfl, hx, hon⟩
    · rintro ⟨past, y, rest, hsplit, hy, hon⟩
      rcases split_concat hsplit with ⟨rfl, rfl, -⟩ | ⟨more, -, rfl⟩
      · exact .inr ⟨hy, hon⟩
      · exact .inl ⟨past, y, more, rfl, hy, hon⟩

/-! ## Verdicts -/

/-- The request that a callback evaluates behind some steps. -/
def evaluatedAfter (gurl : Text → Text) (processPrefix : Text) (steps : List Step) (x : Step) :
    Request :=
  evaluated gurl (after gurl processPrefix steps).manager x

/-- What a step does behind some steps. -/
def outcomeAfter (gurl : Text → Text) (processPrefix : Text) (steps : List Step) (x : Step) :
    Option ThrottleOutcome :=
  outcome gurl (after gurl processPrefix steps) x

/-- The step is a callback that cancels. -/
def Cancels (gurl : Text → Text) (processPrefix : Text) (steps : List Step) (x : Step) : Prop :=
  ∃ o, outcomeAfter gurl processPrefix steps x = some o ∧ o.cancelled.isSome = true

/-- The conditions under which the stored rules decide about a request. -/
def RulesDecide (steps : List Step) (q : Request) : Prop :=
  enabledAfter steps = true ∧ exceptionAfter steps q.initiatorOrigin ≠ .kAllowAll ∧ q.host ≠ []
    ∧ RulesBlock (storedAfter steps) q

/-- The database represents the rules that are stored. -/
theorem exists_database (gurl : Text → Text) (processPrefix : Text) (steps : List Step) :
    ∃ db, (after gurl processPrefix steps).manager.trackerBlocker.database = some db
      ∧ db.Represents (storedAfter steps) := by
  refine ⟨RuleDatabase.reached (PrivacyPolicyManager.ruleOps (settingOps steps)), ?_,
    RuleDatabase.represents_reached _⟩
  rw [(sameSettings_after steps).trackerBlocker_eq]
  exact PrivacyPolicyManager.database_reached processPrefix (settingOps steps)

/-- The exception is the one of the last call for the host, or for its domain. -/
theorem lookupException_after (steps : List Step) (initiator : Text) :
    (after gurl processPrefix steps).manager.lookupException initiator
      = exceptionAfter steps initiator := by
  rw [(sameSettings_after steps).lookupException_eq,
    PrivacyPolicyManager.lookupException_reached]
  rfl

/-- Behind the events of the sanitizer, an outcome is the evaluation of its request. -/
theorem evaluates_outcomeAfter {steps : List Step} {o : ThrottleOutcome}
    (ho : outcomeAfter gurl processPrefix steps x = some o) :
    Evaluates (after gurl processPrefix steps).manager
      (evaluatedAfter gurl processPrefix steps x)
      (sanitizeEvents (after gurl processPrefix steps).manager x) o := by
  obtain ⟨g, hx, hg⟩ := exists_guarded ho
  obtain ⟨o', ho', hevaluates⟩ := @evaluates_outcome gurl _ x g hx hg
  obtain rfl : o' = o := Option.some.inj (ho'.symm.trans ho)
  exact hevaluates

/-- A request is cancelled exactly if the rules that are stored decide so. -/
theorem cancelled_outcomeAfter_iff {steps : List Step} {o : ThrottleOutcome}
    (ho : outcomeAfter gurl processPrefix steps x = some o) :
    o.cancelled.isSome = true
      ↔ RulesDecide steps (evaluatedAfter gurl processPrefix steps x) := by
  obtain ⟨db, hdb, hl⟩ := exists_database gurl processPrefix steps
  rw [(evaluates_outcomeAfter ho).cancelled_iff hdb hl, enabled_after, lookupException_after]
  rfl

/-- In every history a callback cancels exactly if its throttle was created at a moment when
the protection was enabled, the protection is enabled now, the exception last set for the
initiator's host, else for its domain, does not allow all, the URL has a host, and among the
stored rules no allow rule and some block rule applies. -/
theorem cancels_iff (gurl : Text → Text) (processPrefix : Text) (steps : List Step) (x : Step) :
    Cancels gurl processPrefix steps x
      ↔ ∃ g, x.guarded? = some g ∧ ThrottledAfter steps g
        ∧ RulesDecide steps (evaluatedAfter gurl processPrefix steps x) := by
  constructor
  · rintro ⟨o, ho, hcancelled⟩
    obtain ⟨g, hx, hg⟩ := exists_guarded ho
    exact ⟨g, hx, (mem_throttles_after steps).mp hg, (cancelled_outcomeAfter_iff ho).mp hcancelled⟩
  · rintro ⟨g, hx, hg, hdecide⟩
    obtain ⟨o, ho, -⟩ :=
      @evaluates_outcome gurl _ x g hx ((@mem_throttles_after gurl processPrefix g steps).mpr hg)
    exact ⟨o, ho, (cancelled_outcomeAfter_iff ho).mpr hdecide⟩

end PrivacyEngine
end ThoriumFrugal.Privacy

import ThoriumFrugal.Lib.PrefixCode
import ThoriumFrugal.Privacy.PrivacyEngineTheorems
import ThoriumFrugal.Privacy.RuleTextTheorems

/-!
# The audit trail of blocked requests

What a history's events tell about its cancellations: each cancellation is reported once, in
order, by an event that names the request and the id of a stored block rule that applies to it.
A rule of a loaded text is identified by the number of its line.
-/

namespace ThoriumFrugal.Privacy

open Lib

namespace PrivacyEngine

variable {gurl : Text → Text} {processPrefix : Text} {q : Request} {e : PrivacyEvent}
  {l : List ParsedRule}

/-! ## The event of a block -/

/-- The event reports a blocked request. -/
def isBlocked (e : PrivacyEvent) : Bool := e.eventType = "privacy.request_blocked".toList

/-- The event reports that the stored rules `l` block the request. -/
structure Reports (l : List ParsedRule) (q : Request) (e : PrivacyEvent) : Prop where
  host : e.host = q.host
  sanitizedUrl : e.sanitizedUrl = PrivacyPolicyManager.sanitizeUrlForTelemetry q.targetUrl
  initiatorOrigin : e.initiatorOrigin = q.initiatorOrigin
  partyContext : e.partyContext = q.party
  resourceType : e.resourceType = resourceTypeToString q.resourceType
  classification : e.classification = .kKnownTracker
  rule : ∃ r ∈ l, r.ruleType = .kBlock ∧ Applies r q ∧ e.ruleId = r.ruleId

/-- A block is the work of a block rule found for the host and the path. -/
theorem exists_blockedBy {db : RuleDatabase} {result : PrivacyEvaluationResult}
    {host path : Text} {type : ResourceType} (hresult : result.decision = .kAllow)
    (h : (TrackerBlocker.applyRules db result host path type).decision = .kBlock) :
    ∃ r ∈ db.findMatchingBlockRules host path, OptionsMatch r result.partyContext type
      ∧ TrackerBlocker.applyRules db result host path type = TrackerBlocker.blockedBy result r := by
  unfold TrackerBlocker.applyRules at h ⊢
  cases hallow : TrackerBlocker.firstApplied type result.partyContext
      (db.findMatchingAllowRules host path) with
  | some r =>
    -- an allow rule that applies decides against a block
    rw [hallow] at h
    cases h
  | none =>
    rw [hallow] at h
    simp only at h ⊢
    cases hblock : TrackerBlocker.firstApplied type result.partyContext
        (db.findMatchingBlockRules host path) with
    | some r =>
      obtain ⟨hr, hmatch⟩ := TrackerBlocker.optionsMatch_of_firstApplied hblock
      exact ⟨r, hr, hmatch, rfl⟩
    | none =>
      rw [hblock] at h
      simp only at h
      rw [hresult] at h
      cases h

/-- The result of a blocked request names a stored block rule that applies. -/
theorem exists_rule_of_blocked {db : RuleDatabase} (hl : db.Represents l)
    (h : (TrackerBlocker.evaluate db q).decision = .kBlock) :
    (TrackerBlocker.evaluate db q).partyContext = q.party
      ∧ (TrackerBlocker.evaluate db q).classification = .kKnownTracker
      ∧ ∃ r ∈ l, r.ruleType = .kBlock ∧ Applies r q
        ∧ (TrackerBlocker.evaluate db q).matchedRule.ruleId = r.ruleId := by
  have hhost : q.host ≠ [] := ((TrackerBlocker.decision_evaluate hl q).mp h).1
  obtain ⟨result, hresult, hparty, -, -, heval⟩ := TrackerBlocker.evaluate_of_host_ne_nil db hhost
  rw [heval] at h ⊢
  obtain ⟨r, hr, hmatch, hblocked⟩ := exists_blockedBy hresult h
  rw [(hl.findMatchingBlockRules_perm q.host q.path).mem_iff, List.mem_filter,
    decide_eq_true_eq] at hr
  rw [hparty] at hmatch
  rw [hblocked]
  -- either way the rule is named
  have hfields : (TrackerBlocker.blockedBy result r).partyContext = result.partyContext
      ∧ (TrackerBlocker.blockedBy result r).classification = .kKnownTracker
      ∧ (TrackerBlocker.blockedBy result r).matchedRule.ruleId = r.ruleId := by
    unfold TrackerBlocker.blockedBy
    simp only
    split
    · exact ⟨rfl, rfl, rfl⟩
    · exact ⟨rfl, rfl, rfl⟩
  exact ⟨hfields.1.trans hparty, hfields.2.1, r, hr.1, hr.2.1, ⟨hr.2.2, hmatch⟩, hfields.2.2⟩

theorem ruleEventType_eq_blocked_iff {result : PrivacyEvaluationResult} :
    PrivacyPolicyManager.ruleEventType result = some "privacy.request_blocked".toList
      ↔ result.decision = .kBlock := by
  unfold PrivacyPolicyManager.ruleEventType
  split
  · next h => exact iff_of_true rfl h
  · next h =>
    refine iff_of_false (fun heq => ?_) h
    split at heq
    · exact absurd (Option.some.inj heq) (by decide)
    · cases heq

theorem filter_isBlocked_singleton (e : PrivacyEvent) :
    [e].filter isBlocked = if e.eventType = "privacy.request_blocked".toList then [e] else [] := by
  rw [List.filter_singleton]
  by_cases h : e.eventType = "privacy.request_blocked".toList
  · rw [if_pos h, isBlocked, decide_eq_true h]
    rfl
  · rw [if_neg h, isBlocked, decide_eq_false h]
    rfl

/-- An evaluation reports a block with one event, and nothing else as a block. -/
theorem blocked_events_evaluateRequest {m : PrivacyPolicyManager} {db : RuleDatabase}
    (hdb : m.trackerBlocker.database = some db) (hl : db.Represents l) (q : Request) (now : Text) :
    let r := m.evaluateRequest q.targetUrl q.initiatorOrigin q.resourceType now
    (r.1.decision = .kBlock → ∃ e, r.2.1.filter isBlocked = [e] ∧ Reports l q e)
      ∧ (r.1.decision ≠ .kBlock → r.2.1.filter isBlocked = []) := by
  -- the blocker has no other field
  have hmk : m.trackerBlocker = { database := some db } := congrArg TrackerBlocker.mk hdb
  have heval : m.trackerBlocker.evaluateRequest q.targetUrl q.initiatorOrigin q.resourceType
      = TrackerBlocker.evaluate db q := by
    rw [hmk]
    rfl
  have hrule := @exists_rule_of_blocked q l db hl
  unfold PrivacyPolicyManager.evaluateRequest
  simp only [heval]
  split
  · exact ⟨nofun, fun _ => rfl⟩
  split
  · exact ⟨nofun, fun _ => rfl⟩
  generalize TrackerBlocker.evaluate db q = result at hrule ⊢
  have htype := @ruleEventType_eq_blocked_iff result
  cases heventType : PrivacyPolicyManager.ruleEventType result with
  | none =>
    rw [heventType] at htype
    exact ⟨fun h => absurd (htype.mpr h) nofun, fun _ => rfl⟩
  | some eventType =>
    rw [heventType, Option.some.injEq] at htype
    simp only
    rw [filter_isBlocked_singleton]
    refine ⟨fun h => ?_, fun h => if_neg (mt htype.mp h)⟩
    obtain ⟨hparty, hclass, hrule⟩ := hrule h
    exact ⟨_, if_pos (htype.mpr h), rfl, rfl, rfl, hparty, rfl, hclass, hrule⟩

/-- The sanitizer reports no block. -/
theorem blocked_sanitizeEvents (m : PrivacyPolicyManager) (x : Step) :
    (sanitizeEvents m x).filter isBlocked = [] := by
  have hsanitize : ∀ url now, ((m.sanitizeUrl url now).2.1).filter isBlocked = [] := by
    intro url now
    unfold PrivacyPolicyManager.sanitizeUrl
    split
    · rfl
    · simp only
      split <;> rfl
  cases x with
  | willStartRequest id request now => exact hsanitize _ _
  | willRedirectRequest id redirectInfo now => exact hsanitize _ _
  | _ => rfl

/-! ## The events of a history -/

/-- What a step dispatches behind some steps. -/
def emitted (gurl : Text → Text) (processPrefix : Text) (moment : List Step × Step) :
    List PrivacyEvent :=
  match outcomeAfter gurl processPrefix moment.1 moment.2 with
  | some o => o.events
  | none => []

/-- All events of a history, in order. -/
def events (gurl : Text → Text) (processPrefix : Text) (steps : List Step) : List PrivacyEvent :=
  (moments steps).flatMap (emitted gurl processPrefix)

/-- Whether the callback of a moment cancels. -/
def cancelsAt (gurl : Text → Text) (processPrefix : Text) (moment : List Step × Step) : Bool :=
  match outcomeAfter gurl processPrefix moment.1 moment.2 with
  | some o => o.cancelled.isSome
  | none => false

/-- The cancellations of a history, in order, each with the steps before it. -/
def cancellations (gurl : Text → Text) (processPrefix : Text) (steps : List Step) :
    List (List Step × Step) :=
  (moments steps).filter (cancelsAt gurl processPrefix)

/-- The event reports the cancellation at the moment. -/
def ReportsAt (gurl : Text → Text) (processPrefix : Text) (moment : List Step × Step)
    (e : PrivacyEvent) : Prop :=
  Reports (storedAfter moment.1) (evaluatedAfter gurl processPrefix moment.1 moment.2) e

/-- A step that cancels dispatches one event that reports it, and another step none. -/
theorem blocked_emitted (gurl : Text → Text) (processPrefix : Text) (moment : List Step × Step) :
    List.Forall₂ (ReportsAt gurl processPrefix)
      ([moment].filter (cancelsAt gurl processPrefix))
      ((emitted gurl processPrefix moment).filter isBlocked) := by
  obtain ⟨past, x⟩ := moment
  cases ho : outcomeAfter gurl processPrefix past x with
  | none =>
    have hquiet : emitted gurl processPrefix (past, x) = [] := by simp only [emitted, ho]
    have hno : cancelsAt gurl processPrefix (past, x) = false := by simp only [cancelsAt, ho]
    rw [hquiet, List.filter_cons_of_neg (by simp [hno])]
    exact .nil
  | some o =>
    obtain ⟨db, hdb, hl⟩ := exists_database gurl processPrefix past
    obtain ⟨m', now, hsame, hevents, -, hcancelled⟩ := evaluates_outcomeAfter ho
    obtain ⟨hblock, hpass⟩ := blocked_events_evaluateRequest
      (hsame.trackerBlocker_eq ▸ hdb) hl (evaluatedAfter gurl processPrefix past x) now
    have hemitted : emitted gurl processPrefix (past, x) = o.events := by simp only [emitted, ho]
    have hcancels : cancelsAt gurl processPrefix (past, x) = o.cancelled.isSome := by
      simp only [cancelsAt, ho]
    rw [hemitted, hevents, List.filter_append, blocked_sanitizeEvents, List.nil_append]
    by_cases hc : o.cancelled.isSome = true
    · obtain ⟨e, he, hreports⟩ := hblock (hcancelled.mp hc)
      rw [he, List.filter_cons_of_pos (by rw [hcancels, hc]), List.filter_nil]
      exact .cons hreports .nil
    · rw [hpass (mt hcancelled.mpr hc),
        List.filter_cons_of_neg (by simpa [hcancels] using hc), List.filter_nil]
      exact .nil

/-- The `privacy.request_blocked` events of a history are those of its cancellations, one each
and in order. -/
theorem blocked_events (gurl : Text → Text) (processPrefix : Text) (steps : List Step) :
    List.Forall₂ (ReportsAt gurl processPrefix) (cancellations gurl processPrefix steps)
      ((events gurl processPrefix steps).filter isBlocked) := by
  unfold cancellations events
  induction moments steps with
  | nil => exact .nil
  | cons moment later ih =>
    rw [List.flatMap_cons, List.filter_append, ← List.singleton_append, List.filter_append]
    exact List.rel_append (blocked_emitted gurl processPrefix moment) ih

/-! ## The line behind a rule id -/

/-- The id of the rule on line `count` of a loaded text. -/
def lineRuleId (count : ℕ) (domainPattern : Text) : Text :=
  "rule_".toList ++ (toString count).toList ++ "_".toList ++ domainPattern

/-- The number of the line and the domain can be read off the id. -/
theorem lineRuleId_inj {count count' : ℕ} {domain domain' : Text}
    (h : lineRuleId count domain = lineRuleId count' domain') :
    count = count' ∧ domain = domain' := by
  have hdigits : ∀ n : ℕ, (toString n).toList = Nat.toDigits 10 n := fun n => by
    simp [Nat.repr]
  unfold lineRuleId at h
  rw [hdigits, hdigits, List.append_assoc, List.append_assoc, List.append_assoc,
    List.append_assoc, List.append_cancel_left_eq] at h
  have hstop : ∀ t, StartsIn {c | c.isDigit = false} ("_".toList ++ t) := by
    intro t c hc
    cases hc
    rfl
  obtain ⟨rfl, hrest⟩ := delimited_toDigits count count' _ _ (hstop domain) (hstop domain') h
  exact ⟨rfl, List.append_cancel_left hrest⟩

/-- Where a stored rule comes from: it was added as it is, or read from a line of a text. -/
inductive Origin (r : ParsedRule) : RuleDatabase.Op → Prop
  | added (hvalid : r.isValid = true) : Origin r (.addRule r)
  | line (text line : Text) (count : ℕ) (hline : (line, count) ∈ (Text.getlines text '\n').zipIdx 1)
    (hr : r = RuleParser.parseLine line ("rule_".toList ++ (toString count).toList ++ "_".toList))
    (hid : r.ruleId = lineRuleId count r.domainPattern) : Origin r (.loadFromText text)

theorem ruleId_parseLine {rawLine ruleIdPrefix : Text}
    (h : (RuleParser.parseLine rawLine ruleIdPrefix).isValid = true) :
    (RuleParser.parseLine rawLine ruleIdPrefix).ruleId
      = ruleIdPrefix ++ (RuleParser.parseLine rawLine ruleIdPrefix).domainPattern := by
  rw [RuleParser.isValid_parseLine_iff] at h
  obtain ⟨hskip, hdomain⟩ := not_or.mp h
  obtain ⟨rule, hunread, heq⟩ := @RuleParser.parseLine_of_not_skipped rawLine ruleIdPrefix hskip
  unfold RuleParser.domainText at hdomain
  rw [heq, RuleParser.parsePatterns_eq, if_neg hdomain]

theorem origin_of_mem_parseText {r : ParsedRule} {text : Text}
    (h : r ∈ RuleParser.parseText text) : Origin r (.loadFromText text) := by
  have hvalid := RuleParser.isValid_of_mem_parseText h
  rw [RuleParser.parseText, List.mem_filter, List.mem_map] at h
  obtain ⟨⟨⟨line, count⟩, hline, rfl⟩, -⟩ := h
  exact .line text line count hline rfl (ruleId_parseLine hvalid)

/-- A stored rule comes from an update behind which the database was not cleared. -/
theorem exists_origin {r : ParsedRule} {ops : List RuleDatabase.Op}
    (h : r ∈ RuleDatabase.stored ops) :
    ∃ before op later, ops = before ++ op :: later ∧ Origin r op ∧ .clear ∉ later := by
  induction ops using List.reverseRecOn with
  | nil => cases h
  | append_singleton ops op ih =>
    rw [RuleDatabase.stored_concat] at h
    -- the rule was stored before, or the last update stores it
    have hold : op ≠ .clear → r ∈ RuleDatabase.stored ops →
        ∃ before op' later, ops ++ [op] = before ++ op' :: later ∧ Origin r op'
          ∧ .clear ∉ later := by
      intro hop hr
      obtain ⟨before, op', later, rfl, horigin, hclear⟩ := ih hr
      exact ⟨before, op', later ++ [op], by simp, horigin, by simp [hclear, Ne.symm hop]⟩
    cases op with
    | clear => cases h
    | addRule rule =>
      rcases List.mem_append.mp h with hr | hr
      · exact hold nofun hr
      · have hvalid := ((RuleDatabase.represents_reached ops).addRule rule).valid r
          (List.mem_append_right _ hr)
        obtain rfl := List.mem_singleton.mp ((RuleDatabase.successes_sublist _ _).subset hr)
        exact ⟨ops, _, [], rfl, .added hvalid, List.not_mem_nil⟩
    | loadFromText text =>
      rcases List.mem_append.mp h with hr | hr
      · exact hold nofun hr
      · have hmem := (RuleDatabase.successes_sublist _ _).subset hr
        exact ⟨ops, _, [], rfl, origin_of_mem_parseText hmem, List.not_mem_nil⟩

/-- The updates among the steps, and the steps between them. -/
theorem ruleOps_settingOps (steps : List Step) :
    PrivacyPolicyManager.ruleOps (settingOps steps)
      = steps.filterMap fun x => x.settingOp.bind PrivacyPolicyManager.ruleOp := by
  unfold PrivacyPolicyManager.ruleOps settingOps
  rw [List.filterMap_filterMap]

theorem eq_updateRules {x : Step} {op : RuleDatabase.Op}
    (h : x.settingOp.bind PrivacyPolicyManager.ruleOp = some op) : x = .updateRules op := by
  cases x with
  | updateRules op' =>
    cases h
    rfl
  | _ => cases h

/-- A stored rule comes from an update of the history behind which nothing is cleared. -/
theorem exists_origin_of_mem_storedAfter {r : ParsedRule} {steps : List Step}
    (h : r ∈ storedAfter steps) :
    ∃ before op later, steps = before ++ .updateRules op :: later ∧ Origin r op
      ∧ .updateRules .clear ∉ later := by
  obtain ⟨opsBefore, op, opsLater, hops, horigin, hclear⟩ := exists_origin h
  rw [ruleOps_settingOps, List.filterMap_eq_append_iff] at hops
  obtain ⟨first, tail, rfl, -, htail⟩ := hops
  rw [List.filterMap_eq_cons_iff] at htail
  obtain ⟨quiet, x, later, rfl, -, hx, rfl⟩ := htail
  obtain rfl := eq_updateRules hx
  refine ⟨first ++ quiet, op, later, by simp, horigin, fun hmem => hclear ?_⟩
  exact List.mem_filterMap.mpr ⟨_, hmem, rfl⟩

theorem cancelsAt_iff {past : List Step} {x : Step} :
    cancelsAt gurl processPrefix (past, x) = true ↔ Cancels gurl processPrefix past x := by
  unfold cancelsAt Cancels
  cases outcomeAfter gurl processPrefix past x with
  | none => simp
  | some o => simp

/-- Each `privacy.request_blocked` event is traced to its cancellation and from there to the
update of the rules that is to blame: the event's rule id is that of a block rule that applies
to the request and was added, or stands on the line that the id counts, and no later update
before the cancellation cleared the rules. -/
theorem exists_origin_of_blocked {steps : List Step}
    (he : e ∈ events gurl processPrefix steps) (hblocked : isBlocked e = true) :
    ∃ past x rest, steps = past ++ x :: rest ∧ Cancels gurl processPrefix past x
      ∧ ∃ r, r.ruleType = .kBlock ∧ Applies r (evaluatedAfter gurl processPrefix past x)
        ∧ e.ruleId = r.ruleId
        ∧ ∃ before op later, past = before ++ .updateRules op :: later ∧ Origin r op
          ∧ .updateRules .clear ∉ later := by
  obtain ⟨⟨past, x⟩, hmoment, hreports⟩ :=
    exists_mem_left (blocked_events gurl processPrefix steps) (List.mem_filter.mpr ⟨he, hblocked⟩)
  obtain ⟨hmem, hcancels⟩ := List.mem_filter.mp hmoment
  obtain ⟨rest, hsteps⟩ := mem_moments_iff.mp hmem
  obtain ⟨r, hstored, hblock, happlies, hid⟩ := hreports.rule
  exact ⟨past, x, rest, hsteps, cancelsAt_iff.mp hcancels, r, hblock, happlies, hid,
    exists_origin_of_mem_storedAfter hstored⟩

/-- A request for a banner of a listed host, whose rule is on the second line. -/
def bannerSteps : List Step :=
  [.updateRules (.loadFromText "! ads\n||ads.example^\n".toList),
    .maybeCreate 7,
    .willStartRequest 7
      { url := "https://ads.example/banner.js".toList
        requestInitiator := some "https://news.example".toList
        resourceType := 3 } "09:00".toList]

/-- The event of a blocked banner. -/
def bannerBlocked : PrivacyEvent where
  eventId := "lt_priv_1000_000001".toList
  eventType := "privacy.request_blocked".toList
  host := "ads.example".toList
  sanitizedUrl := "https://ads.example/banner.js".toList
  initiatorOrigin := "https://news.example".toList
  partyContext := .kThirdParty
  resourceType := "script".toList
  classification := .kKnownTracker
  ruleId := lineRuleId 2 "ads.example".toList
  timestamp := "09:00".toList

theorem exists_origin_of_bannerBlocked :
    ∃ past x rest, bannerSteps = past ++ x :: rest ∧ Cancels id "lt_priv_1000_".toList past x
      ∧ ∃ r, r.ruleType = .kBlock
        ∧ Applies r (evaluatedAfter id "lt_priv_1000_".toList past x)
        ∧ bannerBlocked.ruleId = r.ruleId
        ∧ ∃ before op later, past = before ++ .updateRules op :: later ∧ Origin r op
          ∧ .updateRules .clear ∉ later :=
  exists_origin_of_blocked (by decide +kernel) (by decide)

end PrivacyEngine
end ThoriumFrugal.Privacy

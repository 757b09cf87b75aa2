import ThoriumFrugal.Privacy.PrivacyPolicyManager
import ThoriumFrugal.Privacy.TrackerBlockerTheorems

/-!
# Site exceptions and rule lists

Which of the two decides a request: `lookupException` before the rules, the rules behind
it. The exception in force is what the stored entries say; the code's lookup finds it as
long as no entry stores the default, which every history of a manager keeps.
-/

namespace ThoriumFrugal.Privacy

open Lib

namespace SiteExceptionsManager

/-- No entry stores the default: setting it erases the entry. -/
def NoDefault (exceptions : SiteExceptionsManager) : Prop :=
  ∀ host, exceptions.lookup host ≠ some .kDefault

theorem noDefault_empty : NoDefault ∅ := fun host => by simp

theorem NoDefault.setSiteException {exceptions : SiteExceptionsManager}
    (h : exceptions.NoDefault) (host : Text) (exception : SitePolicyException) :
    (exceptions.setSiteException host exception).NoDefault := by
  intro other
  unfold SiteExceptionsManager.setSiteException
  by_cases hother : other = host
  · subst hother
    split
    · simp
    · next he => simpa using he
  · split
    · rw [AList.lookup_erase_ne hother]
      exact h other
    · rw [AList.lookup_insert_ne hother]
      exact h other

theorem getSiteException_eq (exceptions : SiteExceptionsManager) (host : Text) :
    exceptions.getSiteException host = (exceptions.lookup host).getD .kDefault := by
  unfold SiteExceptionsManager.getSiteException
  cases exceptions.lookup host <;> rfl

end SiteExceptionsManager

namespace PrivacyPolicyManager

/-! ## Reachable managers -/

/-- The update of the rule database that a call makes. -/
def ruleOp : Op → Option RuleDatabase.Op
  | .updateRules op => some op
  | _ => none

/-- The updates of the rule database among the calls on a manager. -/
def ruleOps (ops : List Op) : List RuleDatabase.Op := ops.filterMap ruleOp

/-- Only rule updates change the database. -/
theorem database_apply (manager : PrivacyPolicyManager) (op : Op) :
    (manager.apply op).trackerBlocker.database
      = manager.trackerBlocker.database.map fun db =>
        run RuleDatabase.apply db (ruleOp op).toList := by
  cases op with
  | updateRules op => rfl
  | sanitizeUrl urlStr now =>
    obtain ⟨n, hafter⟩ := (manager.dispatch_sanitizeUrl urlStr now).exists_counter
    simp [apply, ruleOp, hafter]
  | evaluateRequest target initiator type now =>
    obtain ⟨n, hafter⟩ :=
      (manager.dispatch_evaluateRequest target initiator type now).exists_counter
    simp [apply, ruleOp, hafter]
  | _ => simp [apply, ruleOp, setPrivacyProtectionEnabled, setSiteException]

/-- Only `SetSiteException` changes the exceptions. -/
theorem siteExceptions_apply (manager : PrivacyPolicyManager) (op : Op) :
    (manager.apply op).siteExceptions = match op with
      | .setSiteException host exception => manager.siteExceptions.setSiteException host exception
      | _ => manager.siteExceptions := by
  cases op with
  | sanitizeUrl urlStr now =>
    obtain ⟨n, hafter⟩ := (manager.dispatch_sanitizeUrl urlStr now).exists_counter
    simp only [apply, hafter]
  | evaluateRequest target initiator type now =>
    obtain ⟨n, hafter⟩ :=
      (manager.dispatch_evaluateRequest target initiator type now).exists_counter
    simp only [apply, hafter]
  | _ => rfl

/-- Every history of a manager leaves it with the database of its rule updates. -/
theorem database_reached (processPrefix : Text) (ops : List Op) :
    (reached processPrefix ops).trackerBlocker.database
      = some (RuleDatabase.reached (ruleOps ops)) := by
  induction ops using List.reverseRecOn with
  | nil => rfl
  | append_singleton ops op ih =>
    have hlast : ruleOps [op] = (ruleOp op).toList := by
      cases h : ruleOp op <;> simp [ruleOps, h]
    have happend : ruleOps (ops ++ [op]) = ruleOps ops ++ ruleOps [op] :=
      List.filterMap_append ..
    rw [reached, run_concat, ← reached, database_apply, ih, happend, hlast, Option.map_some,
      RuleDatabase.reached, RuleDatabase.reached, run_append]

/-- No history stores the default as an exception. -/
theorem noDefault_reached (processPrefix : Text) (ops : List Op) :
    (reached processPrefix ops).siteExceptions.NoDefault := by
  induction ops using List.reverseRecOn with
  | nil => exact SiteExceptionsManager.noDefault_empty
  | append_singleton ops op ih =>
    rw [reached, run_concat, ← reached, siteExceptions_apply]
    cases op with
    | setSiteException host exception => exact ih.setSiteException host exception
    | _ => exact ih

/-- The manager with a database that a history of rule updates leads to. -/
def withRules (manager : PrivacyPolicyManager) (ops : List RuleDatabase.Op) :
    PrivacyPolicyManager :=
  { manager with trackerBlocker := { database := some (RuleDatabase.reached ops) } }

/-! ## Who decides -/

/-- The exception in force for an initiator: its host's entry, else the entry of its
registrable domain, else the default. -/
def exceptionInForce (manager : PrivacyPolicyManager) (initiatorOriginStr : Text) :
    SitePolicyException :=
  let host := ThirdPartyClassifier.extractHostname initiatorOriginStr
  let domain := ThirdPartyClassifier.getDomain host
  match manager.siteExceptions.lookup host with
  | some exception => exception
  | none =>
    if domain = [] then .kDefault else (manager.siteExceptions.lookup domain).getD .kDefault

theorem lookupException_eq {manager : PrivacyPolicyManager}
    (h : manager.siteExceptions.NoDefault) (initiator : Text) :
    manager.lookupException initiator = manager.exceptionInForce initiator := by
  have hget : ∀ host, manager.getSiteException host
      = (manager.siteExceptions.lookup host).getD .kDefault :=
    fun host => manager.siteExceptions.getSiteException_eq host
  unfold lookupException exceptionInForce
  simp only [hget]
  cases hhost : manager.siteExceptions.lookup (ThirdPartyClassifier.extractHostname initiator) with
  | some exception =>
    -- a stored default would make the code ask for the domain
    have : exception ≠ .kDefault := fun e => h _ (e ▸ hhost)
    simp [this]
  | none => simp [ite_not]

/-- An enabled manager allows under `kAllowAll` and otherwise decides as its blocker. -/
theorem decision_evaluateRequest {manager : PrivacyPolicyManager}
    (henabled : manager.enabled = true) (target initiator : Text) (type : ResourceType)
    (now : Text) :
    (manager.evaluateRequest target initiator type now).1.decision
      = if manager.lookupException initiator = .kAllowAll then .kAllow
        else (manager.trackerBlocker.evaluateRequest target initiator type).decision := by
  rw [result_evaluateRequest, henabled, if_neg (by decide)]
  exact apply_ite PrivacyEvaluationResult.decision _ _ _

theorem decision_evaluateRequest_of_disabled {manager : PrivacyPolicyManager}
    (hdisabled : manager.enabled = false) (target initiator : Text) (type : ResourceType)
    (now : Text) : (manager.evaluateRequest target initiator type now).1.decision = .kAllow := by
  rw [result_evaluateRequest, if_pos hdisabled]

/-- What site exceptions promise for one request. -/
def SitePrecedence (manager : PrivacyPolicyManager) (q : Request) (now : Text) : Prop :=
  let e := manager.exceptionInForce q.initiatorOrigin
  let decision :=
    (manager.evaluateRequest q.targetUrl q.initiatorOrigin q.resourceType now).1.decision
  (e = .kAllowAll → decision = .kAllow)
    ∧ (e = .kBlockAll → q.party = .kThirdParty → decision = .kBlock)
    ∧ (e = .kDefault → decision = (manager.trackerBlocker.evaluateRequest q.targetUrl
        q.initiatorOrigin q.resourceType).decision)

instance (manager : PrivacyPolicyManager) (q : Request) (now : Text) :
    Decidable (manager.SitePrecedence q now) := inferInstanceAs (Decidable (_ ∧ _ ∧ _))

/-- A third-party request goes to a host. -/
theorem host_ne_nil_of_thirdParty {q : Request} (h : q.party = .kThirdParty) : q.host ≠ [] := by
  intro hhost
  unfold Request.party ThirdPartyClassifier.classify at h
  unfold Request.host at hhost
  simp [hhost] at h

/-- In every reachable enabled manager, exceptions take precedence over the rule lists for
exactly the requests that are not third-party requests of a site under `kBlockAll` that the
stored rules let through: `kBlockAll` is never acted on. -/
theorem sitePrecedence_iff (processPrefix : Text) (ops : List Op) (q : Request) (now : Text)
    (henabled : (reached processPrefix ops).enabled = true) :
    (reached processPrefix ops).SitePrecedence q now
      ↔ ¬((reached processPrefix ops).exceptionInForce q.initiatorOrigin = .kBlockAll
          ∧ q.party = .kThirdParty
          ∧ ¬RulesBlock (RuleDatabase.stored (ruleOps ops)) q) := by
  have hblocker : ((reached processPrefix ops).trackerBlocker.evaluateRequest q.targetUrl
      q.initiatorOrigin q.resourceType).decision = .kBlock
        ↔ q.host ≠ [] ∧ RulesBlock (RuleDatabase.stored (ruleOps ops)) q := by
    have hrules : (reached processPrefix ops).trackerBlocker
        = { database := some (RuleDatabase.reached (ruleOps ops)) } :=
      congrArg TrackerBlocker.mk (database_reached processPrefix ops)
    rw [hrules]
    exact TrackerBlocker.decision_evaluate (RuleDatabase.represents_reached _) q
  unfold SitePrecedence
  rw [decision_evaluateRequest henabled, lookupException_eq (noDefault_reached _ _)]
  cases he : (reached processPrefix ops).exceptionInForce q.initiatorOrigin with
  | kDefault => simp
  | kAllowAll => simp
  | kBlockAll =>
    -- a block is promised, and only the rules decide
    simp only [hblocker, reduceCtorEq, if_false, false_implies, true_implies, true_and, and_true,
      not_and, not_not]
    refine forall_congr' fun hparty => ?_
    simp [host_ne_nil_of_thirdParty hparty]

/-- A site that blocks all third-party requests, and a request of it that no rule names. -/
def strictSiteOps : List Op := [.setSiteException "news.example".toList .kBlockAll]

/-- A third-party script on that site. -/
def strictSiteRequest : Request :=
  { targetUrl := "https://cdn.other.com/x.js".toList
    initiatorOrigin := "https://news.example/".toList
    resourceType := .kScript }

/-- The request of the strict site is allowed. -/
theorem not_sitePrecedence_strictSite :
    (reached "lt_priv_1000_".toList strictSiteOps).enabled = true
      ∧ ¬(reached "lt_priv_1000_".toList strictSiteOps).SitePrecedence strictSiteRequest [] := by
  decide

/-- With a rule that names the request's host the strict site gets what it asks for. -/
theorem sitePrecedence_strictSite_with_rule :
    (reached "lt_priv_1000_".toList
      (strictSiteOps ++ [.updateRules (.loadFromText "||other.com^".toList)])).SitePrecedence
        strictSiteRequest [] :=
  (sitePrecedence_iff _ _ _ _ (by decide)).mpr (by decide)

end PrivacyPolicyManager
end ThoriumFrugal.Privacy

import ThoriumFrugal.Privacy.PrivacyPolicyManagerTheorems
import ThoriumFrugal.Privacy.SiteTheorems

/-!
# The names of site exceptions

Exceptions are stored under the name as it was given and looked up under names in lower case. So
a site gets the exception that was last set for it in any spelling exactly if the calls in other
spellings than the lower-case one make no difference.
-/

namespace ThoriumFrugal.Privacy

open Lib

namespace PrivacyPolicyManager

/-! ## Settings -/

/-- The name and the exception of a call of `SetSiteException`. -/
def setting : Op → Option (Text × SitePolicyException)
  | .setSiteException hostOrDomain exception => some (hostOrDomain, exception)
  | _ => none

/-- The exceptions set by a history, in order. -/
def settings (ops : List Op) : List (Text × SitePolicyException) := ops.filterMap setting

/-- The exception most recently set for a name that `same` accepts. There is none behind the
default, which undoes the earlier settings. -/
def latest (same : Text → Bool) (settings : List (Text × SitePolicyException)) :
    SitePolicyException :=
  ((settings.filter (same ·.1)).getLast?.map Prod.snd).getD .kDefault

theorem latest_concat (same : Text → Bool) (settings : List (Text × SitePolicyException))
    (s : Text × SitePolicyException) :
    latest same (settings ++ [s]) = if same s.1 = true then s.2 else latest same settings := by
  unfold latest
  rw [List.filter_append, List.filter_singleton]
  split
  · rename_i hsame
    simp [hsame]
  · rename_i hother
    simp [hother]

theorem settings_concat (ops : List Op) (op : Op) :
    settings (ops ++ [op]) = settings ops ++ (setting op).toList := by
  unfold settings
  rw [List.filterMap_append]
  cases h : setting op <;> simp [h]

/-- The settings under a name, spelled as it is. -/
def Spelled (name : Text) : Text → Bool := fun other => other = name

/-- The settings under a name in any letter case. -/
def Names (name : Text) : Text → Bool := fun other => Text.toLower other = Text.toLower name

theorem getSiteException_setSiteException (exceptions : SiteExceptionsManager) (host name : Text)
    (exception : SitePolicyException) :
    (exceptions.setSiteException host exception).getSiteException name
      = if host = name then exception else exceptions.getSiteException name := by
  rw [SiteExceptionsManager.getSiteException_eq, SiteExceptionsManager.getSiteException_eq]
  unfold SiteExceptionsManager.setSiteException
  by_cases hname : host = name
  · rw [if_pos hname, hname]
    split
    · rename_i hdefault
      rw [AList.lookup_erase, hdefault]
      rfl
    · rw [AList.lookup_insert]
      rfl
  · have hne : name ≠ host := Ne.symm hname
    rw [if_neg hname]
    split
    · rw [AList.lookup_erase_ne hne]
    · rw [AList.lookup_insert_ne hne]

/-- The manager stores the latest setting of each spelling. -/
theorem getSiteException_reached (processPrefix : Text) (ops : List Op) (name : Text) :
    (reached processPrefix ops).getSiteException name
      = latest (Spelled name) (settings ops) := by
  unfold getSiteException
  induction ops using List.reverseRecOn with
  | nil => rfl
  | append_singleton ops op ih =>
    rw [settings_concat, reached, run_concat, ← reached, siteExceptions_apply]
    cases op with
    | setSiteException host exception =>
      show ((reached processPrefix ops).siteExceptions.setSiteException host
          exception).getSiteException name
        = latest (Spelled name) (settings ops ++ [(host, exception)])
      rw [getSiteException_setSiteException, latest_concat, ih]
      simp [Spelled]
    | _ => exact ih.trans (congrArg _ (List.append_nil _).symm)

/-! ## The exception of an initiator -/

section

variable (same : Text → Text → Bool) (settings : List (Text × SitePolicyException))
  (initiatorOriginStr : Text)

/-- The exception of the initiator's host, where `same` says which names are those of a site. -/
def hostException : SitePolicyException :=
  latest (same (ThirdPartyClassifier.extractHostname initiatorOriginStr)) settings

/-- The exception of its registrable domain, if it has one. -/
def domainException : SitePolicyException :=
  let domain :=
    ThirdPartyClassifier.getDomain (ThirdPartyClassifier.extractHostname initiatorOriginStr)
  if domain ≠ [] then latest (same domain) settings else .kDefault

/-- The exception of the host, else that of the domain. -/
def siteException : SitePolicyException :=
  if hostException same settings initiatorOriginStr ≠ .kDefault then
    hostException same settings initiatorOriginStr
  else domainException same settings initiatorOriginStr

end

/-- The lookup of `EvaluateRequest` goes by the spelling. -/
theorem lookupException_reached (processPrefix : Text) (ops : List Op)
    (initiatorOriginStr : Text) :
    (reached processPrefix ops).lookupException initiatorOriginStr
      = siteException Spelled (settings ops) initiatorOriginStr := by
  unfold lookupException siteException hostException domainException
  simp only [getSiteException_reached]
  by_cases hhost : latest (Spelled (ThirdPartyClassifier.extractHostname initiatorOriginStr))
      (settings ops) = .kDefault
  · simp [hhost]
  · simp [hhost]

/-- The settings in other spellings than the one looked up make no difference to the site: neither
to its host nor, if the host has no exception, to its domain; or one level makes up for the
other. -/
def SpellingsAgree (settings : List (Text × SitePolicyException)) (initiatorOriginStr : Text) :
    Prop :=
  let host := hostException Names settings initiatorOriginStr
  let domain := domainException Names settings initiatorOriginStr
  let spelledHost := hostException Spelled settings initiatorOriginStr
  let spelledDomain := domainException Spelled settings initiatorOriginStr
  (spelledHost = host ∧ (host = .kDefault → spelledDomain = domain))
    ∨ (spelledHost = .kDefault ∧ host ≠ .kDefault ∧ spelledDomain = host)
    ∨ (spelledHost ≠ .kDefault ∧ host = .kDefault ∧ spelledHost = domain)

/-- A request gets the exception most recently set for its initiator's host in any letter case,
else the one set for the domain, exactly if the spellings agree. -/
theorem lookupException_eq_siteException_iff (processPrefix : Text) (ops : List Op)
    (initiatorOriginStr : Text) :
    (reached processPrefix ops).lookupException initiatorOriginStr
        = siteException Names (settings ops) initiatorOriginStr
      ↔ SpellingsAgree (settings ops) initiatorOriginStr := by
  rw [lookupException_reached]
  unfold siteException SpellingsAgree
  generalize hostException Names (settings ops) initiatorOriginStr = host,
    hostException Spelled (settings ops) initiatorOriginStr = spelledHost
  by_cases hspelled : spelledHost = .kDefault
  · by_cases hhost : host = .kDefault
    · simp [hspelled, hhost]
    · simp [hspelled, hhost, Ne.symm hhost]
  · by_cases hhost : host = .kDefault
    · simp [hspelled, hhost]
    · simp [hspelled, hhost]

/-- A site whose name is given in capitals. -/
def capitalOps : List Op := [.setSiteException "Example.com".toList .kAllowAll]

/-- The exception of `Example.com` does not reach it. -/
theorem lookupException_capital :
    (reached "lt_priv_1000_".toList capitalOps).lookupException "https://example.com/".toList
      ≠ siteException Names (settings capitalOps) "https://example.com/".toList := by
  decide

/-! ## Names in lower case -/

variable {settings : List (Text × SitePolicyException)}

theorem latest_spelled_of_lowercase {name : Text} (hname : Text.toLower name = name)
    (h : ∀ s ∈ settings, Text.toLower s.1 = name → Text.toLower s.1 = s.1) :
    latest (Spelled name) settings = latest (Names name) settings := by
  unfold latest
  have hfilter : settings.filter (Spelled name ·.1) = settings.filter (Names name ·.1) := by
    refine List.filter_congr fun s hs => ?_
    unfold Spelled Names
    rw [hname, decide_eq_decide]
    constructor
    · intro heq
      rw [heq, hname]
    · intro heq
      rw [← h s hs heq, heq]
  rw [hfilter]

/-- The spellings agree where all names of a site are given in lower case. -/
theorem spellingsAgree_of_lowercase (h : ∀ s ∈ settings, Text.toLower s.1 = s.1)
    (initiatorOriginStr : Text) : SpellingsAgree settings initiatorOriginStr := by
  have hlatest : ∀ name, Text.toLower name = name →
      latest (Spelled name) settings = latest (Names name) settings :=
    fun name hname => latest_spelled_of_lowercase hname fun s hs _ => h s hs
  refine Or.inl ⟨hlatest _ (ThirdPartyClassifier.toLower_extractHostname _), fun _ => ?_⟩
  unfold domainException
  simp only [hlatest _ (ThirdPartyClassifier.toLower_getDomain _)]

end PrivacyPolicyManager
end ThoriumFrugal.Privacy

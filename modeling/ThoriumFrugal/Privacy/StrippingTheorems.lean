import ThoriumFrugal.Privacy.StrippedQueryTheorems
import ThoriumFrugal.Privacy.Throttle

/-!
# Stripping changes no verdict

Three scanners read a URL string: for its host, for its path and for its query. On the URLs of a
hierarchical scheme they meet their delimiters in this order, so the stripper only rewrites what
stands behind the path, where neither of the other two looks.
-/

namespace ThoriumFrugal.Privacy

open Lib

/-! ## Hierarchical URLs -/

/-- `scheme://authority/rest` with an arbitrary rest. The scheme is one that `GURL::spec()`
writes: it does not hold the `?` at which a query starts. -/
structure HierarchicalUrl where
  scheme : Text
  authority : Text
  rest : Text
  scheme_clean : ¬"://".toList <:+: scheme
  scheme_no_query : '?' ∉ scheme
  authority_clean : ∀ c ∈ authority, c ∉ "/?#".toList

namespace HierarchicalUrl

/-- The URL up to the slash in front of the rest. -/
def stem (u : HierarchicalUrl) : Text := u.scheme ++ "://".toList ++ (u.authority ++ ['/'])

/-- The URL string. -/
def spec (u : HierarchicalUrl) : Text := u.stem ++ u.rest

variable (u : HierarchicalUrl)

theorem drop_schemeEnd_append (r : Text) :
    (u.stem ++ r).drop (ThirdPartyClassifier.schemeEnd (u.stem ++ r))
      = u.authority ++ '/' :: r := by
  have hdrop := ThirdPartyClassifier.drop_schemeEnd_append u.scheme_clean
    (u.authority ++ '/' :: r)
  have hstem : u.stem ++ r = u.scheme ++ "://".toList ++ (u.authority ++ '/' :: r) := by
    simp [stem]
  rw [hstem, hdrop]

theorem not_mem_authority {c : Char} (hc : c ∈ "/?#".toList) : c ∉ u.authority :=
  fun h => u.authority_clean c h hc

/-- The host ends inside the authority. -/
theorem extractHostname_append (r : Text) :
    ThirdPartyClassifier.extractHostname (u.stem ++ r)
      = Text.toLower (u.authority.takeWhile (· ≠ ':')) :=
  ThirdPartyClassifier.extractHostname_of_authority (u.drop_schemeEnd_append r) u.authority_clean
    (by simp)

/-- The path starts at the slash behind the authority. -/
theorem extractPath_append (r : Text) :
    TrackerBlocker.extractPath (u.stem ++ r)
      = '/' :: r.takeWhile fun c => !"?#".toList.contains c := by
  rw [TrackerBlocker.extractPath_of_authority (u.drop_schemeEnd_append r) u.authority_clean]
  simp [TrackerBlocker.pathBehindScheme]

end HierarchicalUrl

/-! ## What stripping leaves alone -/

/-- Stripping rewrites a URL behind its first `?` only, and leaves nothing, a query or a fragment
there. -/
theorem cleanedUrl_cases (filter : TrackingParameterFilter) (s : Text) :
    (filter.stripTrackingParameters s).cleanedUrl = s
      ∨ ∃ base q tail, s = base ++ '?' :: q ∧ '?' ∉ base
        ∧ (filter.stripTrackingParameters s).cleanedUrl = base ++ tail
        ∧ ∀ c ∈ tail.head?, c ∈ "?#".toList := by
  by_cases hmark : '?' ∈ s
  · obtain ⟨parts, hcuts⟩ := UrlParts.exists_cuts hmark
    rw [filter.stripTrackingParameters_of_cuts hcuts]
    split
    · exact Or.inl rfl
    · exact Or.inr ⟨parts.base, _, _, hcuts.url, hcuts.base_clean, rfl,
        queryText_start _ hcuts.fragment_start⟩
  · rw [filter.stripTrackingParameters_of_not_mem hmark]
    exact Or.inl rfl

namespace HierarchicalUrl

variable (u : HierarchicalUrl)

theorem not_mem_stem : '?' ∉ u.stem := by
  have hauthority := u.not_mem_authority (c := '?') (by decide)
  simp [stem, u.scheme_no_query, hauthority]

/-- Stripping keeps the stem, and of the rest what stands in front of its query and fragment. -/
theorem exists_cleanedUrl_eq (filter : TrackingParameterFilter) : ∃ r,
    (filter.stripTrackingParameters u.spec).cleanedUrl = u.stem ++ r
      ∧ (r.takeWhile fun c => !"?#".toList.contains c)
        = u.rest.takeWhile fun c => !"?#".toList.contains c := by
  rcases cleanedUrl_cases filter u.spec with hsame | ⟨base, q, tail, hspec, hbase, hclean, htail⟩
  · exact ⟨u.rest, hsame, rfl⟩
  · have hstem : ∃ path, base = u.stem ++ path ∧ u.rest = path ++ '?' :: q := by
      rcases List.append_eq_append_iff.mp hspec with hpath | ⟨more, hstem, hrest⟩
      · exact hpath
      · cases more with
        | nil => exact ⟨[], by rw [hstem]; simp, by rw [← List.nil_append u.rest]; exact hrest.symm⟩
        | cons x more =>
          -- the query would start inside the stem
          rw [List.cons_append, List.cons.injEq] at hrest
          exact absurd (by rw [hstem, ← hrest.1]; simp) u.not_mem_stem
    obtain ⟨path, rfl, hrest⟩ := hstem
    refine ⟨path ++ tail, by rw [hclean, List.append_assoc], ?_⟩
    rw [hrest, Text.takeWhile_append_cons (by decide)]
    cases tail with
    | nil => rw [List.append_nil]
    | cons c tail =>
      have hstop : (!"?#".toList.contains c) = false := by
        rw [Bool.not_eq_false', List.contains_iff_mem]
        exact htail c rfl
      rw [Text.takeWhile_append_cons hstop]

/-- Host and path of the stripped URL are those of the URL itself. -/
theorem same_host_and_path (filter : TrackingParameterFilter) :
    ThirdPartyClassifier.extractHostname (filter.stripTrackingParameters u.spec).cleanedUrl
        = ThirdPartyClassifier.extractHostname u.spec
      ∧ TrackerBlocker.extractPath (filter.stripTrackingParameters u.spec).cleanedUrl
        = TrackerBlocker.extractPath u.spec := by
  obtain ⟨r, hclean, hpath⟩ := u.exists_cleanedUrl_eq filter
  unfold spec at *
  rw [hclean, u.extractHostname_append, u.extractHostname_append, u.extractPath_append,
    u.extractPath_append, hpath]
  exact ⟨rfl, rfl⟩

end HierarchicalUrl

namespace PrivacyPolicyManager

/-- The manager looks at the target URL through its host and its path only. -/
theorem result_evaluateRequest_congr (manager : PrivacyPolicyManager) {url url' : Text}
    (hhost : ThirdPartyClassifier.extractHostname url = ThirdPartyClassifier.extractHostname url')
    (hpath : TrackerBlocker.extractPath url = TrackerBlocker.extractPath url') (initiator : Text)
    (type : ResourceType) (now now' : Text) :
    (manager.evaluateRequest url initiator type now).1
      = (manager.evaluateRequest url' initiator type now').1 := by
  rw [result_evaluateRequest, result_evaluateRequest, ThirdPartyClassifier.classify_congr hhost,
    TrackerBlocker.evaluateRequest_congr hhost hpath manager.trackerBlocker initiator type]

/-- Of its own state the manager looks at its switch, its rules and its exceptions only. -/
theorem result_evaluateRequest_frame {manager manager' : PrivacyPolicyManager}
    (henabled : manager'.enabled = manager.enabled)
    (hblocker : manager'.trackerBlocker = manager.trackerBlocker)
    (hexceptions : manager'.siteExceptions = manager.siteExceptions) (url initiator : Text)
    (type : ResourceType) (now : Text) :
    (manager'.evaluateRequest url initiator type now).1
      = (manager.evaluateRequest url initiator type now).1 := by
  have hlookup : manager'.lookupException initiator = manager.lookupException initiator := by
    unfold lookupException getSiteException
    rw [hexceptions]
  rw [result_evaluateRequest, result_evaluateRequest, henabled, hblocker, hlookup]

end PrivacyPolicyManager

/-! ## Verdicts -/

namespace LeanPrivacyURLLoaderThrottle

/-- The resource type of a navigation's request. -/
def navigationType (isInMainFrame : Bool) : ℤ := if isInMainFrame then 0 else 1

/-- The loader throttle cancels a request by the verdict on the URL that it evaluates. -/
theorem cancelled_willStartRequest (gurl : Text → Text) (manager : PrivacyPolicyManager)
    (request : ResourceRequest) (now : Text) :
    (willStartRequest gurl manager request now).cancelled
      = if (manager.evaluateRequest (evaluatedUrl gurl manager request.url)
            (request.requestInitiator.getD []) (convertResourceType request.resourceType)
            now).1.decision = .kBlock then some "Lean Thorium Privacy Blocked".toList
        else none := by
  obtain ⟨hurl, henabled, hblocker, hexceptions⟩ :=
    sanitizeUrl_frame gurl manager request.url now
  simp only [willStartRequest, filterAndEvaluate, hurl]
  rw [PrivacyPolicyManager.result_evaluateRequest_frame henabled hblocker hexceptions]

end LeanPrivacyURLLoaderThrottle

open LeanPrivacyURLLoaderThrottle LeanPrivacyNavigationThrottle

/-- The manager's verdict on a URL is its verdict on the stripped URL. So the navigation throttle,
which evaluates the URL, and the loader throttle, which evaluates the stripped one, cancel the same
navigations, where a stripped URL is read back as it is written. -/
theorem stripping_changes_no_verdict (manager : PrivacyPolicyManager) (u : HierarchicalUrl) :
    let cleanedUrl := (manager.parameterFilter.stripTrackingParameters u.spec).cleanedUrl
    (∀ initiator type now now',
      (manager.evaluateRequest u.spec initiator type now).1
        = (manager.evaluateRequest cleanedUrl initiator type now').1)
      ∧ ∀ gurl : Text → Text, gurl cleanedUrl = cleanedUrl →
        ∀ initiator isInMainFrame now now',
          (checkPrivacyPolicy manager u.spec initiator isInMainFrame now).cancelled
            = (willStartRequest gurl manager
                { url := u.spec
                  requestInitiator := initiator
                  resourceType := navigationType isInMainFrame } now').cancelled := by
  obtain ⟨hhost, hpath⟩ := u.same_host_and_path manager.parameterFilter
  have hverdict := manager.result_evaluateRequest_congr hhost.symm hpath.symm
  refine ⟨hverdict, fun gurl hgurl initiator isInMainFrame now now' => ?_⟩
  have hevaluated : ∀ type,
      (manager.evaluateRequest (evaluatedUrl gurl manager u.spec) (initiator.getD []) type now').1
        = (manager.evaluateRequest u.spec (initiator.getD []) type now).1 := by
    intro type
    unfold evaluatedUrl
    simp only [hgurl]
    split
    · exact (hverdict (initiator.getD []) type now now').symm
    · exact manager.result_evaluateRequest_congr rfl rfl _ _ _ _
  rw [cancelled_willStartRequest, hevaluated]
  cases isInMainFrame <;> rfl

/-- A URL with tracking parameters on both sides of a parameter that stays. -/
def campaignUrl : HierarchicalUrl where
  scheme := "https".toList
  authority := "Tracker.com:443".toList
  rest := "t.js?utm_source=mail&id=7&gclid=1#top".toList
  scheme_clean := by decide
  scheme_no_query := by decide
  authority_clean := by simp

/-- A manager with a rule for the host of the URL. -/
def campaignManager : PrivacyPolicyManager where
  processPrefix := "lt_priv_1000_".toList
  trackerBlocker.database := some (({} : RuleDatabase).loadFromText "||tracker.com^".toList).2

theorem campaignUrl_cancelled_alike :
    (checkPrivacyPolicy campaignManager campaignUrl.spec none true []).cancelled
      = (willStartRequest id campaignManager
          { url := campaignUrl.spec
            requestInitiator := none
            resourceType := navigationType true } []).cancelled :=
  (stripping_changes_no_verdict campaignManager campaignUrl).2 id (id_eq _) none true [] []

-- both cancel the navigation
example : (checkPrivacyPolicy campaignManager campaignUrl.spec none true []).cancelled
    = some "Lean Thorium Privacy Blocked".toList := by
  decide +kernel

end ThoriumFrugal.Privacy

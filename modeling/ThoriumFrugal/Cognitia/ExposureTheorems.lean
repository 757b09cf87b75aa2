import ThoriumFrugal.Cognitia.BrowserObservation

/-!
# What an observation exposes of a URL

`MustNotDistinguish` says for each policy which URLs an observer of the transport must not
tell apart. The sanitized URL respects every policy; the origin field next to it is filled
in whatever the policy says.
-/

namespace ThoriumFrugal.Cognitia

open Lib

/-! ## Indistinguishable URLs -/

/-- Scheme, host and port agree. -/
def SameOrigin (u v : GURL) : Prop :=
  u.scheme = v.scheme ∧ u.host = v.host ∧ u.port = v.port

/-- Two query pairs with the same key, and the same value unless the key is sensitive. -/
def SamePair (a b : Text × Text) : Prop :=
  a.1 = b.1 ∧ (UrlSanitizer.isSensitiveQueryParam a.1 = true ∨ a.2 = b.2)

/-- Two queries whose pairs differ in values of sensitive keys only. -/
def SameQuery (q q' : Text) : Prop :=
  List.Forall₂ SamePair (queryIterator q) (queryIterator q')

/-- The URLs a policy must not distinguish. -/
def MustNotDistinguish (policy : UrlExposurePolicy) (u v : GURL) : Prop :=
  match policy with
  | .kOmitted => True
  | .kOriginOnly => SameOrigin u v
  | .kFullUrlSanitized =>
    SameOrigin u v ∧ u.path = v.path ∧ Option.Rel SameQuery u.query v.query

variable {u v : GURL}

/-! ## The sanitized URL -/

theorem SamePair.appendPair_eq {a b : Text × Text} (h : SamePair a b) (acc : Text) :
    UrlSanitizer.appendPair acc a = UrlSanitizer.appendPair acc b := by
  obtain ⟨k, x⟩ := a
  obtain ⟨k', y⟩ := b
  obtain ⟨rfl, hkey | hvalue⟩ := h
  · have hkey : UrlSanitizer.isSensitiveQueryParam k = true := hkey
    simp only [UrlSanitizer.appendPair, hkey, if_true]
  · rw [show x = y from hvalue]

theorem SameQuery.sanitizeQuery_eq {q q' : Text} (h : SameQuery q q') :
    UrlSanitizer.sanitizeQuery q = UrlSanitizer.sanitizeQuery q' := by
  unfold UrlSanitizer.sanitizeQuery
  unfold SameQuery at h
  generalize queryIterator q = pairs at h
  generalize queryIterator q' = pairs' at h
  generalize ([] : Text) = acc
  induction h generalizing acc with
  | nil => rfl
  | cons hpair _ ih =>
    rw [List.foldl_cons, List.foldl_cons, hpair.appendPair_eq]
    exact ih _

theorem SameOrigin.getOrigin_eq (lib : UrlLibrary) (hu : u.isValid = true)
    (hv : v.isValid = true) (h : SameOrigin u v) :
    u.deprecatedGetOriginAsURL lib = v.deprecatedGetOriginAsURL lib := by
  obtain ⟨hscheme, hhost, hport⟩ := h
  unfold GURL.deprecatedGetOriginAsURL
  rw [hu, hv, hscheme, hhost, hport]

/-- What `kFullUrlSanitized` leaves of a URL. -/
def UrlSanitizer.scrubbed (lib : UrlLibrary) (url : GURL) : GURL :=
  { url with
    username := []
    password := []
    ref := none
    query := url.query.map fun query => lib.canonicalizeQuery (sanitizeQuery query) }

theorem UrlSanitizer.sanitizeUrl_kFullUrlSanitized (lib : UrlLibrary) {url : GURL}
    (hvalid : url.isValid = true) :
    sanitizeUrl lib url .kFullUrlSanitized = (scrubbed lib url).spec := by
  -- with or without credentials, none are left
  have hscrub : (if url.getWithoutRef.username ≠ [] ∨ url.getWithoutRef.password ≠ []
      then { url.getWithoutRef with username := [], password := [] } else url.getWithoutRef)
      = { url with ref := none, username := [], password := [] } := by
    split
    · rfl
    · next hnone =>
      obtain ⟨huser, hpass⟩ := not_or.mp hnone
      rw [not_not] at huser hpass
      cases url
      simp_all [GURL.getWithoutRef]
  unfold sanitizeUrl scrubbed
  simp only [hvalid, hscrub, reduceCtorEq, or_self, if_false, Bool.true_eq_false]
  cases url.query with
  | none => rfl
  | some query => rfl

/-- Under every policy the sanitized URL is the same for URLs the policy must not
distinguish. -/
theorem MustNotDistinguish.sanitizeUrl_eq (lib : UrlLibrary) {policy : UrlExposurePolicy}
    (hu : u.isValid = true) (hv : v.isValid = true) (h : MustNotDistinguish policy u v) :
    UrlSanitizer.sanitizeUrl lib u policy = UrlSanitizer.sanitizeUrl lib v policy := by
  cases policy with
  | kOmitted => simp [UrlSanitizer.sanitizeUrl]
  | kOriginOnly =>
    have horigin := SameOrigin.getOrigin_eq lib hu hv h
    simp [UrlSanitizer.sanitizeUrl, hu, hv, horigin]
  | kFullUrlSanitized =>
    obtain ⟨⟨hscheme, hhost, hport⟩, hpath, hquery⟩ := h
    rw [UrlSanitizer.sanitizeUrl_kFullUrlSanitized lib hu,
      UrlSanitizer.sanitizeUrl_kFullUrlSanitized lib hv]
    have hscrubbed : u.query.map (fun q => lib.canonicalizeQuery (UrlSanitizer.sanitizeQuery q))
        = v.query.map fun q => lib.canonicalizeQuery (UrlSanitizer.sanitizeQuery q) := by
      generalize u.query = q, v.query = q' at hquery
      cases hquery with
      | none => rfl
      | some hsame => rw [Option.map_some, Option.map_some, hsame.sanitizeQuery_eq]
    unfold GURL.spec UrlSanitizer.scrubbed
    simp only [GURL.userinfo, hu, hv, hscheme, hhost, hport, hpath, hscrubbed]

/-! ## Two runs of the collector -/

namespace BrowserObservationCollector

/-- An active collector shows of a URL its sanitized form and its origin. -/
theorem emitEvent_eq_iff (lib : UrlLibrary) {collector : BrowserObservationCollector}
    (henabled : collector.isEnabled = true) (htransport : collector.hasTransport = true)
    (data : EventData) (id createdAt : Text) :
    emitEvent lib collector data u id createdAt = emitEvent lib collector data v id createdAt
      ↔ UrlSanitizer.sanitizeUrl lib u collector.urlPolicy
          = UrlSanitizer.sanitizeUrl lib v collector.urlPolicy
        ∧ (u.deprecatedGetOriginAsURL lib).spec = (v.deprecatedGetOriginAsURL lib).spec := by
  unfold emitEvent
  simp only [henabled, htransport, Bool.true_eq_false, or_self, if_false, Option.some.injEq]
  exact ObservationEnvelope.toValueDict_eq_iff
    { id, createdAt, eventType := data.eventType, windowId := data.windowId, tabId := data.tabId
      isActiveTab := data.isActiveTab, url := [], origin := [], title := data.title
      isIncognito := data.isIncognito }

/-- URLs that the policy must not distinguish give the same observation exactly when the
policy is not to omit the URL, or nothing is sent, or the URLs have the same origin anyway. -/
theorem emitEvent_eq_iff_of_mustNotDistinguish (lib : UrlLibrary)
    (collector : BrowserObservationCollector) (data : EventData) (hu : u.isValid = true)
    (hv : v.isValid = true) (h : MustNotDistinguish collector.urlPolicy u v)
    (id createdAt : Text) :
    emitEvent lib collector data u id createdAt = emitEvent lib collector data v id createdAt
      ↔ collector.urlPolicy ≠ .kOmitted ∨ collector.isEnabled = false
        ∨ collector.hasTransport = false
        ∨ (u.deprecatedGetOriginAsURL lib).spec = (v.deprecatedGetOriginAsURL lib).spec := by
  by_cases hactive : collector.isEnabled = true ∧ collector.hasTransport = true
  · obtain ⟨henabled, htransport⟩ := hactive
    rw [emitEvent_eq_iff lib henabled htransport]
    simp only [h.sanitizeUrl_eq lib hu hv, henabled, htransport, true_and, Bool.true_eq_false,
      false_or]
    cases hpolicy : collector.urlPolicy with
    | kOmitted => simp
    | kOriginOnly =>
      rw [hpolicy] at h
      simp [SameOrigin.getOrigin_eq lib hu hv h]
    | kFullUrlSanitized =>
      rw [hpolicy] at h
      simp [SameOrigin.getOrigin_eq lib hu hv h.1]
  · have hoff : collector.isEnabled = false ∨ collector.hasTransport = false := by
      rcases not_and_or.mp hactive with hoff | hoff
      · exact Or.inl (Bool.eq_false_iff.mpr hoff)
      · exact Or.inr (Bool.eq_false_iff.mpr hoff)
    unfold emitEvent
    rw [if_pos hoff, if_pos hoff]
    rcases hoff with hoff | hoff
    · simp [hoff]
    · simp [hoff]

end BrowserObservationCollector

/-! ## An omitted URL -/

section Omitted

/-- A collector that is to omit URLs, a library that knows `https`, and two sites. -/
def omittingCollector : BrowserObservationCollector :=
  { isEnabled := true, urlPolicy := .kOmitted, hasTransport := true }

/-- A library that knows `https` alone as a standard scheme. -/
def httpsLibrary : UrlLibrary where
  isStandard scheme := scheme = "https".toList
  canonicalizeQuery := id

/-- The start page of a host. -/
def siteUrl (host : Text) : GURL :=
  { isValid := true, scheme := "https".toList, host := some host, path := "/".toList }

def committed : BrowserObservationCollector.EventData where
  eventType := .kNavigationCommitted
  windowId := 1
  tabId := 0
  isActiveTab := true
  title := []
  isIncognito := false

/-- The observation of an omitted URL names its site. -/
theorem emitEvent_omitted_ne :
    MustNotDistinguish omittingCollector.urlPolicy (siteUrl "clinic.example".toList)
        (siteUrl "news.example".toList)
      ∧ BrowserObservationCollector.emitEvent httpsLibrary omittingCollector committed
          (siteUrl "clinic.example".toList) [] []
        ≠ BrowserObservationCollector.emitEvent httpsLibrary omittingCollector committed
          (siteUrl "news.example".toList) [] [] := by
  refine ⟨trivial, fun h => ?_⟩
  have := ((BrowserObservationCollector.emitEvent_eq_iff httpsLibrary rfl rfl _ _ _).mp h).2
  exact absurd this (by decide)

/-- Two pages of one site are not told apart. -/
theorem emitEvent_omitted_same_site :
    BrowserObservationCollector.emitEvent httpsLibrary omittingCollector committed
        (siteUrl "news.example".toList) [] []
      = BrowserObservationCollector.emitEvent httpsLibrary omittingCollector committed
        { siteUrl "news.example".toList with path := "/a".toList } [] [] :=
  (BrowserObservationCollector.emitEvent_eq_iff_of_mustNotDistinguish httpsLibrary
    omittingCollector committed rfl rfl trivial _ _).mpr (Or.inr (Or.inr (Or.inr (by decide))))

end Omitted

end ThoriumFrugal.Cognitia

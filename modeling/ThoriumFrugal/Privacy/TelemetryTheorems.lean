import ThoriumFrugal.Privacy.PrivacyPolicyManagerTheorems
import ThoriumFrugal.Privacy.TelemetryUrl

/-!
# What telemetry shows of a request

Target URLs are records of their components, with the characters that would move a
component boundary excluded by the fields. On such URLs every text operation of the
evaluation has a closed form, so two runs that differ in credentials can be compared event
by event.
-/

namespace ThoriumFrugal.Privacy

open Lib

/-! ## Target URLs by component -/

/-- `scheme://[userinfo@]host[:port]/path?query`. A query item is a key with a value, or a
bare key. -/
structure TargetUrl where
  scheme : Text
  userinfo : Option Text
  hostPort : Text
  path : Text
  query : List (Text × Option Text)
  scheme_clean : ∀ c ∈ scheme, c ∉ ":/?#@".toList
  userinfo_clean : ∀ i ∈ userinfo, ∀ c ∈ i, c ∉ "/?#".toList
  hostPort_clean : ∀ c ∈ hostPort, c ∉ "/?#@".toList
  path_clean : ∀ c ∈ path, c ∉ "?#".toList
  key_clean : ∀ item ∈ query, ∀ c ∈ item.1, c ∉ "&=#".toList
  value_clean : ∀ item ∈ query, ∀ v ∈ item.2, ∀ c ∈ v, c ∉ "&#".toList

namespace TargetUrl

/-- A query item as it is written. -/
def itemText : Text × Option Text → Text
  | (key, none) => key
  | (key, some value) => key ++ '=' :: value

/-- The authority with the userinfo. -/
def authority (u : TargetUrl) : Text :=
  match u.userinfo with
  | none => u.hostPort
  | some i => i ++ '@' :: u.hostPort

/-- The scheme, and what separates it from the authority. -/
def origin (u : TargetUrl) : Text := u.scheme ++ "://".toList

/-- The query without its `?`. -/
def queryText (u : TargetUrl) : Text := Text.join ['&'] (u.query.map itemText)

/-- The URL string. -/
def spec (u : TargetUrl) : Text :=
  u.origin ++ (u.authority ++ '/' :: (u.path ++ '?' :: u.queryText))

/-- The host name that the engine judges: the authority up to its first colon, in lower
case. -/
def evaluatedHost (u : TargetUrl) : Text :=
  Text.toLower (u.authority.takeWhile (· ≠ ':'))

/-- The part of the authority that telemetry keeps: what stands behind its first `@`. -/
def keptAuthority (u : TargetUrl) : Text :=
  if '@' ∈ u.authority then (u.authority.dropWhile (· ≠ '@')).tail else u.authority

variable (u : TargetUrl)

theorem not_mem_authority {c : Char} (hc : c ∈ "/?#".toList) : c ∉ u.authority := by
  have hhost : c ∉ u.hostPort := fun h =>
    u.hostPort_clean c h (List.mem_append_left "@".toList hc)
  unfold authority
  cases hi : u.userinfo with
  | none => exact hhost
  | some i =>
    have hinfo : c ∉ i := fun h => u.userinfo_clean i hi c h hc
    have hat : c ≠ '@' := by rintro rfl; exact absurd hc (by decide)
    simp [hhost, hinfo, hat]

theorem not_mem_path {c : Char} (hc : c ∈ "?#".toList) : c ∉ u.path :=
  fun h => u.path_clean c h hc

theorem not_mem_itemText {c : Char} (hc : c ∈ "&#".toList) {item : Text × Option Text}
    (hitem : item ∈ u.query) : c ∉ itemText item := by
  obtain ⟨key, value⟩ := item
  have hkey : c ∉ key := fun h => u.key_clean _ hitem c h (by revert hc; simp; tauto)
  have heq : c ≠ '=' := by rintro rfl; exact absurd hc (by decide)
  cases value with
  | none => exact hkey
  | some v =>
    have hv : c ∉ v := fun h => u.value_clean _ hitem v rfl c h hc
    simp [itemText, hkey, heq, hv]

/-! ## The host and the path -/

/-- The URL string as a scheme and what stands behind it. -/
def schemeUrl : Url.SchemeUrl where
  scheme := u.scheme
  rest := u.authority ++ '/' :: (u.path ++ '?' :: u.queryText)
  scheme_clean c hc hmem := u.scheme_clean c hc (List.mem_append_left ['@'] hmem)

theorem spec_schemeUrl : u.schemeUrl.spec = u.spec := rfl

theorem authority_clean : ∀ c ∈ u.authority, c ∉ "/?#".toList :=
  fun _ hc hmem => u.not_mem_authority hmem hc

theorem extractHostname_spec : ThirdPartyClassifier.extractHostname u.spec = u.evaluatedHost :=
  ThirdPartyClassifier.extractHostname_of_authority
    (ThirdPartyClassifier.drop_schemeEnd_spec u.schemeUrl) u.authority_clean (by simp)

theorem extractPath_spec : TrackerBlocker.extractPath u.spec = '/' :: u.path := by
  have hpath : ∀ c ∈ '/' :: u.path, (!"?#".toList.contains c) = true := by
    intro c hc
    rcases List.mem_cons.mp hc with rfl | hc
    · decide
    · simpa using u.path_clean c hc
  rw [← u.spec_schemeUrl, TrackerBlocker.extractPath_of_authority
    (ThirdPartyClassifier.drop_schemeEnd_spec u.schemeUrl) u.authority_clean]
  unfold TrackerBlocker.pathBehindScheme
  rw [if_pos List.mem_cons_self, List.dropWhile_cons_of_neg (by simp), ← List.cons_append]
  exact Text.takeWhile_append_stop hpath (by simp)

/-! ## The telemetry URL -/

theorem afterUserinfo_rest : PrivacyPolicyManager.afterUserinfo u.schemeUrl.rest
    = u.keptAuthority ++ '/' :: (u.path ++ '?' :: u.queryText) := by
  have hslash := u.not_mem_authority (c := '/') (by decide)
  have htake : u.schemeUrl.rest.takeWhile (· ≠ '/') = u.authority :=
    Text.takeWhile_append_stop (Text.ne_of_not_mem hslash) (by simp)
  unfold PrivacyPolicyManager.afterUserinfo keptAuthority
  rw [htake]
  split
  · next hat =>
    obtain ⟨a, b, hauthority, ha⟩ := List.eq_append_cons_of_mem hat
    have hkept : ∀ t : Text, ((a ++ '@' :: t).dropWhile (· ≠ '@')).tail = t := by
      intro t
      rw [Text.dropWhile_append_stop (Text.ne_of_not_mem ha) (by simp)]
      rfl
    unfold schemeUrl
    simp only [hauthority, List.append_assoc, List.cons_append, hkept]
  · rfl

/-- A query item as telemetry shows it. -/
def redactedItem (item : Text × Option Text) : Text :=
  if PrivacyPolicyManager.isSensitiveQueryKey item.1 then item.1 ++ "=[REDACTED]".toList
  else itemText item

theorem redactItem_itemText {item : Text × Option Text} (h : '=' ∉ item.1) :
    PrivacyPolicyManager.redactItem (itemText item) = redactedItem item := by
  obtain ⟨key, value⟩ := item
  have hkey : itemKey (itemText (key, value)) = key := by
    cases value with
    | none => exact itemKey_of_not_mem h
    | some v => exact itemKey_append h
  unfold PrivacyPolicyManager.redactItem redactedItem
  rw [hkey]

/-- What telemetry shows of the query items: nothing of an empty one. -/
def shownItems : List Text :=
  u.query.filterMap fun item => if itemText item = [] then none else some (redactedItem item)

theorem map_redactItem_queryItems :
    (queryItems u.queryText).map PrivacyPolicyManager.redactItem = u.shownItems := by
  have hitems : ∀ t ∈ u.query.map itemText, '&' ∉ t := by
    intro t ht
    obtain ⟨item, hitem, rfl⟩ := List.mem_map.mp ht
    exact u.not_mem_itemText (by decide) hitem
  unfold queryItems queryText shownItems
  rw [Text.filter_getlines_join hitems]
  have hkeys : ∀ item ∈ u.query, '=' ∉ item.1 := fun item hitem h =>
    u.key_clean item hitem '=' h (by decide)
  generalize u.query = items at hkeys
  induction items with
  | nil => rfl
  | cons item items ih =>
    obtain ⟨hitem, hrest⟩ := List.forall_mem_cons.mp hkeys
    rw [List.map_cons, List.filter_cons, List.filterMap_cons, ← ih hrest]
    by_cases hnil : itemText item = []
    · simp [hnil]
    · simp [hnil, redactItem_itemText hitem]

/-- The query part of the telemetry URL. -/
def redactedQuery : Text :=
  if Text.join ['&'] u.shownItems = [] then [] else '?' :: Text.join ['&'] u.shownItems

theorem sanitizeUrlForTelemetry_spec : PrivacyPolicyManager.sanitizeUrlForTelemetry u.spec
    = u.origin ++ (u.keptAuthority ++ '/' :: (u.path ++ u.redactedQuery)) := by
  have hkept : '?' ∉ u.keptAuthority := by
    unfold keptAuthority
    split
    · exact fun h => u.not_mem_authority (c := '?') (by decide)
        ((List.dropWhile_sublist _).subset (List.mem_of_mem_tail h))
    · exact u.not_mem_authority (by decide)
  have hquery : '#' ∉ u.queryText := by
    refine Text.not_mem_join (by decide) fun t ht => ?_
    obtain ⟨item, hitem, rfl⟩ := List.mem_map.mp ht
    exact u.not_mem_itemText (by decide) hitem
  have hcuts : (UrlParts.mk (u.keptAuthority ++ '/' :: u.path) u.queryText []).Cuts
      (PrivacyPolicyManager.afterUserinfo u.schemeUrl.rest) :=
    ⟨by simp [afterUserinfo_rest],
      by simp [hkept, u.not_mem_path (c := '?') (by decide)], hquery, by simp⟩
  have hitems := PrivacyPolicyManager.redactedItems_clean u.queryText
  have hsanitized := PrivacyPolicyManager.sanitizeUrlForTelemetry_of_cuts u.schemeUrl hcuts
  unfold PrivacyPolicyManager.redactedItems at hitems hsanitized
  rw [map_redactItem_queryItems] at hitems
  simp only [map_redactItem_queryItems] at hsanitized
  rw [← u.spec_schemeUrl, hsanitized]
  unfold redactedQuery Privacy.queryText
  simp [join_eq_nil_iff hitems, schemeUrl, origin, Url.SchemeUrl.origin]

/-! ## URLs that differ in credentials only -/

/-- Two query items that telemetry must not distinguish: the same key, and the same value
unless the key is sensitive. -/
def SameItem (a b : Text × Option Text) : Prop :=
  a.1 = b.1 ∧ (PrivacyPolicyManager.isSensitiveQueryKey a.1 = true ∨ a.2 = b.2)

/-- Two URLs that differ only in userinfo and in the values of sensitive query keys. -/
structure SameButCredentials (u v : TargetUrl) : Prop where
  scheme : u.scheme = v.scheme
  hostPort : u.hostPort = v.hostPort
  path : u.path = v.path
  query : List.Forall₂ SameItem u.query v.query

variable {u} {v : TargetUrl}

theorem SameItem.redactedItem_eq {a b : Text × Option Text} (h : SameItem a b) :
    (if itemText a = [] then none else some (redactedItem a))
      = if itemText b = [] then none else some (redactedItem b) := by
  obtain ⟨k, x⟩ := a
  obtain ⟨k', y⟩ := b
  obtain ⟨rfl, hkey | hvalue⟩ := h
  · -- an item with a sensitive key is never empty, so it is shown whatever its value
    have hk : k ≠ [] := by
      rintro rfl
      exact absurd (show PrivacyPolicyManager.isSensitiveQueryKey [] = true from hkey) (by decide)
    have hne : ∀ x, itemText (k, x) ≠ [] := fun x => by cases x <;> simp [itemText, hk]
    rw [if_neg (hne x), if_neg (hne y)]
    simp only [redactedItem, hkey, if_true]
  · rw [show x = y from hvalue]

theorem SameButCredentials.shownItems_eq (h : SameButCredentials u v) :
    u.shownItems = v.shownItems := by
  unfold shownItems
  have hquery := h.query
  generalize u.query = as at hquery
  generalize v.query = bs at hquery
  induction hquery with
  | nil => rfl
  | cons hitem hrest ih =>
    rw [List.filterMap_cons, List.filterMap_cons, hitem.redactedItem_eq, ih]

/-- Of two such URLs, telemetry shows the same URL exactly when it keeps the same part of
the authority. -/
theorem SameButCredentials.sanitizedUrl_eq_iff (h : SameButCredentials u v) :
    PrivacyPolicyManager.sanitizeUrlForTelemetry u.spec
        = PrivacyPolicyManager.sanitizeUrlForTelemetry v.spec
      ↔ u.keptAuthority = v.keptAuthority := by
  have horigin : u.origin = v.origin := congrArg (· ++ "://".toList) h.scheme
  have hredacted : u.redactedQuery = v.redactedQuery := by
    unfold redactedQuery
    rw [h.shownItems_eq]
  rw [sanitizeUrlForTelemetry_spec, sanitizeUrlForTelemetry_spec, horigin, h.path, hredacted,
    List.append_cancel_left_eq, List.append_cancel_right_eq]

end TargetUrl

namespace PrivacyPolicyManager

/-! ## Two runs -/

/-- An event without the two fields that differ from call to call. -/
def anonymize (event : PrivacyEvent) : PrivacyEvent :=
  { event with eventId := [], timestamp := [] }

/-- The evaluations of two target URLs decide alike and dispatch the same events, up to
event ids and timestamps. -/
def SameTelemetry (manager : PrivacyPolicyManager) (url url' initiator : Text)
    (type : ResourceType) (now now' : Text) : Prop :=
  (manager.evaluateRequest url initiator type now).1.decision
      = (manager.evaluateRequest url' initiator type now').1.decision
    ∧ (manager.evaluateRequest url initiator type now).2.1.map anonymize
      = (manager.evaluateRequest url' initiator type now').2.1.map anonymize

/-- The stored rules have something to report about a request: a block rule names its host,
or they block it. -/
def Reported (l : List ParsedRule) (q : Request) : Prop :=
  q.host ≠ [] ∧ ((∃ r ∈ l, r.ruleType = .kBlock ∧ r.domainPattern ≠ []
    ∧ RuleDatabase.DomainMatch r q.host) ∨ RulesBlock l q)

instance (l : List ParsedRule) (q : Request) : Decidable (Reported l q) :=
  inferInstanceAs (Decidable (_ ∧ _))

instance (manager : PrivacyPolicyManager) (url url' initiator : Text) (type : ResourceType)
    (now now' : Text) : Decidable (manager.SameTelemetry url url' initiator type now now') :=
  inferInstanceAs (Decidable (_ ∧ _))

section

variable (manager : PrivacyPolicyManager) (url initiator : Text) (type : ResourceType)
  (now : Text)

/-- Every event names the host and the telemetry URL of the request. -/
theorem event_fields {event : PrivacyEvent}
    (h : event ∈ (manager.evaluateRequest url initiator type now).2.1) :
    event.host = ThirdPartyClassifier.extractHostname url
      ∧ event.sanitizedUrl = sanitizeUrlForTelemetry url := by
  have hcase := manager.dispatch_evaluateRequest url initiator type now
  generalize (manager.evaluateRequest url initiator type now).2 = r at hcase h
  cases hcase with
  | nothing => cases h
  | event e hid hhost hurl =>
    rw [List.mem_singleton.mp h]
    exact ⟨hhost, hurl⟩

/-- A request is blocked with an event only. -/
theorem decision_of_events_eq_nil
    (h : (manager.evaluateRequest url initiator type now).2.1 = []) :
    (manager.evaluateRequest url initiator type now).1.decision = .kAllow := by
  revert h
  simp only [evaluateRequest]
  split
  · simp
  · split
    · simp
    · split
      · simp
      · next hnone =>
        intro _
        cases hd : (manager.trackerBlocker.evaluateRequest url initiator type).decision with
        | kAllow => rfl
        | kBlock => simp [ruleEventType, hd] at hnone

variable (ops : List RuleDatabase.Op)

/-- When an evaluation dispatches no event. -/
theorem events_eq_nil_iff :
    ((withRules manager ops).evaluateRequest url initiator type now).2.1 = []
      ↔ manager.enabled = false ∨ (manager.lookupException initiator ≠ .kAllowAll
        ∧ ¬Reported (RuleDatabase.stored ops)
          { targetUrl := url, initiatorOrigin := initiator, resourceType := type }) := by
  have hrep := RuleDatabase.represents_reached ops
  generalize hq : ({ targetUrl := url, initiatorOrigin := initiator, resourceType := type } :
    Request) = q
  have hblocker : (withRules manager ops).trackerBlocker.evaluateRequest url initiator type
      = TrackerBlocker.evaluate (RuleDatabase.reached ops) q := by
    subst hq
    rfl
  have hdecision := TrackerBlocker.decision_evaluate hrep q
  -- behind the exceptions an event is left out exactly when there is nothing to report
  have hevent : ruleEventType (TrackerBlocker.evaluate (RuleDatabase.reached ops) q) = none
      ↔ ¬Reported (RuleDatabase.stored ops) q := by
    unfold ruleEventType Reported
    by_cases hd : (TrackerBlocker.evaluate (RuleDatabase.reached ops) q).decision = .kBlock
    · have := hdecision.mp hd
      simp [hd, this]
    · have hclass := TrackerBlocker.classification_evaluate hrep hd
      have hrules := fun hhost => not_and.mp (hdecision.not.mp hd) hhost
      by_cases hc : (TrackerBlocker.evaluate (RuleDatabase.reached ops) q).classification
          = .kKnownTracker
      · have := hclass.mp hc
        simp [hd, hc, this]
      · have hnone := not_and.mp (hclass.not.mp hc)
        simp only [hd, hc, if_false, true_iff, not_and, not_or]
        exact fun hhost => ⟨hnone hhost, hrules hhost⟩
  have hlookup : (withRules manager ops).lookupException initiator
      = manager.lookupException initiator := rfl
  have henabled : (withRules manager ops).enabled = manager.enabled := rfl
  rw [← hevent]
  simp only [evaluateRequest, hblocker, hlookup, henabled]
  by_cases hoff : manager.enabled = false
  · simp [hoff]
  · by_cases hall : manager.lookupException initiator = .kAllowAll
    · simp [hoff, hall]
    · cases ht : ruleEventType (TrackerBlocker.evaluate (RuleDatabase.reached ops) q) with
      | none => simp [hoff, hall]
      | some eventType => simp [hoff, hall]

end

/-- Target URLs with the same host, path and telemetry URL give the same telemetry. -/
theorem sameTelemetry_of_eq (manager : PrivacyPolicyManager) {url url' : Text}
    (hhost : ThirdPartyClassifier.extractHostname url = ThirdPartyClassifier.extractHostname url')
    (hpath : TrackerBlocker.extractPath url = TrackerBlocker.extractPath url')
    (hsanitized : sanitizeUrlForTelemetry url = sanitizeUrlForTelemetry url')
    (initiator : Text) (type : ResourceType) (now now' : Text) :
    manager.SameTelemetry url url' initiator type now now' := by
  have hblocker := TrackerBlocker.evaluateRequest_congr hhost hpath manager.trackerBlocker
    initiator type
  have hparty := ThirdPartyClassifier.classify_congr hhost initiator
  unfold SameTelemetry
  simp only [evaluateRequest, hblocker, hparty]
  split
  · exact ⟨rfl, rfl⟩
  · split
    · simp [anonymize, requestEvent, hhost, hsanitized]
    · split <;> simp [anonymize, requestEvent, hhost, hsanitized]

/-- Two target URLs that differ in credentials only give the same decision and events
exactly when nothing is dispatched for either of them, or the credentials leave the judged
host and the kept part of the authority alone. -/
theorem sameTelemetry_iff (manager : PrivacyPolicyManager) (ops : List RuleDatabase.Op)
    {u v : TargetUrl} (h : TargetUrl.SameButCredentials u v) (initiator : Text)
    (type : ResourceType) (now now' : Text) :
    (withRules manager ops).SameTelemetry u.spec v.spec initiator type now now'
      ↔ manager.enabled = false
        ∨ (manager.lookupException initiator ≠ .kAllowAll
          ∧ ¬Reported (RuleDatabase.stored ops)
            { targetUrl := u.spec, initiatorOrigin := initiator, resourceType := type }
          ∧ ¬Reported (RuleDatabase.stored ops)
            { targetUrl := v.spec, initiatorOrigin := initiator, resourceType := type })
        ∨ (u.evaluatedHost = v.evaluatedHost ∧ u.keptAuthority = v.keptAuthority) := by
  have hnil := fun (w : TargetUrl) now =>
    events_eq_nil_iff manager w.spec initiator type now ops
  constructor
  · rintro ⟨-, hevents⟩
    cases hu : ((withRules manager ops).evaluateRequest u.spec initiator type now).2.1 with
    | nil =>
      rw [hu, List.map_nil, eq_comm, List.map_eq_nil_iff] at hevents
      rcases (hnil u now).mp hu with hoff | ⟨hall, hu'⟩
      · exact Or.inl hoff
      · rcases (hnil v now').mp hevents with hoff | ⟨-, hv'⟩
        · exact Or.inl hoff
        · exact Or.inr (Or.inl ⟨hall, hu', hv'⟩)
    | cons event rest =>
      -- the first event shows host and URL of both requests
      rw [hu, List.map_cons] at hevents
      have hmem := hevents ▸ List.mem_cons_self
      obtain ⟨event', hevent', hsame⟩ := List.mem_map.mp hmem
      have hfields := event_fields _ _ _ _ _ (hu ▸ List.mem_cons_self : event ∈ _)
      have hfields' := event_fields _ _ _ _ _ hevent'
      have hhost : (anonymize event').host = (anonymize event).host := by rw [hsame]
      have hurl : (anonymize event').sanitizedUrl = (anonymize event).sanitizedUrl := by
        rw [hsame]
      change event'.host = event.host at hhost
      change event'.sanitizedUrl = event.sanitizedUrl at hurl
      rw [hfields.1, hfields'.1, TargetUrl.extractHostname_spec,
        TargetUrl.extractHostname_spec] at hhost
      rw [hfields.2, hfields'.2] at hurl
      exact Or.inr (Or.inr ⟨hhost.symm, h.sanitizedUrl_eq_iff.mp hurl.symm⟩)
  · -- without an event both requests are allowed
    have hquiet : ((withRules manager ops).evaluateRequest u.spec initiator type now).2.1 = [] →
        ((withRules manager ops).evaluateRequest v.spec initiator type now').2.1 = [] →
        (withRules manager ops).SameTelemetry u.spec v.spec initiator type now now' :=
      fun hu hv => ⟨by rw [decision_of_events_eq_nil _ _ _ _ _ hu,
        decision_of_events_eq_nil _ _ _ _ _ hv], by rw [hu, hv]⟩
    rintro (hoff | ⟨hall, hu, hv⟩ | ⟨hhost, hkept⟩)
    · exact hquiet ((hnil u now).mpr (Or.inl hoff)) ((hnil v now').mpr (Or.inl hoff))
    · exact hquiet ((hnil u now).mpr (Or.inr ⟨hall, hu⟩)) ((hnil v now').mpr (Or.inr ⟨hall, hv⟩))
    · refine sameTelemetry_of_eq _ ?_ ?_ (h.sanitizedUrl_eq_iff.mpr hkept) _ _ _ _
      · rw [TargetUrl.extractHostname_spec, TargetUrl.extractHostname_spec, hhost]
      · rw [TargetUrl.extractPath_spec, TargetUrl.extractPath_spec, h.path]

/-- A target URL on a tracker's host, with or without a user name and password. -/
def trackerUrl (userinfo : Option Text) (clean : ∀ i ∈ userinfo, ∀ c ∈ i, c ∉ "/?#".toList) :
    TargetUrl where
  scheme := "https".toList
  userinfo := userinfo
  hostPort := "tracker.com".toList
  path := "p".toList
  query := [("id".toList, some "7".toList)]
  scheme_clean := by simp
  userinfo_clean := clean
  hostPort_clean := by simp
  path_clean := by simp
  key_clean := by simp
  value_clean := by simp

/-- Userinfo in front of a blocked host gets the request through, without an event. -/
theorem not_sameTelemetry_userinfo :
    TargetUrl.SameButCredentials (trackerUrl none (by simp))
        (trackerUrl (some "alice:pw".toList) (by simp))
      ∧ ¬(withRules { processPrefix := "lt_priv_1000_".toList }
          [.loadFromText "||tracker.com^".toList]).SameTelemetry
        (trackerUrl none (by simp)).spec
        (trackerUrl (some "alice:pw".toList) (by simp)).spec
        "https://news.example/".toList .kScript [] [] :=
  ⟨⟨rfl, rfl, rfl, .cons ⟨rfl, Or.inr rfl⟩ .nil⟩, by decide⟩

/-- Two passwords of one user are not told apart. -/
theorem sameTelemetry_passwords :
    (withRules { processPrefix := "lt_priv_1000_".toList }
        [.loadFromText "||tracker.com^".toList]).SameTelemetry
      (trackerUrl (some "alice:pw".toList) (by simp)).spec
      (trackerUrl (some "alice:other".toList) (by simp)).spec
      "https://news.example/".toList .kScript [] [] :=
  (sameTelemetry_iff { processPrefix := "lt_priv_1000_".toList }
    [.loadFromText "||tracker.com^".toList] (u := trackerUrl (some "alice:pw".toList) (by simp))
    (v := trackerUrl (some "alice:other".toList) (by simp))
    ⟨rfl, rfl, rfl, .cons ⟨rfl, Or.inr rfl⟩ .nil⟩ _ _ _ _).mpr (Or.inr (Or.inr (by decide)))

end PrivacyPolicyManager
end ThoriumFrugal.Privacy

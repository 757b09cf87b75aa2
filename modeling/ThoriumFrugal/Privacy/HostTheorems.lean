import ThoriumFrugal.Privacy.StrippingTheorems

/-!
# The host that is judged

The engine's host name ends at the first colon of the authority, and a userinfo is not cut off in
front of it. Which URLs are judged by the host they are sent to follows from where that colon
stands.
-/

namespace ThoriumFrugal.Privacy

open Lib

/-- `scheme://[userinfo@]host[:port][/path][?query][#fragment]`. The host is a registered name or an
IPv4 address, neither of which holds a delimiter, or an IPv6 literal in its brackets. -/
structure WebUrl where
  scheme : Text
  userinfo : Option Text
  host : Text
  port : Option Text
  tail : Text
  scheme_clean : ∀ c ∈ scheme, c ∉ ":/?#".toList
  userinfo_clean : ∀ i ∈ userinfo, ∀ c ∈ i, c ∉ "/?#@".toList
  host_form : (∀ c ∈ host, c ∉ "/?#@:[]".toList)
    ∨ ∃ literal, host = '[' :: (literal ++ [']']) ∧ ':' ∈ literal
      ∧ ∀ c ∈ literal, c ∉ "/?#@[]".toList
  port_digits : ∀ p ∈ port, ∀ c ∈ p, c.isDigit = true
  tail_start : ∀ c ∈ tail.head?, c ∈ "/?#".toList

namespace WebUrl

variable (u : WebUrl)

/-- The userinfo with its `@`. -/
def userinfoText : Text :=
  match u.userinfo with
  | none => []
  | some i => i ++ ['@']

/-- The port with its colon. -/
def portText : Text :=
  match u.port with
  | none => []
  | some p => ':' :: p

/-- What stands between the `//` and the path. -/
def authority : Text := u.userinfoText ++ (u.host ++ u.portText)

/-- The URL string as a scheme and what stands behind it. -/
def schemeUrl : Url.SchemeUrl where
  scheme := u.scheme
  rest := u.authority ++ u.tail
  scheme_clean := u.scheme_clean

/-- The URL string. -/
def spec : Text := u.schemeUrl.spec

/-- The engine's host name is the host: it is no IPv6 literal, and a userinfo has a colon with the
host in front of it. -/
def ShowsHost : Prop :=
  ':' ∉ u.host ∧ ∀ i ∈ u.userinfo,
    ':' ∈ i ∧ Text.toLower (i.takeWhile (· ≠ ':')) = Text.toLower u.host

theorem not_mem_host {c : Char} (hc : c ∈ "/?#@".toList) : c ∉ u.host := by
  intro hmem
  rcases u.host_form with hname | ⟨literal, hhost, -, hliteral⟩
  · exact hname c hmem (List.mem_append_left ":[]".toList hc)
  · rw [hhost, List.mem_cons, List.mem_append, List.mem_singleton] at hmem
    rcases hmem with rfl | hmem | rfl
    · exact absurd hc (by decide)
    · exact hliteral c hmem (List.mem_append_left "[]".toList hc)
    · exact absurd hc (by decide)

theorem authority_clean : ∀ c ∈ u.authority, c ∉ "/?#".toList := by
  intro c hc hmem
  have hstop : c ∈ "/?#@".toList := List.mem_append_left ['@'] hmem
  -- a character of userinfo, host or port
  unfold authority at hc
  rw [List.mem_append, List.mem_append] at hc
  rcases hc with hc | hc | hc
  · unfold userinfoText at hc
    cases hi : u.userinfo with
    | none =>
      rw [hi] at hc
      cases hc
    | some i =>
      rw [hi, List.mem_append, List.mem_singleton] at hc
      rcases hc with hc | rfl
      · exact u.userinfo_clean i hi c hc hstop
      · exact absurd hmem (by decide)
  · exact u.not_mem_host hstop hc
  · unfold portText at hc
    cases hp : u.port with
    | none =>
      rw [hp] at hc
      cases hc
    | some p =>
      rw [hp, List.mem_cons] at hc
      rcases hc with rfl | hc
      · exact absurd hmem (by decide)
      · have hdigit := u.port_digits p hp c hc
        have hstops : c = '/' ∨ c = '?' ∨ c = '#' := by simpa using hmem
        rcases hstops with rfl | rfl | rfl <;> cases hdigit

theorem extractHostname_spec : ThirdPartyClassifier.extractHostname u.spec
    = Text.toLower (u.authority.takeWhile (· ≠ ':')) :=
  ThirdPartyClassifier.extractHostname_of_authority
    (ThirdPartyClassifier.drop_schemeEnd_spec u.schemeUrl) u.authority_clean u.tail_start

/-- A host name never holds a colon. -/
theorem colon_not_mem_extractHostname (s : Text) :
    ':' ∉ ThirdPartyClassifier.extractHostname s := by
  rw [ThirdPartyClassifier.extractHostname_eq, Text.mem_toLower (by decide)]
  intro h
  simpa using List.mem_takeWhile_imp h

theorem extractHostname_eq_iff : ThirdPartyClassifier.extractHostname u.spec = Text.toLower u.host
    ↔ u.ShowsHost := by
  have hport : ∀ c ∈ u.portText.head?, decide (c ≠ ':') = false := by
    unfold portText
    cases u.port <;> simp
  have hnocolon := colon_not_mem_extractHostname u.spec
  unfold ShowsHost
  rw [extractHostname_spec] at hnocolon ⊢
  by_cases hcolon : ':' ∈ u.host
  · -- a host name never holds a colon, an IPv6 literal does
    refine iff_of_false (fun h => ?_) fun h => h.1 hcolon
    rw [h, Text.mem_toLower (by decide)] at hnocolon
    exact hnocolon hcolon
  unfold authority userinfoText
  cases u.userinfo with
  | none =>
    simp only [List.nil_append]
    rw [Text.takeWhile_append_stop (Text.ne_of_not_mem hcolon) hport]
    simp [hcolon]
  | some i =>
    by_cases hi : ':' ∈ i
    · -- the host name is the user name
      obtain ⟨a, b, rfl, ha⟩ := List.eq_append_cons_of_mem hi
      have htake : ∀ t : Text, (a ++ ':' :: t).takeWhile (· ≠ ':') = a := fun t =>
        Text.takeWhile_append_stop (Text.ne_of_not_mem ha) (by simp)
      simp only [List.append_assoc, List.cons_append, htake, hcolon, not_false_eq_true, true_and,
        Option.mem_some_iff, forall_eq']
      exact (and_iff_right hi).symm
    · refine iff_of_false (fun h => ?_) (by simp [hi])
      -- the name runs on into the host, over the `@`
      have hat : '@' ∉ Text.toLower u.host := by
        rw [Text.mem_toLower (by decide)]
        exact u.not_mem_host (by decide)
      simp only [List.append_assoc] at h
      rw [← h, Text.mem_toLower (by decide),
        List.takeWhile_append_of_pos (Text.ne_of_not_mem hi)] at hat
      simp at hat

theorem spec_ne_nil : u.spec ≠ [] := by
  simp [spec, Url.SchemeUrl.spec, Url.SchemeUrl.origin]

/-- Two URLs that differ in userinfo and port only. -/
structure SameTarget (u v : WebUrl) : Prop where
  scheme : u.scheme = v.scheme
  host : u.host = v.host
  tail : u.tail = v.tail

theorem SameTarget.extractPath_eq {u v : WebUrl} (h : u.SameTarget v) :
    TrackerBlocker.extractPath u.spec = TrackerBlocker.extractPath v.spec := by
  have hpath := fun w : WebUrl => TrackerBlocker.extractPath_of_authority
    (ThirdPartyClassifier.drop_schemeEnd_spec w.schemeUrl) w.authority_clean
  rw [spec, spec, hpath, hpath, h.tail]

end WebUrl

namespace PrivacyPolicyManager

/-- The manager looks at an initiator through its host only. -/
theorem result_evaluateRequest_congr_initiator (manager : PrivacyPolicyManager)
    {initiator initiator' : Text} (hne : initiator ≠ []) (hne' : initiator' ≠ [])
    (h : ThirdPartyClassifier.extractHostname initiator
      = ThirdPartyClassifier.extractHostname initiator')
    (url : Text) (type : ResourceType) (now now' : Text) :
    (manager.evaluateRequest url initiator type now).1
      = (manager.evaluateRequest url initiator' type now').1 := by
  have hparty := ThirdPartyClassifier.classify_congr_initiator hne hne' h url
  have hlookup : manager.lookupException initiator = manager.lookupException initiator' := by
    unfold lookupException
    rw [h]
  -- the blocker reads the initiator for the party relation only
  have hrules : manager.trackerBlocker.evaluateRequest url initiator type
      = manager.trackerBlocker.evaluateRequest url initiator' type := by
    unfold TrackerBlocker.evaluateRequest
    rw [hparty]
  rw [result_evaluateRequest, result_evaluateRequest, hparty, hlookup, hrules]

end PrivacyPolicyManager

namespace WebUrl

/-- The engine judges a URL by its host exactly when the host is no IPv6 literal and a userinfo
repeats it in front of a colon. URLs of which this holds and which differ in userinfo and port only
get the same verdicts, as targets and as initiators. -/
theorem judged_by_host_iff (u : WebUrl) :
    (ThirdPartyClassifier.extractHostname u.spec = Text.toLower u.host ↔ u.ShowsHost)
      ∧ ∀ v : WebUrl, u.SameTarget v → u.ShowsHost → v.ShowsHost →
        ∀ (manager : PrivacyPolicyManager) (url : Text) (type : ResourceType) (now now' : Text),
          (manager.evaluateRequest u.spec url type now).1
              = (manager.evaluateRequest v.spec url type now').1
            ∧ (manager.evaluateRequest url u.spec type now).1
              = (manager.evaluateRequest url v.spec type now').1 := by
  refine ⟨u.extractHostname_eq_iff, fun v hsame hu hv manager url type now now' => ?_⟩
  have hhost : ThirdPartyClassifier.extractHostname u.spec
      = ThirdPartyClassifier.extractHostname v.spec := by
    rw [u.extractHostname_eq_iff.mpr hu, v.extractHostname_eq_iff.mpr hv, hsame.host]
  exact ⟨manager.result_evaluateRequest_congr hhost hsame.extractPath_eq url type now now',
    manager.result_evaluateRequest_congr_initiator u.spec_ne_nil v.spec_ne_nil hhost url type now
      now'⟩

/-- A URL of a tracker, with or without a userinfo and a port. -/
def trackerHostUrl (userinfo port : Option Text)
    (userinfo_clean : ∀ i ∈ userinfo, ∀ c ∈ i, c ∉ "/?#@".toList)
    (port_digits : ∀ p ∈ port, ∀ c ∈ p, c.isDigit = true) : WebUrl where
  scheme := "https".toList
  userinfo := userinfo
  host := "tracker.com".toList
  port := port
  tail := "/".toList
  scheme_clean := by simp
  userinfo_clean := userinfo_clean
  host_form := Or.inl (by simp)
  port_digits := port_digits
  tail_start := by simp

/-- The user name is judged in place of the host. -/
theorem not_judged_by_host_userinfo :
    let u := trackerHostUrl (some "user:pw".toList) none (by simp) (by simp)
    u.spec = "https://user:pw@tracker.com/".toList
      ∧ ThirdPartyClassifier.extractHostname u.spec ≠ Text.toLower u.host := by
  decide

/-- A port is not judged. -/
theorem port_judged_by_host :
    let manager : PrivacyPolicyManager := { processPrefix := "lt_priv_1000_".toList }
    (manager.evaluateRequest (trackerHostUrl none (some "443".toList) (by simp) (by simp)).spec
        "https://news.example/".toList .kScript []).1
      = (manager.evaluateRequest (trackerHostUrl none none (by simp) (by simp)).spec
        "https://news.example/".toList .kScript []).1 :=
  ((judged_by_host_iff (trackerHostUrl none (some "443".toList) (by simp) (by simp))).2
    (trackerHostUrl none none (by simp) (by simp)) ⟨rfl, rfl, rfl⟩
    ⟨by decide, by simp [trackerHostUrl]⟩ ⟨by decide, by simp [trackerHostUrl]⟩
    { processPrefix := "lt_priv_1000_".toList } "https://news.example/".toList .kScript [] []).1

end WebUrl
end ThoriumFrugal.Privacy

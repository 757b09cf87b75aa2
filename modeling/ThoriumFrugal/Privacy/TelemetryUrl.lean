import ThoriumFrugal.Privacy.PrivacyPolicyManager
import ThoriumFrugal.Privacy.StrippedQueryTheorems

/-!
# The telemetry URL

What `SanitizeUrlForTelemetry` returns for a URL string with a scheme: the scheme, and behind it
what stands behind the first `@` of the authority, with the items behind the first `?` redacted.
-/

namespace ThoriumFrugal.Privacy.PrivacyPolicyManager

open Lib

/-! ## Redacted items -/

/-- A redacted item is an item. -/
theorem redactItem_clean {item : Text} (h : '&' ∉ item ∧ item ≠ []) :
    '&' ∉ redactItem item ∧ redactItem item ≠ [] := by
  unfold redactItem
  split
  · have hamp : '&' ∉ itemKey item := fun hmem => h.1 (itemKey_subset item hmem)
    exact ⟨by simp [hamp], by simp⟩
  · exact h

section

variable (query : Text)

/-- The items that the telemetry URL shows of a query. -/
def redactedItems : List Text := (queryItems query).map redactItem

/-- So are the redacted items of a query. -/
theorem redactedItems_clean : ∀ item ∈ redactedItems query, '&' ∉ item ∧ item ≠ [] := by
  intro item hitem
  obtain ⟨raw, hraw, rfl⟩ := List.mem_map.mp hitem
  exact redactItem_clean ⟨not_mem_of_mem_queryItems hraw, ne_nil_of_mem_queryItems hraw⟩

theorem hash_not_mem_redactedItems {query : Text} (h : '#' ∉ query) :
    ∀ item ∈ redactedItems query, '#' ∉ item := by
  intro item hitem
  obtain ⟨raw, hraw, rfl⟩ := List.mem_map.mp hitem
  have hhash : '#' ∉ raw := fun hmem => h (subset_of_mem_queryItems hraw hmem)
  unfold redactItem
  split
  · have hkey : '#' ∉ itemKey raw := fun hmem => hhash (itemKey_subset raw hmem)
    simp [hkey]
  · exact hhash

theorem redactedItems_eq_nil : redactedItems query = [] ↔ queryItems query = [] :=
  List.map_eq_nil_iff

end

/-! ## The URL without its userinfo -/

/-- What the sanitizer keeps behind the `://`: a first `@` in front of any slash, and what stands in
front of it, are cut off. -/
def afterUserinfo (rest : Text) : Text :=
  if '@' ∈ rest.takeWhile (· ≠ '/') then (rest.dropWhile (· ≠ '@')).tail else rest

variable (u : Url.SchemeUrl)

/-- Stripping keeps the scheme and what stands behind the userinfo. -/
theorem stripUserinfo_spec : stripUserinfo u.spec = u.origin ++ afterUserinfo u.rest := by
  have hstart : ThirdPartyClassifier.schemeEnd u.spec = u.origin.length := by
    unfold Url.SchemeUrl.spec ThirdPartyClassifier.schemeEnd
    rw [u.findStr_origin, u.length_origin]
  unfold stripUserinfo afterUserinfo
  simp only [hstart]
  by_cases hat : '@' ∈ u.rest
  · obtain ⟨a, b, hrest, ha⟩ := List.eq_append_cons_of_mem hat
    have hspec : u.spec = u.origin ++ (a ++ '@' :: b) := by rw [Url.SchemeUrl.spec, hrest]
    have hcut : u.spec.take u.origin.length ++ u.spec.drop (u.origin.length + a.length + 1)
        = u.origin ++ b := by
      rw [hspec, List.take_left, add_assoc, ← List.drop_drop, List.drop_left, ← List.drop_drop,
        List.drop_left]
      rfl
    rw [show Text.find u.spec '@' u.origin.length = some (u.origin.length + a.length) from
      hspec ▸ Text.find_append ha]
    by_cases hslash : '/' ∈ a
    · -- the `@` stands behind a slash
      obtain ⟨a', b', rfl, ha'⟩ := List.eq_append_cons_of_mem hslash
      have hfind : Text.find u.spec '/' u.origin.length = some (u.origin.length + a'.length) := by
        rw [hspec, List.append_assoc]
        exact Text.find_append ha'
      have htake : u.rest.takeWhile (· ≠ '/') = a' := by
        rw [hrest, List.append_assoc]
        exact Text.takeWhile_append_stop (Text.ne_of_not_mem ha') (by simp)
      rw [hfind, htake, if_neg fun h => ha (List.mem_append_left _ h)]
      simp only
      rw [if_neg (by simp)]
      rfl
    · have hmem : '@' ∈ u.rest.takeWhile (· ≠ '/') := by
        rw [hrest, List.takeWhile_append_of_pos (Text.ne_of_not_mem hslash)]
        simp
      have hkept : (u.rest.dropWhile (· ≠ '@')).tail = b := by
        rw [hrest, Text.dropWhile_append_stop (Text.ne_of_not_mem ha) (by simp)]
        rfl
      rw [if_pos hmem, hkept, ← hcut]
      -- a slash further on does not matter
      have hfront : '/' ∉ a ++ ['@'] := by simp [hslash]
      have hfind := Text.find_append_left (t := u.origin) (b := b) hfront
      rw [← List.append_cons, ← hspec] at hfind
      rw [hfind]
      cases Text.find b '/' 0 with
      | none => rfl
      | some n =>
        simp only [Option.map_some, List.length_append, List.length_singleton]
        rw [if_pos (by omega)]
  · have hnone : Text.find u.spec '@' u.origin.length = none :=
      Text.find_of_not_mem_drop (by rwa [Url.SchemeUrl.spec, List.drop_left])
    rw [hnone, if_neg fun h => hat ((List.takeWhile_sublist _).subset h)]
    rfl

/-- The telemetry URL, by the cut of what the sanitizer keeps. -/
theorem sanitizeUrlForTelemetry_of_cuts {parts : UrlParts} (h : parts.Cuts (afterUserinfo u.rest)) :
    sanitizeUrlForTelemetry u.spec
      = u.origin ++ (parts.base ++ (queryText (redactedItems parts.query) ++ parts.fragment)) := by
  have hne : u.spec ≠ [] := by simp [Url.SchemeUrl.spec, Url.SchemeUrl.origin]
  have hsplit := (h.append_left (u.not_mem_origin (Or.inl rfl))).splitUrl_eq
  have hitems : (queryItems parts.query).map redactItem = redactedItems parts.query := rfl
  unfold sanitizeUrlForTelemetry queryText
  rw [if_neg hne, stripUserinfo_spec]
  simp only [hsplit, hitems, show "&".toList = ['&'] from rfl,
    join_eq_nil_iff (redactedItems_clean parts.query)]
  simp

/-- Without a query only the userinfo goes. -/
theorem sanitizeUrlForTelemetry_of_not_mem (h : '?' ∉ afterUserinfo u.rest) :
    sanitizeUrlForTelemetry u.spec = u.origin ++ afterUserinfo u.rest := by
  have hmark := u.not_mem_origin (Or.inl rfl)
  have hne : u.spec ≠ [] := by simp [Url.SchemeUrl.spec, Url.SchemeUrl.origin]
  unfold sanitizeUrlForTelemetry
  rw [if_neg hne, stripUserinfo_spec]
  simp only
  rw [splitUrl_of_not_mem (by simp [hmark, h])]

end ThoriumFrugal.Privacy.PrivacyPolicyManager

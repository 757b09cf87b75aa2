import ThoriumFrugal.Privacy.Types

/-!
# The tracking parameter filter

`TrackingParameterFilter` of `tracking_parameter_filter.cc`, and the two pieces of query
handling it shares with the telemetry sanitizer.
-/

namespace ThoriumFrugal.Privacy

open Lib

/-! ## Query strings -/

/-- A URL string cut at its first `?` and the `#` behind it. -/
structure UrlParts where
  base : Text
  query : Text
  fragment : Text
deriving DecidableEq, Repr

/-- `base`, `query` and `fragment` of a URL string; none when it has no `?`. -/
def splitUrl (urlStr : Text) : Option UrlParts :=
  match Text.find urlStr '?' 0 with
  | none => none
  | some queryPos =>
    match Text.find urlStr '#' queryPos with
    | none =>
      some { base := urlStr.take queryPos, query := urlStr.drop (queryPos + 1), fragment := [] }
    | some hashPos =>
      some
        { base := urlStr.take queryPos
          query := Text.substr urlStr (queryPos + 1) (hashPos - (queryPos + 1))
          fragment := urlStr.drop hashPos }

/-- The parts are those at which `splitUrl` cuts the URL string. -/
structure UrlParts.Cuts (parts : UrlParts) (s : Text) : Prop where
  url : s = parts.base ++ '?' :: (parts.query ++ parts.fragment)
  base_clean : '?' ∉ parts.base
  query_clean : '#' ∉ parts.query
  fragment_start : ∀ c ∈ parts.fragment.head?, c = '#'

variable {s : Text} {parts : UrlParts}

/-- A URL is split where it is cut. -/
theorem UrlParts.Cuts.splitUrl_eq (h : parts.Cuts s) : splitUrl s = some parts := by
  obtain ⟨base, query, fragment⟩ := parts
  obtain ⟨rfl, hbase, hquery, hfragment⟩ := h
  have hdrop : (base ++ '?' :: (query ++ fragment)).drop (base.length + 1) = query ++ fragment := by
    rw [← List.drop_drop, List.drop_left]
    rfl
  unfold splitUrl
  rw [Text.find_zero_append hbase]
  cases fragment with
  | nil =>
    have hhash : Text.find (base ++ '?' :: (query ++ [])) '#' base.length = none :=
      Text.find_of_not_mem_drop (by simpa [List.drop_left] using hquery)
    simp only [hhash, List.take_left, hdrop]
    simp
  | cons c t =>
    obtain rfl : c = '#' := hfragment c rfl
    have hhash : Text.find (base ++ '?' :: (query ++ '#' :: t)) '#' base.length
        = some (base.length + ('?' :: query).length) :=
      Text.find_append (a := '?' :: query) (by simp [hquery])
    have hlast : (base ++ '?' :: (query ++ '#' :: t)).drop (base.length + ('?' :: query).length)
        = '#' :: t := by
      rw [← List.drop_drop, List.drop_left, ← List.cons_append, List.drop_left]
    have hlen : base.length + ('?' :: query).length - (base.length + 1) = query.length := by
      simp only [List.length_cons]
      omega
    simp only [hhash, List.take_left, hlast, Text.substr, hdrop, hlen]

/-- Without a `?` it is not split. -/
theorem splitUrl_of_not_mem (h : '?' ∉ s) : splitUrl s = none := by
  unfold splitUrl
  rw [Text.find_eq_none h]

/-- A URL string with a `?` has one cut. -/
theorem UrlParts.exists_cuts (h : '?' ∈ s) : ∃ parts : UrlParts, parts.Cuts s := by
  obtain ⟨base, rest, rfl, hbase⟩ := List.eq_append_cons_of_mem h
  exact ⟨⟨base, rest.takeWhile (· ≠ '#'), rest.dropWhile (· ≠ '#')⟩,
    { url := by simp
      base_clean := hbase
      query_clean := Text.not_mem_takeWhile_ne rest '#'
      fragment_start := Text.head_dropWhile_ne rest '#' }⟩

/-- The non-empty items between the `&` of a query. -/
def queryItems (query : Text) : List Text :=
  (Text.getlines query '&').filter (· ≠ [])

/-- The items are cut at every `&`. -/
theorem not_mem_of_mem_queryItems {item query : Text} (h : item ∈ queryItems query) :
    '&' ∉ item := by
  unfold queryItems at h
  rw [Text.filter_getlines] at h
  exact Text.not_mem_of_mem_splitOn (List.mem_of_mem_filter h)

theorem subset_of_mem_queryItems {item query : Text} (h : item ∈ queryItems query) :
    item ⊆ query := by
  unfold queryItems at h
  rw [Text.filter_getlines] at h
  exact Text.subset_of_mem_splitOn (List.mem_of_mem_filter h)

theorem ne_nil_of_mem_queryItems {item query : Text} (h : item ∈ queryItems query) :
    item ≠ [] := by
  simpa using List.of_mem_filter h

/-- Joining some of the items of a query gives a query with these items. -/
theorem queryItems_join {items : List Text} (h : ∀ item ∈ items, '&' ∉ item ∧ item ≠ []) :
    queryItems (Text.join ['&'] items) = items := by
  unfold queryItems
  rw [Text.filter_getlines_join fun item hitem => (h item hitem).1, List.filter_eq_self]
  exact fun item hitem => by simpa using (h item hitem).2

/-- Items are joined to nothing only if there are none. -/
theorem join_eq_nil_iff {items : List Text} (h : ∀ item ∈ items, '&' ∉ item ∧ item ≠ []) :
    Text.join ['&'] items = [] ↔ items = [] := by
  refine ⟨fun hjoin => ?_, fun hnil => by rw [hnil]; rfl⟩
  have hitems := queryItems_join h
  rw [hjoin] at hitems
  exact hitems.symm

/-- The key of an item: what stands before its first `=`. -/
def itemKey (item : Text) : Text :=
  match Text.find item '=' 0 with
  | some eqPos => item.take eqPos
  | none => item

/-- The key ends at the first `=`. -/
theorem itemKey_append {key value : Text} (h : '=' ∉ key) :
    itemKey (key ++ '=' :: value) = key := by
  unfold itemKey
  rw [Text.find_zero_append h]
  exact List.take_left

/-- Without `=` the item is its key. -/
theorem itemKey_of_not_mem {item : Text} (h : '=' ∉ item) : itemKey item = item := by
  unfold itemKey
  rw [Text.find_eq_none h]

theorem itemKey_subset (item : Text) : itemKey item ⊆ item := by
  unfold itemKey
  split
  · exact List.take_subset _ _
  · exact List.Subset.refl _

/-! ## The filter -/

/-- The struct of the same name. -/
structure FilterResult where
  cleanedUrl : Text
  parametersRemoved : Bool := false
  removedParameters : List Text := []
deriving DecidableEq, Repr

/-- The canonical tracking parameters. -/
def defaultTrackingParams : List Text := [
  "utm_source", "utm_medium", "utm_campaign", "utm_term", "utm_content", "utm_id",
  "utm_source_platform", "utm_creative_format", "utm_marketing_tactic",
  "gclid", "gbraid", "wbraid", "dclid",
  "fbclid",
  "msclkid",
  "mc_eid", "mc_cid",
  "yclid", "_openstat",
  "igshid",
  "twclid",
  "mkt_tok",
  "_hsenc", "_hsmi",
  "elqtrackid", "elqaid", "elqat"].map String.toList

/-- The set of names, which starts with the default ones. -/
structure TrackingParameterFilter where
  trackingParams : List Text := defaultTrackingParams

namespace TrackingParameterFilter

/-- `AddTrackingParameter`, in lower case. -/
def addTrackingParameter (filter : TrackingParameterFilter) (paramName : Text) :
    TrackingParameterFilter :=
  { filter with trackingParams := filter.trackingParams.insert (Text.toLower paramName) }

/-- `IsTrackingParameter`, in any letter case. -/
def isTrackingParameter (filter : TrackingParameterFilter) (key : Text) : Bool :=
  Text.toLower key ∈ filter.trackingParams

/-- `StripTrackingParameters`: the URL is put together again only where something was removed. -/
def stripTrackingParameters (filter : TrackingParameterFilter) (urlStr : Text) : FilterResult :=
  let result : FilterResult := { cleanedUrl := urlStr, parametersRemoved := false }
  match splitUrl urlStr with
  | none => result
  | some url =>
    if url.query = [] then result
    else
      let (removed, preserved) :=
        (queryItems url.query).partition fun item => filter.isTrackingParameter (itemKey item)
      if removed = [] then result
      else
        let newQuery := Text.join "&".toList preserved
        { cleanedUrl :=
            -- no parameter left: the `?` goes too
            if newQuery = [] then url.base ++ url.fragment
            else url.base ++ '?' :: newQuery ++ url.fragment
          parametersRemoved := true
          removedParameters := removed.map itemKey }

end TrackingParameterFilter
end ThoriumFrugal.Privacy

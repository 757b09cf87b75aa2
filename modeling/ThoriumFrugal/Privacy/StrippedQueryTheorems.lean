import ThoriumFrugal.Lib.UrlComponents
import ThoriumFrugal.Privacy.TrackingParameterFilter

/-!
# What stripping removes

The stripper looks for the query behind the first `?` of a URL string, also where this `?` stands in
the fragment. Its result is a function of that cut; what it does to the components of the URL
follows from where the cut lies among them.
-/

namespace ThoriumFrugal.Privacy

open Lib

namespace UrlParts

variable {s : Text} {parts parts' : UrlParts}

theorem Cuts.mark_mem (h : parts.Cuts s) : '?' ∈ s := by
  rw [h.url]
  simp

theorem Cuts.unique (h : parts.Cuts s) (h' : parts'.Cuts s) : parts = parts' :=
  Option.some.inj (h.splitUrl_eq.symm.trans h'.splitUrl_eq)

/-- What holds of every cut holds of the one there is. -/
theorem Cuts.forall_iff (h : parts.Cuts s) {p : UrlParts → Prop} :
    (∀ parts : UrlParts, parts.Cuts s → p parts) ↔ p parts :=
  ⟨fun hall => hall parts h, fun hp _ h' => h.unique h' ▸ hp⟩

/-- The cut of a text in front of which something without a `?` is put. -/
theorem Cuts.append_left (h : parts.Cuts s) {a : Text} (ha : '?' ∉ a) :
    { parts with base := a ++ parts.base }.Cuts (a ++ s) where
  url := by
    rw [h.url, ← List.append_assoc]
  base_clean := by simp [ha, h.base_clean]
  query_clean := h.query_clean
  fragment_start := h.fragment_start

end UrlParts

/-! ## Components around the cut -/

/-- The items written as a query: nothing without an item. -/
def queryText (items : List Text) : Text :=
  if items = [] then [] else '?' :: Text.join ['&'] items

theorem queryText_start (items : List Text) {fragment : Text}
    (h : ∀ c ∈ fragment.head?, c = '#') :
    ∀ c ∈ (queryText items ++ fragment).head?, c ∈ "?#".toList := by
  unfold queryText
  split
  · intro c hc
    rw [h c hc]
    decide
  · simp

namespace UrlParts.Cuts

variable {s : Text} {parts : UrlParts} (h : parts.Cuts s)
include h

/-- Where the fragment starts in front of the first `?`, there is no query. -/
theorem query_append_eq_nil {t : Text} (hhash : '#' ∈ parts.base) :
    Url.query (parts.base ++ t) = [] := by
  obtain ⟨a, b, hbase, -⟩ := List.eq_append_cons_of_mem hhash
  have hmark : '?' ∉ a := fun hmem => h.base_clean (hbase ▸ List.mem_append_left _ hmem)
  rw [hbase, List.append_assoc]
  exact Url.query_append_of_not_mem hmark (by simp)

variable (hhash : '#' ∉ parts.base)
include hhash

theorem not_mem_base : ∀ c ∈ parts.base, c ∉ "?#".toList := by
  intro c hc hmem
  have hmem : c = '?' ∨ c = '#' := by simpa using hmem
  rcases hmem with rfl | rfl
  · exact h.base_clean hc
  · exact hhash hc

theorem query_eq : Url.query s = parts.query := by
  rw [h.url]
  exact Url.query_append (h.not_mem_base hhash) h.query_clean h.fragment_start

theorem fragment_eq : Url.fragment s = parts.fragment := by
  have hclean : '#' ∉ parts.base ++ '?' :: parts.query := by simp [hhash, h.query_clean]
  rw [h.url, show parts.base ++ '?' :: (parts.query ++ parts.fragment)
    = parts.base ++ '?' :: parts.query ++ parts.fragment by simp]
  exact Url.fragment_append hclean h.fragment_start

theorem beforeQuery_eq : Url.beforeQuery s = parts.base := by
  rw [h.url]
  exact Url.beforeQuery_append (h.not_mem_base hhash) (by simp)

/-- The components of the URL string with other items in its query. -/
theorem components_of_items {items : List Text} (hitems : ∀ item ∈ items, '#' ∉ item) :
    let t := parts.base ++ (queryText items ++ parts.fragment)
    Url.beforeQuery t = parts.base ∧ Url.query t = Text.join ['&'] items
      ∧ Url.fragment t = parts.fragment := by
  intro t
  by_cases hnone : items = []
  · -- nothing stands between the base and the fragment
    have ht : t = parts.base ++ parts.fragment := by simp [t, queryText, hnone]
    have hstart := queryText_start [] h.fragment_start
    rw [ht, hnone]
    exact ⟨Url.beforeQuery_append (h.not_mem_base hhash) hstart,
      Url.query_append_of_not_mem h.base_clean h.fragment_start,
      Url.fragment_append hhash h.fragment_start⟩
  · have hcuts : { parts with query := Text.join ['&'] items }.Cuts t :=
      ⟨by simp [t, queryText, hnone], h.base_clean, Text.not_mem_join (by decide) hitems,
        h.fragment_start⟩
    have hbefore := hcuts.beforeQuery_eq hhash
    have hfragment := hcuts.fragment_eq hhash
    exact ⟨hbefore, hcuts.query_eq hhash, hfragment⟩

end UrlParts.Cuts

namespace TrackingParameterFilter

/-! ## The result as a function of the cut -/

variable (filter : TrackingParameterFilter) {s : Text} {parts : UrlParts}

/-- The items of a query with a tracking key. -/
def trackingItems (query : Text) : List Text :=
  (queryItems query).filter fun item => filter.isTrackingParameter (itemKey item)

/-- The other items of a query. -/
def preservedItems (query : Text) : List Text :=
  (queryItems query).filter fun item => !filter.isTrackingParameter (itemKey item)

/-- The URL string with the preserved items for its query. -/
def cleaned (parts : UrlParts) : Text :=
  parts.base ++ (queryText (filter.preservedItems parts.query) ++ parts.fragment)

theorem stripTrackingParameters_of_not_mem (h : '?' ∉ s) :
    filter.stripTrackingParameters s = { cleanedUrl := s } := by
  unfold stripTrackingParameters
  rw [splitUrl_of_not_mem h]

theorem preservedItems_clean {query item : Text} (h : item ∈ filter.preservedItems query) :
    '&' ∉ item ∧ item ≠ [] :=
  have hitem := List.mem_of_mem_filter h
  ⟨not_mem_of_mem_queryItems hitem, ne_nil_of_mem_queryItems hitem⟩

theorem hash_not_mem_preservedItems {query : Text} (h : '#' ∉ query) :
    ∀ item ∈ filter.preservedItems query, '#' ∉ item :=
  fun _ hitem hhash => h (subset_of_mem_queryItems (List.mem_of_mem_filter hitem) hhash)

theorem stripTrackingParameters_of_cuts (h : parts.Cuts s) :
    filter.stripTrackingParameters s
      = if filter.trackingItems parts.query = [] then { cleanedUrl := s }
        else
          { cleanedUrl := filter.cleaned parts
            parametersRemoved := true
            removedParameters := (filter.trackingItems parts.query).map itemKey } := by
  have hremoved : (queryItems parts.query).filter
      (fun item => filter.isTrackingParameter (itemKey item)) = filter.trackingItems parts.query :=
    rfl
  have hpreserved : (queryItems parts.query).filter
      (not ∘ fun item => filter.isTrackingParameter (itemKey item))
      = filter.preservedItems parts.query := rfl
  unfold stripTrackingParameters
  simp only [h.splitUrl_eq, List.partition_eq_filter_filter, hremoved, hpreserved,
    show "&".toList = ['&'] from rfl,
    join_eq_nil_iff fun _ => filter.preservedItems_clean]
  -- the source returns early on an empty query, which has no items either
  by_cases hquery : parts.query = []
  · have hnone : filter.trackingItems parts.query = [] := by
      rw [hquery]
      rfl
    rw [if_pos hquery, if_pos hnone]
  · rw [if_neg hquery]
    unfold cleaned queryText
    split
    · rfl
    · split <;> simp

/-- Where there is nothing to remove, the URL string stays as it is. -/
theorem stripTrackingParameters_of_clean
    (h : ∀ parts : UrlParts, parts.Cuts s → filter.trackingItems parts.query = []) :
    filter.stripTrackingParameters s = { cleanedUrl := s } := by
  by_cases hmark : '?' ∈ s
  · obtain ⟨parts, hcuts⟩ := UrlParts.exists_cuts hmark
    rw [filter.stripTrackingParameters_of_cuts hcuts, if_pos (h parts hcuts)]
  · exact filter.stripTrackingParameters_of_not_mem hmark

theorem trackingItems_join_preservedItems (query : Text) :
    filter.trackingItems (Text.join ['&'] (filter.preservedItems query)) = [] := by
  unfold trackingItems
  rw [queryItems_join fun item => filter.preservedItems_clean, List.filter_eq_nil_iff]
  intro item hitem
  simpa using List.of_mem_filter hitem

/-- A stripped URL string with a query is cut where the URL string is cut. -/
theorem cuts_cleaned (h : parts.Cuts s) (hpreserved : filter.preservedItems parts.query ≠ []) :
    { parts with query := Text.join ['&'] (filter.preservedItems parts.query) }.Cuts
      (filter.cleaned parts) where
  url := by simp [cleaned, queryText, hpreserved]
  base_clean := h.base_clean
  query_clean := Text.not_mem_join (by decide) (filter.hash_not_mem_preservedItems h.query_clean)
  fragment_start := h.fragment_start

/-! ## Stripping twice -/

/-- Stripping the stripped URL string again removes nothing and changes nothing. -/
def StripsOnce (s : Text) : Prop :=
  let cleanedUrl := (filter.stripTrackingParameters s).cleanedUrl
  (filter.stripTrackingParameters cleanedUrl).parametersRemoved = false
    ∧ (filter.stripTrackingParameters cleanedUrl).cleanedUrl = cleanedUrl

instance (s : Text) : Decidable (filter.StripsOnce s) :=
  inferInstanceAs (Decidable (_ ∧ _))

theorem stripsOnce_of_cleanedUrl {t : Text}
    (hcleaned : (filter.stripTrackingParameters s).cleanedUrl = t)
    (hclean : ∀ parts : UrlParts, parts.Cuts t → filter.trackingItems parts.query = []) :
    filter.StripsOnce s := by
  unfold StripsOnce
  simp only [hcleaned, filter.stripTrackingParameters_of_clean hclean]
  trivial

/-- A second pass over a URL string finds nothing exactly when the first pass removes nothing,
preserves an item, or does not bring up a `?` of the fragment with tracking items behind it. -/
theorem stripsOnce_iff (s : Text) : filter.StripsOnce s
    ↔ ∀ parts : UrlParts, parts.Cuts s → filter.trackingItems parts.query = []
      ∨ filter.preservedItems parts.query ≠ []
      ∨ ∀ hidden : UrlParts, hidden.Cuts parts.fragment →
          filter.trackingItems hidden.query = [] := by
  by_cases hmark : '?' ∈ s
  · obtain ⟨parts, hcuts⟩ := UrlParts.exists_cuts hmark
    have hresult := filter.stripTrackingParameters_of_cuts hcuts
    rw [hcuts.forall_iff]
    by_cases htracking : filter.trackingItems parts.query = []
    · rw [if_pos htracking] at hresult
      refine iff_of_true (filter.stripsOnce_of_cleanedUrl (congrArg _ hresult) ?_)
        (Or.inl htracking)
      exact hcuts.forall_iff.mpr htracking
    rw [if_neg htracking] at hresult
    by_cases hpreserved : filter.preservedItems parts.query = []
    · -- the `?` has gone with the query, so the next one is in the fragment
      have hcleaned : filter.cleaned parts = parts.base ++ parts.fragment := by
        unfold cleaned queryText
        rw [if_pos hpreserved, List.nil_append]
      simp only [htracking, hpreserved, ne_eq, not_true_eq_false, false_or]
      constructor
      · intro honce hidden hhidden
        by_contra hfound
        have htwice := filter.stripTrackingParameters_of_cuts
          (hhidden.append_left hcuts.base_clean)
        unfold StripsOnce at honce
        simp only [hresult, hcleaned, htwice, if_neg hfound] at honce
        exact Bool.noConfusion honce.1
      · intro hclean
        refine filter.stripsOnce_of_cleanedUrl (congrArg _ hresult) ?_
        simp only [hcleaned]
        intro again hagain
        -- the base has no `?`, so the second cut is one of the fragment
        have hfragment : '?' ∈ parts.fragment :=
          (List.mem_append.mp hagain.mark_mem).resolve_left hcuts.base_clean
        obtain ⟨hidden, hhidden⟩ := UrlParts.exists_cuts hfragment
        rw [hagain.unique (hhidden.append_left hcuts.base_clean)]
        exact hclean hidden hhidden
    · -- the `?` stays in its place, with the preserved items behind it
      refine iff_of_true (filter.stripsOnce_of_cleanedUrl (congrArg _ hresult) ?_)
        (Or.inr (Or.inl hpreserved))
      exact (filter.cuts_cleaned hcuts hpreserved).forall_iff.mpr
        (filter.trackingItems_join_preservedItems parts.query)
  · refine iff_of_true ?_ fun parts hcuts => absurd hcuts.mark_mem hmark
    have hresult := filter.stripTrackingParameters_of_not_mem hmark
    refine filter.stripsOnce_of_cleanedUrl (congrArg _ hresult) fun parts hcuts => ?_
    exact absurd hcuts.mark_mem hmark

/-- The fragment of an advertisement's URL looks like a second query. -/
theorem not_stripsOnce_fragment :
    ¬StripsOnce {} "https://e.com/a?utm_source=1#x?utm_source=2".toList := by
  decide

/-! ## What stripping keeps -/

/-- Stripping keeps what stands in front of the query, the fragment and the other query items, and
a URL string without a query item to remove as a whole. -/
structure TouchesTrackingOnly (s : Text) : Prop where
  base : Url.beforeQuery (filter.stripTrackingParameters s).cleanedUrl = Url.beforeQuery s
  fragment : Url.fragment (filter.stripTrackingParameters s).cleanedUrl = Url.fragment s
  items : queryItems (Url.query (filter.stripTrackingParameters s).cleanedUrl)
    = filter.preservedItems (Url.query s)
  unchanged : filter.trackingItems (Url.query s) = [] →
    (filter.stripTrackingParameters s).cleanedUrl = s

theorem preservedItems_of_trackingItems_eq_nil {query : Text}
    (h : filter.trackingItems query = []) : filter.preservedItems query = queryItems query := by
  unfold trackingItems at h
  unfold preservedItems
  rw [List.filter_eq_nil_iff] at h
  exact List.filter_eq_self.mpr fun item hitem => by simpa using h item hitem

theorem touchesTrackingOnly_of_unchanged
    (hresult : filter.stripTrackingParameters s = { cleanedUrl := s })
    (hclean : filter.trackingItems (Url.query s) = []) : filter.TouchesTrackingOnly s where
  base := by rw [hresult]
  fragment := by rw [hresult]
  items := by rw [hresult, filter.preservedItems_of_trackingItems_eq_nil hclean]
  unchanged _ := by rw [hresult]

/-- Removing an item changes the URL string. -/
theorem cleaned_ne (h : parts.Cuts s) (htracking : filter.trackingItems parts.query ≠ []) :
    filter.cleaned parts ≠ s := by
  intro hsame
  rw [h.url] at hsame
  unfold cleaned queryText at hsame
  split at hsame
  · -- at least the `?` has gone
    have hlen := congrArg List.length hsame
    simp only [List.nil_append, List.length_append, List.length_cons] at hlen
    omega
  · -- the same query would have no tracking item
    rw [List.append_cancel_left_eq, List.cons_append, List.cons.injEq,
      List.append_cancel_right_eq] at hsame
    exact htracking (hsame.2 ▸ filter.trackingItems_join_preservedItems parts.query)

/-- Where the removed items are those of the query, nothing else is touched. -/
theorem touchesTrackingOnly_of_forall
    (h : ∀ parts : UrlParts, parts.Cuts s →
      '#' ∉ parts.base ∨ filter.trackingItems parts.query = []) :
    filter.TouchesTrackingOnly s := by
  by_cases hmark : '?' ∈ s
  · obtain ⟨parts, hcuts⟩ := UrlParts.exists_cuts hmark
    have hresult := filter.stripTrackingParameters_of_cuts hcuts
    by_cases htracking : filter.trackingItems parts.query = []
    · rw [if_pos htracking] at hresult
      refine filter.touchesTrackingOnly_of_unchanged hresult ?_
      by_cases hhash : '#' ∈ parts.base
      · rw [hcuts.url, hcuts.query_append_eq_nil hhash]
        rfl
      · rwa [hcuts.query_eq hhash]
    · -- the cut is that of the query
      have hhash := (h parts hcuts).resolve_right htracking
      have hquery := hcuts.query_eq hhash
      obtain ⟨hbase, hitems, hfragment⟩ := hcuts.components_of_items hhash
        (filter.hash_not_mem_preservedItems hcuts.query_clean)
      rw [if_neg htracking] at hresult
      constructor
      · rw [hresult, hcuts.beforeQuery_eq hhash]
        exact hbase
      · rw [hresult, hcuts.fragment_eq hhash]
        exact hfragment
      · rw [hresult, hquery, cleaned, hitems]
        exact queryItems_join fun _ => filter.preservedItems_clean
      · exact fun hnone => absurd (hquery ▸ hnone) htracking
  · refine filter.touchesTrackingOnly_of_unchanged
      (filter.stripTrackingParameters_of_not_mem hmark) ?_
    rw [Url.query_of_not_mem hmark]
    rfl

/-- Stripping touches the tracking items of the query only, exactly when it has none to remove or
the fragment does not start in front of the first `?`. -/
theorem touchesTrackingOnly_iff (s : Text) : filter.TouchesTrackingOnly s
    ↔ ∀ parts : UrlParts, parts.Cuts s →
      '#' ∉ parts.base ∨ filter.trackingItems parts.query = [] := by
  refine ⟨fun htouches parts hcuts => ?_, filter.touchesTrackingOnly_of_forall⟩
  by_contra hnot
  rw [not_or, not_not] at hnot
  obtain ⟨hhash, htracking⟩ := hnot
  have hresult := filter.stripTrackingParameters_of_cuts hcuts
  rw [if_neg htracking] at hresult
  have hnone : filter.trackingItems (Url.query s) = [] := by
    rw [hcuts.url, hcuts.query_append_eq_nil hhash]
    rfl
  -- there is no query item to remove, but the fragment has lost one
  have hsame := htouches.unchanged hnone
  rw [hresult] at hsame
  exact filter.cleaned_ne hcuts htracking hsame

/-- A client-side route behind the `#` loses its parameter. -/
theorem not_touchesTrackingOnly_route :
    ¬TouchesTrackingOnly {} "https://e.com/a#b?utm_source=1".toList :=
  fun h => absurd h.fragment (by decide)

/-! ## What stripping leaves -/

/-- A key is a tracking parameter, up to ASCII case: one of the canonical ones or one that was
added. -/
def IsTrackingKey (added : List Text) (key : Text) : Prop :=
  ∃ param ∈ defaultTrackingParams ++ added, Text.toLower param = Text.toLower key

instance (added : List Text) (key : Text) : Decidable (IsTrackingKey added key) :=
  inferInstanceAs (Decidable (∃ param ∈ _, _))

/-- The filter after parameters were added to the canonical ones. -/
def withAdded (added : List Text) : TrackingParameterFilter :=
  added.foldl addTrackingParameter {}

theorem isTrackingParameter_withAdded (added : List Text) (key : Text) :
    (withAdded added).isTrackingParameter key = decide (IsTrackingKey added key) := by
  -- the set holds lowered parameters, and a key is lowered before it is looked up
  have hmem : ∀ (filter : TrackingParameterFilter) (lowered : Text),
      lowered ∈ (added.foldl addTrackingParameter filter).trackingParams
        ↔ lowered ∈ filter.trackingParams ∨ ∃ param ∈ added, Text.toLower param = lowered := by
    intro filter lowered
    induction added generalizing filter with
    | nil => simp
    | cons param added ih =>
      rw [List.foldl_cons, ih]
      simp only [addTrackingParameter, List.mem_insert_iff, List.exists_mem_cons_iff]
      rw [eq_comm (a := lowered)]
      tauto
  have hdefault : ∀ lowered, (∃ param ∈ defaultTrackingParams, Text.toLower param = lowered)
      ↔ lowered ∈ defaultTrackingParams := by
    intro lowered
    have hlower : defaultTrackingParams.map Text.toLower = defaultTrackingParams := by decide
    rw [← List.mem_map, hlower]
  unfold isTrackingParameter withAdded
  rw [Bool.eq_iff_iff, decide_eq_true_iff, decide_eq_true_iff, hmem]
  change key.toLower ∈ defaultTrackingParams ∨ _ ↔ _
  rw [← hdefault]
  simp only [IsTrackingKey, List.mem_append, or_and_right, exists_or]

theorem isTrackingParameter_of_mem_query (s : Text) :
    ∀ item ∈ queryItems (Url.query (filter.stripTrackingParameters s).cleanedUrl),
      filter.isTrackingParameter (itemKey item) = false := by
  by_cases hforall : ∀ parts : UrlParts, parts.Cuts s →
      '#' ∉ parts.base ∨ filter.trackingItems parts.query = []
  · rw [(filter.touchesTrackingOnly_of_forall hforall).items]
    exact fun item hitem => by simpa using List.of_mem_filter hitem
  · -- the URL string has no query, and neither has the stripped one
    push Not at hforall
    obtain ⟨parts, hcuts, hhash, htracking⟩ := hforall
    have hresult := filter.stripTrackingParameters_of_cuts hcuts
    rw [if_neg htracking] at hresult
    rw [hresult]
    simp only [cleaned, hcuts.query_append_eq_nil hhash]
    exact fun item hitem => by cases hitem

/-- The query of the stripped URL string holds no item with a tracking key, and the removed
parameters are the keys of the tracking items that the cut has found, in their order. -/
theorem stripping_complete (added : List Text) (s : Text) :
    let result := (withAdded added).stripTrackingParameters s
    (∀ item ∈ queryItems (Url.query result.cleanedUrl), ¬IsTrackingKey added (itemKey item))
      ∧ ('?' ∉ s → result = { cleanedUrl := s })
      ∧ ∀ parts : UrlParts, parts.Cuts s →
        let items := queryItems parts.query
        let removed := items.filter fun item => IsTrackingKey added (itemKey item)
        let kept := items.filter fun item => ¬IsTrackingKey added (itemKey item)
        result.removedParameters = removed.map itemKey
          ∧ result.cleanedUrl
            = if removed = [] then s else parts.base ++ (queryText kept ++ parts.fragment) := by
  intro result
  have hkey := isTrackingParameter_withAdded added
  refine ⟨fun item hitem htracking => ?_, (withAdded added).stripTrackingParameters_of_not_mem, ?_⟩
  · have hclean := (withAdded added).isTrackingParameter_of_mem_query s item hitem
    rw [hkey, decide_eq_false_iff_not] at hclean
    exact hclean htracking
  · intro parts hcuts items removed kept
    have hremoved : (withAdded added).trackingItems parts.query = removed := by
      simp only [trackingItems, hkey, removed, items]
    have hkept : (withAdded added).preservedItems parts.query = kept := by
      simp only [preservedItems, hkey, kept, items, decide_not]
    have hresult : result = _ := (withAdded added).stripTrackingParameters_of_cuts hcuts
    rw [hremoved] at hresult
    have hcleaned : (withAdded added).cleaned parts
        = parts.base ++ (queryText kept ++ parts.fragment) := by
      rw [cleaned, hkept]
    rw [← hcleaned]
    by_cases hnone : removed = []
    · rw [if_pos hnone] at hresult ⊢
      exact ⟨by rw [hresult, hnone]; rfl, by rw [hresult]⟩
    · rw [if_neg hnone] at hresult ⊢
      exact ⟨by rw [hresult], by rw [hresult]⟩

end TrackingParameterFilter
end ThoriumFrugal.Privacy

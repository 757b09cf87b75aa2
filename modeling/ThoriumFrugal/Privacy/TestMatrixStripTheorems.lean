import ThoriumFrugal.Privacy.StrippedQueryTheorems
import ThoriumFrugal.Privacy.TestMatrix

/-!
# Stripping in the test matrix and in the engine

The filter of the test matrix takes a URL apart, decodes its query and encodes what is left; the one
of the engine cuts the text. On queries of plain pairs they return the same.
-/

namespace ThoriumFrugal.Privacy

open Lib

/-! ## Plain queries -/

/-- A character that is written as itself in a query. -/
def isUnreserved (c : Char) : Bool := c.isAlphanum || "-._~".toList.contains c

/-- A visible ASCII character that is no delimiter of URLs. -/
def isUrlChar (c : Char) : Bool := 33 ≤ c.toNat && c.toNat < 127 && !"?#[]".toList.contains c

/-- Unreserved characters are ASCII. -/
theorem lt_of_isUnreserved {c : Char} (h : isUnreserved c = true) : c.toNat < 128 := by
  rcases Bool.or_eq_true_iff.mp h with h | h
  · exact Text.toNat_lt_of_isAlphanum h
  · have hcases : c = '-' ∨ c = '.' ∨ c = '_' ∨ c = '~' := by simpa using h
    rcases hcases with rfl | rfl | rfl | rfl
    all_goals decide

/-- A pair of unreserved texts. -/
structure PlainPair where
  key : Text
  value : Text
  key_unreserved : ∀ c ∈ key, isUnreserved c = true
  value_unreserved : ∀ c ∈ value, isUnreserved c = true

namespace PlainPair

variable (p : PlainPair)

/-- The pair as it stands in a query. -/
def text : Text := p.key ++ '=' :: p.value

/-- The pair as it is decoded. -/
def decoded : Text × Text := (p.key, p.value)

/-- A delimiter is in no key. -/
theorem not_mem_key {c : Char} (hc : isUnreserved c = false) : c ∉ p.key := fun h =>
  Bool.false_ne_true (hc.symm.trans (p.key_unreserved c h))

/-- Nor is it in a value. -/
theorem not_mem_value {c : Char} (hc : isUnreserved c = false) : c ∉ p.value := fun h =>
  Bool.false_ne_true (hc.symm.trans (p.value_unreserved c h))

/-- In the text of a pair the only delimiter is the `=`. -/
theorem not_mem_text {c : Char} (hc : isUnreserved c = false) (hne : c ≠ '=') : c ∉ p.text := by
  simp [text, p.not_mem_key hc, p.not_mem_value hc, hne]

/-- The engine reads the key of a pair off its text. -/
theorem itemKey_text : itemKey p.text = p.key := itemKey_append (p.not_mem_key (by decide))

/-- The pairs are items of a query. -/
theorem forall_clean {pairs : List PlainPair} :
    ∀ item ∈ pairs.map text, '&' ∉ item ∧ item ≠ [] := by
  intro item hitem
  obtain ⟨p, -, rfl⟩ := List.mem_map.mp hitem
  exact ⟨p.not_mem_text (by decide) (by decide), by simp [text]⟩

end PlainPair

/-- `scheme://netloc/path?key=value&…#fragment`, as `urlunsplit` writes it: the scheme is in lower
case, and there is no `#` without a fragment. Brackets, blanks and characters beyond ASCII are left
out, as is a query that is encoded. -/
structure PageUrl where
  scheme : Text
  netloc : Text
  path : Text
  pairs : List PlainPair
  fragment : Text
  scheme_start : ∃ c t, scheme = c :: t ∧ c.isLower = true
  scheme_clean : ∀ c ∈ scheme, c.isLower || c.isDigit || "+-.".toList.contains c
  netloc_ne_nil : netloc ≠ []
  netloc_clean : ∀ c ∈ netloc, (isUrlChar c && c != '/') = true
  path_start : ∀ c ∈ path.head?, c = '/'
  path_clean : ∀ c ∈ path, isUrlChar c = true
  fragment_clean : ∀ c ∈ fragment, (33 ≤ c.toNat && c.toNat < 127) = true

namespace PageUrl

variable (u : PageUrl)

/-- What stands in front of the query. -/
def base : Text := u.scheme ++ "://".toList ++ (u.netloc ++ u.path)

/-- The fragment with its `#`, if there is one. -/
def fragmentText : Text := if u.fragment = [] then [] else '#' :: u.fragment

/-- The text of a query. -/
def queryOf (pairs : List PlainPair) : Text := Text.join ['&'] (pairs.map PlainPair.text)

/-- The URL string with these pairs. -/
def specWith (pairs : List PlainPair) : Text :=
  u.base ++ (queryText (pairs.map PlainPair.text) ++ u.fragmentText)

/-- The URL string. -/
def spec : Text := u.specWith u.pairs

/-- The parts of the URL with these pairs. -/
def splitWith (pairs : List PlainPair) : TestMatrix.SplitResult where
  scheme := u.scheme
  netloc := u.netloc
  path := u.path
  query := queryOf pairs
  fragment := u.fragment

/-- In front of the query stands neither a `?` nor a `#`. -/
theorem base_clean : ∀ c ∈ u.base, c ∉ "?#".toList := by
  intro c hc hdelim
  have hcases : c = '?' ∨ c = '#' := by simpa using hdelim
  have hparts : c ∈ u.scheme ∨ c ∈ "://".toList ∨ c ∈ u.netloc ∨ c ∈ u.path := by
    simpa [base, or_assoc] using hc
  -- each part is clean by its own field
  rcases hparts with h | h | h | h
  · have hscheme := u.scheme_clean c h
    rcases hcases with rfl | rfl
    all_goals exact absurd hscheme (by decide)
  · rcases hcases with rfl | rfl
    all_goals exact absurd h (by decide)
  · have hnetloc := u.netloc_clean c h
    rcases hcases with rfl | rfl
    all_goals exact absurd hnetloc (by decide)
  · have hpath := u.path_clean c h
    rcases hcases with rfl | rfl
    all_goals exact absurd hpath (by decide)

/-- So the first `?` is the one of the query, or one of the fragment. -/
theorem mark_not_mem_base : '?' ∉ u.base := fun h => u.base_clean _ h (by decide)

/-- No `#` stands in a query of plain pairs. -/
theorem hash_not_mem_query (pairs : List PlainPair) : '#' ∉ queryOf pairs := by
  refine Text.not_mem_join (by decide) fun t ht => ?_
  obtain ⟨p, -, rfl⟩ := List.mem_map.mp ht
  exact p.not_mem_text (by decide) (by decide)

/-- A fragment starts with its `#`. -/
theorem head_fragmentText : ∀ c ∈ u.fragmentText.head?, c = '#' := by
  unfold fragmentText
  split
  · simp
  · simp

/-- Where the engine cuts a URL with a query. -/
theorem cuts_spec (hne : u.pairs ≠ []) :
    UrlParts.Cuts ⟨u.base, queryOf u.pairs, u.fragmentText⟩ u.spec where
  url := by simp [spec, specWith, queryText, hne, queryOf]
  base_clean := u.mark_not_mem_base
  query_clean := hash_not_mem_query u.pairs
  fragment_start := u.head_fragmentText

end PageUrl

namespace TestMatrix

/-- What is documented of the library for pages with plain queries. -/
structure QueryLibrary.Documented (lib : QueryLibrary) : Prop where
  lower_ascii : ∀ s : Text, (∀ c ∈ s, c.toNat < 128) → lib.lower s = Text.toLower s
  urlsplit_spec : ∀ u : PageUrl, lib.urlsplit u.spec = some (u.splitWith u.pairs)
  urlunsplit_split : ∀ (u : PageUrl) (pairs : List PlainPair),
    lib.urlunsplit (u.splitWith pairs) = u.specWith pairs
  parseQsl_query : ∀ pairs : List PlainPair,
    lib.parseQsl (PageUrl.queryOf pairs) = pairs.map PlainPair.decoded
  urlencode_decoded : ∀ pairs : List PlainPair,
    lib.urlencode (pairs.map PlainPair.decoded) = PageUrl.queryOf pairs

/-! ## The two filters -/

/-- The pair of a tracking parameter. -/
def IsTracking (p : PlainPair) : Prop := Text.toLower p.key ∈ Privacy.defaultTrackingParams

instance (p : PlainPair) : Decidable (IsTracking p) := inferInstanceAs (Decidable (_ ∈ _))

/-- Filtering what is decoded is decoding what is filtered. -/
theorem filter_decoded {pairs : List PlainPair} {q : Text × Text → Bool} {q' : PlainPair → Bool}
    (h : ∀ p ∈ pairs, q p.decoded = q' p) :
    (pairs.map PlainPair.decoded).filter q = (pairs.filter q').map PlainPair.decoded := by
  rw [List.filter_map]
  exact congrArg _ (List.filter_congr h)

/-- Filtering the items of the text is filtering the pairs. -/
theorem filter_text {pairs : List PlainPair} {q : Text → Bool} {q' : PlainPair → Bool}
    (h : ∀ p ∈ pairs, q p.text = q' p) :
    (queryItems (PageUrl.queryOf pairs)).filter q = (pairs.filter q').map PlainPair.text := by
  unfold PageUrl.queryOf
  rw [queryItems_join PlainPair.forall_clean, List.filter_map]
  exact congrArg _ (List.filter_congr h)

/-- On a page URL (a lower-case scheme, no empty fragment, no brackets, a plain query) the test
matrix strips what the engine strips, and both return the same, if the keys are none of the
parameters that only the engine has. Without a query the fragment must not hold a `?`. -/
theorem stripTrackingParameters_eq_testMatrix {lib : QueryLibrary} (hlib : lib.Documented)
    {u : PageUrl} (hshared : ∀ p ∈ u.pairs, Text.toLower p.key ∈ Privacy.defaultTrackingParams →
      Text.toLower p.key ∈ defaultTrackingParams)
    (hfragment : u.pairs = [] → '?' ∉ u.fragment) :
    let result := ({} : TrackingParameterFilter).stripTrackingParameters u.spec
    stripTrackingParameters lib u.spec
      = some (result.cleanedUrl, result.parametersRemoved, result.removedParameters) := by
  intro result
  -- both sides take the same pairs for tracking
  have hread : ∀ p ∈ u.pairs, decide (lib.lower p.decoded.1 ∈ defaultTrackingParams)
      = decide (IsTracking p) := by
    intro p hp
    have hascii : ∀ c ∈ p.key, c.toNat < 128 :=
      fun c hc => lt_of_isUnreserved (p.key_unreserved c hc)
    have hsubset : defaultTrackingParams ⊆ Privacy.defaultTrackingParams := by decide
    rw [PlainPair.decoded, hlib.lower_ascii _ hascii]
    exact decide_eq_decide.mpr ⟨fun h => hsubset h, hshared p hp⟩
  have hkey : ∀ p ∈ u.pairs, ({} : TrackingParameterFilter).isTrackingParameter (itemKey p.text)
      = decide (IsTracking p) := by
    intro p _
    rw [p.itemKey_text]
    rfl
  -- so they remove the same and keep the same
  have hremoved := @filter_decoded u.pairs
    (fun pair => decide (lib.lower pair.1 ∈ defaultTrackingParams)) _ hread
  have hkept : (u.pairs.map PlainPair.decoded).filter
        (not ∘ fun pair => decide (lib.lower pair.1 ∈ defaultTrackingParams))
      = (u.pairs.filter fun p => !decide (IsTracking p)).map PlainPair.decoded :=
    filter_decoded fun p hp => congrArg _ (hread p hp)
  have htracking : ({} : TrackingParameterFilter).trackingItems (PageUrl.queryOf u.pairs)
      = (u.pairs.filter fun p => decide (IsTracking p)).map PlainPair.text := filter_text hkey
  have hpreserved : ({} : TrackingParameterFilter).preservedItems (PageUrl.queryOf u.pairs)
      = (u.pairs.filter fun p => !decide (IsTracking p)).map PlainPair.text :=
    filter_text fun p hp => congrArg _ (hkey p hp)
  unfold stripTrackingParameters
  rw [hlib.urlsplit_spec u]
  simp only [Option.bind_eq_bind, Option.bind_some, PageUrl.splitWith, hlib.parseQsl_query,
    List.partition_eq_filter_filter]
  by_cases hnil : u.pairs = []
  · -- without pairs there is no query to strip
    have hmark : '?' ∉ u.spec := by
      have hfrag := hfragment hnil
      have hbase := u.mark_not_mem_base
      unfold PageUrl.spec PageUrl.specWith PageUrl.fragmentText
      rw [hnil]
      split
      · simp [queryText, hbase]
      · simp [queryText, hbase, hfrag]
    have hresult : result = { cleanedUrl := u.spec } :=
      TrackingParameterFilter.stripTrackingParameters_of_not_mem _ hmark
    rw [hresult, hnil]
    rfl
  · have hquery : PageUrl.queryOf u.pairs ≠ [] := by
      unfold PageUrl.queryOf
      rw [ne_eq, join_eq_nil_iff PlainPair.forall_clean]
      simpa using hnil
    have hresult := TrackingParameterFilter.stripTrackingParameters_of_cuts {} (u.cuts_spec hnil)
    change result = _ at hresult
    rw [htracking] at hresult
    simp only [if_neg hquery, hremoved, List.map_eq_nil_iff]
    by_cases hclean : u.pairs.filter (fun p => decide (IsTracking p)) = []
    · rw [hresult, hclean]
      rfl
    · -- with a pair removed both put the URL together again
      have hkeys : (u.pairs.filter fun p => decide (IsTracking p)).map (itemKey ∘ PlainPair.text)
          = (u.pairs.filter fun p => decide (IsTracking p)).map PlainPair.key :=
        List.map_congr_left fun p _ => p.itemKey_text
      have hurl := hlib.urlunsplit_split u (u.pairs.filter fun p => !decide (IsTracking p))
      unfold PageUrl.splitWith at hurl
      rw [hresult, if_neg hclean, if_neg (by simpa using hclean), hkept, hlib.urlencode_decoded,
        hurl, List.map_map]
      simp only [List.map_map, hkeys, TrackingParameterFilter.cleaned, hpreserved]
      rfl

/-! ### A library for plain queries -/

/-- The library by the delimiters of URLs, without any decoding. -/
def plainLibrary : QueryLibrary where
  urlsplit := fun s =>
    let rest := (s.dropWhile (· ≠ ':')).drop 3
    some
      { scheme := s.takeWhile (· ≠ ':')
        netloc := rest.takeWhile fun c => !"/?#".toList.contains c
        path := (rest.dropWhile fun c => !"/?#".toList.contains c).takeWhile fun c =>
          !"?#".toList.contains c
        query := Url.query s
        fragment := (Url.fragment s).drop 1 }
  urlunsplit := fun parsed =>
    parsed.scheme ++ "://".toList ++ (parsed.netloc ++ parsed.path)
      ++ ((if parsed.query = [] then [] else '?' :: parsed.query)
        ++ if parsed.fragment = [] then [] else '#' :: parsed.fragment)
  parseQsl := fun query => (queryItems query).map fun item =>
    (item.takeWhile (· ≠ '='), (item.dropWhile (· ≠ '=')).drop 1)
  urlencode := fun pairs => Text.join ['&'] (pairs.map fun pair => pair.1 ++ '=' :: pair.2)
  lower := Text.toLower

/-- What stands between the `?` and the `#` is the query. -/
theorem query_spec (u : PageUrl) : Url.query u.spec = PageUrl.queryOf u.pairs := by
  unfold PageUrl.spec PageUrl.specWith queryText
  by_cases hnil : u.pairs = []
  · rw [hnil]
    exact Url.query_append_of_not_mem u.mark_not_mem_base u.head_fragmentText
  · rw [if_neg (by simpa using hnil), List.cons_append]
    exact Url.query_append u.base_clean (PageUrl.hash_not_mem_query u.pairs) u.head_fragmentText

/-- What stands behind the `#` is the fragment. -/
theorem fragment_spec (u : PageUrl) : (Url.fragment u.spec).drop 1 = u.fragment := by
  have hhash : '#' ∉ u.base ++ queryText (u.pairs.map PlainPair.text) := by
    have hbase : '#' ∉ u.base := fun h => u.base_clean _ h (by decide)
    have hquery := PageUrl.hash_not_mem_query u.pairs
    unfold PageUrl.queryOf at hquery
    unfold queryText
    split
    · simpa using hbase
    · simpa [hbase] using hquery
  have hfragment := Url.fragment_append hhash u.head_fragmentText
  rw [List.append_assoc] at hfragment
  unfold PageUrl.spec PageUrl.specWith
  rw [hfragment]
  unfold PageUrl.fragmentText
  split
  · next h => rw [h]; rfl
  · rfl

/-- The sample library does what is documented. -/
theorem documented_plainLibrary : plainLibrary.Documented where
  lower_ascii := fun _ _ => rfl
  urlsplit_spec := by
    intro u
    have hcolon : ':' ∉ u.scheme := fun h => absurd (u.scheme_clean ':' h) (by decide)
    have htail : ∀ c ∈ (queryText (u.pairs.map PlainPair.text) ++ u.fragmentText).head?,
        c ∈ "?#".toList := queryText_start _ u.head_fragmentText
    have hspec : u.spec = u.scheme ++ (':' :: "//".toList ++ (u.netloc ++ (u.path
        ++ (queryText (u.pairs.map PlainPair.text) ++ u.fragmentText)))) := by
      simp [PageUrl.spec, PageUrl.specWith, PageUrl.base]
    -- the scheme ends at the first colon
    have hscheme : u.spec.takeWhile (· ≠ ':') = u.scheme := by
      rw [hspec]
      exact Text.takeWhile_append_stop (Text.ne_of_not_mem hcolon) (by simp)
    have hrest : (u.spec.dropWhile (· ≠ ':')).drop 3 = u.netloc ++ (u.path
        ++ (queryText (u.pairs.map PlainPair.text) ++ u.fragmentText)) := by
      rw [hspec, Text.dropWhile_append_stop (Text.ne_of_not_mem hcolon) (by simp)]
      rfl
    have hnetloc : ∀ c ∈ u.netloc, (!"/?#".toList.contains c) = true := by
      intro c hc
      have hclean := u.netloc_clean c hc
      unfold isUrlChar at hclean
      simp at hclean ⊢
      tauto
    have hpath : ∀ c ∈ u.path, (!"?#".toList.contains c) = true := by
      intro c hc
      have hclean := u.path_clean c hc
      unfold isUrlChar at hclean
      simp at hclean ⊢
      tauto
    -- behind the authority stands a slash or a delimiter
    have hbehind : ∀ c ∈ (u.path ++ (queryText (u.pairs.map PlainPair.text)
        ++ u.fragmentText)).head?, (!"/?#".toList.contains c) = false := by
      intro c hc
      rw [Bool.not_eq_false', List.contains_iff_mem]
      cases hp : u.path with
      | nil =>
        rw [hp, List.nil_append] at hc
        exact List.mem_cons_of_mem '/' (htail c hc)
      | cons d path =>
        rw [hp] at hc
        rw [u.path_start c (by rw [hp]; exact hc)]
        decide
    have hstop : ∀ c ∈ (queryText (u.pairs.map PlainPair.text) ++ u.fragmentText).head?,
        (!"?#".toList.contains c) = false := by
      intro c hc
      rw [Bool.not_eq_false', List.contains_iff_mem]
      exact htail c hc
    unfold plainLibrary PageUrl.splitWith
    simp only [hscheme, hrest, query_spec, fragment_spec]
    rw [Text.takeWhile_append_stop hnetloc hbehind, Text.dropWhile_append_stop hnetloc hbehind,
      Text.takeWhile_append_stop hpath hstop]
  urlunsplit_split := by
    intro u pairs
    have hquery : (if PageUrl.queryOf pairs = [] then [] else '?' :: PageUrl.queryOf pairs)
        = queryText (pairs.map PlainPair.text) := by
      unfold queryText PageUrl.queryOf
      simp only [join_eq_nil_iff PlainPair.forall_clean]
    show _ ++ ((if PageUrl.queryOf pairs = [] then [] else '?' :: PageUrl.queryOf pairs) ++ _) = _
    rw [hquery]
    rfl
  parseQsl_query := by
    intro pairs
    show (queryItems (Text.join ['&'] (pairs.map PlainPair.text))).map _ = _
    rw [queryItems_join PlainPair.forall_clean, List.map_map]
    refine List.map_congr_left fun p _ => ?_
    have hequals := Text.ne_of_not_mem (p.not_mem_key (by decide : isUnreserved '=' = false))
    have hkey : p.text.takeWhile (· ≠ '=') = p.key :=
      Text.takeWhile_append_stop hequals (by simp)
    have hvalue : (p.text.dropWhile (· ≠ '=')).drop 1 = p.value := by
      unfold PlainPair.text
      rw [Text.dropWhile_append_stop hequals (by simp)]
      rfl
    exact Prod.ext hkey hvalue
  urlencode_decoded := fun pairs => by
    show Text.join ['&'] ((pairs.map PlainPair.decoded).map _) = _
    rw [List.map_map]
    rfl

/-- The page of the suite. -/
def productPage : PageUrl where
  scheme := "https".toList
  netloc := "example.com".toList
  path := "/product".toList
  pairs := [⟨"id".toList, "42".toList, by simp [isUnreserved], by simp [isUnreserved]⟩,
    ⟨"UTM_source".toList, "newsletter".toList, List.all_eq_true.mp (by decide),
      List.all_eq_true.mp (by decide)⟩,
    ⟨"fbclid".toList, "abc123".toList, List.all_eq_true.mp (by decide),
      List.all_eq_true.mp (by decide)⟩]
  fragment := "top".toList
  scheme_start := ⟨'h', "ttps".toList, rfl, rfl⟩
  scheme_clean := List.all_eq_true.mp (by decide)
  netloc_ne_nil := by decide
  netloc_clean := List.all_eq_true.mp (by decide)
  path_start := fun _ hc => (Option.some.inj hc).symm
  path_clean := List.all_eq_true.mp (by decide)
  fragment_clean := List.all_eq_true.mp (by decide)

example : stripTrackingParameters plainLibrary productPage.spec
    = some ("https://example.com/product?id=42#top".toList, true,
      ["UTM_source".toList, "fbclid".toList]) := by
  decide +kernel

/-- The page of a product, which a newsletter led to. -/
theorem stripTrackingParameters_eq_product :
    let result := ({} : TrackingParameterFilter).stripTrackingParameters productPage.spec
    stripTrackingParameters plainLibrary productPage.spec
      = some (result.cleanedUrl, result.parametersRemoved, result.removedParameters) :=
  stripTrackingParameters_eq_testMatrix documented_plainLibrary (by decide +kernel)
    (by decide +kernel)

end TestMatrix

end ThoriumFrugal.Privacy

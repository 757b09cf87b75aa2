import ThoriumFrugal.Lib.Text

/-!
# The components of a URL string

Components by the delimiters of the generic syntax `scheme://authority/path?query#fragment`: the
fragment starts at the first `#`, the query at the first `?` in front of it, and the authority
between the first `://` and the next of `/?#`.
-/

namespace ThoriumFrugal.Lib.Url

/-- The fragment with its `#`. -/
def fragment (s : Text) : Text := s.dropWhile (· ≠ '#')

/-- What stands in front of query and fragment. -/
def beforeQuery (s : Text) : Text := s.takeWhile fun c => !"?#".toList.contains c

/-- The query without its `?`. -/
def query (s : Text) : Text := ((s.takeWhile (· ≠ '#')).dropWhile (· ≠ '?')).drop 1

/-- The authority of a URL string with a `://`. -/
def authority (s : Text) : Text :=
  match s.findStr "://".toList 0 with
  | none => []
  | some n => (s.drop (n + 3)).takeWhile fun c => !"/?#".toList.contains c

variable {a base q s t : Text}

/-- Behind a text without `#` the fragment is what follows it. -/
theorem fragment_append (ha : '#' ∉ a) (ht : ∀ c ∈ t.head?, c = '#') : fragment (a ++ t) = t :=
  Text.dropWhile_append_stop (Text.ne_of_not_mem ha) (Text.stop_of_head ht)

/-- A text without delimiters is what stands in front of the query. -/
theorem beforeQuery_append (ha : ∀ c ∈ a, c ∉ "?#".toList)
    (ht : ∀ c ∈ t.head?, c ∈ "?#".toList) : beforeQuery (a ++ t) = a :=
  Text.takeWhile_append_stop (fun c hc => by simpa using ha c hc)
    fun c hc => by rw [List.contains_iff_mem.mpr (ht c hc), Bool.not_true]

/-- The query stands between the first `?` and the `#`. -/
theorem query_append (hbase : ∀ c ∈ base, c ∉ "?#".toList) (hquery : '#' ∉ q)
    (ht : ∀ c ∈ t.head?, c = '#') : query (base ++ '?' :: (q ++ t)) = q := by
  have hmark : '?' ∉ base := fun h => hbase _ h (by decide)
  have hhash : '#' ∉ base ++ '?' :: q := by
    have hbase : '#' ∉ base := fun h => hbase _ h (by decide)
    simp [hbase, hquery]
  unfold query
  rw [show base ++ '?' :: (q ++ t) = base ++ '?' :: q ++ t by simp,
    Text.takeWhile_append_stop (Text.ne_of_not_mem hhash) (Text.stop_of_head ht),
    Text.dropWhile_append_stop (Text.ne_of_not_mem hmark) (by simp)]
  rfl

/-- Without a `?` in front of the fragment there is no query. -/
theorem query_append_of_not_mem (ha : '?' ∉ a) (ht : ∀ c ∈ t.head?, c = '#') :
    query (a ++ t) = [] := by
  have hmark : '?' ∉ (a ++ t).takeWhile (· ≠ '#') := by
    intro h
    cases t with
    | nil => exact ha (List.append_nil a ▸ (List.takeWhile_sublist _).subset h)
    | cons c t =>
      obtain rfl : c = '#' := ht c rfl
      rw [Text.takeWhile_append_cons (by simp)] at h
      exact ha ((List.takeWhile_sublist _).subset h)
  unfold query
  rw [List.dropWhile_eq_nil_iff.mpr (Text.ne_of_not_mem hmark)]
  rfl

theorem query_of_not_mem (h : '?' ∉ s) : query s = [] := by
  have hquery := query_append_of_not_mem h (t := []) (by simp)
  rwa [List.append_nil] at hquery

/-! ## URL strings with a scheme -/

/-- `scheme://authority[/path][?query][#fragment]`: behind the `://` stands any text. -/
structure SchemeUrl where
  scheme : Text
  rest : Text
  scheme_clean : ∀ c ∈ scheme, c ∉ ":/?#".toList

namespace SchemeUrl

/-- The scheme with its delimiter. -/
def origin (u : SchemeUrl) : Text := u.scheme ++ "://".toList

/-- The URL string. -/
def spec (u : SchemeUrl) : Text := u.origin ++ u.rest

variable (u : SchemeUrl)

theorem length_origin : u.origin.length = u.scheme.length + 3 := by simp [origin]

theorem not_infix_scheme : ¬"://".toList <:+: u.scheme :=
  fun h => u.scheme_clean ':' (h.subset (by decide)) (by decide)

/-- The first `://` ends the scheme. -/
theorem findStr_origin (t : Text) :
    (u.origin ++ t).findStr "://".toList 0 = some u.scheme.length := by
  have hfind := Text.findStr_zero_append_of_not_infix (t := "//".toList) (b := t) (by decide)
    u.not_infix_scheme
  rw [show u.origin ++ t = u.scheme ++ (':' :: "//".toList ++ t) by simp [origin]]
  exact hfind

/-- Behind the origin stands the authority. -/
theorem authority_append (t : Text) :
    authority (u.origin ++ t) = t.takeWhile fun c => !"/?#".toList.contains c := by
  unfold authority
  rw [u.findStr_origin]
  simp only
  rw [← u.length_origin, List.drop_left]

theorem not_mem_origin {c : Char} (hc : c = '?' ∨ c = '#') : c ∉ u.origin := by
  have hscheme : c ∉ u.scheme := fun h =>
    u.scheme_clean c h (by rcases hc with rfl | rfl <;> decide)
  rcases hc with rfl | rfl <;> simp [origin, hscheme]

theorem query_append (t : Text) : query (u.origin ++ t) = query t := by
  have hhash := Text.ne_of_not_mem (u.not_mem_origin (Or.inr rfl))
  have hmark := Text.ne_of_not_mem (u.not_mem_origin (Or.inl rfl))
  unfold query
  rw [List.takeWhile_append_of_pos hhash, List.dropWhile_append_of_pos hmark]

theorem fragment_append (t : Text) : fragment (u.origin ++ t) = fragment t :=
  List.dropWhile_append_of_pos (Text.ne_of_not_mem (u.not_mem_origin (Or.inr rfl)))

end SchemeUrl

end ThoriumFrugal.Lib.Url

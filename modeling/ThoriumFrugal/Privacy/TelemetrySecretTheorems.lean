import ThoriumFrugal.Privacy.TelemetryUrl

/-!
# Secrets in telemetry URLs

What a telemetry URL still shows of a URL's credentials. The sanitizer redacts the items behind the
first `?`, so the items of a fragment are shown as they are, but for those that a `?` in the
fragment makes it read as a query.
-/

namespace ThoriumFrugal.Privacy.PrivacyPolicyManager

open Lib

/-! ## Secret items -/

/-- An item that gives a sensitive key a value that is not redacted. -/
def IsSecret (item : Text) : Prop :=
  ∃ key value, item = key ++ '=' :: value ∧ '=' ∉ key ∧ isSensitiveQueryKey key = true
    ∧ value ≠ "[REDACTED]".toList

/-- A text between whose `&` there is a secret item. -/
def Leaks (t : Text) : Prop := ∃ item ∈ t.splitOn '&', IsSecret item

variable {a b key value item x y : Text} {c : Char}

theorem isSecret_append (hkey : '=' ∉ key) : IsSecret (key ++ '=' :: value)
    ↔ isSensitiveQueryKey key = true ∧ value ≠ "[REDACTED]".toList := by
  constructor
  · rintro ⟨key', value', h, hkey', hsecret⟩
    have hsame := congrArg itemKey h
    rw [itemKey_append hkey, itemKey_append hkey'] at hsame
    subst hsame
    rw [List.append_cancel_left_eq, List.cons.injEq] at h
    exact h.2 ▸ hsecret
  · exact fun h => ⟨key, value, rfl, hkey, h⟩

theorem not_isSecret_of_not_mem (h : '=' ∉ item) : ¬IsSecret item := by
  rintro ⟨key, value, rfl, -⟩
  simp at h

/-- The delimiters of query and fragment are in no sensitive key. -/
theorem not_isSensitiveQueryKey_of_mem (hc : c = '?' ∨ c = '#') (hmem : c ∈ key) :
    isSensitiveQueryKey key = false := by
  have hclean : ∀ k ∈ sensitiveQueryKeys, '?' ∉ k ∧ '#' ∉ k := by decide +kernel
  unfold isSensitiveQueryKey
  rw [decide_eq_false_iff_not]
  intro hkey
  have hlower : c.toLower ∈ Text.toLower key := List.mem_map_of_mem hmem
  rcases hc with rfl | rfl
  · exact (hclean _ hkey).1 hlower
  · exact (hclean _ hkey).2 hlower

/-- Nothing behind such a delimiter decides whether the item is a secret. -/
theorem isSecret_append_cons (hc : c = '?' ∨ c = '#') :
    IsSecret (x ++ c :: y) ↔ IsSecret (x ++ [c]) := by
  by_cases heq : '=' ∈ x
  · obtain ⟨key, v, rfl, hkey⟩ := List.eq_append_cons_of_mem heq
    have hvalue : ∀ y : Text, v ++ c :: y ≠ "[REDACTED]".toList := by
      intro y h
      have hmem : c ∈ "[REDACTED]".toList := h ▸ by simp
      rcases hc with rfl | rfl <;> exact absurd hmem (by decide)
    simp only [List.append_assoc, List.cons_append, isSecret_append hkey, ne_eq, hvalue,
      not_false_eq_true]
  · -- without a `=` in front of it, the delimiter belongs to the key
    have hne : c ≠ '=' := by rcases hc with rfl | rfl <;> decide
    refine iff_of_false ?_ (not_isSecret_of_not_mem (by simp [heq, hne.symm]))
    rintro ⟨key, v, h, hkey, hsensitive, -⟩
    have hx : ∀ d ∈ x ++ [c], decide (d ≠ '=') = true :=
      Text.ne_of_not_mem (by simp [heq, hne.symm])
    have htake : key = x ++ [c] ++ y.takeWhile (· ≠ '=') := by
      rw [← List.takeWhile_append_of_pos hx, ← List.append_cons, h,
        Text.takeWhile_append_stop (Text.ne_of_not_mem hkey) (by simp)]
    rw [not_isSensitiveQueryKey_of_mem hc (by simp [htake])] at hsensitive
    cases hsensitive

theorem not_isSecret_cons (hc : c = '?' ∨ c = '#') : ¬IsSecret (c :: y) := by
  have h := isSecret_append_cons hc (x := []) (y := y)
  rw [List.nil_append, List.nil_append] at h
  rw [h]
  exact not_isSecret_of_not_mem (by rcases hc with rfl | rfl <;> decide)

/-! ## Leaking texts -/

theorem leaks_append_and : Leaks (a ++ '&' :: b) ↔ Leaks a ∨ Leaks b := by
  unfold Leaks
  rw [List.splitOn_append_cons_self]
  simp only [List.mem_append, or_and_right, exists_or]

theorem leaks_of_not_mem (h : '&' ∉ item) : Leaks item ↔ IsSecret item := by
  unfold Leaks
  rw [List.splitOn_eq_singleton h]
  simp

theorem not_leaks_nil : ¬Leaks [] :=
  (leaks_of_not_mem List.not_mem_nil).not.mpr (not_isSecret_of_not_mem List.not_mem_nil)

/-- An item behind such a delimiter leaks nothing: the delimiter belongs to its key. -/
theorem not_leaks_cons (hc : c = '?' ∨ c = '#') (hy : '&' ∉ y) : ¬Leaks (c :: y) := by
  have hne : '&' ≠ c := by rcases hc with rfl | rfl <;> decide
  have hitem : '&' ∉ c :: y := by simp [hy, hne]
  rw [leaks_of_not_mem hitem]
  exact not_isSecret_cons hc

/-- What a text leaks is decided by what it holds in front of its last item, and by that item. -/
theorem exists_last_item (a : Text) : ∃ x, '&' ∉ x ∧ ∃ front : Prop,
    ∀ t, Leaks (a ++ t) ↔ front ∨ Leaks (x ++ t) := by
  by_cases hmem : '&' ∈ a
  · obtain ⟨s, x, rfl, hx⟩ := Text.exists_last_split_of_mem hmem
    refine ⟨x, hx, Leaks s, fun t => ?_⟩
    rw [List.append_assoc, List.cons_append, leaks_append_and]
  · exact ⟨a, hmem, False, fun t => by rw [false_or]⟩

theorem exists_first_item (b : Text) : ∃ y, '&' ∉ y ∧ ∃ back : Prop,
    ∀ t, Leaks (t ++ b) ↔ Leaks (t ++ y) ∨ back := by
  by_cases hmem : '&' ∈ b
  · obtain ⟨y, s, rfl, hy⟩ := List.eq_append_cons_of_mem hmem
    refine ⟨y, hy, Leaks s, fun t => ?_⟩
    rw [← List.append_assoc, leaks_append_and]
  · exact ⟨b, hmem, False, fun t => by rw [or_false]⟩

/-- A delimiter of query or fragment keeps what stands on its two sides apart. -/
theorem leaks_append_cons (hc : c = '?' ∨ c = '#') :
    Leaks (a ++ c :: b) ↔ Leaks (a ++ [c]) ∨ Leaks (c :: b) := by
  have hne : '&' ≠ c := by rcases hc with rfl | rfl <;> decide
  obtain ⟨x, hx, front, hfront⟩ := exists_last_item a
  obtain ⟨y, hy, back, hback⟩ := exists_first_item b
  have hitem : Leaks (x ++ c :: y) ↔ Leaks (x ++ [c]) := by
    have hlong : '&' ∉ x ++ c :: y := by simp [hx, hy, hne]
    have hshort : '&' ∉ x ++ [c] := by simp [hx, hne]
    rw [leaks_of_not_mem hlong, leaks_of_not_mem hshort, isSecret_append_cons hc]
  have hstart := not_leaks_cons hc hy
  have hleft : Leaks (a ++ c :: b) ↔ (front ∨ Leaks (x ++ [c])) ∨ back := by
    rw [List.append_cons, hback, ← List.append_cons, hfront, hitem]
  have hright : Leaks (c :: b) ↔ back := by
    have h := hback [c]
    simpa [hstart] using h
  rw [hleft, hfront, hright]

theorem leaks_of_cons (hc : c = '?' ∨ c = '#') (h : Leaks (c :: b)) : Leaks b := by
  obtain ⟨y, hy, back, hback⟩ := exists_first_item b
  exact (hback []).mpr (Or.inr (((hback [c]).mp h).resolve_left (not_leaks_cons hc hy)))

theorem leaks_join {items : List Text} (h : ∀ item ∈ items, '&' ∉ item) :
    Leaks (Text.join ['&'] items) ↔ ∃ item ∈ items, IsSecret item := by
  by_cases hnone : items = []
  · subst hnone
    exact iff_of_false not_leaks_nil (by simp)
  · unfold Leaks Text.join
    rw [List.splitOn_intercalate '&' h hnone]

/-! ## Redacted items -/

theorem eq_not_mem_itemKey (item : Text) : '=' ∉ itemKey item := by
  by_cases heq : '=' ∈ item
  · obtain ⟨key, value, rfl, hkey⟩ := List.eq_append_cons_of_mem heq
    rwa [itemKey_append hkey]
  · rwa [itemKey_of_not_mem heq]

theorem not_isSecret_redactItem (item : Text) : ¬IsSecret (redactItem item) := by
  unfold redactItem
  split
  · rw [show "=[REDACTED]".toList = '=' :: "[REDACTED]".toList from rfl,
      isSecret_append (eq_not_mem_itemKey item)]
    simp
  · next hkey =>
    rintro ⟨key, value, rfl, hnot, hsensitive, -⟩
    rw [itemKey_append hnot] at hkey
    exact hkey hsensitive

/-- In front of a fragment, the redaction of the last item is undone: what stands behind its `=` is
no longer the mark alone. -/
theorem isSecret_redactItem_append_hash (item : Text) : IsSecret (redactItem item ++ ['#'])
    ↔ isSensitiveQueryKey (itemKey item) = true := by
  unfold redactItem
  split
  · next hkey =>
    rw [show itemKey item ++ "=[REDACTED]".toList ++ ['#']
      = itemKey item ++ '=' :: "[REDACTED]#".toList by simp,
      isSecret_append (eq_not_mem_itemKey item)]
    simp
  · next hkey =>
    refine iff_of_false ?_ hkey
    by_cases heq : '=' ∈ item
    · obtain ⟨key, value, rfl, hnot⟩ := List.eq_append_cons_of_mem heq
      rw [itemKey_append hnot] at hkey
      rw [List.append_assoc, List.cons_append, isSecret_append hnot]
      exact fun h => hkey h.1
    · exact not_isSecret_of_not_mem (by simp [heq])

theorem not_leaks_join_redactItem {items : List Text}
    (h : ∀ item ∈ items.map redactItem, '&' ∉ item) :
    ¬Leaks (Text.join ['&'] (items.map redactItem)) := by
  rw [leaks_join h]
  rintro ⟨item, hitem, hsecret⟩
  obtain ⟨raw, -, rfl⟩ := List.mem_map.mp hitem
  exact not_isSecret_redactItem raw hsecret

section

variable (query : Text)

theorem not_leaks_join_redactedItems : ¬Leaks (Text.join ['&'] (redactedItems query)) :=
  not_leaks_join_redactItem fun item hitem => (redactedItems_clean query item hitem).1

theorem not_leaks_mark_join : ¬Leaks ('?' :: Text.join ['&'] (redactedItems query)) :=
  fun h => not_leaks_join_redactedItems query (leaks_of_cons (Or.inl rfl) h)

/-- Between a `?` and a `#`, the redacted items leak the last one, unless it is the first one. -/
theorem leaks_mark_join_hash : Leaks ('?' :: Text.join ['&'] (redactedItems query) ++ ['#'])
    ↔ ∃ item ∈ (queryItems query).tail.getLast?, isSensitiveQueryKey (itemKey item) = true := by
  have hclean := redactedItems_clean query
  unfold redactedItems at hclean ⊢
  rcases List.eq_nil_or_concat (queryItems query) with hnil | ⟨front, last, hitems⟩
  · rw [hnil]
    refine iff_of_false ?_ (by simp)
    exact not_leaks_cons (Or.inl rfl) (by decide)
  · rw [hitems, List.concat_eq_append, List.map_append, List.map_singleton] at hclean
    rw [hitems, List.concat_eq_append, List.map_append, List.map_singleton, Text.join_concat]
    have hlast : '&' ∉ redactItem last := (hclean _ (by simp)).1
    have hitem : '&' ∉ redactItem last ++ ['#'] := by simp [hlast]
    by_cases hfront : front = []
    · -- the `?` belongs to the key of the only item
      subst hfront
      refine iff_of_false ?_ (by simp)
      simpa using not_leaks_cons (Or.inl rfl) hitem
    · have hjoin : ¬Leaks ('?' :: Text.join ['&'] (front.map redactItem)) := fun h =>
        not_leaks_join_redactItem (fun item hmem => (hclean item (List.mem_append_left _ hmem)).1)
          (leaks_of_cons (Or.inl rfl) h)
      have htail : (front ++ [last]).tail.getLast? = some last := by
        rw [List.tail_append_of_ne_nil hfront, List.getLast?_concat]
      rw [if_neg (by simpa using hfront), htail]
      generalize Text.join ['&'] (front.map redactItem) = joined at hjoin ⊢
      rw [show '?' :: (joined ++ ['&'] ++ redactItem last) ++ ['#']
        = '?' :: joined ++ '&' :: (redactItem last ++ ['#']) by simp,
        leaks_append_and, leaks_of_not_mem hitem, isSecret_redactItem_append_hash]
      simp [hjoin]

end

/-- What a text leaks in which the items behind the first `?` are redacted, up to the next `#`. -/
theorem leaks_redacted {parts : UrlParts} (h : ∀ c ∈ parts.fragment.head?, c = '#') :
    Leaks (parts.base ++ (queryText (redactedItems parts.query) ++ parts.fragment))
      ↔ if queryItems parts.query = [] then Leaks (parts.base ++ parts.fragment)
        else Leaks (parts.base ++ ['?']) ∨ Leaks parts.fragment ∨ parts.fragment ≠ []
          ∧ ∃ item ∈ (queryItems parts.query).tail.getLast?,
            isSensitiveQueryKey (itemKey item) = true := by
  have hnil := redactedItems_eq_nil parts.query
  unfold queryText
  by_cases hitems : queryItems parts.query = []
  · rw [if_pos (hnil.mpr hitems), if_pos hitems, List.nil_append]
  · -- behind the `?` only what stands in front of a fragment leaks
    have hmark := not_leaks_mark_join parts.query
    rw [if_neg (hnil.not.mpr hitems), if_neg hitems, List.cons_append,
      leaks_append_cons (Or.inl rfl)]
    cases hfragment : parts.fragment with
    | nil =>
      simp [hmark, not_leaks_nil]
    | cons c t =>
      obtain rfl : c = '#' := h c (by rw [hfragment]; rfl)
      rw [← List.cons_append, leaks_append_cons (Or.inr rfl), leaks_mark_join_hash]
      simp only [ne_eq, reduceCtorEq, not_false_eq_true, true_and]
      exact or_congr_right or_comm

/-! ## What the telemetry URL shows -/

/-- A URL string without userinfo in its authority and without a secret in its query and its
fragment. -/
structure ShowsNoSecret (url : Text) : Prop where
  authority : '@' ∉ Url.authority url
  query : ¬Leaks (Url.query url)
  fragment : ¬Leaks ((Url.fragment url).drop 1)

theorem showsNoSecret_append (u : Url.SchemeUrl) (t : Text) : ShowsNoSecret (u.origin ++ t)
    ↔ '@' ∉ t.takeWhile (fun c => !"/?#".toList.contains c) ∧ ¬Leaks (Url.query t)
      ∧ ¬Leaks ((Url.fragment t).drop 1) := by
  rw [← u.authority_append, ← u.query_append, ← u.fragment_append]
  exact ⟨fun h => ⟨h.authority, h.query, h.fragment⟩, fun h => ⟨h.1, h.2.1, h.2.2⟩⟩

/-- A fragment that holds the first `?` leaks nothing when it is redacted there: the items in front
of the `?` and behind the next `#` are clean, and no redacted item comes up to that `#`. -/
def FragmentClean (fragment : Text) : Prop :=
  ∀ parts : UrlParts, parts.Cuts fragment →
    if queryItems parts.query = [] then ¬Leaks (parts.base ++ parts.fragment)
    else ¬Leaks (parts.base ++ ['?']) ∧ ¬Leaks parts.fragment
      ∧ (parts.fragment ≠ [] → ∀ item ∈ (queryItems parts.query).tail.getLast?,
        isSensitiveQueryKey (itemKey item) = false)

theorem fragmentClean_of_cuts {parts : UrlParts} {fragment : Text} (h : parts.Cuts fragment) :
    FragmentClean fragment
      ↔ ¬Leaks (parts.base ++ (queryText (redactedItems parts.query) ++ parts.fragment)) := by
  unfold FragmentClean
  rw [h.forall_iff, leaks_redacted h.fragment_start]
  split
  · rfl
  · rw [not_or, not_or, not_and]
    simp

/-- Behind the base of a cut, the authority goes on no further. -/
theorem takeWhile_base_append (base : Text) {t : Text} (h : ∀ c ∈ t.head?, c ∈ "?#".toList) :
    (base ++ t).takeWhile (fun c => !"/?#".toList.contains c)
      = base.takeWhile (fun c => !"/?#".toList.contains c) := by
  refine Text.takeWhile_append_of_head fun c hc => ?_
  have hmem : c ∈ "/?#".toList := List.mem_cons_of_mem _ (h c hc)
  rw [List.contains_iff_mem.mpr hmem, Bool.not_true]

/-- The telemetry URL shows no secret exactly when no second `@` follows in the authority, and the
fragment holds none: as it is written, or, where it holds the first `?`, once it is redacted. -/
theorem showsNoSecret_iff (u : Url.SchemeUrl) : ShowsNoSecret (sanitizeUrlForTelemetry u.spec)
    ↔ '@' ∉ (afterUserinfo u.rest).takeWhile (fun c => !"/?#".toList.contains c)
      ∧ if '?' ∈ (afterUserinfo u.rest).takeWhile (· ≠ '#') ∨ '?' ∉ afterUserinfo u.rest then
          ¬Leaks ((Url.fragment (afterUserinfo u.rest)).drop 1)
        else FragmentClean ((Url.fragment (afterUserinfo u.rest)).drop 1) := by
  by_cases hmark : '?' ∈ afterUserinfo u.rest
  · obtain ⟨parts, hcuts⟩ := UrlParts.exists_cuts hmark
    have hauthority : (afterUserinfo u.rest).takeWhile (fun c => !"/?#".toList.contains c)
        = parts.base.takeWhile (fun c => !"/?#".toList.contains c) := by
      rw [hcuts.url]
      exact takeWhile_base_append _ (by simp)
    rw [sanitizeUrlForTelemetry_of_cuts u hcuts, showsNoSecret_append, hauthority,
      takeWhile_base_append _ (queryText_start _ hcuts.fragment_start)]
    refine and_congr_right fun _ => ?_
    by_cases hhash : '#' ∈ parts.base
    · -- the fragment holds the first `?`, so it is what the sanitizer redacts
      obtain ⟨front, f, hbase, hfront⟩ := List.eq_append_cons_of_mem hhash
      have hfragment : ∀ t, Url.fragment (parts.base ++ t) = '#' :: (f ++ t) := by
        intro t
        rw [hbase, List.append_assoc]
        exact Url.fragment_append hfront (by simp)
      have hnot : '?' ∉ (afterUserinfo u.rest).takeWhile (· ≠ '#') := by
        rw [hcuts.url, hbase, List.append_assoc, List.cons_append,
          Text.takeWhile_append_stop (Text.ne_of_not_mem hfront) (by simp)]
        exact fun h => hcuts.base_clean (hbase ▸ List.mem_append_left _ h)
      have hinner : { parts with base := f }.Cuts (f ++ '?' :: (parts.query ++ parts.fragment)) :=
        ⟨rfl, fun h => hcuts.base_clean (by simp [hbase, h]), hcuts.query_clean,
          hcuts.fragment_start⟩
      rw [hcuts.query_append_eq_nil hhash, hfragment,
        if_neg (not_or.mpr ⟨hnot, not_not_intro hmark⟩), hcuts.url, hfragment, List.drop_one,
        List.drop_one, List.tail_cons, List.tail_cons, fragmentClean_of_cuts hinner]
      simp [not_leaks_nil]
    · -- the query is redacted, and the fragment stays as it is
      have hmem : '?' ∈ (afterUserinfo u.rest).takeWhile (· ≠ '#') := by
        rw [hcuts.url, List.takeWhile_append_of_pos (Text.ne_of_not_mem hhash)]
        simp
      obtain ⟨-, hquery, hfragment⟩ := hcuts.components_of_items hhash
        (hash_not_mem_redactedItems hcuts.query_clean)
      rw [if_pos (Or.inl hmem), hcuts.fragment_eq hhash, hquery, hfragment]
      simp [not_leaks_join_redactedItems]
  · rw [sanitizeUrlForTelemetry_of_not_mem u hmark, showsNoSecret_append, if_pos (Or.inr hmark),
      Url.query_of_not_mem hmark]
    simp [not_leaks_nil]

/-- An access token in the fragment, where an implicit grant leaves it. -/
theorem not_showsNoSecret_fragment :
    ¬ShowsNoSecret (sanitizeUrlForTelemetry "https://h/#access_token=secret".toList) := by
  intro h
  refine h.fragment ⟨"access_token=secret".toList, by decide, ?_⟩
  exact ⟨"access_token".toList, "secret".toList, by decide, by decide, by decide, by decide⟩

end ThoriumFrugal.Privacy.PrivacyPolicyManager

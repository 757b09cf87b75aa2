import ThoriumFrugal.Cognitia.ExposureTheorems
import ThoriumFrugal.Protocol.NetlocTheorems

/-!
# The two URL sanitizers compared

`sanitize_url` of the mock against `UrlSanitizer::SanitizeUrl` under `kFullUrlSanitized`, on URLs
that `urlparse` and `GURL` split into the same components. The browser scrubs user name, password,
fragment and the values of its sensitive keys (`UrlSanitizer.scrubbed`); the mock keeps a name in
front of a password, the fragment, and the values of the keys that only the browser's table has.
-/

namespace ThoriumFrugal.Protocol

open Lib Cognitia

namespace SecurityValidator

/-! ## The output of the mock -/

/-- The pairs that `urlencode` gets. -/
def redactedPairs (lib : PyLib) (query : Text) : List (Text × Text) :=
  (lib.parseQsl query).map fun (k, v) =>
    if lower k ∈ sensitiveQueryParams then (k, "[REDACTED]".toList) else (k, v)

/-- The components that `urlunparse` gets. -/
def sanitizedParts (lib : PyLib) (parsed : ParseResult) : ParseResult :=
  { parsed with
    netloc := redactUserinfo parsed.netloc
    query := if parsed.query ≠ [] then lib.urlencode (redactedPairs lib parsed.query) else [] }

/-- The sanitizer puts the sanitized parts together. -/
theorem sanitizeUrl_of_urlparse {lib : PyLib} {rawUrl : String} {parsed : ParseResult}
    (hraw : rawUrl ≠ "") (hparsed : lib.urlparse rawUrl.toList = some parsed) :
    sanitizeUrl lib rawUrl = String.ofList (lib.urlunparse (sanitizedParts lib parsed)) := by
  unfold sanitizeUrl
  rw [if_neg hraw, hparsed]
  rfl

/-! ## What the browser scrubs -/

/-- `urlparse` and `GURL` split a URL into the same components, and the query into the same
pairs. -/
structure SameComponents (lib : PyLib) (rawUrl : String) (url : GURL) (parsed : ParseResult) :
    Prop where
  nonempty : rawUrl ≠ ""
  valid : url.isValid = true
  urlparse : lib.urlparse rawUrl.toList = some parsed
  scheme : parsed.scheme = url.scheme
  username : parsed.username.getD [] = url.username
  password : parsed.password.getD [] = url.password
  query : parsed.query = url.query.getD []
  fragment : parsed.fragment = url.ref.getD []
  pairs : lib.parseQsl parsed.query = queryIterator parsed.query

/-- A name or a password that shows nothing: there is none, it is empty, or it is the mark. -/
def IsMarked (piece : Option Text) : Prop := ∀ t ∈ piece, t = [] ∨ t = "***".toList

/-- What the browser's sanitizer takes out of a URL is not in what the mock makes of it: of the name
and the password stays nothing but the mark. A fragment or a value that is empty, or that the
browser's redaction leaves as it is, is not taken out. -/
structure AtLeastAsStrict (lib : PyLib) (url : GURL) (parsed : ParseResult) : Prop where
  username : IsMarked (sanitizedParts lib parsed).username
  password : IsMarked (sanitizedParts lib parsed).password
  fragment : ∀ ref, url.ref = some ref → ref ≠ [] → (sanitizedParts lib parsed).fragment ≠ ref
  queryValue : ∀ key value, (key, value) ∈ queryIterator (url.query.getD []) →
    UrlSanitizer.isSensitiveQueryParam key = true → value ≠ [] → value ≠ "[REDACTED]".toList →
      (key, value) ∉ redactedPairs lib parsed.query

/-! ## Names and passwords -/

/-- The netloc has one `@` at most, and in front of a password is no name but the mark. -/
def UserinfoHidden (parsed : ParseResult) : Prop :=
  '@' ∈ parsed.netloc →
    let (userinfo, host) := splitOnce parsed.netloc '@'
    '@' ∉ host ∧ (':' ∈ userinfo → IsMarked (some (splitOnce userinfo ':').1))

/-- A component that is there is empty or the mark. -/
theorem isMarked_some {t : Text} : IsMarked (some t) ↔ t = [] ∨ t = "***".toList := by
  simp [IsMarked]

/-- A component that is not there shows nothing. -/
theorem isMarked_none : IsMarked none := nofun

/-- More than the mark does not pass for the mark. -/
theorem not_isMarked_append_cons (c : Char) (t : Text) :
    ¬IsMarked (some ("***".toList ++ c :: t)) := by
  rw [isMarked_some]
  simp

/-- Behind the mark shows nothing exactly if no second `@` follows. -/
theorem isMarked_tail {host tail : Text} (h : IsTail host tail) :
    IsMarked (some ("***".toList ++ tail)) ↔ '@' ∉ host := by
  rcases h with ⟨hone, rfl⟩ | ⟨htwo, x, rfl⟩
  · exact iff_of_true (isMarked_some.mpr (.inr (List.append_nil _))) hone
  · exact iff_of_false (not_isMarked_append_cons '@' x) fun hone => hone htwo

/-- The redacted userinfo shows nothing exactly if it is hidden. -/
theorem userinfoHidden_iff (lib : PyLib) (parsed : ParseResult) :
    UserinfoHidden parsed ↔ IsMarked (sanitizedParts lib parsed).username
      ∧ IsMarked (sanitizedParts lib parsed).password := by
  have hnetloc : (sanitizedParts lib parsed).netloc = redactUserinfo parsed.netloc := rfl
  generalize sanitizedParts lib parsed = out at hnetloc
  unfold UserinfoHidden ParseResult.username
  rw [out.password_eq]
  by_cases hat : '@' ∈ parsed.netloc
  · obtain ⟨userinfo, host, hsplit, huser⟩ := List.eq_append_cons_of_mem hat
    obtain ⟨tail, htail, -, hplain, hnamed⟩ := exists_userinfo_redacted hsplit huser hnetloc
    rw [forall_prop_of_true hat, hsplit, splitOnce_append_cons huser]
    by_cases hcolon : ':' ∈ userinfo
    · -- the name stays, and the mark and the tail are the password
      obtain ⟨user, secret, rfl, hcut⟩ := List.eq_append_cons_of_mem hcolon
      rw [hnamed user secret rfl hcut, Option.map_some, Option.bind_some,
        splitOnce_append_cons hcut, colonPassword_append_cons hcut, and_comm]
      show '@' ∉ host ∧ (_ → IsMarked (some (splitOnce (user ++ ':' :: secret) ':').1)) ↔ _
      rw [forall_prop_of_true hcolon, splitOnce_append_cons hcut]
      exact and_congr_left fun _ => (isMarked_tail htail).symm
    · -- the mark and the tail are the name, up to a colon in the tail
      have hmark : ':' ∉ "***".toList := by decide
      rw [hplain hcolon, Option.map_some, Option.bind_some, splitOnce_append_fst hmark,
        colonPassword_append hmark]
      show '@' ∉ host ∧ (':' ∈ userinfo → _) ↔ _
      rw [and_iff_left fun h => absurd h hcolon]
      rcases htail with ⟨hone, rfl⟩ | ⟨htwo, x, rfl⟩
      · exact iff_of_true hone ⟨isMarked_some.mpr (.inr (List.append_nil _)), isMarked_none⟩
      · exact iff_of_false (fun h => h htwo) fun h => not_isMarked_append_cons '@' _ h.1
  · have hnone : '@' ∉ out.netloc := by
      rw [hnetloc, redactUserinfo_of_not_mem hat]
      exact hat
    rw [userinfo_of_not_mem hnone]
    exact iff_of_true (fun h => absurd h hat) ⟨isMarked_none, isMarked_none⟩

/-! ## Query values -/

/-- The sensitive keys that the mock does not know. -/
def browserOnlyParams : List Text :=
  UrlSanitizer.kSensitiveQueryParams.filter (· ∉ sensitiveQueryParams)

example : browserOnlyParams = ["authtoken", "auth_token", "pass", "session_id", "apikey",
    "signature", "code"].map String.toList := by decide

/-- Without a Kelvin sign both lower cases agree on what is sensitive. -/
theorem lower_eq_toLower {key : Text} (h : '\u212a' ∉ key) : lower key = Text.toLower key :=
  List.map_congr_left fun c hc => if_neg fun e : c = '\u212a' => h (e ▸ hc)

/-- No sensitive key of the browser holds the one character whose lower cases differ. -/
theorem lower_of_isSensitiveQueryParam {key : Text}
    (h : UrlSanitizer.isSensitiveQueryParam key = true) : lower key = Text.toLower key := by
  refine lower_eq_toLower fun hmem => ?_
  have hkelvin : '\u212a' ∈ Text.toLower key :=
    List.mem_map.mpr ⟨'\u212a', hmem, by decide⟩
  have hascii : ∀ name ∈ UrlSanitizer.kSensitiveQueryParams, '\u212a' ∉ name := by decide
  exact hascii _ (of_decide_eq_true h) hkelvin

/-- The keys that only the browser redacts. -/
theorem mem_browserOnlyParams_iff {key : Text} :
    Text.toLower key ∈ browserOnlyParams
      ↔ UrlSanitizer.isSensitiveQueryParam key = true ∧ lower key ∉ sensitiveQueryParams := by
  unfold browserOnlyParams
  rw [List.mem_filter, decide_eq_true_eq]
  unfold UrlSanitizer.isSensitiveQueryParam
  rw [decide_eq_true_eq]
  refine and_congr_right fun hkey => ?_
  rw [lower_of_isSensitiveQueryParam (decide_eq_true hkey)]

/-- A pair with a value that is not the mark stays exactly if the mock does not know its key. -/
theorem mem_redactedPairs_iff {lib : PyLib} {query key value : Text}
    (hvalue : value ≠ "[REDACTED]".toList) :
    (key, value) ∈ redactedPairs lib query
      ↔ (key, value) ∈ lib.parseQsl query ∧ lower key ∉ sensitiveQueryParams := by
  unfold redactedPairs
  rw [List.mem_map]
  constructor
  · rintro ⟨⟨k, v⟩, hmem, hpair⟩
    dsimp only at hpair
    split at hpair
    · exact absurd (Prod.mk.inj hpair).2.symm hvalue
    · next hunknown =>
      obtain ⟨rfl, rfl⟩ := Prod.mk.inj hpair
      exact ⟨hmem, hunknown⟩
  · rintro ⟨hmem, hunknown⟩
    exact ⟨(key, value), hmem, if_neg hunknown⟩

/-! ## The comparison -/

/-- The URL has nothing that the mock keeps and the browser scrubs. -/
structure NothingKept (parsed : ParseResult) : Prop where
  fragment : parsed.fragment = []
  userinfo : UserinfoHidden parsed
  queryValue : ∀ key value, (key, value) ∈ queryIterator parsed.query →
    Text.toLower key ∈ browserOnlyParams → value = [] ∨ value = "[REDACTED]".toList

/-- The mock is as strict as the browser exactly on the URLs without fragment, whose userinfo is
hidden, and without a value of a key that only the browser's table has. -/
theorem atLeastAsStrict_iff {lib : PyLib} {rawUrl : String} {url : GURL} {parsed : ParseResult}
    (urlLib : UrlLibrary) (h : SameComponents lib rawUrl url parsed) :
    UrlSanitizer.sanitizeUrl urlLib url .kFullUrlSanitized
        = (UrlSanitizer.scrubbed urlLib url).spec
      ∧ sanitizeUrl lib rawUrl = String.ofList (lib.urlunparse (sanitizedParts lib parsed))
      ∧ (AtLeastAsStrict lib url parsed ↔ NothingKept parsed) := by
  refine ⟨UrlSanitizer.sanitizeUrl_kFullUrlSanitized urlLib h.valid,
    sanitizeUrl_of_urlparse h.nonempty h.urlparse, ?_⟩
  have huserinfo := userinfoHidden_iff lib parsed
  constructor
  · intro hstrict
    refine ⟨?_, huserinfo.mpr ⟨hstrict.username, hstrict.password⟩, fun key value hmem hkey => ?_⟩
    · rw [h.fragment]
      cases href : url.ref with
      | none => rfl
      | some ref =>
        by_contra hne
        exact hstrict.fragment ref href hne (by rw [sanitizedParts, h.fragment, href]; rfl)
    · rw [mem_browserOnlyParams_iff] at hkey
      by_contra hvalue
      obtain ⟨hempty, hmark⟩ := not_or.mp hvalue
      refine hstrict.queryValue key value (h.query ▸ hmem) hkey.1 hempty hmark ?_
      rw [mem_redactedPairs_iff hmark, h.pairs]
      exact ⟨hmem, hkey.2⟩
  · intro hkept
    obtain ⟨hname, hpassword⟩ := huserinfo.mp hkept.userinfo
    refine ⟨hname, hpassword, fun ref href hne hout => ?_, ?_⟩
    · exact hne (hout ▸ hkept.fragment)
    · intro key value hmem hkey hempty hmark hout
      rw [mem_redactedPairs_iff hmark] at hout
      rw [← h.query] at hmem
      rcases hkept.queryValue key value hmem (mem_browserOnlyParams_iff.mpr ⟨hkey, hout.2⟩) with
        hnil | hred
      · exact hempty hnil
      · exact hmark hred

end SecurityValidator

/-! ## A callback URL -/

section Callback

/-- The library on URLs of the form `scheme://host/path?query` with plain pairs in the query. -/
def PyLib.plain : PyLib where
  urlparse := fun url => (PyLib.sample.urlparse (splitOnce url '?').1).map fun parsed =>
    { parsed with query := (splitOnce url '?').2 }
  urlunparse := fun parsed =>
    PyLib.sample.urlunparse parsed ++ if parsed.query = [] then [] else '?' :: parsed.query
  parseQsl := queryIterator
  urlencode := fun pairs => Text.join "&".toList (pairs.map fun (k, v) => k ++ '=' :: v)
  search := fun _ _ => false

/-- The URL that an identity provider redirects to, with a code to be exchanged for a token. -/
def callbackUrl : GURL :=
  { isValid := true
    scheme := "https".toList
    host := some "shop.example".toList
    path := "/cb".toList
    query := some "code=4711&lang=en".toList }

/-- The same URL as `urlparse` splits it. -/
def callbackParts : ParseResult :=
  { scheme := "https".toList
    netloc := "shop.example".toList
    path := "/cb".toList
    params := []
    query := "code=4711&lang=en".toList
    fragment := [] }

namespace SecurityValidator

theorem sameComponents_callback :
    SameComponents .plain "https://shop.example/cb?code=4711&lang=en" callbackUrl
      callbackParts where
  nonempty := by decide
  valid := rfl
  urlparse := rfl
  scheme := rfl
  username := rfl
  password := rfl
  query := rfl
  fragment := rfl
  pairs := rfl

/-- The browser redacts the code, and the mock leaves it in the URL. -/
theorem sanitizeUrl_callback :
    UrlSanitizer.sanitizeUrl httpsLibrary callbackUrl .kFullUrlSanitized
        = "https://shop.example/cb?code=[REDACTED]&lang=en".toList
      ∧ sanitizeUrl .plain "https://shop.example/cb?code=4711&lang=en"
        = "https://shop.example/cb?code=4711&lang=en"
      ∧ ¬AtLeastAsStrict .plain callbackUrl callbackParts := by
  obtain ⟨hbrowser, hout, hiff⟩ := atLeastAsStrict_iff httpsLibrary sameComponents_callback
  refine ⟨by rw [hbrowser]; decide +kernel, by rw [hout]; decide +kernel, fun hstrict => ?_⟩
  rcases (hiff.mp hstrict).queryValue "code".toList "4711".toList (by decide) (by decide) with
    hvalue | hvalue
  · exact absurd hvalue (by decide)
  · exact absurd hvalue (by decide)

theorem not_atLeastAsStrict :
    ¬∀ (lib : PyLib) (rawUrl : String) (url : GURL) (parsed : ParseResult),
      SameComponents lib rawUrl url parsed → AtLeastAsStrict lib url parsed := by
  intro h
  have hstrict := h _ _ _ _ sameComponents_callback
  refine hstrict.queryValue "code".toList "4711".toList (by decide) (by decide) (by decide)
    (by decide) (by decide)

end SecurityValidator

end Callback
end ThoriumFrugal.Protocol

import ThoriumFrugal.Lib.Labels
import ThoriumFrugal.Lib.UrlComponents
import ThoriumFrugal.Privacy.Types

/-!
# The third-party classifier

`ThirdPartyClassifier` of `third_party_classifier.cc`: the host name of a URL string, its
registrable domain by a fixed table of two-part suffixes, and the party relation.
-/

namespace ThoriumFrugal.Privacy

open Lib

namespace ThirdPartyClassifier

/-- Known two-part public suffixes. -/
def kTwoPartTlds : List Text := [
  "co.uk", "org.uk", "gov.uk", "ac.uk", "me.uk", "net.uk",
  "com.au", "net.au", "org.au", "edu.au", "gov.au",
  "co.jp", "ne.jp", "ac.jp", "go.jp", "or.jp",
  "co.nz", "net.nz", "org.nz", "govt.nz",
  "co.za", "org.za", "net.za", "gov.za",
  "com.br", "org.br", "net.br", "gov.br",
  "com.cn", "net.cn", "org.cn", "gov.cn",
  "co.in", "net.in", "org.in", "gen.in", "firm.in", "ind.in",
  "co.kr", "ne.kr", "or.kr", "re.kr",
  "gc.ca", "on.ca", "qc.ca"].map String.toList

/-- Where the part behind the scheme starts. -/
def schemeEnd (urlStr : Text) : ℕ :=
  match Text.findStr urlStr "://".toList 0 with
  | some schemePos => schemePos + 3
  | none => 0

/-- `ExtractHostname`: what stands behind the scheme, up to the next of `/?#:`. -/
def extractHostname (urlStr : Text) : Text :=
  if urlStr = [] then []
  else
    let start := schemeEnd urlStr
    -- a userinfo is not split off: the host ends at the first colon of the authority
    let stop := (Text.findFirstOf urlStr "/?#:".toList start).getD urlStr.length
    Text.toLower (Text.substr urlStr start (stop - start))

/-- `GetDomain`: the last two labels, or three behind a known pair such as `co.uk`. -/
def getDomain (hostname : Text) : Text :=
  let lowerHost := Text.toLower hostname
  if lowerHost = [] then []
  else
    let lowerHost := Text.dropFinalDot lowerHost
    if lowerHost = "localhost".toList ∨ lowerHost = "127.0.0.1".toList
        ∨ lowerHost = "::1".toList then lowerHost
    else
      -- the last three labels, if there are three
      match (lowerHost.splitOn '.').reverse with
      | last :: second :: third :: _ =>
        let potentialTwoPart := second ++ '.' :: last
        if potentialTwoPart ∈ kTwoPartTlds then third ++ '.' :: potentialTwoPart
        else potentialTwoPart
      | _ => lowerHost

/-- `Classify`: the same host, the same registrable domain, or a third party. -/
def classify (targetUrlStr initiatorOriginStr : Text) : PartyContext :=
  -- a top-level navigation has no initiator
  if initiatorOriginStr = [] then .kFirstParty
  else
    let targetHost := extractHostname targetUrlStr
    let initHost := extractHostname initiatorOriginStr
    if targetHost = [] ∨ initHost = [] then .kFirstParty
    else if targetHost = initHost then .kFirstParty
    else if getDomain targetHost = getDomain initHost then .kSameSite
    else .kThirdParty

/-- The first `://` of a URL string is the one behind its scheme. -/
theorem schemeEnd_append {scheme : Text} (hscheme : ¬"://".toList <:+: scheme) (t : Text) :
    schemeEnd (scheme ++ "://".toList ++ t) = (scheme ++ "://".toList).length := by
  have hfind := Text.findStr_zero_append_of_not_infix (c := ':') (t := "//".toList) (b := t)
    (by decide) hscheme
  unfold schemeEnd
  rw [show scheme ++ "://".toList ++ t = scheme ++ (':' :: "//".toList ++ t) by simp,
    show "://".toList = ':' :: "//".toList from rfl, hfind]
  simp

theorem drop_schemeEnd_append {scheme : Text} (hscheme : ¬"://".toList <:+: scheme) (t : Text) :
    (scheme ++ "://".toList ++ t).drop (schemeEnd (scheme ++ "://".toList ++ t)) = t := by
  rw [schemeEnd_append hscheme, List.drop_left]

theorem drop_schemeEnd_spec (u : Url.SchemeUrl) : u.spec.drop (schemeEnd u.spec) = u.rest :=
  drop_schemeEnd_append u.not_infix_scheme u.rest

/-- The host name is what stands behind the scheme, up to the first delimiter. -/
theorem extractHostname_eq (urlStr : Text) : extractHostname urlStr
    = Text.toLower ((urlStr.drop (schemeEnd urlStr)).takeWhile fun c =>
        !"/?#:".toList.contains c) := by
  unfold extractHostname
  split
  · next hnil =>
    rw [hnil, List.drop_nil]
    rfl
  · simp only [Text.substr_findFirstOf]

/-- Behind the scheme of a URL stands an authority, then a path, a query, a fragment or nothing. The
host name is the authority up to its first colon. -/
theorem extractHostname_of_authority {urlStr authority tail : Text}
    (hdrop : urlStr.drop (schemeEnd urlStr) = authority ++ tail)
    (hauthority : ∀ c ∈ authority, c ∉ "/?#".toList)
    (htail : ∀ c ∈ tail.head?, c ∈ "/?#".toList) :
    extractHostname urlStr = Text.toLower (authority.takeWhile (· ≠ ':')) := by
  rw [extractHostname_eq, hdrop, Text.takeWhile_append_of_head fun c hc => ?_]
  · congr 1
    refine Text.takeWhile_congr fun c hc => ?_
    have hstop := hauthority c hc
    by_cases hcolon : c = ':'
    · subst hcolon
      decide
    · simp_all
  · have hmem : c ∈ "/?#:".toList := List.mem_append_left [':'] (htail c hc)
    rw [List.contains_iff_mem.mpr hmem, Bool.not_true]

@[simp] theorem toLower_extractHostname (urlStr : Text) :
    Text.toLower (extractHostname urlStr) = extractHostname urlStr := by
  unfold extractHostname
  split
  · rfl
  · exact Text.toLower_toLower _

/-- The party relation looks at the target URL through its host name only. -/
theorem classify_congr {url url' : Text} (h : extractHostname url = extractHostname url')
    (initiator : Text) : classify url initiator = classify url' initiator := by
  unfold classify
  rw [h]

/-- So it looks at an initiator, if there is one. -/
theorem classify_congr_initiator {initiator initiator' : Text} (hne : initiator ≠ [])
    (hne' : initiator' ≠ []) (h : extractHostname initiator = extractHostname initiator')
    (url : Text) : classify url initiator = classify url initiator' := by
  unfold classify
  rw [if_neg hne, if_neg hne', h]

end ThirdPartyClassifier
end ThoriumFrugal.Privacy

import ThoriumFrugal.Lib.Text

/-!
# The URL sanitizer

`UrlSanitizer` of `url_sanitizer.cc`. A `GURL` is the record of its components; what the
code takes from the URL library beyond that record, the registry of standard schemes and
the canonical form of a query that is set, are the fields of `UrlLibrary`.
-/

namespace ThoriumFrugal.Cognitia

open Lib

/-! ## URLs -/

/-- A parsed URL. An absent user name or password is empty; `host` is none for a URL
without authority. -/
structure GURL where
  isValid : Bool
  scheme : Text := []
  username : Text := []
  password : Text := []
  host : Option Text := none
  port : Option Text := none
  path : Text := []
  query : Option Text := none
  ref : Option Text := none
deriving DecidableEq, Repr

/-- What the URL library knows. -/
structure UrlLibrary where
  isStandard : Text → Bool
  canonicalizeQuery : Text → Text

namespace GURL

/-- `user[:password]@`, or nothing. -/
def userinfo (url : GURL) : Text :=
  if url.username = [] ∧ url.password = [] then []
  else url.username ++ (if url.password = [] then [] else ':' :: url.password) ++ ['@']

/-- The URL as a string, empty for an invalid one. -/
def spec (url : GURL) : Text :=
  if url.isValid then
    url.scheme ++ ':' ::
      ((match url.host with
        | none => []
        | some host =>
          "//".toList ++ url.userinfo ++ host
            ++ match url.port with
              | none => []
              | some port => ':' :: port)
        ++ url.path
        ++ (match url.query with
          | none => []
          | some query => '?' :: query)
        ++ match url.ref with
          | none => []
          | some ref => '#' :: ref)
  else []

/-- `DeprecatedGetOriginAsURL`: scheme, host and port of a URL with a standard scheme, and
the empty URL for any other. -/
def deprecatedGetOriginAsURL (lib : UrlLibrary) (url : GURL) : GURL :=
  if url.isValid && lib.isStandard url.scheme then
    { isValid := true, scheme := url.scheme, host := url.host, port := url.port
      path := "/".toList }
  else { isValid := false }

/-- `GURL::GetWithoutRef`. -/
def getWithoutRef (url : GURL) : GURL := { url with ref := none }

end GURL

/-- The pairs that `net::QueryIterator` yields: key and value of each item, the value empty
for an item without `=`. -/
def queryIterator (query : Text) : List (Text × Text) :=
  (Text.getlines query '&').map fun item =>
    match Text.find item '=' 0 with
    | some eqPos => (item.take eqPos, item.drop (eqPos + 1))
    | none => (item, [])

/-! ## The sanitizer -/

/-- The enumeration of the same name in `observation_types.h`. -/
inductive UrlExposurePolicy
  /-- Full URL with credentials and tokens scrubbed. -/
  | kFullUrlSanitized
  /-- Scheme, host and port only. -/
  | kOriginOnly
  /-- URL completely omitted from observation. -/
  | kOmitted
deriving DecidableEq, Repr

namespace UrlSanitizer

/-- The names of query parameters that carry secrets. -/
def kSensitiveQueryParams : List Text := [
  "token", "access_token", "auth", "authtoken", "auth_token",
  "password", "pass", "pwd", "secret", "session", "session_id",
  "apikey", "api_key", "key", "signature", "sig", "code", "refresh_token"].map String.toList

/-- `IsSensitiveQueryParam`, in any letter case. -/
def isSensitiveQueryParam (key : Text) : Bool :=
  Text.toLower key ∈ kSensitiveQueryParams

/-- The body of the loop over the query's pairs. -/
def appendPair (sanitizedQuery : Text) : Text × Text → Text
  | (key, value) =>
    (if sanitizedQuery ≠ [] then sanitizedQuery ++ "&".toList else sanitizedQuery)
      ++ if isSensitiveQueryParam key then key ++ "=[REDACTED]".toList
        else key ++ "=".toList ++ value

/-- `SanitizeQuery`: the pairs in order, a sensitive one redacted. -/
def sanitizeQuery (query : Text) : Text := (queryIterator query).foldl appendPair []

/-- `SanitizeUrl`, by exposure policy. -/
def sanitizeUrl (lib : UrlLibrary) (rawUrl : GURL) (policy : UrlExposurePolicy) : Text :=
  if rawUrl.isValid = false ∨ policy = .kOmitted then []
  else if policy = .kOriginOnly then (rawUrl.deprecatedGetOriginAsURL lib).spec
  else
    let scrubbedUrl := rawUrl.getWithoutRef
    let scrubbedUrl :=
      if scrubbedUrl.username ≠ [] ∨ scrubbedUrl.password ≠ [] then
        { scrubbedUrl with username := [], password := [] }
      else scrubbedUrl
    let scrubbedUrl :=
      match scrubbedUrl.query with
      | none => scrubbedUrl
      | some query =>
        { scrubbedUrl with query := some (lib.canonicalizeQuery (sanitizeQuery query)) }
    scrubbedUrl.spec

end UrlSanitizer
end ThoriumFrugal.Cognitia

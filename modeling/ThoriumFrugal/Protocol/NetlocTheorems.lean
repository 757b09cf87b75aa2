import ThoriumFrugal.Protocol.SecurityValidator

/-!
# The userinfo of a netloc

`sanitize_url` cuts the userinfo off at the first `@` of a netloc and redacts what follows its
first colon; `urlparse` cuts it off at the last `@`. What a redacted netloc still holds follows
from the two cuts.
-/

namespace ThoriumFrugal.Protocol

open Lib

/-! ## Cutting at a character -/

section Cut

variable {a b s : Text} {c : Char}

/-- The text is split at the first occurrence. -/
theorem splitOnce_append_cons (h : c ∉ a) : splitOnce (a ++ c :: b) c = (a, b) := by
  unfold splitOnce
  rw [List.takeWhile_append_of_pos (Text.ne_of_not_mem h),
    List.dropWhile_append_of_pos (Text.ne_of_not_mem h)]
  simp

/-- The cut goes past a piece that does not hold the character. -/
theorem splitOnce_append_snd (h : c ∉ a) : (splitOnce (a ++ s) c).2 = (splitOnce s c).2 := by
  unfold splitOnce
  rw [List.dropWhile_append_of_pos (Text.ne_of_not_mem h)]

theorem splitOnce_append_fst (h : c ∉ a) : (splitOnce (a ++ s) c).1 = a ++ (splitOnce s c).1 := by
  exact List.takeWhile_append_of_pos (Text.ne_of_not_mem h)

end Cut

/-! ## Names and passwords -/

/-- What follows the first colon of a userinfo. -/
def colonPassword (userinfo : Text) : Option Text :=
  if ':' ∈ userinfo then some (splitOnce userinfo ':').2 else none

namespace ParseResult

/-- What stands in front of the last `@` of the netloc. -/
def userinfo (parsed : ParseResult) : Option Text :=
  if '@' ∈ parsed.netloc then some (splitOnce parsed.netloc.reverse '@').2.reverse else none

/-- `parsed.username`: what stands in front of the first colon of the userinfo. -/
def username (parsed : ParseResult) : Option Text :=
  parsed.userinfo.map fun userinfo => (splitOnce userinfo ':').1

/-- The password is what stands behind the first colon of the userinfo. -/
theorem password_eq (parsed : ParseResult) :
    parsed.password = parsed.userinfo.bind colonPassword := by
  unfold password userinfo colonPassword
  split <;> rfl

end ParseResult

variable {a b s : Text}

theorem colonPassword_append (h : ':' ∉ a) : colonPassword (a ++ s) = colonPassword s := by
  unfold colonPassword
  rw [splitOnce_append_snd h]
  simp [h]

theorem colonPassword_append_cons (h : ':' ∉ a) : colonPassword (a ++ ':' :: b) = some b := by
  unfold colonPassword
  rw [if_pos (by simp), splitOnce_append_cons h]

theorem userinfo_of_not_mem {parsed : ParseResult} (h : '@' ∉ parsed.netloc) :
    parsed.userinfo = none := if_neg h

theorem password_of_not_mem {parsed : ParseResult} (h : '@' ∉ parsed.netloc) :
    parsed.password = none := if_neg h

/-- The userinfo ends at the last `@`. -/
theorem userinfo_of_netloc {parsed : ParseResult} (hnetloc : parsed.netloc = a ++ '@' :: b)
    (hb : '@' ∉ b) : parsed.userinfo = some a := by
  have hrev : parsed.netloc.reverse = b.reverse ++ '@' :: a.reverse := by
    rw [hnetloc]
    simp
  have hmem : '@' ∈ parsed.netloc := by
    rw [hnetloc]
    simp
  unfold ParseResult.userinfo
  rw [if_pos hmem, hrev, splitOnce_append_cons (by simpa using hb), List.reverse_reverse]

/-- What is taken for userinfo although it stands behind an `@`: nothing, or a text from a second
`@` on. -/
def IsTail (host tail : Text) : Prop :=
  '@' ∉ host ∧ tail = [] ∨ '@' ∈ host ∧ ∃ x, tail = '@' :: x

/-- What the userinfo holds behind a text that an `@` follows does not depend on that text. -/
theorem exists_userinfo_tail (host : Text) : ∃ tail : Text, IsTail host tail
    ∧ ∀ (parsed : ParseResult) (a : Text),
      parsed.netloc = a ++ '@' :: host → parsed.userinfo = some (a ++ tail) := by
  by_cases hat : '@' ∈ host
  · obtain ⟨x, y, rfl, hy⟩ := Text.exists_last_split_of_mem hat
    refine ⟨'@' :: x, .inr ⟨hat, x, rfl⟩, fun parsed a hnetloc => ?_⟩
    exact userinfo_of_netloc (by rw [hnetloc]; simp) hy
  · refine ⟨[], .inl ⟨hat, rfl⟩, fun parsed a hnetloc => ?_⟩
    rw [List.append_nil]
    exact userinfo_of_netloc hnetloc hat

/-! ## Redacting -/

namespace SecurityValidator

variable {user userinfo host : Text}

/-- A userinfo with a colon keeps the name in front of it. -/
theorem redactUserinfo_of_colon {secret : Text} (hat : '@' ∉ user ++ ':' :: secret)
    (hcolon : ':' ∉ user) :
    redactUserinfo (user ++ ':' :: secret ++ '@' :: host) = user ++ ":***@".toList ++ host := by
  unfold redactUserinfo
  rw [if_pos (by simp), splitOnce_append_cons hat]
  show (if ':' ∈ user ++ ':' :: secret then _ else _) = _
  rw [if_pos (by simp), splitOnce_append_cons hcolon]

/-- A userinfo without a colon is redacted as a whole. -/
theorem redactUserinfo_of_not_colon (hat : '@' ∉ userinfo) (hcolon : ':' ∉ userinfo) :
    redactUserinfo (userinfo ++ '@' :: host) = "***@".toList ++ host := by
  unfold redactUserinfo
  rw [if_pos (by simp), splitOnce_append_cons hat]
  exact if_neg hcolon

/-- A host alone is left as it is. -/
theorem redactUserinfo_of_not_mem (h : '@' ∉ host) : redactUserinfo host = host := if_neg h

/-- The redaction adds but its mark. -/
theorem not_mem_redactUserinfo {netloc : Text} {c : Char} (hmark : c ∉ ":***@".toList)
    (h : c ∉ netloc) : c ∉ redactUserinfo netloc := by
  by_cases hat : '@' ∈ netloc
  · obtain ⟨userinfo, host, rfl, huser⟩ := List.eq_append_cons_of_mem hat
    by_cases hcolon : ':' ∈ userinfo
    · obtain ⟨user, secret, rfl, hcut⟩ := List.eq_append_cons_of_mem hcolon
      rw [redactUserinfo_of_colon huser hcut]
      simp only [List.mem_append, List.mem_cons, not_or] at h ⊢
      exact ⟨⟨h.1.1, hmark⟩, h.2.2⟩
    · rw [redactUserinfo_of_not_colon huser hcolon]
      simp only [List.mem_append, List.mem_cons, not_or] at h ⊢
      exact ⟨fun hstar => hmark (List.mem_cons_of_mem _ hstar), h.2.2⟩
  · rwa [redactUserinfo_of_not_mem hat]

/-- What is read as userinfo before and after the redaction: both end alike, and the mark stands for
the password or, without one, for all in front of the first `@`. -/
theorem exists_userinfo_redacted {parsed again : ParseResult}
    (hnetloc : parsed.netloc = userinfo ++ '@' :: host) (hat : '@' ∉ userinfo)
    (h : again.netloc = redactUserinfo parsed.netloc) :
    ∃ tail, IsTail host tail ∧ parsed.userinfo = some (userinfo ++ tail)
      ∧ (':' ∉ userinfo → again.userinfo = some ("***".toList ++ tail))
      ∧ ∀ user secret, userinfo = user ++ ':' :: secret → ':' ∉ user →
        again.userinfo = some (user ++ ':' :: ("***".toList ++ tail)) := by
  obtain ⟨tail, hform, htail⟩ := exists_userinfo_tail host
  rw [hnetloc] at h
  refine ⟨tail, hform, htail parsed userinfo hnetloc, fun hcolon => ?_, ?_⟩
  · rw [redactUserinfo_of_not_colon hat hcolon] at h
    exact htail again "***".toList h
  · rintro user secret rfl hcolon
    rw [redactUserinfo_of_colon hat hcolon] at h
    rw [htail again (user ++ ":***".toList) (by rw [h]; simp)]
    simp

/-- The userinfo can be redacted without a trace of a password: in front of the first `@` is no
colon, and the netloc has no password. -/
def NamesOnly (parsed : ParseResult) : Prop :=
  '@' ∈ parsed.netloc →
    ':' ∉ (splitOnce parsed.netloc '@').1 ∧ parsed.password.getD [] = []

/-- The redacted netloc has no password exactly if there was none to be redacted. -/
theorem password_redactUserinfo_iff {parsed again : ParseResult}
    (h : again.netloc = redactUserinfo parsed.netloc) :
    again.password.getD [] = [] ↔ NamesOnly parsed := by
  unfold NamesOnly
  by_cases hat : '@' ∈ parsed.netloc
  · obtain ⟨userinfo, host, hnetloc, huser⟩ := List.eq_append_cons_of_mem hat
    obtain ⟨tail, -, hparsed, hplain, hnamed⟩ := exists_userinfo_redacted hnetloc huser h
    rw [forall_prop_of_true hat, parsed.password_eq, again.password_eq, hparsed, hnetloc,
      splitOnce_append_cons huser, Option.bind_some]
    by_cases hcolon : ':' ∈ userinfo
    · -- the mark is a password
      obtain ⟨user, secret, rfl, hcut⟩ := List.eq_append_cons_of_mem hcolon
      rw [hnamed user secret rfl hcut, Option.bind_some, colonPassword_append_cons hcut]
      simp
    · rw [hplain hcolon, Option.bind_some, colonPassword_append (by decide),
        colonPassword_append hcolon, and_iff_right hcolon]
  · rw [redactUserinfo_of_not_mem hat] at h
    refine iff_of_true ?_ fun hmem => absurd hmem hat
    rw [password_of_not_mem (by rw [h]; exact hat)]
    rfl

end SecurityValidator

end ThoriumFrugal.Protocol

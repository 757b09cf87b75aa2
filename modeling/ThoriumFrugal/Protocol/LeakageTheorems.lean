import ThoriumFrugal.Protocol.SecurityValidator

/-!
# What the leak detector finds

`_check_credential_leakage` looks at every entry of every dictionary in a payload, at whatever
depth, and at each one alone. So it passes a payload exactly if no entry leaks. An entry with a
sensitive key leaks a string; a number, a list or a dictionary under the same key is let through.
-/

namespace ThoriumFrugal.Protocol

open Lib

namespace SecurityValidator

/-! ## The entries of a value -/

mutual

/-- The entries of all dictionaries in a value, at every depth. -/
def deepEntries : Json → List (String × Json)
  | .obj entries => deepEntriesOf entries
  | .arr items => deepEntriesIn items
  | _ => []

/-- The entries of a dictionary and those inside their values. -/
def deepEntriesOf : List (String × Json) → List (String × Json)
  | [] => []
  | (key, value) :: entries => (key, value) :: (deepEntries value ++ deepEntriesOf entries)

/-- The entries inside the items of a list. -/
def deepEntriesIn : List Json → List (String × Json)
  | [] => []
  | item :: items => deepEntries item ++ deepEntriesIn items

end

variable {lib : PyLib}

/-- No check of one of the entries raises. -/
def Clean (lib : PyLib) (entries : List (String × Json)) : Prop :=
  ∀ entry ∈ entries, checkEntry lib entry.1 entry.2 = .ok ()

theorem clean_nil : Clean lib [] := fun _ h => absurd h List.not_mem_nil

theorem clean_cons {entry : String × Json} {entries : List (String × Json)} :
    Clean lib (entry :: entries)
      ↔ checkEntry lib entry.1 entry.2 = .ok () ∧ Clean lib entries := by
  unfold Clean
  rw [List.forall_mem_cons]

theorem clean_append {before behind : List (String × Json)} :
    Clean lib (before ++ behind) ↔ Clean lib before ∧ Clean lib behind := by
  unfold Clean
  rw [List.forall_mem_append]

mutual

/-- The detector passes a value exactly if it passes each entry in it. -/
theorem checkCredentialLeakage_eq_ok (lib : PyLib) : ∀ value : Json,
    checkCredentialLeakage lib value = .ok () ↔ Clean lib (deepEntries value)
  | .obj entries => checkLeakageEntries_eq_ok lib entries
  | .arr items => checkLeakageItems_eq_ok lib items
  | .null => ⟨fun _ => clean_nil, fun _ => rfl⟩
  | .bool _ => ⟨fun _ => clean_nil, fun _ => rfl⟩
  | .int _ => ⟨fun _ => clean_nil, fun _ => rfl⟩
  | .float _ _ => ⟨fun _ => clean_nil, fun _ => rfl⟩
  | .str _ => ⟨fun _ => clean_nil, fun _ => rfl⟩

theorem checkLeakageEntries_eq_ok (lib : PyLib) : ∀ entries : List (String × Json),
    checkLeakageEntries lib entries = .ok () ↔ Clean lib (deepEntriesOf entries)
  | [] => ⟨fun _ => clean_nil, fun _ => rfl⟩
  | (key, value) :: entries => by
    unfold checkLeakageEntries deepEntriesOf
    rw [check_bind_eq_ok, check_bind_eq_ok, checkCredentialLeakage_eq_ok lib value,
      checkLeakageEntries_eq_ok lib entries, clean_cons, clean_append]

theorem checkLeakageItems_eq_ok (lib : PyLib) : ∀ items : List Json,
    checkLeakageItems lib items = .ok () ↔ Clean lib (deepEntriesIn items)
  | [] => ⟨fun _ => clean_nil, fun _ => rfl⟩
  | item :: items => by
    unfold checkLeakageItems deepEntriesIn
    rw [check_bind_eq_ok, checkCredentialLeakage_eq_ok lib item,
      checkLeakageItems_eq_ok lib items, clean_append]

end

/-! ## Sensitive entries -/

/-- The key is one of those whose values have to be redacted. -/
def IsSensitive (entry : String × Json) : Prop := lower entry.1.toList ∈ credentialKeys

instance (entry : String × Json) : Decidable (IsSensitive entry) :=
  inferInstanceAs (Decidable (_ ∈ _))

/-- `None`, an empty value or a redaction mark. -/
def isRedacted : Json → Bool
  | .null => true
  | .str s => s = "" ∨ s = "[REDACTED]" ∨ s = "[REDACTED_HEADER]"
  | .arr items => items.isEmpty
  | .obj entries => entries.isEmpty
  | _ => false

/-- A string, `None` or an empty value: the detector tells a redacted one from a secret. -/
def isTellable : Json → Bool
  | .str _ => true
  | value => isRedacted value

/-- An URL with a password, or one with an `@` that cannot be parsed. -/
def leaksUrl (lib : PyLib) : Json → Bool
  | .str url => '@' ∈ url.toList ∧ ∀ parsed ∈ lib.urlparse url.toList, parsed.password.getD [] ≠ []
  | _ => false

/-- The entry makes the detector raise. -/
def Leaks (lib : PyLib) (entry : String × Json) : Prop :=
  (IsSensitive entry ∧ isRawSecret entry.2 = true)
    ∨ (lower entry.1.toList = "url".toList ∧ leaksUrl lib entry.2 = true)

instance (lib : PyLib) (entry : String × Json) : Decidable (Leaks lib entry) :=
  inferInstanceAs (Decidable (_ ∧ _ ∨ _ ∧ _))

/-- The key `url` is not sensitive. -/
theorem url_not_mem_credentialKeys : "url".toList ∉ credentialKeys := by decide

theorem checkEntry_eq_ok (lib : PyLib) (entry : String × Json) :
    checkEntry lib entry.1 entry.2 = .ok () ↔ ¬Leaks lib entry := by
  obtain ⟨key, value⟩ := entry
  unfold checkEntry Leaks IsSensitive
  by_cases hkey : lower key.toList ∈ credentialKeys
  · have hurl : lower key.toList ≠ "url".toList := by
      intro h
      exact url_not_mem_credentialKeys (h ▸ hkey)
    rw [if_pos hkey, raiseIf_eq_ok, or_iff_left fun h => hurl h.1, and_iff_right hkey]
  · rw [if_neg hkey, or_iff_right fun h => hkey h.1]
    by_cases hurl : lower key.toList = "url".toList
    · rw [if_pos hurl, and_iff_right hurl]
      cases value with
      | str url =>
        by_cases hat : '@' ∈ url.toList
        · cases hparsed : lib.urlparse url.toList with
          | none => simp [leaksUrl, hat, hparsed]
          | some parsed => simp [leaksUrl, hat, hparsed]
        · simp [leaksUrl, hat]
      | _ => simp [leaksUrl]
    · rw [if_neg hurl]
      exact iff_of_true rfl fun h => hurl h.1

/-- The detector passes a value exactly if nothing in it leaks. -/
theorem checkCredentialLeakage_eq_ok_iff (lib : PyLib) (payload : Json) :
    checkCredentialLeakage lib payload = .ok ()
      ↔ ∀ entry ∈ deepEntries payload, ¬Leaks lib entry := by
  rw [checkCredentialLeakage_eq_ok]
  unfold Clean
  simp only [checkEntry_eq_ok]

/-- Unless the detector raises, every sensitive entry at every depth is redacted. -/
def Complete (lib : PyLib) (payload : Json) : Prop :=
  checkCredentialLeakage lib payload = .ok () →
    ∀ entry ∈ deepEntries payload, IsSensitive entry → isRedacted entry.2 = true

theorem isRedacted_iff (entry : String × Json) (h : IsSensitive entry)
    (hleaks : ¬Leaks lib entry) : isRedacted entry.2 = true ↔ isTellable entry.2 = true := by
  obtain ⟨key, value⟩ := entry
  have hraw : isRawSecret value = false := by
    rw [← Bool.not_eq_true]
    exact fun hraw => hleaks (Or.inl ⟨h, hraw⟩)
  cases value with
  | str s =>
    simp only [isTellable, isRedacted, iff_true]
    simp only [isRawSecret, decide_eq_false_iff_not] at hraw
    rw [decide_eq_true_eq]
    by_contra hnot
    rw [not_or, not_or] at hnot
    exact hraw hnot
  | _ => rfl

/-- The detector is complete exactly on the payloads that it refuses for another entry, and on
those whose sensitive entries are all strings, `None` or empty. -/
theorem complete_iff (lib : PyLib) (payload : Json) : Complete lib payload
    ↔ (∃ entry ∈ deepEntries payload, Leaks lib entry)
      ∨ ∀ entry ∈ deepEntries payload, IsSensitive entry → isTellable entry.2 = true := by
  unfold Complete
  rw [checkCredentialLeakage_eq_ok_iff]
  by_cases hleaks : ∃ entry ∈ deepEntries payload, Leaks lib entry
  · refine iff_of_true (fun hnone => ?_) (Or.inl hleaks)
    obtain ⟨entry, hmem, hentry⟩ := hleaks
    exact absurd hentry (hnone entry hmem)
  · rw [or_iff_right hleaks]
    push Not at hleaks
    rw [forall_prop_of_true hleaks]
    refine forall₂_congr fun entry hmem => forall_congr' fun hsensitive => ?_
    exact isRedacted_iff entry hsensitive (hleaks entry hmem)

/-- A password that is a number is let through. -/
theorem not_complete : ¬∀ (lib : PyLib) (payload : Json), Complete lib payload := by
  intro h
  have hredacted := h PyLib.sample (.obj [("password", .int 12345)]) (by decide)
    ("password", .int 12345) (by simp [deepEntries, deepEntriesOf]) (by decide)
  cases hredacted

end SecurityValidator
end ThoriumFrugal.Protocol

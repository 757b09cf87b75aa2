import ThoriumFrugal.Protocol.LeakageTheorems
import ThoriumFrugal.Protocol.ProtocolValidatorTheorems

/-!
# Persistent identifiers in incognito observations

`_check_credential_leakage` goes through the whole payload; the incognito check looks at the keys
of one dictionary, the context. So an admitted incognito observation has no persistent identifier
in its context, and may have one anywhere else.
-/

namespace ThoriumFrugal.Protocol

open Lib

namespace SecurityValidator

/-! ## What is inside a dictionary -/

/-- The entries inside the values of a dictionary. -/
def nestedEntries (entries : List (String × Json)) : List (String × Json) :=
  entries.flatMap fun entry => deepEntries entry.2

/-- A dictionary's entries at every depth are its own and those inside its values. -/
theorem forall_deepEntriesOf_iff {p : String × Json → Prop} (entries : List (String × Json)) :
    (∀ entry ∈ deepEntriesOf entries, p entry)
      ↔ (∀ entry ∈ entries, p entry) ∧ ∀ entry ∈ nestedEntries entries, p entry := by
  induction entries with
  | nil => simp [deepEntriesOf, nestedEntries]
  | cons entry entries ih =>
    obtain ⟨key, value⟩ := entry
    unfold deepEntriesOf
    rw [List.forall_mem_cons, List.forall_mem_append, ih, List.forall_mem_cons]
    unfold nestedEntries
    rw [List.flatMap_cons, List.forall_mem_append]
    tauto

/-- The nested entries are those inside the value of one key, and those inside the others. -/
theorem forall_nestedEntries_iff {p : String × Json → Prop} {entries : List (String × Json)}
    {key : String} {value : Json} (h : Json.get? entries key = some value) :
    (∀ entry ∈ nestedEntries entries, p entry)
      ↔ (∀ entry ∈ deepEntries value, p entry)
        ∧ ∀ entry ∈ nestedEntries (entries.eraseP (·.1 = key)), p entry := by
  obtain ⟨before, behind, rfl, hbefore⟩ := List.lookup_eq_some_iff.mp h
  have herase : (before ++ (key, value) :: behind).eraseP (·.1 = key) = before ++ behind := by
    -- what is found under the key is its first entry
    have hother : ∀ entry ∈ before, ¬decide (entry.1 = key) = true := by
      intro entry hentry
      rw [decide_eq_true_eq]
      exact (bne_iff_ne.mp (hbefore entry hentry)).symm
    rw [List.eraseP_append_right _ hother]
    simp
  rw [herase]
  unfold nestedEntries
  rw [List.flatMap_append, List.flatMap_cons, List.flatMap_append, List.forall_mem_append,
    List.forall_mem_append, List.forall_mem_append]
  exact and_left_comm

/-! ## Identifiers -/

/-- The keys of persistent identifiers. -/
def persistentKeys : List String := ["persistent_user_id", "sync_account"]

/-- None of the entries is a persistent identifier. -/
def NoIdentity (entries : List (String × Json)) : Prop :=
  ∀ entry ∈ entries, entry.1 ∉ persistentKeys

instance (entries : List (String × Json)) : Decidable (NoIdentity entries) :=
  inferInstanceAs (Decidable (∀ _ ∈ _, _))

theorem hasKey_iff {entries : List (String × Json)} {key : String} :
    Json.hasKey entries key = true ↔ ∃ entry ∈ entries, entry.1 = key := by
  unfold Json.hasKey Json.get?
  rw [List.lookup_isSome_iff]
  exact exists_congr fun entry => and_congr_right fun _ => by rw [beq_iff_eq, eq_comm]

/-- The two tests of the incognito check. -/
theorem noIdentity_iff_hasKey (entries : List (String × Json)) : NoIdentity entries
    ↔ ¬(Json.hasKey entries "persistent_user_id" ∨ Json.hasKey entries "sync_account") := by
  unfold NoIdentity persistentKeys
  rw [hasKey_iff, hasKey_iff]
  constructor
  · rintro h (⟨entry, hentry, hkey⟩ | ⟨entry, hentry, hkey⟩)
    · exact h entry hentry (by simp [hkey])
    · exact h entry hentry (by simp [hkey])
  · intro h entry hentry hkey
    rw [List.mem_cons, List.mem_singleton] at hkey
    exact h (hkey.imp (fun hkey => ⟨entry, hentry, hkey⟩) fun hkey => ⟨entry, hentry, hkey⟩)

theorem asDict_obj_bind {α : Type} (entries : List (String × Json))
    (f : List (String × Json) → Except PyError α) : (asDict (.obj entries) >>= f) = f entries := rfl

/-- An observation from an incognito window that both validators accept. -/
structure AdmittedIncognito (v : ProtocolValidator) (s : SecurityValidator) (lib : PyLib)
    (e : MessageEnvelope) (entries ctx : List (String × Json)) : Prop where
  messageType : e.messageType = .observation
  payload : e.payload = .obj entries
  context : Json.get? entries "context" = some (.obj ctx)
  is_incognito : Json.get? ctx "is_incognito" = some (.bool true)
  accepted : v.Accepts e
  secure : s.validateMessageSecurity lib e = .ok ()

variable {v : ProtocolValidator} {s : SecurityValidator} {lib : PyLib} {e : MessageEnvelope}
  {entries ctx : List (String × Json)}

/-- The context of an admitted incognito observation has no identifier of its own. -/
theorem AdmittedIncognito.noIdentity_context (h : AdmittedIncognito v s lib e entries ctx) :
    NoIdentity ctx := by
  -- the invariants are checked behind size and leakage
  have hinvariants : checkInvariants e = .ok () := by
    have hsecure := h.secure
    unfold validateMessageSecurity at hsecure
    rw [check_bind_eq_ok, check_bind_eq_ok] at hsecure
    exact hsecure.2.2
  unfold checkInvariants at hinvariants
  simp only [h.messageType, h.payload, asDict_obj_bind, check_bind_eq_ok, h.context,
    Option.getD_some, h.is_incognito, raiseIf_eq_ok] at hinvariants
  exact (noIdentity_iff_hasKey ctx).mpr hinvariants.2

/-- An admitted incognito observation has no persistent identifier at any depth exactly if it has
none outside the entries of its context: at the top, inside what the context holds, and inside the
other values of the payload. -/
theorem noIdentity_deepEntries_iff (h : AdmittedIncognito v s lib e entries ctx) :
    NoIdentity (deepEntries e.payload)
      ↔ NoIdentity entries ∧ NoIdentity (nestedEntries ctx)
        ∧ NoIdentity (nestedEntries (entries.eraseP (·.1 = "context"))) := by
  -- these entries are the only ones that the check covers
  have hctx : ∀ entry ∈ ctx, entry.1 ∉ persistentKeys := h.noIdentity_context
  rw [h.payload, deepEntries]
  unfold NoIdentity
  rw [forall_deepEntriesOf_iff, forall_nestedEntries_iff h.context, deepEntries,
    forall_deepEntriesOf_iff, and_iff_right hctx]

/-! ## A private window of a synced account -/

/-- The context of an incognito window. -/
def privateContext : List (String × Json) :=
  [("tab_id", .int 1), ("url", .str "https://news.example/"), ("is_incognito", .bool true)]

/-- Its payload with this data. -/
def privateEntries (data : Json) : List (String × Json) :=
  [("observation_type", .str "PAGE_NAVIGATION"), ("context", .obj privateContext), ("data", data)]

/-- An observation from an incognito window. -/
def privateVisit (data : Json) : MessageEnvelope :=
  { ProtocolValidator.sample .observation "s" 3 1 with payload := .obj (privateEntries data) }

/-- The validator behind a handshake. -/
def inSession : ProtocolValidator :=
  ProtocolValidator.reached [ProtocolValidator.sample .sessionHello "s" 1 0,
    ProtocolValidator.sample .sessionAccept "s" 2 0]

theorem admittedIncognito_privateVisit {data : Json}
    (haccepted : inSession.Accepts (privateVisit data))
    (hsecure : validateMessageSecurity {} PyLib.sample (privateVisit data) = .ok ()) :
    AdmittedIncognito inSession {} PyLib.sample (privateVisit data) (privateEntries data)
      privateContext where
  messageType := rfl
  payload := rfl
  context := rfl
  is_incognito := rfl
  accepted := haccepted
  secure := hsecure

/-- An observation without any identifier. -/
theorem noIdentity_privateVisit :
    NoIdentity (deepEntries (privateVisit (.obj [("title", .str "News")])).payload) :=
  (noIdentity_deepEntries_iff (admittedIncognito_privateVisit (by decide) (by decide +kernel))).mpr
    (by decide)

/-- The account in the data is admitted. -/
theorem not_noIdentity_deepEntries : ¬∀ (v : ProtocolValidator) (s : SecurityValidator)
    (lib : PyLib) (e : MessageEnvelope) (entries ctx : List (String × Json)),
      AdmittedIncognito v s lib e entries ctx → NoIdentity (deepEntries e.payload) := by
  intro h
  have hidentity := h inSession {} PyLib.sample (privateVisit (.obj [("sync_account", .str "ann")]))
    _ _ (admittedIncognito_privateVisit (by decide) (by decide +kernel))
  exact absurd hidentity (by decide)

end SecurityValidator
end ThoriumFrugal.Protocol

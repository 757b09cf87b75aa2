import ThoriumFrugal.Protocol.AuditLogTheorems
import ThoriumFrugal.Protocol.GovernanceTheorems

/-!
# Where authority comes from

No proposal that the daemon holds or logs claims authority, and no authorization that it files
leaves authority to Cognitia. Who has decided is another matter: the one decision source that the
validators refuse is the text `COGNITIA`, so the daemon files whatever else its peer names. The
sources are the documented ones exactly if the peer names no other.
-/

namespace ThoriumFrugal.Protocol

open Lib

namespace MockCognitiaDaemon

open ProtocolValidator

/-- `payload.get(key) == value`. -/
def fieldIs (payload : Json) (key value : String) : Bool :=
  match payload with
  | .obj entries => Json.isStr (Json.get? entries key) value
  | _ => false

/-- The documented sources of a decision. -/
def externalSources : List String := ["EXTERNAL", "EXTERNAL_USER", "POLICY_ENGINE"]

/-- The decision source of an authorization is a documented one. -/
def isExternal (payload : Json) : Bool :=
  externalSources.any fun source => fieldIs payload "decision_source" source

/-! ## What the validators ask for -/

/-- A proposal that the validators accept has no authority. -/
theorem authority_of_validatePayload {payload : Json}
    (h : validatePayload .candidateActionProposal payload = .ok ()) :
    fieldIs payload "authority" "NONE" = true := by
  unfold validatePayload at h
  split at h
  · rw [check_bind_eq_ok, raiseIf_eq_ok, raiseIf_eq_ok] at h
    exact not_not.mp h.2
  · cases h

/-- Nor is there authority of Cognitia in an authorization that they accept. -/
theorem cognitiaAuthority_of_validatePayload {payload : Json}
    (h : validatePayload .executionAuthorizationObserved payload = .ok ()) :
    fieldIs payload "cognitia_authority" "NONE" = true := by
  unfold validatePayload at h
  split at h
  · rw [check_bind_eq_ok, check_bind_eq_ok, raiseIf_eq_ok, raiseIf_eq_ok, raiseIf_eq_ok,
      not_not] at h
    exact h.2.1
  · cases h

variable {lib : PyLib} {token : String} {w : World} {d : MockCognitiaDaemon} {e : MessageEnvelope}
  {calls : List Call}

theorem validatePayload_of_passes (h : Passes lib d e) :
    validatePayload e.messageType e.payload = .ok () := by
  obtain ⟨-, v', -, -, -, hpayload⟩ := accepts_iff.mp h.1
  exact hpayload

/-! ## Authority in a state -/

/-- No proposal in the store or in the log has authority, and no authorization leaves any to
Cognitia. -/
structure NoAuthority (d : MockCognitiaDaemon) : Prop where
  proposals : ∀ id record, d.proposalsStore.lookup id = some record →
    fieldIs record "authority" "NONE" = true
  logged : ∀ entry ∈ d.auditLog, ∀ r, readEntry entry = some r →
    r.messageType = .candidateActionProposal → fieldIs r.payload "authority" "NONE" = true
  authorizations : ∀ key record, d.authorizationsStore.lookup key = some record →
    fieldIs record "cognitia_authority" "NONE" = true

/-- The decision source of every authorization in the store is a documented one. -/
def DecidedOutside (d : MockCognitiaDaemon) : Prop :=
  ∀ key record, d.authorizationsStore.lookup key = some record → isExternal record = true

/-- Authority is external. -/
structure AuthorityExternal (d : MockCognitiaDaemon) : Prop where
  none : NoAuthority d
  decided : DecidedOutside d

/-! ## Steps -/

/-- A new entry of the log is of a proposal without authority, or of no proposal. -/
theorem logged_concat {log : List Json} {timestamp direction : String}
    (hlog : ∀ entry ∈ log, ∀ r, readEntry entry = some r →
      r.messageType = .candidateActionProposal → fieldIs r.payload "authority" "NONE" = true)
    (he : e.messageType = .candidateActionProposal → fieldIs e.payload "authority" "NONE" = true) :
    ∀ entry ∈ log ++ [auditEntry timestamp direction e], ∀ r, readEntry entry = some r →
      r.messageType = .candidateActionProposal → fieldIs r.payload "authority" "NONE" = true := by
  intro entry hentry r hr ht
  rcases List.mem_append.mp hentry with hmem | hmem
  · exact hlog entry hmem r hr ht
  · rw [List.mem_singleton.mp hmem, readEntry_auditEntry] at hr
    cases hr
    exact he ht

/-- A property of the authorizations in the store is kept if what is filed has it. -/
theorem forall_authorizations_step {P : Json → Prop} {x : Call}
    (hbefore : ∀ key record, d.authorizationsStore.lookup key = some record → P record)
    (hfiled : ∀ w e, x = .incoming w e → ∀ key, FilesAuthorization lib d e key → P e.payload) :
    ∀ key record, (step lib d x).authorizationsStore.lookup key = some record → P record := by
  intro key record h
  rw [lookup_authorizationsStore_step, Option.or_eq_some_iff] at h
  rcases h with hwritten | ⟨-, hkept⟩
  · obtain ⟨w, e, rfl, hfiles, rfl⟩ := writtenAuthorization_eq_some.mp hwritten
    exact hfiled w e rfl key hfiles
  · exact hbefore key record hkept

theorem NoAuthority.proposals_step (h : NoAuthority d) (x : Call) (id : String) (record : Json)
    (hrecord : (MockCognitiaDaemon.step lib d x).proposalsStore.lookup id = some record) :
    fieldIs record "authority" "NONE" = true := by
  rcases proposalsStore_step x with hsame | ⟨w, args, -, hstore⟩
  · rw [hsame] at hrecord
    exact h.proposals id record hrecord
  · rw [hstore] at hrecord
    by_cases hid : id = w.uuidStr 0
    · rw [hid, Finmap.lookup_insert] at hrecord
      cases hrecord
      rfl
    · rw [Finmap.lookup_insert_of_ne _ hid] at hrecord
      exact h.proposals id record hrecord

theorem NoAuthority.logged_step (h : NoAuthority d) (x : Call) :
    ∀ entry ∈ (MockCognitiaDaemon.step lib d x).auditLog, ∀ r, readEntry entry = some r →
      r.messageType = .candidateActionProposal → fieldIs r.payload "authority" "NONE" = true := by
  cases x with
  | incoming w e =>
    by_cases hpass : Passes lib d e
    · rw [auditLog_step_of_passes hpass]
      refine logged_concat h.logged fun ht => ?_
      have hpayload := validatePayload_of_passes hpass
      rw [ht] at hpayload
      exact authority_of_validatePayload hpayload
    · rw [step_of_not_passes hpass]
      exact h.logged
  | generate w args =>
    cases hactive : truthy d.activeSessionId with
    | false =>
      rw [step_generate_of_not hactive]
      exact h.logged
    | true =>
      rw [auditLog_step_generate hactive]
      exact logged_concat h.logged fun _ => rfl

theorem NoAuthority.step (h : NoAuthority d) (x : Call) : NoAuthority (step lib d x) where
  proposals := h.proposals_step x
  logged := h.logged_step x
  authorizations := by
    refine forall_authorizations_step h.authorizations fun w e _ key hfiles => ?_
    have hpayload := validatePayload_of_passes hfiles.2.1
    rw [hfiles.1] at hpayload
    exact cognitiaAuthority_of_validatePayload hpayload

/-! ## Runs -/

/-- Whatever the calls, no authority is claimed or left to Cognitia. -/
theorem noAuthority_after (lib : PyLib) (token : String) (calls : List Call) :
    NoAuthority (after lib token calls) := by
  refine run_invariant (I := fun _ (d : MockCognitiaDaemon) => NoAuthority d) ⟨?_, ?_, ?_⟩ ?_ calls
  · intro id record h
    cases h
  · intro entry h
    cases h
  · intro key record h
    cases h
  · intro past x h
    exact h.step x

/-- The peer names a documented source in every authorization that enters the store. -/
def NamesExternalSource (lib : PyLib) (token : String) (past : List Call) (x : Call) : Prop :=
  ∀ w e, x = .incoming w e → ∀ key, FilesAuthorization lib (after lib token past) e key →
    isExternal e.payload = true

theorem decidedOutside_step_iff (h : DecidedOutside (after lib token calls)) (x : Call) :
    DecidedOutside (after lib token (calls ++ [x])) ↔ NamesExternalSource lib token calls x := by
  rw [after_concat]
  constructor
  · rintro hafter w e rfl key hfiles
    refine hafter key e.payload ?_
    rw [authorizationsStore_step hfiles, Finmap.lookup_insert]
  · intro hnames
    exact forall_authorizations_step h hnames

/-- Authority is external in every state of a run exactly if the peer names a documented source in
every authorization that enters the store. -/
theorem authorityExternal_iff (lib : PyLib) (token : String) (calls : List Call) :
    (∀ past, past <+: calls → AuthorityExternal (after lib token past))
      ↔ Along (NamesExternalSource lib token) calls := by
  have hdecided := forall_prefix_iff_along
    (C := fun past => DecidedOutside (after lib token past)) (fun key record h => by cases h)
    (fun past x h => decidedOutside_step_iff h x) calls
  rw [← hdecided]
  refine forall₂_congr fun past _ => ⟨fun h => h.decided, fun h => ?_⟩
  exact ⟨noAuthority_after lib token past, h⟩

/-- An authorization that Cognitia has decided, in its own spelling. -/
def selfAuthorization : MessageEnvelope :=
  { sample .executionAuthorizationObserved "s" 2 1 with
    payload := .obj [("proposal_id", .str ((World.sample 10).uuidStr 0)),
      ("decision_source", .str "cognitia"), ("approved", .bool true),
      ("cognitia_authority", .str "NONE")] }

/-- The daemon files a decision of `cognitia`. -/
theorem not_authorityExternal : ¬∀ (lib : PyLib) (token : String) (calls : List Call),
    AuthorityExternal (after lib token calls) := by
  intro h
  have hfiles : FilesAuthorization PyLib.sample
      (after PyLib.sample "mock_secret_token" openedRun) selfAuthorization
      (.str ((World.sample 10).uuidStr 0)) := ⟨rfl, by decide +kernel, rfl⟩
  have hdecided := (h PyLib.sample "mock_secret_token"
    (openedRun ++ [.incoming (World.sample 0) selfAuthorization])).decided
  have hsource := hdecided (.str ((World.sample 10).uuidStr 0)) selfAuthorization.payload (by
    rw [after_concat, authorizationsStore_step hfiles, Finmap.lookup_insert])
  revert hsource
  decide

end MockCognitiaDaemon
end ThoriumFrugal.Protocol

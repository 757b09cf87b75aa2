import ThoriumFrugal.Protocol.DaemonSessionTheorems

/-!
# Proposals, authorizations and results

The daemon files authorizations and execution results under the proposal they name, and looks at
neither the proposals it has made nor the authorizations it has seen. So the lineage of what it
files is the lineage of what it is sent: the stores are read back to the calls that wrote them.
-/

namespace ThoriumFrugal.Protocol

open Lib

namespace MockCognitiaDaemon

open ProtocolValidator

/-! ## What a call files -/

/-- `payload["proposal_id"]` as a key, if it can be one. -/
def keyOf (payload : Json) : Option Json.Key :=
  match proposalKey payload with
  | .ok key => some key
  | .error _ => none

/-- The envelope passes both validators and files its payload under `key`. -/
def Files (lib : PyLib) (d : MockCognitiaDaemon) (e : MessageEnvelope) (key : Json.Key) : Prop :=
  Passes lib d e ∧ keyOf e.payload = some key

instance (lib : PyLib) (d : MockCognitiaDaemon) (e : MessageEnvelope) (key : Json.Key) :
    Decidable (Files lib d e key) := inferInstanceAs (Decidable (_ ∧ _))

/-- An authorization enters its store under `key`. -/
def FilesAuthorization (lib : PyLib) (d : MockCognitiaDaemon) (e : MessageEnvelope)
    (key : Json.Key) : Prop :=
  e.messageType = .executionAuthorizationObserved ∧ Files lib d e key

instance (lib : PyLib) (d : MockCognitiaDaemon) (e : MessageEnvelope) (key : Json.Key) :
    Decidable (FilesAuthorization lib d e key) := inferInstanceAs (Decidable (_ ∧ _))

/-- `payload["approved"] is True`. -/
def isApproved : Json → Bool
  | .obj entries =>
    match Json.get? entries "approved" with
    | some (.bool true) => true
    | _ => false
  | _ => false

/-- `payload["status"] == "EXECUTED"`. -/
def isExecuted : Json → Bool
  | .obj entries => Json.isStr (Json.get? entries "status") ExecutionStatus.executed.value
  | _ => false

/-- An execution enters its store under `key`. -/
def FilesExecution (lib : PyLib) (d : MockCognitiaDaemon) (e : MessageEnvelope)
    (key : Json.Key) : Prop :=
  e.messageType = .executionResultObserved ∧ isExecuted e.payload = true ∧ Files lib d e key

variable {lib : PyLib} {token : String} {w : World} {d : MockCognitiaDaemon}
  {e : MessageEnvelope} {key : Json.Key} {calls past : List Call}

theorem proposalKey_of_files (h : Files lib d e key) : proposalKey e.payload = .ok key := by
  obtain ⟨-, hkey⟩ := h
  unfold keyOf at hkey
  cases hprop : proposalKey e.payload with
  | error err =>
    rw [hprop] at hkey
    cases hkey
  | ok k =>
    rw [hprop] at hkey
    rw [Option.some.inj hkey]

theorem authorizationsStore_step (h : FilesAuthorization lib d e key) :
    (step lib d (.incoming w e)).authorizationsStore
      = d.authorizationsStore.insert key e.payload := by
  obtain ⟨ht, hfiles⟩ := h
  have hstep : (step lib d (.incoming w e)).authorizationsStore
      = (d.epistemic.receive d.expectedToken e.messageType e.sessionId e.payload
        e.toDict).authorizationsStore :=
    congrArg EpistemicState.authorizationsStore (epistemic_step_of_passes hfiles.1)
  rw [hstep, ht]
  unfold EpistemicState.receive
  simp only [proposalKey_of_files hfiles]
  rfl

/-- An envelope that is not filed as an authorization under `key` leaves that cell alone. -/
theorem lookup_authorizationsStore_of_not (h : ¬FilesAuthorization lib d e key) :
    (step lib d (.incoming w e)).authorizationsStore.lookup key
      = d.authorizationsStore.lookup key := by
  by_cases hpass : Passes lib d e
  · have hstep : (step lib d (.incoming w e)).authorizationsStore
        = (d.epistemic.receive d.expectedToken e.messageType e.sessionId e.payload
          e.toDict).authorizationsStore :=
      congrArg EpistemicState.authorizationsStore (epistemic_step_of_passes (w := w) hpass)
    rw [hstep]
    unfold EpistemicState.receive
    cases ht : e.messageType with
    | sessionHello => cases authenticates d.expectedToken e.payload <;> rfl
    | executionAuthorizationObserved =>
      cases hprop : proposalKey e.payload with
      | error err => rfl
      | ok k =>
        have hne : key ≠ k := by
          rintro rfl
          exact h ⟨ht, hpass, by unfold keyOf; rw [hprop]⟩
        exact Finmap.lookup_insert_of_ne _ hne
    | executionResultObserved => cases proposalKey e.payload <;> rfl
    | _ => rfl
  · rw [step_of_not_passes hpass]
    rfl

/-- What a call writes into the cell of an authorization. -/
def writtenAuthorization (lib : PyLib) (key : Json.Key) (d : MockCognitiaDaemon) :
    Call → Option Json
  | .incoming _ e => if FilesAuthorization lib d e key then some e.payload else none
  | .generate _ _ => none

theorem writtenAuthorization_of_files (h : FilesAuthorization lib d e key) :
    writtenAuthorization lib key d (.incoming w e) = some e.payload := if_pos h

theorem writtenAuthorization_of_not (h : ¬FilesAuthorization lib d e key) :
    writtenAuthorization lib key d (.incoming w e) = none := if_neg h

/-- A call writes the cell or leaves it. -/
theorem lookup_authorizationsStore_step (x : Call) :
    (step lib d x).authorizationsStore.lookup key
      = (writtenAuthorization lib key d x).or (d.authorizationsStore.lookup key) := by
  cases x with
  | incoming w e =>
    by_cases h : FilesAuthorization lib d e key
    · rw [writtenAuthorization_of_files h, authorizationsStore_step h, Finmap.lookup_insert,
        Option.some_or]
    · rw [writtenAuthorization_of_not h, lookup_authorizationsStore_of_not h, Option.none_or]
  | generate w args =>
    show _ = d.authorizationsStore.lookup key
    cases hactive : truthy d.activeSessionId with
    | false => rw [step_generate_of_not hactive]
    | true => rw [step_generate_of_truthy hactive]

theorem lookup_authorizationsStore_after {auth : Json} :
    (after lib token past).authorizationsStore.lookup key = some auth
      ↔ Since (fun before x => writtenAuthorization lib key (after lib token before) x = some auth)
          (fun before x => writtenAuthorization lib key (after lib token before) x = none) past :=
  read_run_eq_some_iff (fun d : MockCognitiaDaemon => d.authorizationsStore.lookup key) rfl
    fun _ x => lookup_authorizationsStore_step x

/-! ## The proposals of a session -/

/-- The id of the proposal that a call generates. -/
def generatedBy (d : MockCognitiaDaemon) : Call → List String
  | .incoming _ _ => []
  | .generate w _ => if truthy d.activeSessionId then [w.uuidStr 0] else []

/-- The session that is active before the call is active after it. -/
def KeepsSession (lib : PyLib) (d : MockCognitiaDaemon) (x : Call) : Prop :=
  (step lib d x).activeSessionId = d.activeSessionId

instance (lib : PyLib) (d : MockCognitiaDaemon) (x : Call) : Decidable (KeepsSession lib d x) :=
  inferInstanceAs (Decidable (_ = _))

/-- The ids of the proposals generated under the session that is active after the calls. -/
def generatedInSession (lib : PyLib) (token : String) (calls : List Call) : List String :=
  history (step lib)
    (fun d ids x => (if KeepsSession lib d x then ids else []) ++ generatedBy d x)
    { expectedToken := token } [] calls

/-- The call opens another session or closes the one there is. -/
def ChangesSession (lib : PyLib) (d : MockCognitiaDaemon) : Call → Prop
  | .incoming _ e => Passes lib d e
    ∧ (e.messageType = .sessionHello ∧ authenticates d.expectedToken e.payload = true
        ∧ d.activeSessionId ≠ some e.sessionId
      ∨ e.messageType = .sessionClose ∧ d.activeSessionId ≠ none)
  | .generate _ _ => False

theorem keepsSession_iff (x : Call) : KeepsSession lib d x ↔ ¬ChangesSession lib d x := by
  unfold KeepsSession
  rw [eq_comm]
  cases x with
  | incoming w e =>
    by_cases hpass : Passes lib d e
    · have hstep : (step lib d (.incoming w e)).activeSessionId = _ :=
        congrArg EpistemicState.activeSessionId (epistemic_step_of_passes (w := w) hpass)
      rw [activeSessionId_receive] at hstep
      rw [hstep]
      have hactive : d.epistemic.activeSessionId = d.activeSessionId := rfl
      rw [hactive]
      unfold ChangesSession
      simp only [hpass, true_and, not_or, not_and, not_not]
      by_cases hhello : e.messageType = .sessionHello
      · simp [hhello]
      · by_cases hclose : e.messageType = .sessionClose
        · simp [hclose]
        · simp [hhello, hclose]
    · rw [step_of_not_passes hpass]
      exact iff_of_true rfl fun h => hpass h.1
  | generate w args =>
    refine iff_of_true ?_ id
    cases hactive : truthy d.activeSessionId with
    | false => rw [step_generate_of_not hactive]
    | true => rw [step_generate_of_truthy hactive]

/-- A proposal with this id was generated, and the session of that call has stayed open. -/
def ProposedInSession (lib : PyLib) (token : String) (past : List Call) (id : String) : Prop :=
  Since (fun before x => ∃ w args, x = .generate w args ∧ w.uuidStr 0 = id
      ∧ truthy (after lib token before).activeSessionId = true)
    (fun before x => ¬ChangesSession lib (after lib token before) x) past

theorem mem_generatedBy {x : Call} {id : String} :
    id ∈ generatedBy d x ↔ ∃ w args, x = .generate w args ∧ w.uuidStr 0 = id
      ∧ truthy d.activeSessionId = true := by
  unfold generatedBy
  cases x with
  | incoming w e => simp
  | generate w args => cases hactive : truthy d.activeSessionId <;> simp [eq_comm]

theorem mem_generatedInSession {id : String} :
    id ∈ generatedInSession lib token past ↔ ProposedInSession lib token past id := by
  refine mem_history_iff.trans ?_
  simp only [mem_generatedBy, keepsSession_iff]
  rfl

/-- No call takes a proposal out of its store. -/
theorem mem_proposalsStore_step {id : String} (x : Call) (h : id ∈ d.proposalsStore) :
    id ∈ (step lib d x).proposalsStore := by
  rcases proposalsStore_step x with hsame | ⟨w, args, -, hstore⟩
  · rw [hsame]
    exact h
  · rw [hstore]
    exact Finmap.mem_insert.mpr (.inr h)

/-- What was generated is stored. -/
theorem mem_proposalsStore_of_mem_generatedInSession {id : String}
    (h : id ∈ generatedInSession lib token past) :
    id ∈ (after lib token past).proposalsStore := by
  refine history_invariant (I := fun _ (d : MockCognitiaDaemon) ids =>
    ∀ id ∈ ids, id ∈ d.proposalsStore) ?_ ?_ past id h
  · intro id hid
    cases hid
  · intro past x hstored id hid
    rcases List.mem_append.mp hid with hid | hid
    · split at hid
      · exact mem_proposalsStore_step x (hstored id hid)
      · cases hid
    · obtain ⟨w, args, rfl, rfl, hactive⟩ := mem_generatedBy.mp hid
      rw [step_generate_of_truthy hactive]
      exact Finmap.mem_insert.mpr (.inl rfl)

/-! ## Lineage -/

/-- The call files an authorization only for a stored proposal of the active session, and an
execution only under an approved authorization. -/
def Governed (lib : PyLib) (token : String) (past : List Call) : Call → Prop
  | .incoming _ e =>
    let d := after lib token past
    (∀ key, FilesAuthorization lib d e key →
      ∃ id, key = .str id ∧ id ∈ d.proposalsStore ∧ id ∈ generatedInSession lib token past)
    ∧ ∀ key, FilesExecution lib d e key →
      ∃ auth, d.authorizationsStore.lookup key = some auth ∧ isApproved auth = true
  | .generate _ _ => True

/-- The last authorization that came in for `key` is an approved one. -/
def ApprovedLast (lib : PyLib) (token : String) (past : List Call) (key : Json.Key) : Prop :=
  Since (fun before x => ∃ w e, x = .incoming w e
      ∧ FilesAuthorization lib (after lib token before) e key ∧ isApproved e.payload = true)
    (fun before x => ∀ w e, x = .incoming w e →
      ¬FilesAuthorization lib (after lib token before) e key) past

/-- The sender keeps the lineage: it authorizes what was proposed to it in the session that is
still open, and reports the execution of what it has last approved. -/
def KeepsLineage (lib : PyLib) (token : String) (past : List Call) : Call → Prop
  | .incoming _ e =>
    let d := after lib token past
    (∀ key, FilesAuthorization lib d e key →
      ∃ id, key = .str id ∧ ProposedInSession lib token past id)
    ∧ ∀ key, FilesExecution lib d e key → ApprovedLast lib token past key
  | .generate _ _ => True

theorem writtenAuthorization_eq_some {x : Call} {auth : Json} :
    writtenAuthorization lib key d x = some auth
      ↔ ∃ w e, x = .incoming w e ∧ FilesAuthorization lib d e key ∧ e.payload = auth := by
  cases x with
  | incoming w e =>
    by_cases h : FilesAuthorization lib d e key
    · simp [writtenAuthorization_of_files h, h]
    · simp [writtenAuthorization_of_not h, h]
  | generate w args => simp [writtenAuthorization]

theorem writtenAuthorization_eq_none {x : Call} :
    writtenAuthorization lib key d x = none
      ↔ ∀ w e, x = .incoming w e → ¬FilesAuthorization lib d e key := by
  simp only [Option.eq_none_iff_forall_ne_some, ne_eq, writtenAuthorization_eq_some]
  constructor
  · intro h w e hx hfiles
    exact h e.payload ⟨w, e, hx, hfiles, rfl⟩
  · rintro h auth ⟨w, e, hx, hfiles, -⟩
    exact h w e hx hfiles

/-- The store holds an approved authorization exactly if the last one that came in is approved. -/
theorem exists_approved_iff :
    (∃ auth, (after lib token past).authorizationsStore.lookup key = some auth
      ∧ isApproved auth = true) ↔ ApprovedLast lib token past key := by
  simp only [lookup_authorizationsStore_after, writtenAuthorization_eq_some,
    writtenAuthorization_eq_none]
  constructor
  · rintro ⟨auth, ⟨before, x, rest, hpast, ⟨w, e, rfl, hfiles, rfl⟩, hrest⟩, happroved⟩
    exact ⟨before, _, rest, hpast, ⟨w, e, rfl, hfiles, happroved⟩, hrest⟩
  · rintro ⟨before, x, rest, hpast, ⟨w, e, rfl, hfiles, happroved⟩, hrest⟩
    exact ⟨e.payload, ⟨before, _, rest, hpast, ⟨w, e, rfl, hfiles, rfl⟩, hrest⟩, happroved⟩

theorem governed_step_iff (x : Call) :
    Governed lib token past x ↔ KeepsLineage lib token past x := by
  cases x with
  | incoming w e =>
    refine and_congr (forall₂_congr fun key _ => exists_congr fun id => and_congr_right fun _ => ?_)
      (forall₂_congr fun key _ => exists_approved_iff)
    rw [← mem_generatedInSession]
    constructor
    · rintro ⟨-, h⟩
      exact h
    · intro h
      exact ⟨mem_proposalsStore_of_mem_generatedInSession h, h⟩
  | generate w args => exact Iff.rfl

/-- What the daemon files is governed in exactly those runs in which its peer keeps the lineage:
its own checks add nothing. -/
theorem along_governed_iff (lib : PyLib) (token : String) (calls : List Call) :
    Along (Governed lib token) calls ↔ Along (KeepsLineage lib token) calls :=
  forall_congr' fun _ => forall₃_congr fun x _ _ => governed_step_iff x

/-- A proposal is generated under `s`, and then another session opens. -/
def replacedRun : List Call :=
  openedRun ++ [.generate (World.sample 10) navigate,
    .incoming (World.sample 0) { sample .sessionHello "t" 2 1 with
      payload := .obj [("auth_token", .str "mock_secret_token")] }]

/-- The authorization of that proposal, in the new session. -/
def staleAuthorization : MessageEnvelope :=
  { sample .executionAuthorizationObserved "t" 3 2 with
    payload := .obj [("proposal_id", .str ((World.sample 10).uuidStr 0)),
      ("decision_source", .str "EXTERNAL_USER"), ("approved", .bool true),
      ("cognitia_authority", .str "NONE")] }

/-- A proposal of a replaced session can still be authorized. -/
theorem not_along_governed :
    ¬∀ (lib : PyLib) (token : String) (calls : List Call), Along (Governed lib token) calls := by
  intro h
  have hgoverned := h PyLib.sample "mock_secret_token"
    (replacedRun ++ [.incoming (World.sample 0) staleAuthorization]) replacedRun _ [] rfl
  have hfiles : FilesAuthorization PyLib.sample
      (after PyLib.sample "mock_secret_token" replacedRun) staleAuthorization
      (.str ((World.sample 10).uuidStr 0)) := ⟨rfl, by decide +kernel, rfl⟩
  obtain ⟨id, -, -, hid⟩ := hgoverned.1 _ hfiles
  have hnone : generatedInSession PyLib.sample "mock_secret_token" replacedRun = [] := by
    decide +kernel
  rw [hnone] at hid
  cases hid

end MockCognitiaDaemon
end ThoriumFrugal.Protocol

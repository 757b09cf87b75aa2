import ThoriumFrugal.Protocol.DaemonRuns

/-!
# The audit log

What the daemon holds can be read off its log: `replay` folds the entries, as values, into stores
and a session. Every handler writes its store in step with the log, and an envelope that a
validator refuses reaches neither.
-/

namespace ThoriumFrugal.Protocol

open Lib

namespace MockCognitiaDaemon

open ProtocolValidator

/-! ## Entries -/

/-- What an entry of the log says. -/
structure LogRecord where
  direction : String
  messageType : MessageType
  sessionId : String
  payload : Json
  envelope : Json

/-- An entry of the log, read as a value. -/
def readEntry (entry : Json) : Option LogRecord :=
  match entry with
  | .obj entries =>
    match Json.get? entries "direction", Json.get? entries "envelope" with
    | some (.str direction), some (.obj envelope) =>
      match Json.get? envelope "message_type", Json.get? envelope "session_id",
        Json.get? envelope "payload" with
      | some (.str value), some (.str sessionId), some payload =>
        (MessageType.ofValue? value).map fun messageType =>
          { direction, messageType, sessionId, payload, envelope := .obj envelope }
      | _, _, _ => none
    | _, _ => none
  | _ => none

theorem readEntry_auditEntry (timestamp direction : String) (e : MessageEnvelope) :
    readEntry (auditEntry timestamp direction e)
      = some { direction, messageType := e.messageType, sessionId := e.sessionId
               payload := e.payload, envelope := e.toDict } := by
  have hread : readEntry (auditEntry timestamp direction e)
      = (MessageType.ofValue? e.messageType.value).map fun messageType =>
        { direction, messageType, sessionId := e.sessionId, payload := e.payload
          envelope := e.toDict } := rfl
  rw [hread, MessageType.ofValue?_value]
  rfl

/-- One entry of the log, for a daemon with the given token. -/
def replayEntry (token : String) (s : EpistemicState) (entry : Json) : EpistemicState :=
  match readEntry entry with
  | none => s
  | some r =>
    if r.direction = "INBOUND" then
      s.receive token r.messageType r.sessionId r.payload r.envelope
    else if r.direction = "OUTBOUND" ∧ r.messageType = .candidateActionProposal then
      s.propose r.payload
    else s

/-- The fold of a log. -/
def replay (token : String) (log : List Json) : EpistemicState :=
  log.foldl (replayEntry token) {}

variable {token : String} {log : List Json} {timestamp : String} {e : MessageEnvelope}

theorem replay_inbound :
    replay token (log ++ [auditEntry timestamp "INBOUND" e])
      = (replay token log).receive token e.messageType e.sessionId e.payload e.toDict := by
  unfold replay
  rw [List.foldl_append, List.foldl_cons, List.foldl_nil, replayEntry, readEntry_auditEntry]
  exact if_pos rfl

theorem replay_outbound (ht : e.messageType = .candidateActionProposal) :
    replay token (log ++ [auditEntry timestamp "OUTBOUND" e])
      = (replay token log).propose e.payload := by
  unfold replay
  rw [List.foldl_append, List.foldl_cons, List.foldl_nil, replayEntry, readEntry_auditEntry]
  simp [ht]

/-! ## Runs -/

variable {lib : PyLib} {w : World} {d : MockCognitiaDaemon}

/-- A call keeps stores and log in step. -/
theorem epistemic_step (h : d.epistemic = replay d.expectedToken d.auditLog) (x : Call) :
    (step lib d x).epistemic = replay d.expectedToken (step lib d x).auditLog := by
  cases x with
  | incoming w e =>
    by_cases hpass : Passes lib d e
    · rw [epistemic_step_of_passes hpass, auditLog_step_of_passes hpass, replay_inbound, h]
    · rw [step_of_not_passes hpass]
      exact h
  | generate w args =>
    cases hactive : truthy d.activeSessionId with
    | false =>
      rw [step_generate_of_not hactive]
      exact h
    | true =>
      rw [epistemic_step_generate hactive, auditLog_step_generate hactive, replay_outbound rfl, h]
      rfl

/-- A call appends to the log or leaves it. -/
theorem auditLog_step (x : Call) : d.auditLog <+: (step lib d x).auditLog := by
  cases x with
  | incoming w e =>
    by_cases hpass : Passes lib d e
    · rw [auditLog_step_of_passes hpass]
      exact ⟨_, rfl⟩
    · rw [step_of_not_passes hpass]
      exact ⟨[], List.append_nil _⟩
  | generate w args =>
    cases hactive : truthy d.activeSessionId with
    | false => rw [step_generate_of_not hactive]
    | true =>
      rw [auditLog_step_generate hactive]
      exact ⟨_, rfl⟩

/-! ## Refusals -/

/-- The exceptions of the two validators. -/
inductive IsRefusal : PyError → Prop
  | protocol (code : String) (message : List MessagePart) :
    IsRefusal (.protocolValidation code message)
  | security (invariantId : String) (message : List MessagePart) :
    IsRefusal (.securityViolation invariantId message)

/-- The exception of an outcome. -/
def errorOf {α : Type*} : Except PyError α → Option PyError
  | .error err => some err
  | .ok _ => none

theorem errorOf_eq_some {α : Type*} {r : Except PyError α} {err : PyError} :
    errorOf r = some err ↔ r = .error err := by
  cases r <;> simp [errorOf]

/-- The exception that a call raises, if it does. -/
def raised (lib : PyLib) (d : MockCognitiaDaemon) : Call → Option PyError
  | .incoming w e => errorOf (processIncomingEnvelope lib w d e).1
  | .generate w args => errorOf (generateCandidateProposal w d args).1

theorem not_isRefusal_proposalKey {payload : Json} {err : PyError}
    (h : proposalKey payload = .error err) : ¬IsRefusal err := by
  unfold proposalKey at h
  split at h
  · split at h
    · cases h
      rintro ⟨⟩
    · split at h
      · cases h
        rintro ⟨⟩
      · cases h
  · cases h
    rintro ⟨⟩

/-- Behind the checks nothing is raised that a validator could have raised. -/
theorem not_isRefusal_handleMessage {err : PyError} (h : (handleMessage w d e).1 = .error err) :
    ¬IsRefusal err := by
  unfold handleMessage at h
  split at h
  · unfold handleSessionHello at h
    cases hpayload : e.payload with
    | obj entries =>
      rw [hpayload] at h
      simp only [SecurityValidator.asDict] at h
      split at h <;> cases h
    | _ =>
      rw [hpayload] at h
      cases h
      rintro ⟨⟩
  · cases h
  · unfold handleExecutionAuthObserved at h
    split at h
    · next hkey =>
      cases h
      exact not_isRefusal_proposalKey hkey
    · cases h
  · unfold handleExecutionResultObserved at h
    split at h
    · next hkey =>
      cases h
      exact not_isRefusal_proposalKey hkey
    · cases h
  · cases h
  · cases h

/-- A call that a validator refuses leaves log, stores and session as they are. -/
theorem unchanged_of_refused {x : Call} {err : PyError} (hraised : raised lib d x = some err)
    (h : IsRefusal err) :
    (step lib d x).auditLog = d.auditLog ∧ (step lib d x).epistemic = d.epistemic := by
  cases x with
  | incoming w e =>
    by_cases hpass : Passes lib d e
    · have herr := errorOf_eq_some.mp hraised
      rw [processIncomingEnvelope_of_passes hpass] at herr
      exact absurd h (not_isRefusal_handleMessage herr)
    · rw [step_of_not_passes hpass]
      exact ⟨rfl, rfl⟩
  | generate w args =>
    cases hactive : truthy d.activeSessionId with
    | false =>
      rw [step_generate_of_not hactive]
      exact ⟨rfl, rfl⟩
    | true =>
      have herr := errorOf_eq_some.mp hraised
      unfold generateCandidateProposal at herr
      rw [if_pos hactive] at herr
      cases herr

/-- After every run the stores and the session are the fold of the log; the log only grows; and a
call that a validator refuses changes nothing of all this. -/
theorem auditLog_determines_state (lib : PyLib) (token : String) (calls : List Call) :
    (after lib token calls).epistemic = replay token (after lib token calls).auditLog
      ∧ (∀ more, (after lib token calls).auditLog
          <+: (after lib token (calls ++ more)).auditLog)
      ∧ ∀ x err, raised lib (after lib token calls) x = some err → IsRefusal err →
          (after lib token (calls ++ [x])).auditLog = (after lib token calls).auditLog
          ∧ (after lib token (calls ++ [x])).epistemic
            = (after lib token calls).epistemic := by
  refine ⟨?_, fun more => ?_, fun x err hraised href => ?_⟩
  · refine run_invariant (I := fun _ (d : MockCognitiaDaemon) =>
      d.epistemic = replay token d.auditLog) rfl ?_ calls
    intro past x h
    have htoken : (after lib token past).expectedToken = token := expectedToken_after past
    have hbefore : (after lib token past).epistemic
        = replay (after lib token past).expectedToken (after lib token past).auditLog := by
      rw [htoken]
      exact h
    refine (epistemic_step hbefore x).trans ?_
    rw [htoken]
    rfl
  · induction more using List.reverseRecOn with
    | nil =>
      rw [List.append_nil]
    | append_singleton more x ih =>
      rw [← List.append_assoc, after_concat]
      exact ih.trans (auditLog_step x)
  · rw [after_concat]
    exact unchanged_of_refused hraised href

end MockCognitiaDaemon
end ThoriumFrugal.Protocol

import ThoriumFrugal.Lib.Run
import ThoriumFrugal.Protocol.MockCognitiaDaemonTheorems

/-!
# Runs of the daemon

A run interleaves envelopes that come in with proposals that the daemon is asked for. What a call
does to the stores and to the session is said once, on `EpistemicState`, in terms of the envelope
alone; a call that a validator stops does nothing to them.
-/

namespace ThoriumFrugal.Protocol

open Lib

namespace MockCognitiaDaemon

open ProtocolValidator

/-- A call of `process_incoming_envelope` or of `generate_candidate_proposal`, with what it reads
from outside. -/
inductive Call
  | incoming (w : World) (e : MessageEnvelope)
  | generate (w : World) (args : ProposalArgs)

/-- The state that a call leaves behind. -/
def step (lib : PyLib) (d : MockCognitiaDaemon) : Call → MockCognitiaDaemon
  | .incoming w e => (processIncomingEnvelope lib w d e).2
  | .generate w args => (generateCandidateProposal w d args).2

/-- The state of a new daemon with the given token after the calls. -/
def after (lib : PyLib) (token : String) (calls : List Call) : MockCognitiaDaemon :=
  run (step lib) { expectedToken := token } calls

@[simp] theorem after_concat (lib : PyLib) (token : String) (calls : List Call) (x : Call) :
    after lib token (calls ++ [x]) = step lib (after lib token calls) x := run_concat calls x

/-! ## The two checks -/

/-- Both validators accept the envelope. -/
def Passes (lib : PyLib) (d : MockCognitiaDaemon) (e : MessageEnvelope) : Prop :=
  d.protocolValidator.Accepts e ∧ d.securityValidator.validateMessageSecurity lib e = .ok ()

instance (lib : PyLib) (d : MockCognitiaDaemon) (e : MessageEnvelope) :
    Decidable (Passes lib d e) := inferInstanceAs (Decidable (_ ∧ _))

/-- The daemon once its validator has seen the envelope. -/
def validated (d : MockCognitiaDaemon) (e : MessageEnvelope) : MockCognitiaDaemon :=
  { d with protocolValidator := d.protocolValidator.after e }

variable {lib : PyLib} {w : World} {d : MockCognitiaDaemon} {e : MessageEnvelope}

theorem processIncomingEnvelope_of_passes (h : Passes lib d e) :
    processIncomingEnvelope lib w d e = handleMessage w (logInbound w (validated d e) e) e := by
  obtain ⟨hacc, hsec⟩ := h
  unfold Accepts at hacc
  unfold processIncomingEnvelope
  simp only [hacc, hsec]
  rfl

theorem processIncomingEnvelope_of_not_passes (h : ¬Passes lib d e) :
    ∃ err, processIncomingEnvelope lib w d e = (.error err, validated d e) := by
  unfold processIncomingEnvelope
  simp only
  cases hacc : (d.protocolValidator.validateEnvelope e).1 with
  | error err => exact ⟨err, rfl⟩
  | ok u =>
    cases hsec : d.securityValidator.validateMessageSecurity lib e with
    | error err => exact ⟨err, rfl⟩
    | ok u => exact absurd ⟨hacc, hsec⟩ h

/-- An accepted payload is a dictionary. -/
theorem exists_obj_of_passes (h : Passes lib d e) : ∃ entries, e.payload = .obj entries := by
  obtain ⟨-, v', -, -, -, hpayload⟩ := accepts_iff.mp h.1
  unfold validatePayload at hpayload
  split at hpayload
  · next entries hobj => exact ⟨entries, hobj⟩
  · cases hpayload

/-! ## Stores and session -/

/-- The stores of the daemon and its session. -/
structure EpistemicState where
  observationsStore : List Json := []
  proposalsStore : Finmap (fun _ : String => Json) := ∅
  authorizationsStore : Finmap (fun _ : Json.Key => Json) := ∅
  executionResultsStore : Finmap (fun _ : Json.Key => Json) := ∅
  activeSessionId : Option String := none

/-- The stores and the session of a daemon. -/
def epistemic (d : MockCognitiaDaemon) : EpistemicState where
  observationsStore := d.observationsStore
  proposalsStore := d.proposalsStore
  authorizationsStore := d.authorizationsStore
  executionResultsStore := d.executionResultsStore
  activeSessionId := d.activeSessionId

/-- `payload.get("auth_token", "") == token`. -/
def authenticates (token : String) : Json → Bool
  | .obj entries => Json.isStr ((Json.get? entries "auth_token").getD (.str "")) token
  | _ => false

namespace EpistemicState

/-- A logged envelope that came in: its type, session and payload, and its dictionary. -/
def receive (token : String) (s : EpistemicState) (messageType : MessageType)
    (sessionId : String) (payload envelope : Json) : EpistemicState :=
  match messageType with
  | .sessionHello =>
    if authenticates token payload then { s with activeSessionId := some sessionId } else s
  | .observation => { s with observationsStore := s.observationsStore ++ [envelope] }
  | .executionAuthorizationObserved =>
    match proposalKey payload with
    | .ok key => { s with authorizationsStore := s.authorizationsStore.insert key payload }
    | .error _ => s
  | .executionResultObserved =>
    match proposalKey payload with
    | .ok key => { s with executionResultsStore := s.executionResultsStore.insert key payload }
    | .error _ => s
  | .sessionClose => { s with activeSessionId := none }
  | _ => s

/-- A proposal that went out. -/
def propose (s : EpistemicState) (payload : Json) : EpistemicState :=
  match proposalKey payload with
  | .ok (.str id) => { s with proposalsStore := s.proposalsStore.insert id payload }
  | _ => s

end EpistemicState

/-- Only a hello with the token and a close change the session. -/
theorem activeSessionId_receive (s : EpistemicState) (token : String) (t : MessageType)
    (sessionId : String) (payload envelope : Json) :
    (s.receive token t sessionId payload envelope).activeSessionId
      = if t = .sessionHello ∧ authenticates token payload = true then some sessionId
        else if t = .sessionClose then none else s.activeSessionId := by
  unfold EpistemicState.receive
  cases t with
  | sessionHello => cases authenticates token payload <;> rfl
  | executionAuthorizationObserved => cases proposalKey payload <;> rfl
  | executionResultObserved => cases proposalKey payload <;> rfl
  | _ => rfl

/-- What comes in is no proposal. -/
theorem proposalsStore_receive (s : EpistemicState) (token : String) (t : MessageType)
    (sessionId : String) (payload envelope : Json) :
    (s.receive token t sessionId payload envelope).proposalsStore = s.proposalsStore := by
  unfold EpistemicState.receive
  cases t with
  | sessionHello => cases authenticates token payload <;> rfl
  | executionAuthorizationObserved => cases proposalKey payload <;> rfl
  | executionResultObserved => cases proposalKey payload <;> rfl
  | _ => rfl

/-- A hello with the token is answered with a `SESSION_ACCEPT`, and opens its session. -/
theorem handleSessionHello_of_authenticates
    (h : authenticates d.expectedToken e.payload = true) :
    ∃ entries, handleSessionHello w d e
      = (.ok (true, some (response w 1 .sessionAccept (.obj entries) e)),
        { d with sequenceNumber := 1, activeSessionId := some e.sessionId }) := by
  unfold handleSessionHello
  unfold authenticates at h
  split at h
  · next entries hpayload =>
    simp only [hpayload, SecurityValidator.asDict, h, not_true_eq_false, if_false]
    exact ⟨_, rfl⟩
  · cases h

/-- Another hello is answered with a `SESSION_REJECT`; the counter starts over all the same. -/
theorem handleSessionHello_of_not_authenticates (hobj : ∃ entries, e.payload = .obj entries)
    (h : authenticates d.expectedToken e.payload = false) :
    ∃ payload, handleSessionHello w d e
      = (.ok (false, some (response w 0 .sessionReject payload e)),
        { d with sequenceNumber := 1 }) := by
  obtain ⟨entries, hpayload⟩ := hobj
  unfold handleSessionHello
  rw [hpayload] at h ⊢
  unfold authenticates at h
  simp only [SecurityValidator.asDict, h, Bool.false_eq_true, not_false_eq_true, if_true]
  exact ⟨_, rfl⟩

/-- A payload that is no dictionary makes the handler raise, and nothing happens. -/
theorem handleSessionHello_of_not_obj (h : ∀ entries, e.payload ≠ .obj entries) :
    (handleSessionHello w d e).2 = d := by
  unfold handleSessionHello
  cases hpayload : e.payload with
  | obj entries => exact absurd hpayload (h entries)
  | _ => rfl

/-- Behind the checks a call does to stores and session what its envelope says. -/
theorem epistemic_handleMessage (w : World) (d : MockCognitiaDaemon) (e : MessageEnvelope) :
    (handleMessage w d e).2.epistemic
      = d.epistemic.receive d.expectedToken e.messageType e.sessionId e.payload e.toDict := by
  unfold handleMessage EpistemicState.receive
  cases e.messageType with
  | sessionHello =>
    simp only
    by_cases hobj : ∃ entries, e.payload = .obj entries
    · cases hauth : authenticates d.expectedToken e.payload with
      | true =>
        obtain ⟨entries, hhello⟩ := handleSessionHello_of_authenticates (w := w) hauth
        rw [hhello, if_pos rfl]
        rfl
      | false =>
        obtain ⟨payload, hhello⟩ := handleSessionHello_of_not_authenticates (w := w) hobj hauth
        rw [hhello, if_neg (by decide)]
        rfl
    · rw [handleSessionHello_of_not_obj fun entries h => hobj ⟨entries, h⟩]
      have hauth : authenticates d.expectedToken e.payload = false := by
        unfold authenticates
        split
        · next entries h => exact absurd ⟨entries, h⟩ hobj
        · rfl
      rw [hauth, if_neg (by decide)]
  | observation => rfl
  | executionAuthorizationObserved =>
    simp only
    unfold handleExecutionAuthObserved
    cases proposalKey e.payload <;> rfl
  | executionResultObserved =>
    simp only
    unfold handleExecutionResultObserved
    cases proposalKey e.payload <;> rfl
  | sessionClose => rfl
  | _ => rfl

/-- What no handler touches. -/
structure SameFrame (d d' : MockCognitiaDaemon) : Prop where
  expectedToken : d'.expectedToken = d.expectedToken
  securityValidator : d'.securityValidator = d.securityValidator
  auditLog : d'.auditLog = d.auditLog

theorem sameFrame_handleMessage (w : World) (d : MockCognitiaDaemon) (e : MessageEnvelope) :
    SameFrame d (handleMessage w d e).2 := by
  obtain ⟨_, _, _, _, _, h⟩ := exists_handleMessage_eq w d e
  rw [h]
  exact ⟨rfl, rfl, rfl⟩

/-! ## What a call does -/

/-- A call that a validator stops changes the state of the protocol validator only. -/
theorem step_of_not_passes (h : ¬Passes lib d e) :
    step lib d (.incoming w e) = validated d e := by
  obtain ⟨err, herr⟩ := processIncomingEnvelope_of_not_passes (w := w) h
  show (processIncomingEnvelope lib w d e).2 = _
  rw [herr]

theorem step_of_passes (h : Passes lib d e) :
    step lib d (.incoming w e) = (handleMessage w (logInbound w (validated d e) e) e).2 := by
  show (processIncomingEnvelope lib w d e).2 = _
  rw [processIncomingEnvelope_of_passes h]

theorem epistemic_step_of_passes (h : Passes lib d e) :
    (step lib d (.incoming w e)).epistemic
      = d.epistemic.receive d.expectedToken e.messageType e.sessionId e.payload e.toDict := by
  rw [step_of_passes h, epistemic_handleMessage]
  rfl

/-- What comes in leaves the proposals alone. -/
theorem proposalsStore_step_incoming :
    (step lib d (.incoming w e)).proposalsStore = d.proposalsStore := by
  by_cases h : Passes lib d e
  · have hstep : (step lib d (.incoming w e)).proposalsStore
        = (d.epistemic.receive d.expectedToken e.messageType e.sessionId e.payload
          e.toDict).proposalsStore :=
      congrArg EpistemicState.proposalsStore (epistemic_step_of_passes (w := w) h)
    rw [hstep, proposalsStore_receive]
    rfl
  · rw [step_of_not_passes h]
    rfl

theorem auditLog_step_of_passes (h : Passes lib d e) :
    (step lib d (.incoming w e)).auditLog
      = d.auditLog ++ [auditEntry (w.timestamp 0) "INBOUND" e] := by
  rw [step_of_passes h, (sameFrame_handleMessage w _ e).auditLog]
  rfl

variable {args : ProposalArgs}

/-- Without a session no proposal is generated. -/
theorem step_generate_of_not (h : truthy d.activeSessionId = false) :
    step lib d (.generate w args) = d := by
  show (generateCandidateProposal w d args).2 = _
  unfold generateCandidateProposal
  rw [if_neg (by simp [h])]

theorem step_generate_of_truthy (h : truthy d.activeSessionId = true) :
    step lib d (.generate w args)
      = { d with
          sequenceNumber := d.sequenceNumber + 1
          proposalsStore := d.proposalsStore.insert (w.uuidStr 0) (proposalData w args).toDict
          auditLog := d.auditLog ++ [auditEntry (w.timestamp 2) "OUTBOUND"
            (proposalEnvelope w args (d.activeSessionId.getD "") d.sequenceNumber)] } := by
  show (generateCandidateProposal w d args).2 = _
  unfold generateCandidateProposal
  rw [if_pos h]

theorem epistemic_step_generate (h : truthy d.activeSessionId = true) :
    (step lib d (.generate w args)).epistemic
      = d.epistemic.propose (proposalData w args).toDict := by
  rw [step_generate_of_truthy h]
  rfl

/-- Proposals enter the store as they are generated, and in no other way. -/
theorem proposalsStore_step (x : Call) :
    (step lib d x).proposalsStore = d.proposalsStore
      ∨ ∃ w args, x = .generate w args ∧ (step lib d x).proposalsStore
        = d.proposalsStore.insert (w.uuidStr 0) (proposalData w args).toDict := by
  cases x with
  | incoming w e => exact .inl proposalsStore_step_incoming
  | generate w args =>
    cases hactive : truthy d.activeSessionId with
    | false =>
      rw [step_generate_of_not hactive]
      exact .inl rfl
    | true =>
      rw [step_generate_of_truthy hactive]
      exact .inr ⟨w, args, rfl, rfl⟩

theorem auditLog_step_generate (h : truthy d.activeSessionId = true) :
    (step lib d (.generate w args)).auditLog
      = d.auditLog ++ [auditEntry (w.timestamp 2) "OUTBOUND"
          (proposalEnvelope w args (d.activeSessionId.getD "") d.sequenceNumber)] := by
  rw [step_generate_of_truthy h]

/-! ## What stays the same -/

theorem expectedToken_step (x : Call) : (step lib d x).expectedToken = d.expectedToken := by
  cases x with
  | incoming w e =>
    by_cases h : Passes lib d e
    · rw [step_of_passes h, (sameFrame_handleMessage w _ e).expectedToken]
      rfl
    · rw [step_of_not_passes h]
      rfl
  | generate w args =>
    cases h : truthy d.activeSessionId with
    | false => rw [step_generate_of_not h]
    | true => rw [step_generate_of_truthy h]

variable {token : String}

theorem expectedToken_after (calls : List Call) :
    (after lib token calls).expectedToken = token := by
  refine run_invariant (I := fun _ (d : MockCognitiaDaemon) => d.expectedToken = token) rfl ?_ calls
  intro past x h
  rw [expectedToken_step, h]

/-- The validator sees the envelopes that come in, and nothing else. -/
theorem protocolValidator_step (x : Call) :
    (step lib d x).protocolValidator
      = match x with
        | .incoming _ e => d.protocolValidator.after e
        | .generate _ _ => d.protocolValidator := by
  cases x with
  | incoming w e => exact protocolValidator_processIncomingEnvelope lib w d e
  | generate w args =>
    cases h : truthy d.activeSessionId with
    | false => rw [step_generate_of_not h]
    | true => rw [step_generate_of_truthy h]

end MockCognitiaDaemon
end ThoriumFrugal.Protocol

import ThoriumFrugal.Protocol.DaemonRuns
import ThoriumFrugal.Protocol.ReconnectTheorems

/-!
# The sessions of the daemon

Two things about the session that a daemon has open. A hello that it refuses has already passed its
validator, which then holds the refused session. And what the daemon sends is numbered with the
`SESSION_ACCEPT` as its first message, while a validator does not count that message.
-/

namespace ThoriumFrugal.Protocol

open Lib

namespace MockCognitiaDaemon

open ProtocolValidator

variable {lib : PyLib} {token : String} {w : World} {d : MockCognitiaDaemon}
  {e r : MessageEnvelope}

/-! ## Answers -/

/-- The envelope is answered with a `SESSION_REJECT`. -/
def Rejects (lib : PyLib) (w : World) (d : MockCognitiaDaemon) (e : MessageEnvelope) : Prop :=
  ∃ resp, (processIncomingEnvelope lib w d e).1 = .ok (false, some resp)
    ∧ resp.messageType = .sessionReject

theorem Rejects.passes (h : Rejects lib w d e) : Passes lib d e := by
  by_contra hnot
  obtain ⟨resp, hreply, -⟩ := h
  obtain ⟨err, herr⟩ := processIncomingEnvelope_of_not_passes (w := w) hnot
  rw [herr] at hreply
  cases hreply

/-- A hello without the token that both validators accept. -/
theorem processIncomingEnvelope_of_not_authenticates (hpass : Passes lib d e)
    (ht : e.messageType = .sessionHello) (hauth : authenticates d.expectedToken e.payload = false) :
    ∃ payload, processIncomingEnvelope lib w d e
      = (.ok (false, some (response w 0 .sessionReject payload e)),
        { logInbound w (validated d e) e with sequenceNumber := 1 }) := by
  obtain ⟨payload, hhello⟩ := handleSessionHello_of_not_authenticates (w := w)
    (d := logInbound w (validated d e) e) (exists_obj_of_passes hpass) hauth
  refine ⟨payload, ?_⟩
  rw [processIncomingEnvelope_of_passes hpass]
  unfold handleMessage
  rw [ht]
  exact hhello

/-- A hello with the token that both validators accept. -/
theorem processIncomingEnvelope_of_authenticates (hpass : Passes lib d e)
    (ht : e.messageType = .sessionHello) (hauth : authenticates d.expectedToken e.payload = true) :
    ∃ entries, processIncomingEnvelope lib w d e
      = (.ok (true, some (response w 1 .sessionAccept (.obj entries) e)),
        { logInbound w (validated d e) e with
          sequenceNumber := 1, activeSessionId := some e.sessionId }) := by
  obtain ⟨entries, hhello⟩ := handleSessionHello_of_authenticates (w := w)
    (d := logInbound w (validated d e) e) hauth
  refine ⟨entries, ?_⟩
  rw [processIncomingEnvelope_of_passes hpass]
  unfold handleMessage
  rw [ht]
  exact hhello

/-- A hello with a wrong token is rejected. -/
theorem rejects_of_passes (hpass : Passes lib d e) (ht : e.messageType = .sessionHello)
    (hauth : authenticates d.expectedToken e.payload = false) : Rejects lib w d e := by
  obtain ⟨payload, hreply⟩ := processIncomingEnvelope_of_not_authenticates (w := w) hpass ht hauth
  exact ⟨response w 0 .sessionReject payload e, by rw [hreply], rfl⟩

theorem Rejects.not_authenticates (h : Rejects lib w d e) (ht : e.messageType = .sessionHello) :
    authenticates d.expectedToken e.payload = false := by
  rw [← Bool.not_eq_true]
  intro hauth
  obtain ⟨entries, hreply⟩ := processIncomingEnvelope_of_authenticates (w := w) h.passes ht hauth
  obtain ⟨resp, hok, -⟩ := h
  rw [hreply] at hok
  cases hok

/-! ## A refused hello -/

/-- The session `s` goes on as before: its next message is accepted or not as it would have been,
daemon and validator hold it, and the daemon's counter is the same. -/
structure Undisturbed (d d' : MockCognitiaDaemon) (s : String) : Prop where
  accepts_next : ∀ e, e.sessionId = s →
    e.sequenceNumber = d.protocolValidator.lastSequenceNumber + 1 →
    (d'.protocolValidator.Accepts e ↔ d.protocolValidator.Accepts e)
  daemon_active : d'.activeSessionId = some s
  validator_active : d'.protocolValidator.activeSessionId = some s
  sequenceNumber_eq : d'.sequenceNumber = d.sequenceNumber

/-- Behind an accepted hello the validator holds its session, whatever the daemon answers. -/
theorem validator_active_of_passes (hpass : Passes lib d e)
    (ht : e.messageType = .sessionHello) :
    (step lib d (.incoming w e)).protocolValidator.activeSessionId = some e.sessionId := by
  rw [protocolValidator_step]
  show (d.protocolValidator.after e).activeSessionId = _
  rw [after_of_accepts hpass.1 (checkSession_handshake (Or.inl ht)), activeSessionId_record,
    activeSessionId_handshake]

/-- A rejected hello of another session disturbs the active one. -/
theorem not_undisturbed_of_rejects {s : String} (ht : e.messageType = .sessionHello)
    (hs : e.sessionId ≠ s) (h : Rejects lib w d e) :
    ¬Undisturbed d (step lib d (.incoming w e)) s := by
  intro hsame
  have hactive := hsame.validator_active
  rw [validator_active_of_passes h.passes ht] at hactive
  exact hs (Option.some.inj hactive)

/-- In every reachable state with a session, a hello of another session that is answered with a
`SESSION_REJECT` disturbs the session: the daemon still holds it, but its validator holds the
refused one, and the counter starts over. -/
theorem refused_hello_disturbs (lib : PyLib) (token : String) (calls : List Call) (w : World)
    (e : MessageEnvelope) (s : String)
    (hactive : (after lib token calls).activeSessionId = some s)
    (ht : e.messageType = .sessionHello) (hs : e.sessionId ≠ s)
    (h : Rejects lib w (after lib token calls) e) :
    let d' := after lib token (calls ++ [.incoming w e])
    ¬Undisturbed (after lib token calls) d' s
      ∧ d'.activeSessionId = some s
      ∧ d'.protocolValidator.activeSessionId = some e.sessionId
      ∧ d'.sequenceNumber = 1 := by
  rw [after_concat]
  obtain ⟨payload, hreply⟩ :=
    processIncomingEnvelope_of_not_authenticates (w := w) h.passes ht (h.not_authenticates ht)
  have hstep : step lib (after lib token calls) (.incoming w e)
      = { logInbound w (validated (after lib token calls) e) e with sequenceNumber := 1 } :=
    congrArg Prod.snd hreply
  refine ⟨not_undisturbed_of_rejects ht hs h, ?_, validator_active_of_passes h.passes ht, ?_⟩
  · rw [hstep]
    exact hactive
  · rw [hstep]

/-- A session is opened. -/
def openedRun : List Call :=
  [.incoming (World.sample 0) { sample .sessionHello "s" 1 0 with
    payload := .obj [("auth_token", .str "mock_secret_token")] }]

theorem activeSessionId_openedRun :
    (after PyLib.sample "mock_secret_token" openedRun).activeSessionId = some "s" := by
  decide +kernel

/-- A hello of another session, with a wrong token. -/
def guess : MessageEnvelope :=
  { sample .sessionHello "t" 2 1 with payload := .obj [("auth_token", .str "guess")] }

theorem rejects_guess :
    Rejects PyLib.sample (World.sample 0) (after PyLib.sample "mock_secret_token" openedRun)
      guess :=
  rejects_of_passes (by decide +kernel) rfl (by decide +kernel)

theorem refused_hello_disturbs_guess :
    let d' := after PyLib.sample "mock_secret_token"
      (openedRun ++ [.incoming (World.sample 0) guess])
    ¬Undisturbed (after PyLib.sample "mock_secret_token" openedRun) d' "s"
      ∧ d'.activeSessionId = some "s"
      ∧ d'.protocolValidator.activeSessionId = some "t"
      ∧ d'.sequenceNumber = 1 :=
  refused_hello_disturbs PyLib.sample "mock_secret_token" openedRun (World.sample 0) guess "s"
    activeSessionId_openedRun rfl (by decide) rejects_guess

theorem not_undisturbed :
    ¬∀ (lib : PyLib) (token : String) (calls : List Call) (w : World) (e : MessageEnvelope)
      (s : String), (after lib token calls).activeSessionId = some s →
      e.messageType = .sessionHello → e.sessionId ≠ s → Rejects lib w (after lib token calls) e →
      Undisturbed (after lib token calls) (after lib token (calls ++ [.incoming w e])) s := by
  intro h
  have hsame := h PyLib.sample "mock_secret_token" openedRun (World.sample 0) guess "s"
    activeSessionId_openedRun rfl (by decide) rejects_guess
  rw [after_concat] at hsame
  exact not_undisturbed_of_rejects rfl (by decide) rejects_guess hsame

/-! ## The stream of a session -/

/-- The answer of a call that accepts a session. -/
def acceptOf : Except PyError Reply → Option MessageEnvelope
  | .ok (true, some resp) => some resp
  | _ => none

/-- What the daemon has sent in its session: the `SESSION_ACCEPT` that opened it, proposals, and
the `SESSION_ACCEPT`s with which it has answered further hellos of the same session. -/
def noteSent (lib : PyLib) (d : MockCognitiaDaemon) (sent : List MessageEnvelope) :
    Call → List MessageEnvelope
  | .incoming w e =>
    match acceptOf (processIncomingEnvelope lib w d e).1 with
    | some resp => if d.activeSessionId = some resp.sessionId then sent ++ [resp] else [resp]
    | none => sent
  | .generate w args =>
    match (generateCandidateProposal w d args).1 with
    | .ok envelope => sent ++ [envelope]
    | .error _ => sent

/-- What the daemon has sent in the session that is active. -/
def sentInSession (lib : PyLib) (token : String) (calls : List Call) : List MessageEnvelope :=
  history (step lib) (noteSent lib) { expectedToken := token } [] calls

theorem sentInSession_concat (lib : PyLib) (token : String) (calls : List Call) (x : Call) :
    sentInSession lib token (calls ++ [x])
      = noteSent lib (after lib token calls) (sentInSession lib token calls) x :=
  history_concat ..

/-- The numbers count from 1 on, and a fresh validator accepts every envelope. -/
def ValidStream (sent : List MessageEnvelope) : Prop :=
  sent.map (·.sequenceNumber) = List.range' 1 sent.length ∧ AcceptsAll {} sent

/-- The daemon sends nothing after the `SESSION_ACCEPT`: it is asked for no proposal while it has
a session, and answers no hello of the session it has. -/
def SendsNoMore (lib : PyLib) (d : MockCognitiaDaemon) : Call → Prop
  | .incoming _ e => Passes lib d e → e.messageType = .sessionHello →
    authenticates d.expectedToken e.payload = true → d.activeSessionId ≠ some e.sessionId
  | .generate _ _ => truthy d.activeSessionId = false

/-- A `SESSION_ACCEPT` is answered only to a hello with the token. -/
theorem acceptOf_eq_some (h : acceptOf (processIncomingEnvelope lib w d e).1 = some r) :
    Passes lib d e ∧ e.messageType = .sessionHello
      ∧ authenticates d.expectedToken e.payload = true
      ∧ ∃ entries, r = response w 1 .sessionAccept (.obj entries) e := by
  by_cases hpass : Passes lib d e
  · by_cases ht : e.messageType = .sessionHello
    · cases hauth : authenticates d.expectedToken e.payload with
      | false =>
        obtain ⟨payload, hreply⟩ :=
          processIncomingEnvelope_of_not_authenticates (w := w) hpass ht hauth
        rw [hreply] at h
        cases h
      | true =>
        obtain ⟨entries, hreply⟩ := processIncomingEnvelope_of_authenticates (w := w) hpass ht hauth
        rw [hreply] at h
        exact ⟨hpass, ht, rfl, entries, (Option.some.inj h).symm⟩
    · -- no other handler answers
      rw [processIncomingEnvelope_of_passes hpass] at h
      unfold handleMessage at h
      split at h
      · next hhello => exact absurd hhello ht
      · cases h
      · unfold handleExecutionAuthObserved at h
        split at h <;> cases h
      · unfold handleExecutionResultObserved at h
        split at h <;> cases h
      · cases h
      · cases h
  · obtain ⟨err, herr⟩ := processIncomingEnvelope_of_not_passes (w := w) hpass
    rw [herr] at h
    cases h

/-- A `SESSION_ACCEPT` with number 1 that a fresh validator accepts. -/
structure IsAccept (r : MessageEnvelope) : Prop where
  type_eq : r.messageType = .sessionAccept
  number_eq : r.sequenceNumber = 1
  content : ContentOk r

theorem isAccept_response (w : World) (entries : List (String × Json)) (e : MessageEnvelope) :
    IsAccept (response w 1 .sessionAccept (.obj entries) e) where
  type_eq := rfl
  number_eq := rfl
  content := ⟨fromisoformat_timestamp w 1, rfl⟩

/-- An accept is a stream by itself. -/
theorem IsAccept.validStream (h : IsAccept r) : ValidStream [r] := by
  have hhand : IsHandshake r.messageType := Or.inr h.type_eq
  have hacc : Accepts {} r :=
    (accepts_handshake hhand).mpr ⟨by simp, ⟨fun hnot => absurd h.type_eq hnot,
      fun hnot => absurd hhand hnot⟩, h.content⟩
  exact ⟨by simp [h.number_eq], hacc, trivial⟩

/-- A second `SESSION_ACCEPT` repeats the number. -/
theorem not_validStream_accept {r' : MessageEnvelope} (h : IsAccept r) (h' : IsAccept r') :
    ¬ValidStream [r, r'] := by
  rintro ⟨hnumbers, -⟩
  simp only [List.map_cons, List.map_nil, h.number_eq, h'.number_eq] at hnumbers
  cases hnumbers

/-- Behind the `SESSION_ACCEPT` the numbering asks for number 2, and a validator for number 1. -/
theorem not_validStream_proposal {r' : MessageEnvelope} (h : IsAccept r)
    (h' : ¬IsHandshake r'.messageType) : ¬ValidStream [r, r'] := by
  rintro ⟨hnumbers, hacc, hnext, -⟩
  obtain ⟨-, v', hsession, hseq, -⟩ := accepts_iff.mp hnext
  obtain ⟨rfl, -⟩ := (checkSession_regular h').mp hsession
  have hone := hseq.2 h'
  have hlast : (ProtocolValidator.after {} r).lastSequenceNumber = 0 := by
    rw [after_of_accepts hacc (checkSession_handshake (Or.inr h.type_eq))]
    simp [record, handshake, h.type_eq]
  rw [hlast] at hone
  simp only [List.map_cons, List.map_nil, h.number_eq, hone] at hnumbers
  cases hnumbers

/-- As long as the daemon sends no more, nothing or one `SESSION_ACCEPT` was sent; nothing only
while there is no session. -/
def SentOnce (d : MockCognitiaDaemon) (sent : List MessageEnvelope) : Prop :=
  sent = [] ∧ d.activeSessionId = none ∨ ∃ r, sent = [r] ∧ IsAccept r

/-- Nothing is a valid stream, and so is a single accept. -/
theorem SentOnce.validStream {sent : List MessageEnvelope} (h : SentOnce d sent) :
    ValidStream sent := by
  rcases h with ⟨rfl, -⟩ | ⟨r, rfl, hr⟩
  · exact ⟨rfl, trivial⟩
  · exact hr.validStream

variable {sent : List MessageEnvelope} {x : Call}

/-- A call that accepts no session leaves the session or ends it. -/
theorem activeSessionId_step_of_none
    (h : acceptOf (processIncomingEnvelope lib w d e).1 = none)
    (hactive : d.activeSessionId = none) :
    (step lib d (.incoming w e)).activeSessionId = none := by
  by_cases hpass : Passes lib d e
  · have hstep := congrArg EpistemicState.activeSessionId
      (epistemic_step_of_passes (w := w) hpass)
    rw [activeSessionId_receive] at hstep
    refine hstep.trans ?_
    split
    · next hhello =>
      obtain ⟨entries, hreply⟩ :=
        processIncomingEnvelope_of_authenticates (w := w) hpass hhello.1 hhello.2
      rw [hreply] at h
      cases h
    · split
      · rfl
      · exact hactive
  · rw [step_of_not_passes hpass]
    exact hactive

theorem noteSent_of_none (h : acceptOf (processIncomingEnvelope lib w d e).1 = none) :
    noteSent lib d sent (.incoming w e) = sent := by
  unfold noteSent
  simp only [h]

theorem noteSent_of_some (h : acceptOf (processIncomingEnvelope lib w d e).1 = some r) :
    noteSent lib d sent (.incoming w e)
      = if d.activeSessionId = some r.sessionId then sent ++ [r] else [r] := by
  unfold noteSent
  simp only [h]

theorem noteSent_generate_of_not {args : ProposalArgs} (h : truthy d.activeSessionId = false) :
    noteSent lib d sent (.generate w args) = sent := by
  unfold noteSent generateCandidateProposal
  simp [h]

theorem noteSent_generate_of_truthy {args : ProposalArgs} (h : truthy d.activeSessionId = true) :
    noteSent lib d sent (.generate w args)
      = sent ++ [proposalEnvelope w args (d.activeSessionId.getD "") d.sequenceNumber] := by
  unfold noteSent generateCandidateProposal
  simp [h]

/-- One call keeps it, if the daemon accepts no second hello of the session. -/
theorem SentOnce.step (h : SentOnce d sent) (hx : SendsNoMore lib d x) :
    SentOnce (step lib d x) (noteSent lib d sent x) := by
  cases x with
  | incoming w e =>
    cases hreply : acceptOf (processIncomingEnvelope lib w d e).1 with
    | none =>
      rw [noteSent_of_none hreply]
      rcases h with ⟨rfl, hactive⟩ | hone
      · exact .inl ⟨rfl, activeSessionId_step_of_none hreply hactive⟩
      · exact .inr hone
    | some r =>
      obtain ⟨hpass, ht, hauth, entries, rfl⟩ := acceptOf_eq_some hreply
      have hother : d.activeSessionId ≠ some e.sessionId := hx hpass ht hauth
      rw [noteSent_of_some hreply]
      exact .inr ⟨_, if_neg hother, isAccept_response w entries e⟩
  | generate w args =>
    have hactive : truthy d.activeSessionId = false := hx
    rw [step_generate_of_not hactive, noteSent_generate_of_not hactive]
    exact h

/-- Whatever is sent after the `SESSION_ACCEPT` makes the stream invalid. -/
theorem SentOnce.not_validStream (h : SentOnce d sent) (hx : ¬SendsNoMore lib d x) :
    ¬ValidStream (noteSent lib d sent x) := by
  cases x with
  | incoming w e =>
    unfold SendsNoMore at hx
    push Not at hx
    obtain ⟨hpass, ht, hauth, hactive⟩ := hx
    obtain ⟨entries, hreply⟩ := processIncomingEnvelope_of_authenticates (w := w) hpass ht hauth
    have haccept : acceptOf (processIncomingEnvelope lib w d e).1
        = some (response w 1 .sessionAccept (.obj entries) e) := by
      rw [hreply]
      rfl
    rw [noteSent_of_some haccept, if_pos (by exact hactive)]
    rcases h with ⟨-, hnone⟩ | ⟨r, rfl, hr⟩
    · rw [hnone] at hactive
      cases hactive
    · exact not_validStream_accept hr (isAccept_response w entries e)
  | generate w args =>
    have hactive : truthy d.activeSessionId = true := by
      rw [← Bool.not_eq_false]
      exact hx
    rw [noteSent_generate_of_truthy hactive]
    rcases h with ⟨-, hnone⟩ | ⟨r, rfl, hr⟩
    · rw [hnone] at hactive
      cases hactive
    · exact not_validStream_proposal hr
        (show ¬IsHandshake MessageType.candidateActionProposal by decide)

/-- The condition at a call of a run. -/
def SendsNoMoreStep (lib : PyLib) (token : String) (past : List Call) (x : Call) : Prop :=
  SendsNoMore lib (after lib token past) x

/-- So do the calls of a run. -/
theorem sentOnce_after {calls : List Call} (h : Along (SendsNoMoreStep lib token) calls) :
    SentOnce (after lib token calls) (sentInSession lib token calls) :=
  history_induction (I := fun _ d sent => SentOnce d sent) (.inl ⟨rfl, rfl⟩)
    (fun _ _ hsent hx => hsent.step hx) h

/-- What the daemon sends in a session is at all times a valid stream in exactly those runs in
which a session's `SESSION_ACCEPT` is all it sends. -/
theorem validStream_iff (lib : PyLib) (token : String) (calls : List Call) :
    (∀ past, past <+: calls → ValidStream (sentInSession lib token past))
      ↔ Along (SendsNoMoreStep lib token) calls := by
  constructor
  · intro h
    induction calls using List.reverseRecOn with
    | nil => exact along_nil
    | append_singleton past x ih =>
      have hpast : Along (SendsNoMoreStep lib token) past :=
        ih fun before hbefore => h before (hbefore.trans ⟨[x], rfl⟩)
      refine along_concat.mpr ⟨hpast, ?_⟩
      -- the first call that sends more makes the stream invalid
      by_contra hx
      have hvalid := h (past ++ [x]) ⟨[], List.append_nil _⟩
      rw [sentInSession_concat] at hvalid
      exact (sentOnce_after hpast).not_validStream hx hvalid
  · rintro h past ⟨rest, rfl⟩
    exact (sentOnce_after h.left).validStream

/-- The arguments of a proposal. -/
def navigate : ProposalArgs where
  domainId := "browser_nav"
  intent := "NAVIGATE"
  target := "tab_1"
  candidateAction := .obj [("action", .str "NAVIGATE"), ("url", .str "https://trusted.example")]
  rationale := "User research task"

/-- The first proposal of a session is numbered 2, after a `SESSION_ACCEPT` that the receiver does
not count. -/
theorem not_validStream :
    ¬∀ (lib : PyLib) (token : String) (calls past : List Call), past <+: calls →
      ValidStream (sentInSession lib token past) := by
  intro h
  have hopened : SentOnce (after PyLib.sample "mock_secret_token" openedRun)
      (sentInSession PyLib.sample "mock_secret_token" openedRun) :=
    sentOnce_after (along_concat.mpr ⟨along_nil, fun _ _ _ => by decide⟩)
  have hvalid := h PyLib.sample "mock_secret_token"
    (openedRun ++ [.generate (World.sample 2) navigate]) _ ⟨[], List.append_nil _⟩
  rw [sentInSession_concat] at hvalid
  refine hopened.not_validStream (fun hquiet => ?_) hvalid
  unfold SendsNoMore at hquiet
  rw [activeSessionId_openedRun] at hquiet
  cases hquiet

end MockCognitiaDaemon
end ThoriumFrugal.Protocol

import ThoriumFrugal.Protocol.MockCognitiaDaemon
import ThoriumFrugal.Protocol.ProtocolValidatorTheorems

/-!
# Who may write to the stores of the daemon

The session that the validator holds is not the one that was authenticated: a refused hello
moves the first and not the second. As long as every handshake that reaches the validator
belongs to an authenticated session, or authenticates one, only such sessions write to the stores.
-/

namespace ThoriumFrugal.Protocol

open Lib

namespace MockCognitiaDaemon

open ProtocolValidator

/-- An envelope, and what the call that processes it reads from outside. -/
structure Delivery where
  world : World
  envelope : MessageEnvelope

/-- The three stores hold what they held. -/
structure SameStores (d d' : MockCognitiaDaemon) : Prop where
  observations : d'.observationsStore = d.observationsStore
  authorizations : d'.authorizationsStore = d.authorizationsStore
  results : d'.executionResultsStore = d.executionResultsStore

theorem SameStores.refl (d : MockCognitiaDaemon) : SameStores d d := ⟨rfl, rfl, rfl⟩

/-- The types whose envelopes are filed. -/
def IsRecord (t : MessageType) : Prop :=
  t = .observation ∨ t = .executionAuthorizationObserved ∨ t = .executionResultObserved

/-- The payload carries the token under `auth_token`. -/
def carriesToken (token : String) : Json → Bool
  | .obj entries => Json.isStr (Json.get? entries "auth_token") token
  | _ => false

section Call

variable (lib : PyLib) (w : World) (d : MockCognitiaDaemon) (e : MessageEnvelope)

/-! ## What a call does to the validator and to the stores -/

/-- What the handlers write: the session, the counter and the stores of the records. -/
theorem exists_handleMessage_eq : ∃ session number observations authorizations results,
    (handleMessage w d e).2
      = { d with
          activeSessionId := session
          sequenceNumber := number
          observationsStore := observations
          authorizationsStore := authorizations
          executionResultsStore := results } := by
  unfold handleMessage
  split
  · unfold handleSessionHello
    split
    · exact ⟨_, _, _, _, _, rfl⟩
    · simp only
      split <;> exact ⟨_, _, _, _, _, rfl⟩
  · exact ⟨_, _, _, _, _, rfl⟩
  · unfold handleExecutionAuthObserved
    split <;> exact ⟨_, _, _, _, _, rfl⟩
  · unfold handleExecutionResultObserved
    split <;> exact ⟨_, _, _, _, _, rfl⟩
  · exact ⟨_, _, _, _, _, rfl⟩
  · exact ⟨_, _, _, _, _, rfl⟩

theorem protocolValidator_handleMessage :
    (handleMessage w d e).2.protocolValidator = d.protocolValidator := by
  obtain ⟨_, _, _, _, _, h⟩ := exists_handleMessage_eq w d e
  rw [h]

/-- The daemon calls its validator on every envelope. -/
theorem protocolValidator_processIncomingEnvelope :
    (processIncomingEnvelope lib w d e).2.protocolValidator = d.protocolValidator.after e := by
  unfold processIncomingEnvelope
  simp only
  split
  · rfl
  · split
    · rfl
    · rw [protocolValidator_handleMessage]
      rfl

variable {d e}

theorem sameStores_handleMessage (h : ¬IsRecord e.messageType) :
    SameStores d (handleMessage w d e).2 := by
  unfold IsRecord at h
  rw [not_or, not_or] at h
  obtain ⟨hobs, hauth, hresult⟩ := h
  unfold handleMessage
  split
  · unfold handleSessionHello
    split
    · exact .refl d
    · simp only
      split <;> exact ⟨rfl, rfl, rfl⟩
  · rename_i ht
    exact absurd ht hobs
  · rename_i ht
    exact absurd ht hauth
  · rename_i ht
    exact absurd ht hresult
  · exact ⟨rfl, rfl, rfl⟩
  · exact .refl d

/-- Only accepted records change a store. -/
theorem sameStores_processIncomingEnvelope
    (h : ¬(IsRecord e.messageType ∧ d.protocolValidator.Accepts e)) :
    SameStores d (processIncomingEnvelope lib w d e).2 := by
  unfold processIncomingEnvelope
  simp only
  split
  · exact ⟨rfl, rfl, rfl⟩
  · rename_i hacc
    split
    · exact ⟨rfl, rfl, rfl⟩
    · have hrecord : ¬IsRecord e.messageType := fun ht => h ⟨ht, hacc⟩
      have hsame := sameStores_handleMessage w
        (d := logInbound w { d with protocolValidator := d.protocolValidator.after e } e) hrecord
      exact ⟨hsame.observations, hsame.authorizations, hsame.results⟩

end Call

/-! ## Runs -/

section Runs

variable (lib : PyLib) (token : String)

/-- The daemon after a delivery, whether it raised or not. -/
def receive (d : MockCognitiaDaemon) (x : Delivery) : MockCognitiaDaemon :=
  (processIncomingEnvelope lib x.world d x.envelope).2

/-- The state after a run of a fresh daemon with the given token. -/
def reached (xs : List Delivery) : MockCognitiaDaemon :=
  run (receive lib) { expectedToken := token } xs

/-- A hello opens a session: it carries the expected token and is answered with a
`SESSION_ACCEPT`. -/
def Opens (d : MockCognitiaDaemon) (x : Delivery) (s : String) : Prop :=
  x.envelope.messageType = .sessionHello ∧ x.envelope.sessionId = s
    ∧ carriesToken d.expectedToken x.envelope.payload = true
    ∧ ∃ resp, (processIncomingEnvelope lib x.world d x.envelope).1 = .ok (true, some resp)
      ∧ resp.messageType = .sessionAccept

/-- Some hello of the run has opened the session. -/
def Authenticated (past : List Delivery) (s : String) : Prop :=
  ∃ before x rest, past = before ++ x :: rest ∧ Opens lib (reached lib token before) x s

/-- An envelope changes a store only if its session was opened before. -/
def GuardsStores (past : List Delivery) (x : Delivery) : Prop :=
  Authenticated lib token past x.envelope.sessionId
    ∨ SameStores (reached lib token past) (receive lib (reached lib token past) x)

/-- A hello that authenticates its session: a new one that carries the token, and whose number
and content are in order. -/
structure AuthenticHello (d : MockCognitiaDaemon) (e : MessageEnvelope) : Prop where
  hello : e.messageType = .sessionHello
  token : carriesToken d.expectedToken e.payload = true
  fresh : e.messageId ∉ d.protocolValidator.seenMessageIds
  number : SequenceOk (handshake d.protocolValidator e) e
  content : ContentOk e
  security : d.securityValidator.validateMessageSecurity lib e = .ok ()

/-- The run holds an authentic hello of the session. -/
def Greeted (xs : List Delivery) (s : String) : Prop :=
  ∃ before x rest, xs = before ++ x :: rest ∧ x.envelope.sessionId = s
    ∧ AuthenticHello lib (reached lib token before) x.envelope

/-- The condition under which the stores are guarded: a fresh handshake belongs to a session with
an authentic hello, at the latest itself, and an empty session id comes only in a hello while
nothing is established. -/
def GuardedStep (past : List Delivery) (x : Delivery) : Prop :=
  let v := (reached lib token past).protocolValidator
  x.envelope.messageId ∉ v.seenMessageIds → IsHandshake x.envelope.messageType →
    Greeted lib token (past ++ [x]) x.envelope.sessionId
    ∧ (x.envelope.sessionId ≠ ""
      ∨ x.envelope.messageType = .sessionHello ∧ v.sessionEstablished = false)

variable {lib token}

theorem Greeted.append {past : List Delivery} {s : String} (h : Greeted lib token past s)
    (more : List Delivery) : Greeted lib token (past ++ more) s := by
  obtain ⟨before, x, rest, rfl, hx⟩ := h
  exact ⟨before, x, rest ++ more, by simp, hx⟩

/-- The daemon answers an authentic hello with a `SESSION_ACCEPT`. -/
theorem AuthenticHello.opens {d : MockCognitiaDaemon} {x : Delivery}
    (h : AuthenticHello lib d x.envelope) : Opens lib d x x.envelope.sessionId := by
  have hacc : d.protocolValidator.Accepts x.envelope :=
    (accepts_handshake (Or.inl h.hello)).mpr ⟨h.fresh, h.number, h.content⟩
  refine ⟨h.hello, rfl, h.token, ?_⟩
  have htoken := h.token
  unfold carriesToken at htoken
  split at htoken
  · rename_i entries hpayload
    -- the payload holds a token, so the default for a missing one does not matter
    have hget : Json.isStr ((Json.get? entries "auth_token").getD (.str "")) d.expectedToken
        = true := by
      cases hauth : Json.get? entries "auth_token" with
      | none =>
        rw [hauth] at htoken
        cases htoken
      | some v =>
        rw [hauth] at htoken
        exact htoken
    unfold Accepts at hacc
    unfold processIncomingEnvelope
    simp only [hacc, h.security, handleMessage, h.hello, handleSessionHello, hpayload,
      SecurityValidator.asDict, logInbound, hget, not_true_eq_false, if_false]
    exact ⟨_, rfl, rfl⟩
  · cases htoken

theorem Greeted.authenticated {past : List Delivery} {s : String}
    (h : Greeted lib token past s) : Authenticated lib token past s := by
  obtain ⟨before, x, rest, hpast, hs, hhello⟩ := h
  refine ⟨before, x, rest, hpast, ?_⟩
  rw [← hs]
  exact hhello.opens

/-- What guarded calls keep, for a set of authenticated sessions: the session that the validator
holds is one of them, and has a name once it is established. -/
structure GuardInv (A : String → Prop) (v : ProtocolValidator) : Prop where
  active_mem : ∀ s, v.activeSessionId = some s → A s
  established_of_empty : v.activeSessionId = some "" → v.sessionEstablished = false
  active_of_established : v.sessionEstablished = true → v.activeSessionId ≠ none

/-- A handshake of an authenticated session keeps the invariant. -/
theorem GuardInv.handshake {A : String → Prop} {v : ProtocolValidator} {e : MessageEnvelope}
    (hA : A e.sessionId) (hname : e.sessionId ≠ ""
      ∨ e.messageType = .sessionHello ∧ v.sessionEstablished = false) :
    GuardInv A (handshake v e) where
  active_mem := fun s hs => by
    rw [activeSessionId_handshake] at hs
    cases hs
    exact hA
  established_of_empty := fun hs => by
    rw [activeSessionId_handshake] at hs
    rcases hname with hne | ⟨hhello, hest⟩
    · exact absurd (Option.some.inj hs) hne
    · unfold ProtocolValidator.handshake
      simp [hest, hhello]
  active_of_established := fun _ => by simp

theorem GuardInv.record {A : String → Prop} {v : ProtocolValidator} (h : GuardInv A v)
    (e : MessageEnvelope) : GuardInv A (record v e) where
  active_mem := h.active_mem
  established_of_empty := fun hs => by
    rw [← Bool.not_eq_true]
    intro hest
    have hv := h.established_of_empty hs
    rw [sessionEstablished_of_record hest] at hv
    cases hv
  active_of_established := fun hest => h.active_of_established (sessionEstablished_of_record hest)

/-- One call of the validator keeps the invariant, if fresh handshakes are of authenticated
sessions. -/
theorem GuardInv.after {A : String → Prop} {v : ProtocolValidator} {e : MessageEnvelope}
    (h : GuardInv A v) (hhand : e.messageId ∉ v.seenMessageIds → IsHandshake e.messageType →
      A e.sessionId ∧ (e.sessionId ≠ ""
        ∨ e.messageType = .sessionHello ∧ v.sessionEstablished = false)) :
    GuardInv A (after v e) := by
  have hsession : ∀ v', e.messageId ∉ v.seenMessageIds → checkSession v e = .ok v' →
      GuardInv A v' := by
    intro v' hid hv'
    by_cases ht : IsHandshake e.messageType
    · obtain ⟨hA, hname⟩ := hhand hid ht
      rw [checkSession_handshake ht] at hv'
      cases hv'
      exact .handshake hA hname
    · rw [((checkSession_regular ht).mp hv').1]
      exact h
  cases callCase v e with
  | refused _ hafter =>
    rw [hafter]
    exact h
  | aborted v' _ hafter hid hv' =>
    rw [hafter]
    exact hsession v' hid hv'
  | accepted v' _ hafter hid hv' =>
    rw [hafter]
    exact (hsession v' hid hv').record e

/-- Under the invariant a record is accepted only of an authenticated session. -/
theorem GuardInv.mem_of_accepts {A : String → Prop} {v : ProtocolValidator} {e : MessageEnvelope}
    (h : GuardInv A v) (ht : IsRecord e.messageType) (hacc : v.Accepts e) : A e.sessionId := by
  have hregular : ¬IsHandshake e.messageType := by
    rcases ht with ht | ht | ht <;> rw [ht] <;> decide
  have hclose : e.messageType ≠ .sessionClose := by
    rcases ht with ht | ht | ht <;> rw [ht] <;> decide
  obtain ⟨-, v', hsession, -⟩ := accepts_iff.mp hacc
  obtain ⟨-, htruthy, hest⟩ := (checkSession_regular hregular).mp hsession
  refine h.active_mem _ ?_
  cases hestablished : v.sessionEstablished with
  | false => exact hest hclose hestablished
  | true =>
    refine htruthy (truthy_of_ne (h.active_of_established hestablished) fun hempty => ?_)
    rw [h.established_of_empty hempty] at hestablished
    cases hestablished

theorem guardInv_reached {xs : List Delivery} (h : Along (GuardedStep lib token) xs) :
    GuardInv (Greeted lib token xs) (reached lib token xs).protocolValidator := by
  refine run_induction (I := fun past (d : MockCognitiaDaemon) =>
    GuardInv (Greeted lib token past) d.protocolValidator) ⟨?_, ?_, ?_⟩ ?_ h
  · simp
  · simp
  · simp
  · intro past x hinv hguard
    unfold receive
    rw [protocolValidator_processIncomingEnvelope]
    -- a longer run holds no fewer authentic hellos
    have hmono : GuardInv (Greeted lib token (past ++ [x]))
        (reached lib token past).protocolValidator :=
      ⟨fun s hs => (hinv.active_mem s hs).append [x], hinv.established_of_empty,
        hinv.active_of_established⟩
    exact hmono.after hguard

end Runs

variable (lib : PyLib) (token : String)

/-- In a guarded run a store is changed only by envelopes of sessions that were opened with the
token. -/
theorem along_guardsStores (xs : List Delivery) (h : Along (GuardedStep lib token) xs) :
    Along (GuardsStores lib token) xs := by
  intro past x rest hxs
  have hpast : Along (GuardedStep lib token) past := by
    rw [hxs] at h
    exact h.left
  by_cases hrecord : IsRecord x.envelope.messageType
      ∧ (reached lib token past).protocolValidator.Accepts x.envelope
  · have hgreeted := (guardInv_reached hpast).mem_of_accepts hrecord.1 hrecord.2
    exact Or.inl hgreeted.authenticated
  · exact Or.inr (sameStores_processIncomingEnvelope lib x.world hrecord)

/-- A hello with the given token, and an observation of its session. -/
def sampleRun (authToken : String) : List Delivery :=
  [{ world := World.sample 0
     envelope :=
      { sample .sessionHello "s" 1 0 with payload := .obj [("auth_token", .str authToken)] } },
    { world := World.sample 0
      envelope := sample .observation "s" 2 1 }]

theorem along_guardsStores_token : Along (GuardsStores PyLib.sample "mock_secret_token")
    (sampleRun "mock_secret_token") := by
  refine along_guardsStores PyLib.sample "mock_secret_token" ([] ++ [_] ++ [_]) ?_
  rw [along_concat, along_concat]
  refine ⟨⟨along_nil, fun hfresh ht => ⟨⟨[], _, [], rfl, rfl, ?_⟩, Or.inl (by decide)⟩⟩,
    fun _ ht => absurd ht (by decide)⟩
  obtain ⟨-, hnumber, hcontent⟩ := (accepts_handshake ht).mp
    (show Accepts {} { sample .sessionHello "s" 1 0 with
      payload := .obj [("auth_token", .str "mock_secret_token")] } by decide)
  exact
    { hello := rfl
      token := by decide
      fresh := hfresh
      number := hnumber
      content := hcontent
      security := by decide +kernel }

/-- An observation is stored after the hello of its session was refused. -/
theorem not_along_guardsStores :
    ¬∀ (lib : PyLib) (token : String) (xs : List Delivery), Along (GuardsStores lib token) xs := by
  intro h
  have hobs := h PyLib.sample "mock_secret_token" (sampleRun "guess")
    [(sampleRun "guess").head (by simp [sampleRun])]
    ((sampleRun "guess").getLast (by simp [sampleRun])) [] rfl
  rcases hobs with ⟨before, x, rest, hpast, -, -, htoken, -⟩ | hsame
  · cases before with
    | nil =>
      obtain ⟨rfl, -⟩ := List.cons.inj hpast
      exact absurd htoken (by decide)
    | cons y before => simp at hpast
  · have hlen := congrArg List.length hsame.observations
    exact absurd hlen (by decide +kernel)

end MockCognitiaDaemon
end ThoriumFrugal.Protocol

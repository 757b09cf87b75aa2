import ThoriumFrugal.Protocol.ProtocolValidatorTheorems

/-!
# What a rejected envelope leaves behind

The session check of `validate_envelope` writes before the checks of the number, of the timestamp
and of the payload are made. A rejection leaves no trace exactly if the envelope is no handshake
that these checks stop after it has moved the session. Runs are over both operations of the
validator, so that the states are all those that its users can reach.
-/

namespace ThoriumFrugal.Protocol

open Lib

namespace ProtocolValidator

/-! ## Runs of both operations -/

/-- A call of the validator. -/
inductive Operation
  | validate (e : MessageEnvelope)
  | reset (sessionId : Option String)

/-- The state that a call leaves behind. -/
def operate (v : ProtocolValidator) : Operation → ProtocolValidator
  | .validate e => after v e
  | .reset sessionId => resetSession v sessionId

/-- The state of a new validator after the calls. -/
def operated (calls : List Operation) : ProtocolValidator := run operate {} calls

/-! ## Exceptions -/

/-- Every exception of the computation is a `ProtocolValidationError`. -/
def Validates {α : Type} (x : Except PyError α) : Prop :=
  ∀ err, x = .error err → ∃ code message, err = .protocolValidation code message

variable {α : Type} {v : ProtocolValidator} {e : MessageEnvelope}

theorem validates_ok (a : α) : Validates (.ok a) := by
  intro err h
  cases h

theorem validates_error {code : String} {message : List MessagePart} :
    Validates (.error (.protocolValidation code message) : Except PyError α) := by
  intro err h
  cases h
  exact ⟨code, message, rfl⟩

theorem validates_raiseIf {cond : Prop} [Decidable cond] {code : String}
    {message : List MessagePart} :
    Validates (raiseIf cond (.protocolValidation code message)) := by
  unfold raiseIf
  split
  · exact validates_error
  · exact validates_ok ()

theorem Validates.bind {x : Except PyError Unit} {f : Unit → Except PyError α}
    (hx : Validates x) (hf : Validates (f ())) : Validates (x >>= f) := by
  cases x with
  | error err =>
    intro err' h
    cases h
    exact hx err rfl
  | ok u => exact hf

theorem validates_checkMessageId (v : ProtocolValidator) (e : MessageEnvelope) :
    Validates (checkMessageId v e) :=
  validates_raiseIf.bind (validates_raiseIf.bind validates_raiseIf)

theorem validates_checkSession (v : ProtocolValidator) (e : MessageEnvelope) :
    Validates (checkSession v e) := by
  by_cases hhand : IsHandshake e.messageType
  · rw [checkSession_handshake hhand]
    exact validates_ok _
  · unfold checkSession
    split
    · exact absurd (Or.inl ‹_›) hhand
    · exact absurd (Or.inr ‹_›) hhand
    · split
      · exact validates_error
      · exact validates_ok _
    · split
      · exact validates_error
      · split
        · exact validates_error
        · exact validates_ok _

theorem validates_validatePayload (t : MessageType) (payload : Json) :
    Validates (validatePayload t payload) := by
  unfold validatePayload missingField
  split
  · split
    · exact validates_raiseIf.bind (validates_raiseIf.bind validates_raiseIf)
    · exact validates_raiseIf.bind validates_raiseIf
    · exact validates_raiseIf.bind (validates_raiseIf.bind validates_raiseIf)
    · exact validates_raiseIf.bind validates_raiseIf
    · exact validates_raiseIf.bind (validates_raiseIf.bind validates_raiseIf)
    · exact validates_ok ()
  · exact validates_error

theorem validates_checkContent (v : ProtocolValidator) (e : MessageEnvelope) :
    Validates (checkContent v e) := by
  have horder : Validates (checkOrder v e) := by
    unfold checkOrder
    split
    · split
      · split <;> exact validates_error
      · exact validates_ok ()
    · exact validates_ok ()
  exact validates_raiseIf.bind (horder.bind (validates_raiseIf.bind
    (validates_validatePayload e.messageType e.payload)))

/-- `validate_envelope` raises nothing but `ProtocolValidationError`. -/
theorem validates_validateEnvelope (v : ProtocolValidator) (e : MessageEnvelope) :
    Validates (validateEnvelope v e).1 := by
  unfold validateEnvelope
  split
  · next err hid => exact hid ▸ validates_checkMessageId v e
  · split
    · next err hsession =>
      intro err' h
      cases h
      exact validates_checkSession v e err hsession
    · next v' hsession =>
      split
      · next err hcontent => exact hcontent ▸ validates_checkContent v' e
      · exact validates_ok ()

theorem not_accepts_iff : ¬Accepts v e
    ↔ ∃ code message, (validateEnvelope v e).1 = .error (.protocolValidation code message) := by
  unfold Accepts
  constructor
  · intro h
    cases hres : (validateEnvelope v e).1 with
    | ok u => exact absurd hres h
    | error err =>
      obtain ⟨code, message, rfl⟩ := validates_validateEnvelope v e err hres
      exact ⟨code, message, rfl⟩
  · rintro ⟨code, message, h⟩ hok
    rw [h] at hok
    cases hok

/-! ## Rejections -/

/-- If the call raises a `ProtocolValidationError`, it leaves the session, its number and its two
sets as they were. -/
def RejectionAtomic (v : ProtocolValidator) (e : MessageEnvelope) : Prop :=
  (∃ code message, (validateEnvelope v e).1 = .error (.protocolValidation code message)) →
    (after v e).activeSessionId = v.activeSessionId
      ∧ (after v e).sessionEstablished = v.sessionEstablished
      ∧ (after v e).lastSequenceNumber = v.lastSequenceNumber
      ∧ (after v e).seenMessageIds = v.seenMessageIds
      ∧ (after v e).seenSequenceNumbers = v.seenSequenceNumbers

/-- A hello of another session than the established one; the sequence numbers start over. -/
def Restarts (v : ProtocolValidator) (e : MessageEnvelope) : Prop :=
  e.messageType = .sessionHello ∧ v.sessionEstablished = true
    ∧ v.activeSessionId ≠ some e.sessionId

/-- The condition under which a rejection leaves no trace. A fresh handshake is in order: a hello
has a number that its session has not seen, and timestamp and payload are valid. Or it moves
nothing: it names the active session, and an accept finds it established. -/
def HandshakeHarmless (v : ProtocolValidator) (e : MessageEnvelope) : Prop :=
  e.messageId ∉ v.seenMessageIds → IsHandshake e.messageType →
    ((e.messageType = .sessionHello → Restarts v e ∨ e.sequenceNumber ∉ v.seenSequenceNumbers)
        ∧ ContentOk e)
      ∨ (v.activeSessionId = some e.sessionId
        ∧ (e.messageType = .sessionAccept → v.sessionEstablished = true))

theorem rejectionAtomic_iff_eq : RejectionAtomic v e ↔ (¬Accepts v e → after v e = v) := by
  unfold RejectionAtomic
  rw [not_accepts_iff]
  refine imp_congr_right fun _ => ?_
  constructor
  · rintro ⟨hactive, hest, hlast, hids, hnumbers⟩
    cases v
    cases hafter : after _ e
    simp_all
  · intro h
    rw [h]
    exact ⟨rfl, rfl, rfl, rfl, rfl⟩

/-- A handshake that moves nothing. -/
theorem handshake_eq_self_iff (h : IsHandshake e.messageType) : handshake v e = v
    ↔ v.activeSessionId = some e.sessionId
      ∧ (e.messageType = .sessionAccept → v.sessionEstablished = true) := by
  constructor
  · intro heq
    have hactive : v.activeSessionId = some e.sessionId := by
      rw [← activeSessionId_handshake v e, heq]
    refine ⟨hactive, fun haccept => ?_⟩
    rw [← heq]
    simp [handshake, haccept]
  · rintro ⟨hactive, hest⟩
    have hsame : (v.sessionEstablished || decide (e.messageType = .sessionAccept))
        = v.sessionEstablished := by
      rcases h with hhello | haccept
      · simp [hhello]
      · simp [hest haccept]
    unfold handshake
    rw [if_neg (by simp [hactive]), hsame, ← hactive]

/-- The number of a handshake is in order in the state that its session check leaves. -/
theorem sequenceOk_handshake_iff (h : IsHandshake e.messageType) :
    SequenceOk (handshake v e) e
      ↔ (e.messageType = .sessionHello →
        Restarts v e ∨ e.sequenceNumber ∉ v.seenSequenceNumbers) := by
  unfold SequenceOk handshake Restarts
  rcases h with hhello | haccept
  · simp only [hhello, IsHandshake, true_or, not_true_eq_false, false_implies, and_true, true_and,
      ne_eq, reduceCtorEq, not_false_eq_true, forall_const]
    split
    · next hreset => simp [hreset, resetSession]
    · next hreset => simp [hreset]
  · simp [haccept, IsHandshake]

/-- Exactly the harmless envelopes are rejected without a trace: in every state. -/
theorem rejectionAtomic_iff_of_state (v : ProtocolValidator) (e : MessageEnvelope) :
    RejectionAtomic v e ↔ HandshakeHarmless v e := by
  rw [rejectionAtomic_iff_eq]
  cases callCase v e with
  | refused hacc hafter hwhy =>
    refine ⟨fun _ hid hhand => ?_, fun _ _ => hafter⟩
    -- the session check of a handshake refuses nothing
    rcases hwhy with hseen | hnone
    · exact absurd hseen hid
    · exact absurd (checkSession_handshake hhand) (hnone _)
  | aborted v' hacc hafter hid hsession hcontent =>
    by_cases hhand : IsHandshake e.messageType
    · rw [checkSession_handshake hhand] at hsession
      cases hsession
      rw [hafter, handshake_eq_self_iff hhand]
      rw [sequenceOk_handshake_iff hhand] at hcontent
      constructor
      · intro hsame
        exact fun _ _ => Or.inr (hsame hacc)
      · intro hharmless _
        exact (hharmless hid hhand).resolve_left hcontent
    · obtain ⟨rfl, -⟩ := (checkSession_regular hhand).mp hsession
      exact ⟨fun _ _ h => absurd h hhand, fun _ _ => hafter⟩
  | accepted v' hacc hafter hid hsession hseq hcontent =>
    refine ⟨fun _ _ hhand => Or.inl ?_, fun _ hnot => absurd hacc hnot⟩
    rw [checkSession_handshake hhand] at hsession
    cases hsession
    exact ⟨(sequenceOk_handshake_iff hhand).mp hseq, hcontent⟩

/-- In every reachable state, exactly the harmless envelopes are rejected without a trace. -/
theorem rejectionAtomic_iff (calls : List Operation) (e : MessageEnvelope) :
    RejectionAtomic (operated calls) e ↔ HandshakeHarmless (operated calls) e :=
  rejectionAtomic_iff_of_state (operated calls) e

/-- A second hello whose number is used moves the session, although it is rejected. -/
theorem not_rejectionAtomic : ¬∀ (calls : List Operation) (e : MessageEnvelope),
    RejectionAtomic (operated calls) e := by
  intro h
  have hatomic := h [.validate (sample .sessionHello "s" 1 0)] (sample .sessionHello "t" 2 0)
  rw [rejectionAtomic_iff_eq] at hatomic
  have hsame := congrArg activeSessionId (hatomic (by decide))
  revert hsame
  decide

end ProtocolValidator
end ThoriumFrugal.Protocol

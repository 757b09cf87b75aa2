import ThoriumFrugal.Protocol.AtomicityTheorems

/-!
# One message, one id

Between two resets of the session the validator remembers the ids that it has accepted, as they
were spelled. A UUID has many spellings, so the same message may be accepted once for each. It is
accepted once for all exactly if no envelope that is otherwise in order spells a remembered id in
another way.
-/

namespace ThoriumFrugal.Protocol

open Lib

namespace ProtocolValidator

variable {v : ProtocolValidator} {e : MessageEnvelope} {calls : List Operation}

/-! ## Envelopes that do not restart the session -/

/-- The session check of a message outside a handshake, in the state before the call. -/
def SessionOk (v : ProtocolValidator) (e : MessageEnvelope) : Prop :=
  IsHandshake e.messageType
    ∨ ((truthy v.activeSessionId = true → v.activeSessionId = some e.sessionId)
      ∧ (e.messageType ≠ .sessionClose → v.sessionEstablished = false →
        v.activeSessionId = some e.sessionId))

instance (v : ProtocolValidator) (e : MessageEnvelope) : Decidable (Restarts v e) :=
  inferInstanceAs (Decidable (_ ∧ _ ∧ _))

theorem handshake_of_restarts (h : Restarts v e) :
    handshake v e = v.resetSession (some e.sessionId) := if_pos h

theorem handshake_of_not_restarts (h : ¬Restarts v e) :
    handshake v e
      = { v with
          activeSessionId := some e.sessionId
          sessionEstablished := v.sessionEstablished || e.messageType = .sessionAccept } :=
  if_neg h

/-- Without a restart the session check keeps the number and the two sets. -/
theorem checkSession_of_not_restarts {v' : ProtocolValidator} (hnot : ¬Restarts v e)
    (hsession : checkSession v e = .ok v') :
    v'.seenMessageIds = v.seenMessageIds ∧ (SequenceOk v' e ↔ SequenceOk v e) := by
  by_cases hhand : IsHandshake e.messageType
  · rw [checkSession_handshake hhand] at hsession
    cases hsession
    rw [handshake_of_not_restarts hnot]
    exact ⟨rfl, Iff.rfl⟩
  · obtain ⟨rfl, -⟩ := (checkSession_regular hhand).mp hsession
    exact ⟨rfl, Iff.rfl⟩

theorem exists_checkSession_iff : (∃ v', checkSession v e = .ok v') ↔ SessionOk v e := by
  unfold SessionOk
  by_cases hhand : IsHandshake e.messageType
  · simp [checkSession_handshake hhand, hhand]
  · simp only [checkSession_regular hhand, hhand, false_or]
    constructor
    · rintro ⟨v', -, hok⟩
      exact hok
    · intro hok
      exact ⟨v, rfl, hok⟩

/-- What a call asks of an envelope that does not restart the session, in the state before it. -/
theorem accepts_iff_of_not_restarts (hnot : ¬Restarts v e) : Accepts v e
    ↔ e.messageId ∉ v.seenMessageIds ∧ SessionOk v e ∧ SequenceOk v e ∧ ContentOk e := by
  rw [accepts_iff, ← exists_checkSession_iff]
  refine and_congr_right fun _ => ?_
  constructor
  · rintro ⟨v', hsession, hseq, hcontent⟩
    exact ⟨⟨v', hsession⟩, (checkSession_of_not_restarts hnot hsession).2.mp hseq, hcontent⟩
  · rintro ⟨⟨v', hsession⟩, hseq, hcontent⟩
    exact ⟨v', hsession, (checkSession_of_not_restarts hnot hsession).2.mpr hseq, hcontent⟩

/-! ## Ids of a period -/

/-- The call starts the session over: `reset_session`, or a hello that reaches its restart. -/
def Resets (v : ProtocolValidator) : Operation → Prop
  | .validate e => e.messageId ∉ v.seenMessageIds ∧ Restarts v e
  | .reset _ => True

instance (v : ProtocolValidator) (x : Operation) : Decidable (Resets v x) :=
  match x with
  | .validate _ => inferInstanceAs (Decidable (_ ∧ _))
  | .reset _ => isTrue trivial

/-- The id of the envelope that a call accepts, if any. -/
def acceptedId (v : ProtocolValidator) : Operation → List String
  | .validate e => if Accepts v e then [e.messageId] else []
  | .reset _ => []

/-- The ids of the envelopes that were accepted since the session last started over. -/
def noteId (v : ProtocolValidator) (ids : List String) (x : Operation) : List String :=
  (if Resets v x then [] else ids) ++ acceptedId v x

theorem noteId_validate (v : ProtocolValidator) (ids : List String) (e : MessageEnvelope) :
    noteId v ids (.validate e)
      = (if e.messageId ∉ v.seenMessageIds ∧ Restarts v e then [] else ids)
        ++ if Accepts v e then [e.messageId] else [] := rfl

/-- The ids accepted since the last reset. -/
def periodIds (calls : List Operation) : List String := history operate noteId {} [] calls

theorem periodIds_concat (calls : List Operation) (x : Operation) :
    periodIds (calls ++ [x]) = noteId (operated calls) (periodIds calls) x :=
  history_concat operate noteId {} [] calls x

/-- The ids denote UUIDs that are all different. -/
def UniqueIdentity (ids : List String) : Prop := (ids.map Uuid.parse).Nodup

instance (ids : List String) : Decidable (UniqueIdentity ids) :=
  inferInstanceAs (Decidable (List.Nodup _))

/-- The session check forgets the ids if it restarts the session. -/
theorem seenMessageIds_checkSession {v' : ProtocolValidator}
    (hsession : checkSession v e = .ok v') :
    v'.seenMessageIds = if Restarts v e then ∅ else v.seenMessageIds := by
  split
  · next hrestart =>
    rw [checkSession_handshake (Or.inl hrestart.1), handshake_of_restarts hrestart] at hsession
    cases hsession
    rfl
  · next hrestart => exact (checkSession_of_not_restarts hrestart hsession).1

/-- One call keeps the remembered ids those of the period. -/
theorem seenMessageIds_step (v : ProtocolValidator) (ids : List String) (x : Operation)
    (h : v.seenMessageIds = ids.toFinset) :
    (operate v x).seenMessageIds = (noteId v ids x).toFinset := by
  cases x with
  | reset sessionId => rfl
  | validate e =>
    rw [noteId_validate]
    show (after v e).seenMessageIds = _
    cases callCase v e with
    | refused hacc hafter hwhy =>
      have hstill : ¬(e.messageId ∉ v.seenMessageIds ∧ Restarts v e) := by
        rintro ⟨hid, hrestart⟩
        rcases hwhy with hseen | hnone
        · exact hid hseen
        · exact hnone _ (checkSession_handshake (Or.inl hrestart.1))
      rw [hafter, if_neg hstill, if_neg hacc, List.append_nil, h]
    | aborted v' hacc hafter hid hsession =>
      rw [hafter, if_neg hacc, List.append_nil, seenMessageIds_checkSession hsession]
      by_cases hrestart : Restarts v e
      · rw [if_pos hrestart, if_pos ⟨hid, hrestart⟩]
        rfl
      · rw [if_neg hrestart, if_neg fun hboth => hrestart hboth.2, h]
    | accepted v' hacc hafter hid hsession =>
      rw [hafter, if_pos hacc]
      show insert e.messageId v'.seenMessageIds = _
      rw [seenMessageIds_checkSession hsession, List.toFinset_append, Finset.union_comm]
      by_cases hrestart : Restarts v e
      · rw [if_pos hrestart, if_pos ⟨hid, hrestart⟩]
        rfl
      · rw [if_neg hrestart, if_neg fun hboth => hrestart hboth.2, h]
        rfl

/-- The validator remembers exactly the ids of the period. -/
theorem seenMessageIds_operated (calls : List Operation) :
    (operated calls).seenMessageIds = (periodIds calls).toFinset :=
  history_invariant
    (I := fun _ (v : ProtocolValidator) (ids : List String) => v.seenMessageIds = ids.toFinset) rfl
    (fun _ x h => seenMessageIds_step _ _ x h) calls

/-! ## Spellings -/

/-- The condition under which ids stay unique: an envelope that is otherwise in order, and does
not restart the session, is no other spelling of a remembered id. -/
def SpelledOnce (v : ProtocolValidator) (e : MessageEnvelope) : Prop :=
  ¬Restarts v e → SessionOk v e → SequenceOk v e → ContentOk e →
    ∀ id ∈ v.seenMessageIds, Uuid.parse id = Uuid.parse e.messageId → id = e.messageId

/-- The envelope of a call is spelled once. -/
def SpelledOnceStep (past : List Operation) (x : Operation) : Prop :=
  ∀ e, x = .validate e → SpelledOnce (operated past) e

theorem uniqueIdentity_singleton (id : String) : UniqueIdentity [id] := List.nodup_singleton _

/-- One more id keeps the ids unique if it denotes none of their UUIDs. -/
theorem uniqueIdentity_concat {ids : List String} {id : String} :
    UniqueIdentity (ids ++ [id])
      ↔ UniqueIdentity ids ∧ ∀ other ∈ ids, Uuid.parse other ≠ Uuid.parse id := by
  unfold UniqueIdentity
  rw [List.map_append, List.nodup_append]
  simp

/-- Among unique ids, the UUID says which one it is. -/
theorem UniqueIdentity.eq_of_parse {ids : List String} (h : UniqueIdentity ids) {a b : String}
    (ha : a ∈ ids) (hb : b ∈ ids) (hab : Uuid.parse a = Uuid.parse b) : a = b :=
  List.inj_on_of_nodup_map h ha hb hab

/-- An envelope that restarts the session starts the ids over, if it is not refused at once. -/
theorem uniqueIdentity_noteId_of_restarts {ids : List String} (h : UniqueIdentity ids)
    (hrestart : Restarts v e) : UniqueIdentity (noteId v ids (.validate e)) := by
  rw [noteId_validate]
  by_cases hid : e.messageId ∈ v.seenMessageIds
  · have hacc : ¬Accepts v e := fun hacc => (accepts_iff.mp hacc).1 hid
    rw [if_neg fun hboth => hboth.1 hid, if_neg hacc, List.append_nil]
    exact h
  · rw [if_pos ⟨hid, hrestart⟩, List.nil_append]
    split
    · exact uniqueIdentity_singleton e.messageId
    · exact List.nodup_nil

/-- Any other envelope adds its id, unless the id is remembered or something else is wrong. -/
theorem uniqueIdentity_noteId_iff {ids : List String} (h : UniqueIdentity ids)
    (hseen : v.seenMessageIds = ids.toFinset) (hrestart : ¬Restarts v e) :
    UniqueIdentity (noteId v ids (.validate e)) ↔ SpelledOnce v e := by
  have hmem : ∀ id, id ∈ v.seenMessageIds ↔ id ∈ ids := fun id => by rw [hseen, List.mem_toFinset]
  have hacc := accepts_iff_of_not_restarts hrestart
  unfold SpelledOnce
  rw [hmem] at hacc
  rw [noteId_validate, if_neg fun hboth => hrestart hboth.2]
  simp only [hmem]
  by_cases hid : e.messageId ∈ ids
  · -- the id itself is remembered, and no other id denotes its UUID
    rw [if_neg fun h' => (hacc.mp h').1 hid, List.append_nil]
    exact ⟨fun _ _ _ _ _ id hother hparse => h.eq_of_parse hother hid hparse, fun _ => h⟩
  · by_cases hok : SessionOk v e ∧ SequenceOk v e ∧ ContentOk e
    · rw [if_pos (hacc.mpr ⟨hid, hok⟩), uniqueIdentity_concat]
      constructor
      · rintro ⟨-, hother⟩ - - - - id hremembered hparse
        exact absurd hparse (hother id hremembered)
      · intro hspelled
        refine ⟨h, fun other hremembered hparse => hid ?_⟩
        rw [← hspelled hrestart hok.1 hok.2.1 hok.2.2 other hremembered hparse]
        exact hremembered
    · rw [if_neg fun h' => hok (hacc.mp h').2, List.append_nil]
      exact ⟨fun _ _ h1 h2 h3 => absurd ⟨h1, h2, h3⟩ hok, fun _ => h⟩

/-- One call keeps the ids of the period unique exactly if its envelope is spelled once. -/
theorem uniqueIdentity_step_iff (x : Operation) (h : UniqueIdentity (periodIds calls)) :
    UniqueIdentity (periodIds (calls ++ [x])) ↔ SpelledOnceStep calls x := by
  rw [periodIds_concat]
  unfold SpelledOnceStep
  cases x with
  | reset sessionId => exact ⟨fun _ e he => (nomatch he), fun _ => List.nodup_nil⟩
  | validate e =>
    simp only [Operation.validate.injEq, forall_eq']
    by_cases hrestart : Restarts (operated calls) e
    · exact ⟨fun _ hnot => absurd hrestart hnot,
        fun _ => uniqueIdentity_noteId_of_restarts h hrestart⟩
    · exact uniqueIdentity_noteId_iff h (seenMessageIds_operated calls) hrestart

/-- The ids that are accepted between two resets of the session denote different UUIDs at all
times exactly if no envelope that is otherwise in order spells a remembered id in another way. -/
theorem uniqueIdentity_periodIds_iff (calls : List Operation) :
    (∀ past, past <+: calls → UniqueIdentity (periodIds past)) ↔ Along SpelledOnceStep calls :=
  forall_prefix_iff_along (C := fun past => UniqueIdentity (periodIds past)) List.nodup_nil
    (fun _ x h => uniqueIdentity_step_iff x h) calls

/-- An observation that spells the id of its session's hello with a hyphen in front. -/
def respelled : MessageEnvelope :=
  { sample .observation "s" 3 1 with
    messageId := Uuid.hyphened 1 1
    messageId_uuid := by rw [Uuid.parse_hyphened _ (by decide)]; rfl }

/-- The observation is accepted, although it carries the UUID of the hello. -/
theorem not_uniqueIdentity_periodIds : ¬∀ calls past : List Operation, past <+: calls →
    UniqueIdentity (periodIds past) := by
  intro h
  have hunique := h _ [.validate (sample .sessionHello "s" 1 0),
    .validate (sample .sessionAccept "s" 2 0), .validate respelled] List.prefix_rfl
  revert hunique
  decide

end ProtocolValidator
end ThoriumFrugal.Protocol

import ThoriumFrugal.Lib.Run
import ThoriumFrugal.Protocol.ProtocolValidator

/-!
# What a call of the validator does, and who may speak

`callCase` says once what a call of `validateEnvelope` can do; everything about runs follows from
it. The first such result is about sessions: as long as no handshake is aborted and nobody speaks
in a session that is not open, every accepted message belongs to the session that the last
accepted handshake opened and that has not been closed since.
-/

namespace ThoriumFrugal.Protocol

open Lib

namespace ProtocolValidator

/-! ## The stages -/

/-- `SESSION_HELLO` and `SESSION_ACCEPT`. -/
def IsHandshake (t : MessageType) : Prop := t = .sessionHello ∨ t = .sessionAccept

instance (t : MessageType) : Decidable (IsHandshake t) :=
  inferInstanceAs (Decidable (_ ∨ _))

/-- Timestamp and payload of an envelope are in order. -/
def ContentOk (e : MessageEnvelope) : Prop :=
  IsoFormat.fromisoformat (cleanTimestamp e.timestamp) = true
    ∧ validatePayload e.messageType e.payload = .ok ()

/-- A printed time is a valid timestamp. -/
theorem fromisoformat_timestamp (w : World) (i : ℕ) :
    IsoFormat.fromisoformat (cleanTimestamp (w.timestamp i)) = true := by
  have hclean : cleanTimestamp (w.timestamp i) = (w.timestamp i).toList := by
    unfold cleanTimestamp
    have hchars : ∀ c ∈ (w.timestamp i).toList,
        (if c = 'Z' then "+00:00".toList else [c]) = [c] := by
      intro c hc
      rw [if_neg]
      rintro rfl
      exact IsoFormat.not_mem_isoformat (w.now i) hc
    rw [List.flatMap_congr hchars, List.flatMap_singleton']
  rw [hclean]
  exact IsoFormat.fromisoformat_isoformat (w.now i)

/-- The sequence number of an envelope is in order. -/
def SequenceOk (v : ProtocolValidator) (e : MessageEnvelope) : Prop :=
  (e.messageType ≠ .sessionAccept → e.sequenceNumber ∉ v.seenSequenceNumbers)
    ∧ (¬IsHandshake e.messageType → e.sequenceNumber = v.lastSequenceNumber + 1)

/-- The state in which the rest of a call with a handshake runs. -/
def handshake (v : ProtocolValidator) (e : MessageEnvelope) : ProtocolValidator :=
  if e.messageType = .sessionHello ∧ v.sessionEstablished = true
      ∧ v.activeSessionId ≠ some e.sessionId then
    v.resetSession (some e.sessionId)
  else
    { v with
      activeSessionId := some e.sessionId
      sessionEstablished := v.sessionEstablished || e.messageType = .sessionAccept }

variable {v v' : ProtocolValidator} {e : MessageEnvelope}

/-- The constructor of the envelope has made the first two checks. -/
theorem checkMessageId_eq_ok : checkMessageId v e = .ok () ↔ e.messageId ∉ v.seenMessageIds := by
  unfold checkMessageId
  have hsome : ¬(Uuid.parse e.messageId).isNone = true := by
    rw [Bool.not_eq_true, ← Option.not_isSome, e.messageId_uuid]
    rfl
  rw [check_bind_eq_ok, check_bind_eq_ok, raiseIf_eq_ok, raiseIf_eq_ok, raiseIf_eq_ok, not_not]
  constructor
  · intro h
    exact h.2.2
  · intro h
    exact ⟨e.version_supported, hsome, h⟩

theorem checkOrder_eq_ok : checkOrder v e = .ok ()
    ↔ (¬IsHandshake e.messageType → e.sequenceNumber = v.lastSequenceNumber + 1) := by
  unfold checkOrder IsHandshake
  rw [not_or]
  split
  · rename_i h
    split
    · rename_i hne
      constructor
      · intro herr
        split at herr <;> cases herr
      · intro hseq
        exact absurd (hseq h) hne
    · rename_i heq
      exact ⟨fun _ _ => not_not.mp heq, fun _ => rfl⟩
  · rename_i h
    exact ⟨fun _ h' => absurd h' h, fun _ => rfl⟩

theorem checkContent_eq_ok : checkContent v e = .ok () ↔ SequenceOk v e ∧ ContentOk e := by
  unfold checkContent checkDuplicate checkTimestamp SequenceOk ContentOk
  rw [check_bind_eq_ok, check_bind_eq_ok, check_bind_eq_ok, raiseIf_eq_ok, raiseIf_eq_ok,
    checkOrder_eq_ok, not_and, not_not]
  constructor
  · intro ⟨hdup, horder, htime, hpayload⟩
    exact ⟨⟨hdup, horder⟩, htime, hpayload⟩
  · intro ⟨⟨hdup, horder⟩, htime, hpayload⟩
    exact ⟨hdup, horder, htime, hpayload⟩

theorem checkSession_handshake (h : IsHandshake e.messageType) :
    checkSession v e = .ok (handshake v e) := by
  unfold checkSession handshake
  rcases h with h | h
  · simp only [h, true_and, reduceCtorEq, decide_false, Bool.or_false]
    split
    · rfl
    · rename_i hreset
      split
      · rfl
      · rename_i hest
        have hactive : v.activeSessionId = some e.sessionId := by
          by_contra hne
          exact hreset ⟨not_not.mp hest, hne⟩
        rw [← hactive]
  · simp [h]

/-- Messages outside a handshake leave the session alone; they need it to be theirs. -/
theorem checkSession_regular (h : ¬IsHandshake e.messageType) :
    checkSession v e = .ok v' ↔ v' = v
      ∧ (truthy v.activeSessionId = true → v.activeSessionId = some e.sessionId)
      ∧ (e.messageType ≠ .sessionClose → v.sessionEstablished = false →
        v.activeSessionId = some e.sessionId) := by
  unfold IsHandshake at h
  rw [not_or] at h
  unfold checkSession
  cases ht : e.messageType with
  | sessionHello => exact absurd ht h.1
  | sessionAccept => exact absurd ht h.2
  | sessionClose =>
    by_cases hactive : truthy v.activeSessionId = true ∧ v.activeSessionId ≠ some e.sessionId
    · simp [hactive]
    · simp only [if_neg hactive, Except.ok.injEq]
      constructor
      · intro hv
        refine ⟨hv.symm, fun htrue => ?_, fun hclose => absurd rfl hclose⟩
        by_contra hne
        exact hactive ⟨htrue, hne⟩
      · intro hv
        exact hv.1.symm
  | _ =>
    by_cases hactive : v.activeSessionId = some e.sessionId
    · simp only [hactive, ne_eq, not_true_eq_false, and_false, if_false, implies_true, and_true,
        Except.ok.injEq]
      exact eq_comm
    · cases hest : v.sessionEstablished with
      | false => simp [hactive]
      | true =>
        cases htrue : truthy v.activeSessionId with
        | false =>
          simp only [not_true_eq_false, false_and, if_false, Bool.false_eq_true, Except.ok.injEq,
            false_implies, implies_true, reduceCtorEq, and_true]
          exact eq_comm
        | true => simp [hactive]

/-! ## What a call can do -/

/-- A call refuses an envelope before it touches the state, aborts behind the session check, or
accepts. -/
inductive CallCase (v : ProtocolValidator) (e : MessageEnvelope) : Prop
  | refused (hacc : ¬Accepts v e) (hafter : after v e = v)
    (hwhy : e.messageId ∈ v.seenMessageIds ∨ ∀ v', checkSession v e ≠ .ok v')
  | aborted (v' : ProtocolValidator) (hacc : ¬Accepts v e) (hafter : after v e = v')
    (hid : e.messageId ∉ v.seenMessageIds) (hsession : checkSession v e = .ok v')
    (hcontent : ¬(SequenceOk v' e ∧ ContentOk e))
  | accepted (v' : ProtocolValidator) (hacc : Accepts v e) (hafter : after v e = record v' e)
    (hid : e.messageId ∉ v.seenMessageIds) (hsession : checkSession v e = .ok v')
    (hseq : SequenceOk v' e) (hcontent : ContentOk e)

theorem callCase (v : ProtocolValidator) (e : MessageEnvelope) : CallCase v e := by
  cases hid : checkMessageId v e with
  | error err =>
    have hseen : e.messageId ∈ v.seenMessageIds := by
      by_contra hnot
      rw [checkMessageId_eq_ok.mpr hnot] at hid
      cases hid
    exact .refused (by simp [Accepts, validateEnvelope, hid])
      (by simp [after, validateEnvelope, hid]) (Or.inl hseen)
  | ok u =>
    cases hs : checkSession v e with
    | error err =>
      exact .refused (by simp [Accepts, validateEnvelope, hid, hs])
        (by simp [after, validateEnvelope, hid, hs])
        (Or.inr fun v' hv' => by rw [hs] at hv'; cases hv')
    | ok v' =>
      cases hc : checkContent v' e with
      | error err =>
        have hnot : ¬(SequenceOk v' e ∧ ContentOk e) := by
          rw [← checkContent_eq_ok, hc]
          simp
        exact .aborted v' (by simp [Accepts, validateEnvelope, hid, hs, hc])
          (by simp [after, validateEnvelope, hid, hs, hc]) (checkMessageId_eq_ok.mp hid) hs hnot
      | ok u =>
        obtain ⟨hseq, hcontent⟩ := checkContent_eq_ok.mp hc
        exact .accepted v' (by simp [Accepts, validateEnvelope, hid, hs, hc])
          (by simp [after, validateEnvelope, hid, hs, hc]) (checkMessageId_eq_ok.mp hid) hs hseq
          hcontent

/-- An accepted envelope is recorded in the state that the session check leaves. -/
theorem after_of_accepts (hacc : Accepts v e) (hv' : checkSession v e = .ok v') :
    after v e = record v' e := by
  cases callCase v e with
  | refused hnot => exact absurd hacc hnot
  | aborted _ hnot => exact absurd hacc hnot
  | accepted w _ hafter _ hw =>
    rw [hv'] at hw
    cases hw
    exact hafter

theorem accepts_iff : Accepts v e ↔ e.messageId ∉ v.seenMessageIds
    ∧ ∃ v', checkSession v e = .ok v' ∧ SequenceOk v' e ∧ ContentOk e := by
  constructor
  · intro h
    cases callCase v e with
    | refused hacc => exact absurd h hacc
    | aborted _ hacc => exact absurd h hacc
    | accepted v' _ _ hid hs hseq hcontent => exact ⟨hid, v', hs, hseq, hcontent⟩
  · intro ⟨hid, v', hs, hok⟩
    cases callCase v e with
    | refused _ _ hwhy => exact absurd hwhy (by simp [hid, hs])
    | aborted w _ _ _ hw hcontent =>
      rw [hs] at hw
      cases hw
      exact absurd hok hcontent
    | accepted _ hacc => exact hacc

/-- A handshake is accepted if its content is, and its number is new in the session. -/
theorem accepts_handshake (h : IsHandshake e.messageType) : Accepts v e
    ↔ e.messageId ∉ v.seenMessageIds ∧ SequenceOk (handshake v e) e ∧ ContentOk e := by
  rw [accepts_iff, checkSession_handshake h]
  simp

@[simp] theorem activeSessionId_handshake (v : ProtocolValidator) (e : MessageEnvelope) :
    (handshake v e).activeSessionId = some e.sessionId := by
  unfold handshake
  split <;> rfl

@[simp] theorem activeSessionId_record (v : ProtocolValidator) (e : MessageEnvelope) :
    (record v e).activeSessionId = v.activeSessionId := rfl

theorem sessionEstablished_of_record (h : (record v e).sessionEstablished = true) :
    v.sessionEstablished = true := (Bool.and_eq_true_iff.mp h).1

/-! ## Runs -/

/-- The state after a run of a fresh validator. -/
def reached (es : List MessageEnvelope) : ProtocolValidator := run after {} es

@[simp] theorem reached_concat (es : List MessageEnvelope) (e : MessageEnvelope) :
    reached (es ++ [e]) = after (reached es) e := run_concat es e

/-- The session that is open behind an accepted envelope. -/
def openAfter (session : Option String) (e : MessageEnvelope) : Option String :=
  if IsHandshake e.messageType then some e.sessionId
  else if e.messageType = .sessionClose ∧ session = some e.sessionId then none
  else session

/-- The validator in a run, with the session that the accepted envelopes leave open. -/
def openStep (s : ProtocolValidator × Option String) (e : MessageEnvelope) :
    ProtocolValidator × Option String :=
  (after s.1 e, if Accepts s.1 e then openAfter s.2 e else s.2)

/-- The session most recently opened by an accepted handshake, unless an accepted
`SESSION_CLOSE` has closed it. -/
def openSession (es : List MessageEnvelope) : Option String := (run openStep ({}, none) es).2

theorem openSession_eq_history (es : List MessageEnvelope) :
    openSession es = history after
      (fun v session e => if Accepts v e then openAfter session e else session) {} none es := rfl

/-- An accepted message outside a handshake belongs to the open session. -/
def InOpenSession (past : List MessageEnvelope) (e : MessageEnvelope) : Prop :=
  Accepts (reached past) e → ¬IsHandshake e.messageType → openSession past = some e.sessionId

/-- The condition under which the validator guards sessions, on a state, the open session and
the next envelope. A handshake names a session, and is not aborted unless it names the active
one; while no session is open, nothing that is otherwise in order names the session that the
validator still holds, or closes a session before there was one. -/
structure Orderly (v : ProtocolValidator) (session : Option String) (e : MessageEnvelope) :
    Prop where
  handshake_named : IsHandshake e.messageType → e.sessionId ≠ ""
  handshake_ok : IsHandshake e.messageType →
    v.activeSessionId = some e.sessionId ∨ SequenceOk (handshake v e) e ∧ ContentOk e
  not_late : ¬IsHandshake e.messageType → session = none → SequenceOk v e → ContentOk e →
    v.activeSessionId ≠ some e.sessionId
  not_early : e.messageType = .sessionClose → session = none → SequenceOk v e → ContentOk e →
    v.activeSessionId ≠ none

/-- A fresh message is orderly. -/
def OrderlyStep (past : List MessageEnvelope) (e : MessageEnvelope) : Prop :=
  e.messageId ∉ (reached past).seenMessageIds → Orderly (reached past) (openSession past) e

/-- What orderly calls keep: the open session is the active one, and it has a name. -/
structure SessionInv (v : ProtocolValidator) (session : Option String) : Prop where
  active_of_open : ∀ s, session = some s → v.activeSessionId = some s
  active_ne_empty : v.activeSessionId ≠ some ""
  active_of_established : v.sessionEstablished = true → v.activeSessionId ≠ none

theorem truthy_of_ne {s : Option String} (hnone : s ≠ none) (hempty : s ≠ some "") :
    truthy s = true := by
  cases s with
  | none => exact absurd rfl hnone
  | some s =>
    rw [truthy_some]
    intro h
    exact hempty (congrArg some h)

/-- Under the invariant a message passes the session check only for the active session, or as a
`SESSION_CLOSE` before any handshake. -/
theorem SessionInv.active_of_checkSession {session : Option String} (hinv : SessionInv v session)
    (hregular : ¬IsHandshake e.messageType) (hsession : checkSession v e = .ok v') :
    v.activeSessionId = some e.sessionId
      ∨ e.messageType = .sessionClose ∧ v.activeSessionId = none := by
  obtain ⟨-, htruthy, hest⟩ := (checkSession_regular hregular).mp hsession
  by_cases hnone : v.activeSessionId = none
  · by_cases hclose : e.messageType = .sessionClose
    · exact Or.inr ⟨hclose, hnone⟩
    · left
      apply hest hclose
      rw [← Bool.not_eq_true]
      intro htrue
      exact hinv.active_of_established htrue hnone
  · exact Or.inl (htruthy (truthy_of_ne hnone hinv.active_ne_empty))

/-- One orderly call keeps the invariant. -/
theorem SessionInv.after {session : Option String} (hinv : SessionInv v session)
    (horderly : e.messageId ∉ v.seenMessageIds → Orderly v session e) :
    SessionInv (after v e) (if Accepts v e then openAfter session e else session) := by
  cases callCase v e with
  | refused hacc hafter =>
    rw [hafter, if_neg hacc]
    exact hinv
  | aborted v' hacc hafter hid hsession hcontent =>
    rw [hafter, if_neg hacc]
    by_cases hhand : IsHandshake e.messageType
    · -- only a handshake that names the active session may be aborted
      rw [checkSession_handshake hhand] at hsession
      cases hsession
      have hactive : v.activeSessionId = some e.sessionId :=
        ((horderly hid).handshake_ok hhand).resolve_right hcontent
      refine ⟨fun s hs => ?_, ?_, fun _ => ?_⟩
      · rw [activeSessionId_handshake, ← hactive]
        exact hinv.active_of_open s hs
      · rw [activeSessionId_handshake, ← hactive]
        exact hinv.active_ne_empty
      · simp
    · obtain ⟨rfl, -⟩ := (checkSession_regular hhand).mp hsession
      exact hinv
  | accepted v' hacc hafter hid hsession hseq hcontent =>
    rw [hafter, if_pos hacc]
    unfold openAfter
    by_cases hhand : IsHandshake e.messageType
    · rw [checkSession_handshake hhand] at hsession
      cases hsession
      rw [if_pos hhand]
      refine ⟨fun s hs => ?_, ?_, fun _ => ?_⟩
      · rw [activeSessionId_record, activeSessionId_handshake]
        exact hs
      · simpa using (horderly hid).handshake_named hhand
      · simp
    · obtain ⟨rfl, -⟩ := (checkSession_regular hhand).mp hsession
      rw [if_neg hhand]
      -- a close may end the open session; nothing else changes it
      refine ⟨fun s hs => ?_, hinv.active_ne_empty, fun hest => ?_⟩
      · split at hs
        · cases hs
        · exact hinv.active_of_open s hs
      · exact hinv.active_of_established (sessionEstablished_of_record hest)

theorem sessionInv_reached {es : List MessageEnvelope} (h : Along OrderlyStep es) :
    SessionInv (reached es) (openSession es) := by
  rw [openSession_eq_history]
  refine history_induction (I := fun _ v session => SessionInv v session) ⟨?_, ?_, ?_⟩ ?_ h
  · simp
  · simp
  · simp
  · intro past e hinv horderly
    exact hinv.after horderly

/-- In an orderly run every accepted message outside a handshake carries the id of the session
that the last accepted handshake opened and that has not been closed since. -/
theorem along_inOpenSession (es : List MessageEnvelope) (h : Along OrderlyStep es) :
    Along InOpenSession es := by
  intro past e rest hes hacc hregular
  have hpast : Along OrderlyStep past := by
    rw [hes] at h
    exact h.left
  have horderly : OrderlyStep past e := h past e rest hes
  have hinv := sessionInv_reached hpast
  obtain ⟨hid, v', hsession, hseq, hcontent⟩ := accepts_iff.mp hacc
  obtain ⟨rfl, -⟩ := (checkSession_regular hregular).mp hsession
  have hsid := hinv.active_of_checkSession hregular hsession
  cases hopen : openSession past with
  | none =>
    exfalso
    rcases hsid with hactive | ⟨hclose, hnone⟩
    · exact (horderly hid).not_late hregular hopen hseq hcontent hactive
    · exact (horderly hid).not_early hclose hopen hseq hcontent hnone
  | some s =>
    have hactive := hinv.active_of_open s hopen
    rcases hsid with hsame | ⟨-, hnone⟩
    · rw [← hactive, hsame]
    · rw [hnone] at hactive
      cases hactive

/-- A well-formed envelope with the number `seq + 1` and an observation as its payload. -/
def sample (messageType : MessageType) (sessionId : String) (id seq : ℕ) : MessageEnvelope where
  protocolVersion := "1.0"
  messageType := messageType
  messageId := (World.sample 0).uuidStr id
  sessionId := sessionId
  sequenceNumber := seq + 1
  timestamp := "2026-01-01T00:00:00Z"
  source := {}
  payload := .obj [("observation_type", .str "PAGE_NAVIGATION"),
    ("context", .obj [("tab_id", .int 1), ("url", .str "https://news.example/")])]
  version_supported := supportedVersion_mock
  sequence_pos := Nat.succ_pos seq
  messageId_uuid := (World.sample 0).uuidStr_valid id

theorem along_inOpenSession_sample : Along InOpenSession [sample .sessionHello "s" 1 0,
    sample .sessionAccept "s" 2 0, sample .observation "s" 3 1, sample .sessionClose "s" 4 2] := by
  have hhand : ∀ {past e}, IsHandshake e.messageType → e.sessionId ≠ "" →
      Accepts (reached past) e → OrderlyStep past e := fun ht hs hacc _ =>
    { handshake_named := fun _ => hs
      handshake_ok := fun _ => Or.inr ((accepts_handshake ht).mp hacc).2
      not_late := fun hnot => absurd ht hnot
      not_early := fun hclose => by
        rcases ht with ht | ht
        · rw [hclose] at ht
          cases ht
        · rw [hclose] at ht
          cases ht }
  have hopen : ∀ {past e}, ¬IsHandshake e.messageType → openSession past ≠ none →
      OrderlyStep past e := fun ht hs _ =>
    { handshake_named := fun h => absurd h ht
      handshake_ok := fun h => absurd h ht
      not_late := fun _ hnone => absurd hnone hs
      not_early := fun _ hnone => absurd hnone hs }
  refine along_inOpenSession ([] ++ [_] ++ [_] ++ [_] ++ [_]) ?_
  simp only [along_concat]
  refine ⟨⟨⟨⟨along_nil, ?_⟩, ?_⟩, ?_⟩, ?_⟩
  · exact hhand (by decide) (by decide) (by decide)
  · exact hhand (by decide) (by decide) (by decide)
  · exact hopen (by decide) (by decide)
  · exact hopen (by decide) (by decide)

/-- The observation of a session is accepted after its `SESSION_CLOSE`. -/
theorem not_along_inOpenSession : ¬∀ es : List MessageEnvelope, Along InOpenSession es := by
  intro h
  have hlate := h [sample .sessionHello "s" 1 0, sample .sessionClose "s" 2 1,
    sample .observation "s" 3 2] [sample .sessionHello "s" 1 0, sample .sessionClose "s" 2 1]
    (sample .observation "s" 3 2) [] rfl
  have hclosed : openSession [sample .sessionHello "s" 1 0, sample .sessionClose "s" 2 1]
      = some "s" := hlate (by decide) (by decide)
  exact absurd hclosed (by decide)

end ProtocolValidator
end ThoriumFrugal.Protocol

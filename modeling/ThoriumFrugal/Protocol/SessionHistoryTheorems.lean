import ThoriumFrugal.Protocol.ReconnectTheorems

/-!
# Periods of a session

The numbers that are accepted between two changes of the active session, and the sessions that a
hello has replaced. The validator keeps neither, so both are history variables. The numbers have
no gap if no handshake makes one: a `SESSION_HELLO` is not asked for the next number, and a
handshake may change the session without starting the count again. A replaced session stays dead
if no handshake names it.
-/

namespace ThoriumFrugal.Protocol

open Lib

namespace ProtocolValidator

variable {v v' : ProtocolValidator} {e : MessageEnvelope} {es : List MessageEnvelope}

/-! ## Numbers of a period -/

/-- The number that a call accepts, if any; the number of a `SESSION_ACCEPT` is no message's. -/
def acceptedNumber (v : ProtocolValidator) (e : MessageEnvelope) : List ℕ :=
  if Accepts v e ∧ e.messageType ≠ .sessionAccept then [e.sequenceNumber] else []

theorem acceptedNumber_of_not (h : ¬Accepts v e) : acceptedNumber v e = [] :=
  if_neg fun hboth => h hboth.1

theorem acceptedNumber_of_accept (h : e.messageType = .sessionAccept) : acceptedNumber v e = [] :=
  if_neg fun hboth => hboth.2 h

theorem acceptedNumber_of_accepts (hacc : Accepts v e) (h : e.messageType ≠ .sessionAccept) :
    acceptedNumber v e = [e.sequenceNumber] := if_pos ⟨hacc, h⟩

/-- The accepted numbers since the last change of the active session. -/
def noteNumber (v : ProtocolValidator) (numbers : List ℕ) (e : MessageEnvelope) : List ℕ :=
  (if (after v e).activeSessionId = v.activeSessionId then numbers else []) ++ acceptedNumber v e

/-- The numbers of the envelopes other than `SESSION_ACCEPT` that were accepted since the active
session last changed. -/
def periodNumbers (es : List MessageEnvelope) : List ℕ := history after noteNumber {} [] es

/-- The numbers count from 1 on. -/
def Gapless (numbers : List ℕ) : Prop := numbers = List.range' 1 numbers.length

instance (numbers : List ℕ) : Decidable (Gapless numbers) := inferInstanceAs (Decidable (_ = _))

/-- The condition under which a handshake makes no gap: a hello that is otherwise in order has the
next number, and a handshake that changes the session without a reset comes before any number. -/
structure HandshakeInOrder (v : ProtocolValidator) (e : MessageEnvelope) : Prop where
  hello_next : e.messageType = .sessionHello → SequenceOk (handshake v e) e → ContentOk e →
    e.sequenceNumber = (handshake v e).lastSequenceNumber + 1
  change_first : IsHandshake e.messageType → v.activeSessionId ≠ some e.sessionId →
    (handshake v e).lastSequenceNumber = 0

/-- A fresh handshake is in order. -/
def HandshakeInOrderStep (past : List MessageEnvelope) (e : MessageEnvelope) : Prop :=
  e.messageId ∉ (reached past).seenMessageIds → HandshakeInOrder (reached past) e

/-- The numbers of the period are those up to the last one. -/
def Counted (v : ProtocolValidator) (numbers : List ℕ) : Prop :=
  numbers = List.range' 1 v.lastSequenceNumber

theorem Counted.gapless {numbers : List ℕ} (h : Counted v numbers) : Gapless numbers := by
  unfold Gapless
  rw [h, List.length_range']

/-- The session check leaves a counted period, perhaps the empty one of a new session. -/
theorem Counted.checkSession {numbers : List ℕ} (h : Counted v numbers)
    (horder : HandshakeInOrder v e) (hsession : checkSession v e = .ok v') :
    Counted v' (if v'.activeSessionId = v.activeSessionId then numbers else []) := by
  by_cases hhand : IsHandshake e.messageType
  · rw [checkSession_handshake hhand] at hsession
    cases hsession
    rw [activeSessionId_handshake]
    by_cases hsame : v.activeSessionId = some e.sessionId
    · rw [if_pos hsame.symm]
      have hlast : (handshake v e).lastSequenceNumber = v.lastSequenceNumber := by
        unfold handshake
        rw [if_neg (by simp [hsame])]
      unfold Counted
      rw [hlast]
      exact h
    · rw [if_neg (Ne.symm hsame)]
      unfold Counted
      rw [horder.change_first hhand hsame]
      rfl
  · obtain ⟨rfl, -⟩ := (checkSession_regular hhand).mp hsession
    rw [if_pos rfl]
    exact h

theorem Counted.after {numbers : List ℕ} (h : Counted v numbers)
    (horder : e.messageId ∉ v.seenMessageIds → HandshakeInOrder v e) :
    Counted (after v e) (noteNumber v numbers e) := by
  unfold noteNumber
  cases callCase v e with
  | refused hacc hafter =>
    rw [hafter, if_pos rfl, acceptedNumber_of_not hacc, List.append_nil]
    exact h
  | aborted v' hacc hafter hid hsession =>
    rw [hafter, acceptedNumber_of_not hacc, List.append_nil]
    exact h.checkSession (horder hid) hsession
  | accepted v' hacc hafter hid hsession hseq hcontent =>
    have hperiod := h.checkSession (horder hid) hsession
    rw [hafter, activeSessionId_record]
    by_cases haccept : e.messageType = .sessionAccept
    · -- an accept is not counted
      rw [acceptedNumber_of_accept haccept, List.append_nil]
      unfold Counted at hperiod ⊢
      rw [hperiod]
      simp [record, haccept]
    · have hnext : e.sequenceNumber = v'.lastSequenceNumber + 1 := by
        by_cases hhand : IsHandshake e.messageType
        · rw [checkSession_handshake hhand] at hsession
          cases hsession
          exact (horder hid).hello_next (hhand.resolve_right haccept) hseq hcontent
        · exact hseq.2 hhand
      rw [acceptedNumber_of_accepts hacc haccept]
      unfold Counted at hperiod ⊢
      rw [hperiod]
      show _ = List.range' 1 (if e.messageType = .sessionAccept then _ else e.sequenceNumber)
      rw [if_neg haccept, hnext, List.range'_1_concat, Nat.add_comm 1]

theorem counted_reached (h : Along HandshakeInOrderStep es) :
    Counted (reached es) (periodNumbers es) :=
  history_induction (I := fun _ v numbers => Counted v numbers) (by rfl)
    (fun _ _ hinv horder => hinv.after horder) h

/-- In a run whose handshakes are in order, the numbers accepted between two changes of the
session are at all times 1, 2, 3, … -/
theorem gapless_periodNumbers (es : List MessageEnvelope) (h : Along HandshakeInOrderStep es) :
    ∀ past, past <+: es → Gapless (periodNumbers past) := by
  rintro past ⟨rest, rfl⟩
  exact (counted_reached h.left).gapless

/-- A session with a repeated hello, and the session that replaces it. -/
def repeatedHello : List MessageEnvelope :=
  [] ++ [sample .sessionHello "s" 1 0] ++ [sample .sessionAccept "s" 2 0]
    ++ [sample .observation "s" 3 1] ++ [sample .sessionHello "s" 4 2]
    ++ [sample .sessionHello "t" 5 0] ++ [sample .observation "t" 6 1]

theorem gapless_periodNumbers_repeatedHello : Gapless (periodNumbers repeatedHello) := by
  refine gapless_periodNumbers repeatedHello ?_ repeatedHello List.prefix_rfl
  have hother : ∀ {past : List MessageEnvelope} {e : MessageEnvelope},
      ¬IsHandshake e.messageType → HandshakeInOrderStep past e := fun ht _ =>
    { hello_next := fun h => absurd (Or.inl h) ht
      change_first := fun h => absurd h ht }
  unfold repeatedHello
  simp only [along_concat]
  refine ⟨⟨⟨⟨⟨⟨along_nil, ?_⟩, ?_⟩, ?_⟩, ?_⟩, ?_⟩, ?_⟩
  · exact fun _ => ⟨fun _ _ _ => by decide, fun _ _ => by decide⟩
  · exact fun _ => ⟨fun h => absurd h (by decide), fun _ h => absurd h (by decide)⟩
  · exact hother (by decide)
  · exact fun _ => ⟨fun _ _ _ => by decide, fun _ h => absurd h (by decide)⟩
  · exact fun _ => ⟨fun _ _ _ => by decide, fun _ _ => by decide⟩
  · exact hother (by decide)

/-- A second hello may skip numbers. -/
theorem not_gapless_periodNumbers :
    ¬∀ es past : List MessageEnvelope, past <+: es → Gapless (periodNumbers past) := by
  intro h
  have hgap := h _ [sample .sessionHello "s" 1 0, sample .sessionHello "s" 2 4]
    ⟨[], List.append_nil _⟩
  revert hgap
  decide

/-! ## Replaced sessions -/

/-- The sessions that an accepted hello of another session has replaced. -/
def noteReplaced (v : ProtocolValidator) (replaced : List String) (e : MessageEnvelope) :
    List String :=
  if Accepts v e ∧ e.messageType = .sessionHello ∧ v.activeSessionId ≠ some e.sessionId then
    replaced ++ v.activeSessionId.toList
  else replaced

/-- The sessions that a later hello replaced. -/
def replacedSessions (es : List MessageEnvelope) : List String :=
  history after noteReplaced {} [] es

/-- An accepted envelope is of no replaced session. -/
def StaysDead (past : List MessageEnvelope) (e : MessageEnvelope) : Prop :=
  Accepts (reached past) e → e.sessionId ∉ replacedSessions past

/-- The condition under which a replaced session stays dead: no handshake names one, and while
the active session is the one without a name, which every message passes for, no message of a
replaced session is in order. -/
structure LeavesDead (v : ProtocolValidator) (replaced : List String) (e : MessageEnvelope) :
    Prop where
  no_handshake : IsHandshake e.messageType → e.sessionId ∉ replaced
  no_message : ¬IsHandshake e.messageType → v.activeSessionId = some "" →
    v.sessionEstablished = true ∨ e.messageType = .sessionClose → SequenceOk v e → ContentOk e →
    e.sessionId ∉ replaced

/-- A fresh envelope leaves the replaced sessions dead. -/
def LeavesDeadStep (past : List MessageEnvelope) (e : MessageEnvelope) : Prop :=
  e.messageId ∉ (reached past).seenMessageIds →
    LeavesDead (reached past) (replacedSessions past) e

/-- The active session is none of the replaced ones; there are none before the first session. -/
structure ReplacedInv (v : ProtocolValidator) (replaced : List String) : Prop where
  active_alive : ∀ s, v.activeSessionId = some s → s ∉ replaced
  nil_of_none : v.activeSessionId = none → replaced = []
  active_of_established : v.sessionEstablished = true → v.activeSessionId ≠ none

variable {replaced : List String}

/-- Under the invariant nothing of a replaced session is accepted. -/
theorem ReplacedInv.not_mem_of_accepts (h : ReplacedInv v replaced)
    (hleaves : e.messageId ∉ v.seenMessageIds → LeavesDead v replaced e) (hacc : Accepts v e) :
    e.sessionId ∉ replaced := by
  obtain ⟨hid, v', hsession, hseq, hcontent⟩ := accepts_iff.mp hacc
  by_cases hhand : IsHandshake e.messageType
  · exact (hleaves hid).no_handshake hhand
  obtain ⟨rfl, htruthy, hest⟩ := (checkSession_regular hhand).mp hsession
  by_cases hnone : v'.activeSessionId = none
  · rw [h.nil_of_none hnone]
    exact List.not_mem_nil
  by_cases hempty : v'.activeSessionId = some ""
  · by_cases hguard : v'.sessionEstablished = true ∨ e.messageType = .sessionClose
    · exact (hleaves hid).no_message hhand hempty hguard hseq hcontent
    · rw [not_or, Bool.not_eq_true] at hguard
      exact h.active_alive _ (hest hguard.2 hguard.1)
  · exact h.active_alive _ (htruthy (truthy_of_ne hnone hempty))

theorem replacedInv_handshake (halive : e.sessionId ∉ replaced) :
    ReplacedInv (handshake v e) replaced where
  active_alive := fun s hs => by
    rw [activeSessionId_handshake] at hs
    cases hs
    exact halive
  nil_of_none := fun hnone => by simp at hnone
  active_of_established := fun _ => by simp

theorem ReplacedInv.after (h : ReplacedInv v replaced)
    (hleaves : e.messageId ∉ v.seenMessageIds → LeavesDead v replaced e) :
    ReplacedInv (after v e) (noteReplaced v replaced e) := by
  unfold noteReplaced
  cases callCase v e with
  | refused hacc hafter =>
    rw [hafter, if_neg fun hboth => hacc hboth.1]
    exact h
  | aborted v' hacc hafter hid hsession =>
    rw [hafter, if_neg fun hboth => hacc hboth.1]
    by_cases hhand : IsHandshake e.messageType
    · rw [checkSession_handshake hhand] at hsession
      cases hsession
      exact replacedInv_handshake ((hleaves hid).no_handshake hhand)
    · obtain ⟨rfl, -⟩ := (checkSession_regular hhand).mp hsession
      exact h
  | accepted v' hacc hafter hid hsession =>
    rw [hafter]
    by_cases hhand : IsHandshake e.messageType
    · rw [checkSession_handshake hhand] at hsession
      cases hsession
      refine ⟨fun s hs => ?_, fun hnone => by simp at hnone, fun _ => by simp⟩
      rw [activeSessionId_record, activeSessionId_handshake] at hs
      cases hs
      split
      · next hreplace =>
        -- the new session differs from the one it replaces
        rw [List.mem_append, not_or]
        refine ⟨(hleaves hid).no_handshake hhand, fun hmem => ?_⟩
        exact hreplace.2.2 (Option.mem_toList.mp hmem)
      · exact (hleaves hid).no_handshake hhand
    · obtain ⟨rfl, -⟩ := (checkSession_regular hhand).mp hsession
      rw [if_neg fun hall => hhand (Or.inl hall.2.1)]
      exact ⟨h.active_alive, h.nil_of_none, fun hest =>
        h.active_of_established (sessionEstablished_of_record hest)⟩

theorem replacedInv_reached (h : Along LeavesDeadStep es) :
    ReplacedInv (reached es) (replacedSessions es) :=
  history_induction (I := fun _ v replaced => ReplacedInv v replaced) ⟨by simp, by simp, by simp⟩
    (fun _ _ hinv hleaves => hinv.after hleaves) h

/-- In a run that leaves the replaced sessions dead, no envelope of one is accepted. -/
theorem along_staysDead (es : List MessageEnvelope) (h : Along LeavesDeadStep es) :
    Along StaysDead es := by
  rintro past e rest rfl hacc
  exact (replacedInv_reached h.left).not_mem_of_accepts (h past e rest rfl) hacc

/-- A session is replaced and then speaks again, in vain. -/
theorem along_staysDead_late : Along StaysDead ([] ++ [sample .sessionHello "s" 1 0]
    ++ [sample .sessionAccept "s" 2 0] ++ [sample .sessionHello "t" 3 0]
    ++ [sample .observation "s" 4 1]) := by
  have hhand : ∀ {past : List MessageEnvelope} {e : MessageEnvelope}, IsHandshake e.messageType →
      e.sessionId ∉ replacedSessions past → LeavesDeadStep past e := fun ht hnot _ =>
    { no_handshake := fun _ => hnot
      no_message := fun h => absurd ht h }
  apply along_staysDead
  simp only [along_concat]
  refine ⟨⟨⟨⟨along_nil, ?_⟩, ?_⟩, ?_⟩, ?_⟩
  · exact hhand (by decide) (by decide)
  · exact hhand (by decide) (by decide)
  · exact hhand (by decide) (by decide)
  · exact fun _ => ⟨fun h => absurd h (by decide), fun _ h => absurd h (by decide)⟩

/-- The hello of a replaced session is accepted again, with the id and the number it had. -/
theorem not_along_staysDead : ¬∀ es : List MessageEnvelope, Along StaysDead es := by
  intro h
  have hdead := h [sample .sessionHello "s" 1 0, sample .sessionAccept "s" 2 0,
    sample .sessionHello "t" 3 0, sample .sessionHello "s" 1 0]
    [sample .sessionHello "s" 1 0, sample .sessionAccept "s" 2 0, sample .sessionHello "t" 3 0]
    (sample .sessionHello "s" 1 0) [] rfl
  exact hdead (by decide) (by decide)

end ProtocolValidator
end ThoriumFrugal.Protocol

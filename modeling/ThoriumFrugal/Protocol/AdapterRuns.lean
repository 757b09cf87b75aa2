import ThoriumFrugal.Lib.Run
import ThoriumFrugal.Protocol.MockThoriumAdapter

/-!
# Runs of the adapter

All operations of the adapter, in any order. `Response` says once what an operation returns and
leaves behind; the session and the switch of a run are read off the calls.
-/

namespace ThoriumFrugal.Protocol

open Lib

namespace MockThoriumAdapter

/-! ## Calls -/

/-- The calls on an adapter, with what they draw from the outside world. -/
inductive Call
  | startSession (w : World) (authToken : String)
  | closeSession (w : World) (reason : String)
  | observeNavigation (w : World) (args : NavigationArgs)
  | observeContentExtraction (w : World) (args : ExtractionArgs)
  | setKillSwitch (disabled : Bool)

/-- What matters of a call: a start comes with the session id it draws. -/
inductive Kind
  | start (sessionId : String)
  | close
  | observe
  | switch (disabled : Bool)
deriving DecidableEq

/-- What a call does to the session and to the switch. -/
def Call.kind : Call → Kind
  | startSession w _ => .start (w.uuidStr 0)
  | closeSession _ _ => .close
  | observeNavigation _ _ => .observe
  | observeContentExtraction _ _ => .observe
  | setKillSwitch disabled => .switch disabled

/-- The session id that a call draws. -/
def Kind.drawn : Kind → Option String
  | start sessionId => some sessionId
  | _ => none

/-- The new position of the switch, if the call sets it. -/
def Kind.switched : Kind → Option Bool
  | switch disabled => some disabled
  | _ => none

/-- What a call returns, and the adapter after it. -/
def respond (lib : PyLib) (a : MockThoriumAdapter) :
    Call → Option MessageEnvelope × MockThoriumAdapter
  | .startSession w authToken => a.startSession w authToken
  | .closeSession w reason => a.closeSession w reason
  | .observeNavigation w args => a.observeNavigation lib w args
  | .observeContentExtraction w args => a.observeContentExtraction lib w args
  | .setKillSwitch disabled => (none, a.setKillSwitch disabled)

/-- The adapter after it has put the envelope `e`, with its number, into the queue. -/
def queued (a : MockThoriumAdapter) (e : MessageEnvelope) : MockThoriumAdapter :=
  { a with sequenceNumber := e.sequenceNumber, eventQueue := a.eventQueue.enqueue e }

/-! ## One call -/

/-- What a call can do. -/
inductive Response (a : MockThoriumAdapter) :
    Kind → Option MessageEnvelope × MockThoriumAdapter → Prop
  | hello (id : String) (e : MessageEnvelope) (htype : e.messageType = .sessionHello)
    (hid : e.sessionId = id) (hnumber : e.sequenceNumber = 1) (hne : id ≠ "") :
    Response a (.start id) (some e, { a.queued e with sessionId := some id })
  | closing (e : MessageEnvelope) (htype : e.messageType = .sessionClose)
    (hsession : truthy a.sessionId = true) (hid : a.sessionId = some e.sessionId)
    (hnumber : e.sequenceNumber = a.sequenceNumber + 1) :
    Response a .close (some e, a.queued e)
  | observation (e : MessageEnvelope) (htype : e.messageType = .observation)
    (henabled : a.isEnabled = true) (hsession : truthy a.sessionId = true)
    (hid : a.sessionId = some e.sessionId) (hnumber : e.sequenceNumber = a.sequenceNumber + 1) :
    Response a .observe (some e, a.queued e)
  | not_closing (hsession : truthy a.sessionId = false) : Response a .close (none, a)
  | no_observation (h : a.isEnabled = false ∨ truthy a.sessionId = false) :
    Response a .observe (none, a)
  | switched (disabled : Bool) : Response a (.switch disabled) (none, a.setKillSwitch disabled)

/-- A drawn id is never the empty text, so a session with one counts as open. -/
theorem uuidStr_ne_empty (w : World) (i : ℕ) : w.uuidStr i ≠ "" := by
  intro hempty
  have hvalid := w.uuidStr_valid i
  rw [hempty] at hvalid
  exact absurd hvalid (by decide)

/-- A session id that counts as true is there. -/
theorem eq_some_getD_of_truthy {s : Option String} (h : truthy s = true) :
    s = some (s.getD "") := by
  cases s with
  | none => cases h
  | some s => rfl

variable (lib : PyLib) (a : MockThoriumAdapter)

/-- Both observations are sent only with the switch off and a session. -/
theorem response_observe (w : World) (uuid : ℕ) (d : Json) :
    Response a .observe (if ¬a.isEnabled ∨ ¬truthy a.sessionId then (none, a)
      else send w uuid a .observation d) := by
  split
  · rename_i hnot
    exact .no_observation (by simpa using hnot)
  · rename_i h
    rw [not_or, not_not, not_not] at h
    exact .observation _ rfl h.1 h.2 (eq_some_getD_of_truthy h.2) rfl

/-- Every call responds as its kind says. -/
theorem response_respond (call : Call) : Response a call.kind (respond lib a call) := by
  cases call with
  | startSession w authToken => exact .hello _ _ rfl rfl rfl (uuidStr_ne_empty w 0)
  | closeSession w reason =>
    show Response a .close (a.closeSession w reason)
    unfold closeSession
    split
    · -- without a session there is nothing to close
      rename_i hnot
      exact .not_closing (by simpa using hnot)
    · -- an open session is named in the envelope
      rename_i h
      have hsession : truthy a.sessionId = true := not_not.mp h
      exact .closing _ rfl hsession (eq_some_getD_of_truthy hsession) rfl
  | observeNavigation w args => exact response_observe a w _ _
  | observeContentExtraction w args => exact response_observe a w _ _
  | setKillSwitch disabled => exact .switched disabled

/-! ## Runs -/

/-- The adapter after some calls. -/
def after (calls : List Call) : MockThoriumAdapter :=
  run (fun a call => (respond lib a call).2) a calls

/-- The envelopes that some calls put into the queue, in order. -/
def emitted (calls : List Call) : List MessageEnvelope :=
  history (fun a call => (respond lib a call).2)
    (fun a sent call => sent ++ (respond lib a call).1.toList) a [] calls

/-- The last call is made on what the calls before it left. -/
theorem after_concat (past : List Call) (call : Call) :
    after lib a (past ++ [call]) = (respond lib (after lib a past) call).2 := run_concat past call

/-- It adds what it returns. -/
theorem emitted_concat (past : List Call) (call : Call) :
    emitted lib a (past ++ [call])
      = emitted lib a past ++ (respond lib (after lib a past) call).1.toList :=
  history_concat ..

/-- The switch after some calls: as the last call that sets it left it, at first as the
constructor set it. -/
def engaged (enableKillSwitch : Bool) (past : List Call) : Bool :=
  (past.filterMap fun call => call.kind.switched).getLast?.getD enableKillSwitch

/-- Some call has started a session. -/
def started (past : List Call) : Bool := past.any fun call => call.kind.drawn.isSome

variable (instanceId : String) (queueCapacity : ℕ) (enableKillSwitch : Bool)

/-- The last call that sets the switch decides. -/
theorem engaged_concat (past : List Call) (call : Call) :
    engaged enableKillSwitch (past ++ [call])
      = call.kind.switched.getD (engaged enableKillSwitch past) := by
  unfold engaged
  rw [List.filterMap_append]
  cases h : call.kind.switched with
  | none => simp [h]
  | some disabled => simp [h]

/-- A session once started counts as started, also when it was closed. -/
theorem started_concat (past : List Call) (call : Call) :
    started (past ++ [call]) = (started past || call.kind.drawn.isSome) := by
  unfold started
  rw [List.any_append, List.any_cons, List.any_nil, Bool.or_false]

/-- The adapter is enabled exactly while the switch is released. -/
theorem isEnabled_after (past : List Call) :
    (after lib (init instanceId queueCapacity enableKillSwitch) past).isEnabled
      = !engaged enableKillSwitch past := by
  induction past using List.reverseRecOn with
  | nil => rfl
  | append_singleton past call ih =>
    rw [after_concat, engaged_concat]
    -- only the kind of the call matters from here on
    generalize after lib _ past = a at ih ⊢
    have hcase := response_respond lib a call
    generalize call.kind = kind, respond lib a call = r at hcase ⊢
    cases hcase with
    | switched disabled => rfl
    | _ => exact ih

/-- It has a session id from the first start on. -/
theorem truthy_sessionId_after (past : List Call) :
    truthy (after lib (init instanceId queueCapacity enableKillSwitch) past).sessionId
      = started past := by
  induction past using List.reverseRecOn with
  | nil => rfl
  | append_singleton past call ih =>
    rw [after_concat, started_concat]
    -- only a start sets the session id
    generalize after lib _ past = a at ih ⊢
    have hcase := response_respond lib a call
    generalize call.kind = kind, respond lib a call = r at hcase ⊢
    cases hcase with
    | hello id e htype hid hnumber hne =>
      rw [Kind.drawn, Option.isSome_some, Bool.or_true]
      exact (truthy_some id).mpr hne
    | _ => exact ih.trans (Bool.or_false _).symm

end MockThoriumAdapter
end ThoriumFrugal.Protocol

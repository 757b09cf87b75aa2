import ThoriumFrugal.Protocol.DaemonRuns
import ThoriumFrugal.Protocol.ReplayHarness

/-!
# Replays and digests

A replay of recorded events runs like the daemon that received them: the decoder undoes the
encoder, the two validators of the harness stay in one state, and what the daemon reads from outside
shows in its log and its answers only. And the bytes that a digest is made of determine the events.
-/

namespace ThoriumFrugal.Protocol

open Lib

/-! ## Decoding -/

namespace MessageEnvelope

theorem messageTypeOf_value (t : MessageType) : messageTypeOf (.str t.value) = pure t := by
  unfold messageTypeOf
  simp only [MessageType.ofValue?_value]

theorem optionText_optionStr (s : Option String) : optionText (optionStr s) = pure s := by
  cases s <;> rfl

/-- An envelope has passed the checks of its constructor. -/
theorem make_self (e : MessageEnvelope) :
    make e.protocolVersion e.messageType e.messageId e.sessionId e.sequenceNumber e.timestamp
      e.source e.payload e.correlationId e.causationId = pure e := by
  have hpos : 1 ≤ (e.sequenceNumber : ℤ).toNat := e.sequence_pos
  unfold make
  rw [dif_pos e.version_supported, dif_pos hpos, dif_pos e.messageId_uuid]
  rfl

/-- `from_dict` undoes `to_dict`. -/
theorem fromDict_toDict (e : MessageEnvelope) : fromDict e.toDict = pure e := by
  have hfields : fromDict e.toDict = (do
      let messageType ← messageTypeOf (.str e.messageType.value)
      let correlationId ← optionText (optionStr e.correlationId)
      let causationId ← optionText (optionStr e.causationId)
      make e.protocolVersion messageType e.messageId e.sessionId e.sequenceNumber e.timestamp
        e.source e.payload correlationId causationId) := rfl
  rw [hfields, messageTypeOf_value, pure_bind, optionText_optionStr, pure_bind,
    optionText_optionStr, pure_bind, make_self]

end MessageEnvelope

/-! ## Two daemons on one trace -/

namespace MockCognitiaDaemon

variable {lib : PyLib} {d d' : MockCognitiaDaemon} {e : MessageEnvelope}

/-- The daemons differ at most in what they log and in the numbers they give. -/
structure Alike (d d' : MockCognitiaDaemon) : Prop where
  expectedToken : d.expectedToken = d'.expectedToken
  protocolValidator : d.protocolValidator = d'.protocolValidator
  securityValidator : d.securityValidator = d'.securityValidator
  epistemic : d.epistemic = d'.epistemic

theorem Alike.refl (d : MockCognitiaDaemon) : Alike d d := ⟨rfl, rfl, rfl, rfl⟩

/-- What a call raises, if anything. -/
def outcome (reply : Except PyError Reply) : Except PyError Unit := reply.map fun _ => ()

theorem outcome_handleSessionHello (w : World) (d : MockCognitiaDaemon) (e : MessageEnvelope) :
    outcome (handleSessionHello w d e).1
      = (SecurityValidator.asDict e.payload).map fun _ => () := by
  unfold handleSessionHello
  cases SecurityValidator.asDict e.payload with
  | error err => rfl
  | ok entries =>
    -- with or without the token, there is an answer
    simp only
    split <;> rfl

/-- What a handler raises depends on the envelope alone. -/
theorem outcome_handleMessage (w w' : World) (d d' : MockCognitiaDaemon) (e : MessageEnvelope) :
    outcome (handleMessage w d e).1 = outcome (handleMessage w' d' e).1 := by
  unfold handleMessage
  cases e.messageType with
  | sessionHello =>
    simp only [outcome_handleSessionHello]
  | executionAuthorizationObserved =>
    simp only [handleExecutionAuthObserved]
    cases proposalKey e.payload <;> rfl
  | executionResultObserved =>
    simp only [handleExecutionResultObserved]
    cases proposalKey e.payload <;> rfl
  | _ => rfl

theorem Alike.passes_iff (h : Alike d d') : Passes lib d e ↔ Passes lib d' e := by
  unfold Passes
  rw [h.protocolValidator, h.securityValidator]

theorem Alike.outcome_eq (h : Alike d d') (w w' : World) :
    outcome (processIncomingEnvelope lib w d e).1
      = outcome (processIncomingEnvelope lib w' d' e).1 := by
  unfold processIncomingEnvelope
  simp only [h.protocolValidator, h.securityValidator]
  cases (d'.protocolValidator.validateEnvelope e).1 with
  | error err => rfl
  | ok u =>
    cases d'.securityValidator.validateMessageSecurity lib e with
    | error err => rfl
    | ok u => exact outcome_handleMessage w w' _ _ e

theorem securityValidator_processIncomingEnvelope (w : World) :
    (processIncomingEnvelope lib w d e).2.securityValidator = d.securityValidator := by
  by_cases h : Passes lib d e
  · rw [processIncomingEnvelope_of_passes h, (sameFrame_handleMessage w _ e).securityValidator]
    rfl
  · obtain ⟨err, herr⟩ := processIncomingEnvelope_of_not_passes (w := w) h
    rw [herr]
    rfl

/-- One envelope keeps the daemons alike, whatever they read from outside. -/
theorem Alike.processIncomingEnvelope (h : Alike d d') (w w' : World) :
    Alike (d.processIncomingEnvelope lib w e).2 (d'.processIncomingEnvelope lib w' e).2 where
  expectedToken := by
    have hd : (step lib d (.incoming w e)).expectedToken = d.expectedToken :=
      expectedToken_step _
    have hd' : (step lib d' (.incoming w' e)).expectedToken = d'.expectedToken :=
      expectedToken_step _
    exact hd.trans (h.expectedToken.trans hd'.symm)
  protocolValidator := by
    rw [protocolValidator_processIncomingEnvelope, protocolValidator_processIncomingEnvelope,
      h.protocolValidator]
  securityValidator := by
    rw [securityValidator_processIncomingEnvelope, securityValidator_processIncomingEnvelope,
      h.securityValidator]
  epistemic := by
    show (step lib d (.incoming w e)).epistemic = (step lib d' (.incoming w' e)).epistemic
    by_cases hpasses : Passes lib d e
    · rw [epistemic_step_of_passes hpasses, epistemic_step_of_passes (h.passes_iff.mp hpasses),
        h.epistemic, h.expectedToken]
    · rw [step_of_not_passes hpasses, step_of_not_passes (h.passes_iff.not.mp hpasses)]
      exact h.epistemic

/-- The daemon fed with envelopes, up to the first one at which it raises; `ws n` is what it reads
at the envelope with index `n`. -/
def feed (lib : PyLib) (ws : ℕ → World) (n : ℕ) (d : MockCognitiaDaemon) :
    List MessageEnvelope → Except Raised MockCognitiaDaemon
  | [] => .ok d
  | e :: es =>
    let processed := d.processIncomingEnvelope lib (ws n) e
    match processed.1 with
    | .error err => .error ⟨n, err⟩
    | .ok _ => feed lib ws (n + 1) processed.2 es

end MockCognitiaDaemon

/-! ## The replay -/

namespace ReplayHarness

open MockCognitiaDaemon

variable {lib : PyLib} {s : ReplayState} {d : MockCognitiaDaemon}

/-- The validators of the harness are in the states of those of its daemon, and that daemon is
like the one that ran live. -/
structure Synced (s : ReplayState) (d : MockCognitiaDaemon) : Prop where
  validator : s.validator = s.daemon.protocolValidator
  secValidator : s.secValidator = s.daemon.securityValidator
  alike : Alike s.daemon d

/-- The state behind an event that does not raise. -/
def ReplayState.advance (lib : PyLib) (w : World) (s : ReplayState) (rawEvt : Json)
    (e : MessageEnvelope) : ReplayState :=
  { s with
    daemon := (s.daemon.processIncomingEnvelope lib w e).2
    validator := (s.validator.validateEnvelope e).2
    processedCount := s.processedCount + 1
    hasher := hashEvent s.hasher rawEvt }

/-- On a synchronized state, the two checks in front of the daemon decide like those inside. -/
theorem replayEnvelope_eq (h : Synced s d) (w : World) (rawEvt : Json) (e : MessageEnvelope) :
    replayEnvelope lib w s rawEvt e
      = (outcome (s.daemon.processIncomingEnvelope lib w e).1).map fun _ =>
        s.advance lib w rawEvt e := by
  unfold replayEnvelope
  cases hproto : (s.validator.validateEnvelope e).1 with
  | error err =>
    -- the daemon's validator is in the same state, so it raises too
    have hinner : (s.daemon.processIncomingEnvelope lib w e).1 = .error err := by
      rw [h.validator] at hproto
      unfold MockCognitiaDaemon.processIncomingEnvelope
      simp only [hproto]
    simp only [hproto, hinner]
    rfl
  | ok u =>
    cases hsec : s.secValidator.validateMessageSecurity lib e with
    | error err =>
      -- so does its security check
      have hinner : (s.daemon.processIncomingEnvelope lib w e).1 = .error err := by
        rw [h.validator] at hproto
        rw [h.secValidator] at hsec
        unfold MockCognitiaDaemon.processIncomingEnvelope
        simp only [hproto, hsec]
      simp only [hproto, hinner]
      rfl
    | ok u =>
      simp only [hproto]
      cases hinner : (s.daemon.processIncomingEnvelope lib w e).1 with
      | error err => rfl
      | ok reply => rfl

/-- Such an event leaves the harness synchronized with the daemon that got the envelope live. -/
theorem Synced.advance (h : Synced s d) (w w' : World) (rawEvt : Json) (e : MessageEnvelope) :
    Synced (s.advance lib w rawEvt e) (d.processIncomingEnvelope lib w' e).2 where
  validator := by
    show (s.validator.validateEnvelope e).2
      = (s.daemon.processIncomingEnvelope lib w e).2.protocolValidator
    rw [protocolValidator_processIncomingEnvelope, h.validator]
    rfl
  secValidator := by
    show s.secValidator = (s.daemon.processIncomingEnvelope lib w e).2.securityValidator
    rw [securityValidator_processIncomingEnvelope, h.secValidator]
  alike := h.alike.processIncomingEnvelope w w'

/-- The loop raises where the live daemon does, or ends like it with every event counted and
hashed. -/
theorem replayLoop_eq (lib : PyLib) (ws ws' : ℕ → World) (es : List MessageEnvelope)
    (h : Synced s d) :
    (∃ raised, feed lib ws' s.processedCount d es = .error raised
      ∧ replayLoop lib ws s (es.map MessageEnvelope.toDict) = some (.error raised))
    ∨ ∃ d' s', feed lib ws' s.processedCount d es = .ok d'
      ∧ replayLoop lib ws s (es.map MessageEnvelope.toDict) = some (.ok s')
      ∧ Synced s' d' ∧ s'.processedCount = s.processedCount + es.length
      ∧ s'.hasher = (es.map MessageEnvelope.toDict).foldl hashEvent s.hasher := by
  induction es generalizing s d with
  | nil => exact .inr ⟨d, s, rfl, rfl, h, rfl, rfl⟩
  | cons e es ih =>
    -- a recorded event is decoded as its envelope
    have hdecode : (MessageEnvelope.fromDict e.toDict).run = some (.ok e) := by
      rw [MessageEnvelope.fromDict_toDict]
      rfl
    have hlive : outcome (s.daemon.processIncomingEnvelope lib (ws s.processedCount) e).1
        = outcome (d.processIncomingEnvelope lib (ws' s.processedCount) e).1 :=
      h.alike.outcome_eq _ _
    rw [List.map_cons, feed, replayLoop, hdecode]
    simp only [replayEnvelope_eq h, hlive]
    cases hout : (d.processIncomingEnvelope lib (ws' s.processedCount) e).1 with
    | error err => exact .inl ⟨⟨s.processedCount, err⟩, rfl, rfl⟩
    | ok reply =>
      -- after the event both sides are in step again
      have hnext : Synced (s.advance lib (ws s.processedCount) e.toDict e)
          (d.processIncomingEnvelope lib (ws' s.processedCount) e).2 :=
        h.advance _ _ _ _
      rcases ih hnext with hraised | ⟨d', s', hfeed, hloop, hsynced, hcount, hhash⟩
      · exact .inl hraised
      · refine .inr ⟨d', s', hfeed, hloop, hsynced, ?_, hhash⟩
        rw [hcount, List.length_cons]
        show s.processedCount + 1 + es.length = _
        omega

/-- What a live run of the daemon is summed up to, with the digest of the recorder that recorded
its envelopes. -/
def liveSummary (sha256 : ByteArray → String) (es : List MessageEnvelope)
    (d : MockCognitiaDaemon) : ReplaySummary :=
  { processedCount := es.length
    traceSha256 := (es.foldl EventRecorder.recordEnvelope {}).getTraceSha256 sha256
    finalSessionId := d.activeSessionId
    observationsCount := d.observationsStore.length
    authorizationsCount := d.authorizationsStore.keys.card
    resultsCount := d.executionResultsStore.keys.card }

theorem recordedEvents_foldl (es : List MessageEnvelope) (recorder : EventRecorder) :
    (es.foldl EventRecorder.recordEnvelope recorder).recordedEvents
      = recorder.recordedEvents ++ es.map MessageEnvelope.toDict := by
  induction es generalizing recorder with
  | nil => simp
  | cons e es ih =>
    rw [List.foldl_cons, ih, EventRecorder.recordEnvelope, List.append_assoc]
    rfl

/-- A replay of recorded envelopes raises at the index at which a new daemon raises when it is fed
with them live, or returns the summary of that run. -/
theorem replayEvents_eq (lib : PyLib) (sha256 : ByteArray → String) (ws ws' : ℕ → World)
    (token : String) (es : List MessageEnvelope) :
    replayEvents lib sha256 ws { daemonToken := token } (es.map MessageEnvelope.toDict)
      = some ((feed lib ws' 0 { expectedToken := token } es).map (liveSummary sha256 es)) := by
  have hstart : Synced { daemon := { expectedToken := token } } { expectedToken := token } :=
    ⟨rfl, rfl, .refl _⟩
  unfold replayEvents
  rcases replayLoop_eq lib ws ws' es hstart with
    ⟨raised, hfeed, hloop⟩ | ⟨d', s', hfeed, hloop, hsynced, hcount, hhash⟩
  · rw [hloop, hfeed]
    rfl
  · have hepistemic := hsynced.alike.epistemic
    have hsession : s'.daemon.activeSessionId = d'.activeSessionId :=
      congrArg EpistemicState.activeSessionId hepistemic
    have hobservations : s'.daemon.observationsStore = d'.observationsStore :=
      congrArg EpistemicState.observationsStore hepistemic
    have hauthorizations : s'.daemon.authorizationsStore = d'.authorizationsStore :=
      congrArg EpistemicState.authorizationsStore hepistemic
    have hresults : s'.daemon.executionResultsStore = d'.executionResultsStore :=
      congrArg EpistemicState.executionResultsStore hepistemic
    have hsummary : summary sha256 s' = liveSummary sha256 es d' := by
      unfold summary liveSummary EventRecorder.getTraceSha256 EventRecorder.traceHasher
      rw [hcount, hhash, hsession, hobservations, hauthorizations, hresults,
        recordedEvents_foldl, Nat.zero_add, List.nil_append]
    rw [hloop, hfeed]
    show some (Except.ok (summary sha256 s')) = some (Except.ok (liveSummary sha256 es d'))
    rw [hsummary]

end ReplayHarness

/-! ## The digest -/

theorem encode_append (s t : Text) : encode (s ++ t) = encode s ++ encode t := by
  unfold encode
  rw [String.ofList_append]
  exact String.toByteArray_append

theorem encode_injective : Function.Injective encode := by
  intro s t h
  exact String.ofList_injective (String.toByteArray_inj.mp h)

/-- The events are hashed one behind the other. -/
theorem input_foldl_hashEvent (events : List Json) (hasher : Hasher) :
    (events.foldl hashEvent hasher).input
      = hasher.input ++ encode (events.flatMap Json.dumpsAscii) := by
  induction events generalizing hasher with
  | nil => simp [encode]
  | cons event events ih =>
    rw [List.foldl_cons, ih, List.flatMap_cons, encode_append, ← ByteArray.append_assoc]
    rfl

namespace ReplayHarness

variable {lib : PyLib} {s s' : ReplayState}

theorem hasher_replayEnvelope {w : World} {rawEvt : Json} {e : MessageEnvelope}
    (h : replayEnvelope lib w s rawEvt e = .ok s') : s'.hasher = hashEvent s.hasher rawEvt := by
  unfold replayEnvelope at h
  simp only [check_bind_eq_ok] at h
  obtain ⟨-, -, hprocessed⟩ := h
  cases hreply : (s.daemon.processIncomingEnvelope lib w e).1 with
  | error err =>
    rw [hreply] at hprocessed
    cases hprocessed
  | ok reply =>
    rw [hreply] at hprocessed
    rw [← Except.ok.inj hprocessed]

/-- A replay that comes to its end has hashed every event. -/
theorem hasher_replayLoop {ws : ℕ → World} {events : List Json}
    (h : replayLoop lib ws s events = some (.ok s')) :
    s'.hasher = events.foldl hashEvent s.hasher := by
  induction events generalizing s with
  | nil =>
    rw [replayLoop, Option.some.injEq, Except.ok.injEq] at h
    rw [← h]
    rfl
  | cons rawEvt events ih =>
    rw [replayLoop] at h
    split at h
    · cases h
    · cases h
    · split at h
      · cases h
      · next hbody =>
        rw [ih h, hasher_replayEnvelope hbody]
        rfl

end ReplayHarness

/-- The bytes that `get_trace_sha256`, or a replay that does not raise, feeds to SHA-256. -/
inductive Feeds : List Json → ByteArray → Prop
  | recorder (recorder : EventRecorder) :
    Feeds recorder.recordedEvents recorder.traceHasher.input
  | replay {lib : PyLib} {ws : ℕ → World} {token : String} {events : List Json}
    {s : ReplayHarness.ReplayState}
    (h : ReplayHarness.replayLoop lib ws { daemon := { expectedToken := token } } events
      = some (.ok s)) : Feeds events s.hasher.input

theorem Feeds.eq_encode {events : List Json} {bytes : ByteArray} (h : Feeds events bytes) :
    bytes = encode (events.flatMap Json.dumpsAscii) := by
  cases h with
  | recorder recorder =>
    unfold EventRecorder.traceHasher
    rw [input_foldl_hashEvent, ByteArray.empty_append]
  | replay h =>
    rw [ReplayHarness.hasher_replayLoop h, input_foldl_hashEvent, ByteArray.empty_append]

/-- Two lists of events that feed the same bytes to SHA-256 are as long as each other, and equal
event by event. -/
theorem forall₂_same_of_feeds {readFloat : String → ℚ} {xs ys : List Json} {bytes : ByteArray}
    (hxs : ∀ v ∈ xs, v.IsEvent readFloat) (hys : ∀ v ∈ ys, v.IsEvent readFloat)
    (hx : Feeds xs bytes) (hy : Feeds ys bytes) : List.Forall₂ Json.Same xs ys := by
  have hbytes := hx.eq_encode.symm.trans hy.eq_encode
  exact Json.forall₂_same_of_flatMap_dumpsAscii hxs hys (encode_injective hbytes)

/-! ## Two spellings of one event -/

section Spellings

/-- A recorder of one event, and a recorder of the same event with its keys the other way round. -/
def braceEvent : Json := .obj [("note", .str "\x7d\x7b\""), ("ok", .bool true)]

/-- The same event with its keys the other way round. -/
def turnedEvent : Json := .obj [("ok", .bool true), ("note", .str "\x7d\x7b\"")]

theorem forall₂_same_braceEvent :
    List.Forall₂ Json.Same [braceEvent] [turnedEvent] := by
  have hbytes : (EventRecorder.mk [turnedEvent]).traceHasher.input
      = (EventRecorder.mk [braceEvent]).traceHasher.input := by
    have htext : [turnedEvent].flatMap Json.dumpsAscii = [braceEvent].flatMap Json.dumpsAscii := by
      decide +kernel
    rw [(Feeds.recorder _).eq_encode, (Feeds.recorder _).eq_encode]
    exact congrArg encode htext
  have hevent : ∀ v ∈ [braceEvent], v.IsEvent fun _ => 0 := by
    simp [braceEvent, Json.IsEvent, Json.WellFormedEntries, Json.WellFormed]
  have hturned : ∀ v ∈ [turnedEvent], v.IsEvent fun _ => 0 := by
    simp [turnedEvent, Json.IsEvent, Json.WellFormedEntries, Json.WellFormed]
  exact forall₂_same_of_feeds hevent hturned (.recorder ⟨[braceEvent]⟩)
    (hbytes ▸ .recorder ⟨[turnedEvent]⟩)

end Spellings

end ThoriumFrugal.Protocol

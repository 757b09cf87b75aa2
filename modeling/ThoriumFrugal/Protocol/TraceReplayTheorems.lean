import ThoriumFrugal.Protocol.LeakageTheorems
import ThoriumFrugal.Protocol.TraceFile

/-!
# Replays of trace files

The keys of a payload come back from a trace file in order. No check and no handler of the daemon
sees the order of keys, so a replay of the file ends like the daemon that got the envelopes live:
with the summary of its run, digest and all, or with an exception at the same envelope.
-/

namespace ThoriumFrugal.Protocol

open Lib

/-! ## Sorted values -/

namespace Json

/-- The entries of a sorted object. -/
abbrev sortedEntries (entries : List (String × Json)) : List (String × Json) :=
  sortByKey KeyLe (sortedValues entries)

/-- A key is found in the same entry, with its value sorted. -/
theorem get?_sortedEntries (entries : List (String × Json)) (key : String) :
    get? (sortedEntries entries) key = (get? entries key).map sorted := by
  rw [get?_sortByKey, get?_sortedValues]

/-- The keys are the same. -/
@[simp] theorem hasKey_sortedEntries (entries : List (String × Json)) (key : String) :
    hasKey (sortedEntries entries) key = hasKey entries key := by
  unfold hasKey
  rw [get?_sortedEntries, Option.isSome_map]

/-- A string stays the string that it is. -/
theorem isStr_map_sorted (value : Option Json) (s : String) :
    isStr (value.map sorted) s = isStr value s := by
  cases value with
  | none => rfl
  | some v => cases v <;> rfl

theorem isStr_sorted (v : Json) (s : String) : isStr (some v.sorted) s = isStr (some v) s :=
  isStr_map_sorted (some v) s

/-- `entries.get(key, default)` for a default that is in order. -/
theorem getD_sortedEntries {default : Json} (h : default.sorted = default)
    (entries : List (String × Json)) (key : String) :
    (get? (sortedEntries entries) key).getD default
      = ((get? entries key).getD default).sorted := by
  rw [get?_sortedEntries]
  cases get? entries key with
  | none => exact h.symm
  | some v => rfl

/-- A sorted value gives the same key. -/
theorem toKey_sorted (v : Json) : v.sorted.toKey = v.toKey := by
  cases v <;> rfl

end Json

open Json

/-! ## The protocol validator -/

namespace ProtocolValidator

variable {v : ProtocolValidator}

/-- A context stays a context. -/
theorem isContext_map_sorted (value : Option Json) :
    isContext (value.map sorted) = isContext value := by
  cases value with
  | none => rfl
  | some w =>
    cases w with
    | obj ctx =>
      show (hasKey (sortedEntries ctx) "tab_id" && hasKey (sortedEntries ctx) "url") = _
      rw [hasKey_sortedEntries, hasKey_sortedEntries]
      rfl
    | _ => rfl

/-- A status stays a status. -/
theorem isStatus_map_sorted (value : Option Json) :
    isStatus (value.map sorted) = isStatus value := by
  unfold isStatus
  simp only [isStr_map_sorted]

/-- The validator takes a payload exactly if it takes the sorted payload. -/
theorem validatePayload_sorted (t : MessageType) (payload : Json) :
    validatePayload t payload.sorted = .ok () ↔ validatePayload t payload = .ok () := by
  cases payload with
  | obj entries =>
    show validatePayload t (.obj (sortedEntries entries)) = .ok () ↔ _
    cases t <;> simp only [validatePayload, check_bind_eq_ok, raiseIf_eq_ok, hasKey_sortedEntries,
      get?_sortedEntries, isStr_map_sorted, isContext_map_sorted, isStatus_map_sorted]
  | _ => exact Iff.rfl

/-- So the content of an envelope passes in either order. -/
theorem checkContent_sortPayload (e : MessageEnvelope) :
    checkContent v e.sortPayload = .ok () ↔ checkContent v e = .ok () := by
  unfold checkContent
  rw [check_bind_eq_ok, check_bind_eq_ok, check_bind_eq_ok, check_bind_eq_ok, check_bind_eq_ok,
    check_bind_eq_ok]
  exact and_congr Iff.rfl (and_congr Iff.rfl (and_congr Iff.rfl (validatePayload_sorted _ _)))

/-- The validator ends in the same state, with an exception or without. -/
theorem validateEnvelope_sortPayload (v : ProtocolValidator) (e : MessageEnvelope) :
    (v.validateEnvelope e.sortPayload).2 = (v.validateEnvelope e).2
      ∧ ((v.validateEnvelope e.sortPayload).1 = .ok () ↔ (v.validateEnvelope e).1 = .ok ()) := by
  have hid : checkMessageId v e.sortPayload = checkMessageId v e := rfl
  have hsession : checkSession v e.sortPayload = checkSession v e := rfl
  unfold validateEnvelope
  rw [hid, hsession]
  cases checkMessageId v e with
  | error err => exact ⟨rfl, Iff.rfl⟩
  | ok u =>
    cases checkSession v e with
    | error err => exact ⟨rfl, Iff.rfl⟩
    | ok v' =>
      -- past the id and the session the payload decides
      have hcontent := @checkContent_sortPayload v' e
      simp only
      cases hsorted : checkContent v' e.sortPayload with
      | ok u =>
        rw [hcontent.mp hsorted]
        exact ⟨rfl, Iff.rfl⟩
      | error err =>
        -- both refuse, though perhaps another field
        cases hplain : checkContent v' e with
        | ok u =>
          rw [hcontent.mpr hplain] at hsorted
          cases hsorted
        | error err => exact ⟨rfl, by simp⟩

end ProtocolValidator

/-! ## The security validator -/

namespace SecurityValidator

variable {lib : PyLib} {s : SecurityValidator}

/-- A raw secret is a string, and strings are not sorted. -/
theorem isRawSecret_sorted (v : Json) : isRawSecret v.sorted = isRawSecret v := by
  cases v <;> rfl

/-- So an entry leaks in either order of what it holds. -/
theorem checkEntry_sorted (key : String) (v : Json) :
    checkEntry lib key v.sorted = checkEntry lib key v := by
  unfold checkEntry
  rw [isRawSecret_sorted]
  cases v <;> rfl

/-- An object is clean if its entries are and what they hold is. -/
theorem clean_deepEntriesOf {entries : List (String × Json)} :
    Clean lib (deepEntriesOf entries) ↔ ∀ entry ∈ entries,
      checkEntry lib entry.1 entry.2 = .ok () ∧ Clean lib (deepEntries entry.2) := by
  induction entries with
  | nil => exact ⟨fun _ _ h => absurd h List.not_mem_nil, fun _ => clean_nil⟩
  | cons entry entries ih =>
    obtain ⟨key, value⟩ := entry
    rw [deepEntriesOf, clean_cons, clean_append, ih, List.forall_mem_cons, and_assoc]

/-- An array is clean if its items are. -/
theorem clean_deepEntriesIn {items : List Json} :
    Clean lib (deepEntriesIn items) ↔ ∀ item ∈ items, Clean lib (deepEntries item) := by
  induction items with
  | nil => exact ⟨fun _ _ h => absurd h List.not_mem_nil, fun _ => clean_nil⟩
  | cons item items ih => rw [deepEntriesIn, clean_append, ih, List.forall_mem_cons]

/-- Sorting finds no leak and hides none. The induction is over the value. -/
theorem clean_deepEntries_sorted (v : Json) :
    Clean lib (deepEntries v.sorted) ↔ Clean lib (deepEntries v) := by
  induction v using Json.induction with
  | arr items ih =>
    rw [sorted, deepEntries, deepEntries, clean_deepEntriesIn, clean_deepEntriesIn,
      sortedItems_eq_map, List.forall_mem_map]
    exact forall₂_congr ih
  | obj entries ih =>
    rw [sorted, deepEntries, deepEntries, clean_deepEntriesOf, clean_deepEntriesOf,
      sortedValues_eq_map]
    simp only [mem_sortByKey, List.forall_mem_map, checkEntry_sorted]
    exact forall₂_congr fun entry hentry => and_congr Iff.rfl (ih entry hentry)
  | _ => exact Iff.rfl

/-- What is done with the entries of a sorted value. -/
theorem asDict_sorted_bind {α : Type} {f g : List (String × Json) → Except PyError α} {a : α}
    (h : ∀ entries, f (sortedEntries entries) = .ok a ↔ g entries = .ok a) (v : Json) :
    (asDict v.sorted >>= f) = .ok a ↔ (asDict v >>= g) = .ok a := by
  cases v with
  | obj entries => exact h entries
  | _ => exact Iff.rfl

/-- The constraint on incognito contexts. -/
theorem incognito_sorted (ctx : List (String × Json)) (err : PyError) :
    ((match get? (sortedEntries ctx) "is_incognito" with
      | some (.bool true) =>
        raiseIf (hasKey (sortedEntries ctx) "persistent_user_id"
          ∨ hasKey (sortedEntries ctx) "sync_account") err
      | _ => .ok ()) = .ok ())
      ↔ ((match get? ctx "is_incognito" with
        | some (.bool true) =>
          raiseIf (hasKey ctx "persistent_user_id" ∨ hasKey ctx "sync_account") err
        | _ => .ok ()) = .ok ()) := by
  rw [get?_sortedEntries, hasKey_sortedEntries, hasKey_sortedEntries]
  cases get? ctx "is_incognito" with
  | none => exact Iff.rfl
  | some v => cases v <;> exact Iff.rfl

/-- The invariants look keys up, so the order of the keys does not matter. -/
theorem checkInvariants_sortPayload (e : MessageEnvelope) :
    checkInvariants e.sortPayload = .ok () ↔ checkInvariants e = .ok () := by
  have htype : e.sortPayload.messageType = e.messageType := rfl
  have hpayload : e.sortPayload.payload = e.payload.sorted := rfl
  unfold checkInvariants
  rw [htype, hpayload]
  cases e.messageType with
  | candidateActionProposal =>
    refine asDict_sorted_bind (fun entries => ?_) e.payload
    rw [raiseIf_eq_ok, raiseIf_eq_ok, get?_sortedEntries, isStr_map_sorted]
  | executionAuthorizationObserved =>
    refine asDict_sorted_bind (fun entries => ?_) e.payload
    simp only [check_bind_eq_ok, raiseIf_eq_ok, get?_sortedEntries, isStr_map_sorted]
  | observation =>
    refine asDict_sorted_bind (fun entries => ?_) e.payload
    -- the defaults of the fields are sorted already
    have hcontext := getD_sortedEntries (show (Json.obj []).sorted = .obj [] from rfl) entries
      "context"
    have hstatus := getD_sortedEntries (show (Json.str "UNRESOLVED").sorted = _ from rfl) entries
      "epistemic_status"
    have hsource := getD_sortedEntries (show (Json.str "SENSOR").sorted = _ from rfl) entries
      "source_type"
    simp only [check_bind_eq_ok, raiseIf_eq_ok, hstatus, hsource, hcontext, isStr_sorted]
    refine and_congr Iff.rfl ?_
    exact asDict_sorted_bind (fun ctx => incognito_sorted ctx _) _
  | _ => exact Iff.rfl

/-- An envelope passes the security checks in either order. -/
theorem validateMessageSecurity_sortPayload (s : SecurityValidator) (e : MessageEnvelope) :
    s.validateMessageSecurity lib e.sortPayload = .ok ()
      ↔ s.validateMessageSecurity lib e = .ok () := by
  have hleakage : checkCredentialLeakage lib e.sortPayload.payload = .ok ()
      ↔ checkCredentialLeakage lib e.payload = .ok () := by
    rw [checkCredentialLeakage_eq_ok, checkCredentialLeakage_eq_ok]
    exact clean_deepEntries_sorted e.payload
  unfold validateMessageSecurity
  rw [MessageEnvelope.toJson_sortPayload, check_bind_eq_ok, check_bind_eq_ok, check_bind_eq_ok,
    check_bind_eq_ok, hleakage, checkInvariants_sortPayload]

end SecurityValidator

/-! ## The daemon -/

namespace MockCognitiaDaemon

variable {lib : PyLib} {d d' : MockCognitiaDaemon} {e : MessageEnvelope}

/-- The daemons check alike, have the same session, and file the same number of things under the
same keys. -/
structure Counted (d d' : MockCognitiaDaemon) : Prop where
  expectedToken : d.expectedToken = d'.expectedToken
  protocolValidator : d.protocolValidator = d'.protocolValidator
  securityValidator : d.securityValidator = d'.securityValidator
  activeSessionId : d.activeSessionId = d'.activeSessionId
  observations : d.observationsStore.length = d'.observationsStore.length
  authorizations : d.authorizationsStore.keys = d'.authorizationsStore.keys
  results : d.executionResultsStore.keys = d'.executionResultsStore.keys

/-- A daemon counts what it counts itself. -/
theorem Counted.refl (d : MockCognitiaDaemon) : Counted d d := ⟨rfl, rfl, rfl, rfl, rfl, rfl, rfl⟩

/-- Both calls return, or both raise. -/
def Together {α β : Type} (x : Except PyError α) (y : Except PyError β) : Prop :=
  x.isOk = y.isOk

/-- Two results go together. -/
theorem together_ok {α β : Type} {a : α} {b : β} :
    Together (.ok a : Except PyError α) (.ok b : Except PyError β) := rfl

/-- Two exceptions go together, whatever they are. -/
theorem together_error {α β : Type} {err err' : PyError} :
    Together (.error err : Except PyError α) (.error err' : Except PyError β) := rfl

/-- A report names the same proposal in either order. -/
theorem proposalKey_sorted (payload : Json) : proposalKey payload.sorted = proposalKey payload := by
  cases payload with
  | obj entries =>
    show proposalKey (.obj (sortedEntries entries)) = _
    unfold proposalKey
    simp only [get?_sortedEntries]
    cases get? entries "proposal_id" with
    | none => rfl
    | some propId => simp only [Option.map_some, toKey_sorted]
  | _ => rfl

/-- Stores with the same keys have the same keys after the same key is set. -/
theorem keys_insert_congr {κ : Type} [DecidableEq κ] {f f' : Finmap fun _ : κ => Json}
    (h : f.keys = f'.keys) (key : κ) (v v' : Json) :
    (f.insert key v).keys = (f'.insert key v').keys := by
  ext k
  have hk : k ∈ f ↔ k ∈ f' := by
    rw [← Finmap.mem_keys, ← Finmap.mem_keys, h]
  rw [Finmap.mem_keys, Finmap.mem_keys, Finmap.mem_insert, Finmap.mem_insert, hk]

/-- A hello opens the session in both daemons, or is refused by both. -/
theorem Counted.handleSessionHello (h : Counted d d') (w w' : World) (e : MessageEnvelope) :
    Together (d.handleSessionHello w e.sortPayload).1 (d'.handleSessionHello w' e).1
      ∧ Counted (d.handleSessionHello w e.sortPayload).2 (d'.handleSessionHello w' e).2 := by
  have hpayload : e.sortPayload.payload = e.payload.sorted := rfl
  unfold MockCognitiaDaemon.handleSessionHello
  rw [hpayload]
  cases e.payload with
  | obj entries =>
    have htoken := getD_sortedEntries (show (Json.str "").sorted = _ from rfl) entries "auth_token"
    rw [sorted]
    simp only [SecurityValidator.asDict, htoken, isStr_sorted, h.expectedToken]
    -- the token is a string, so both daemons decide alike
    by_cases hauth : isStr (some ((get? entries "auth_token").getD (.str ""))) d'.expectedToken
    · have hneg : ¬¬isStr (some ((get? entries "auth_token").getD (.str ""))) d'.expectedToken :=
        not_not.mpr hauth
      rw [if_neg hneg, if_neg hneg]
      exact ⟨together_ok, rfl, h.protocolValidator, h.securityValidator, rfl, h.observations,
        h.authorizations, h.results⟩
    · rw [if_pos hauth, if_pos hauth]
      exact ⟨together_ok, rfl, h.protocolValidator, h.securityValidator, h.activeSessionId,
        h.observations, h.authorizations, h.results⟩
  | _ => exact ⟨together_error, h⟩

/-- The handler counts the same in both daemons. -/
theorem Counted.handleMessage (h : Counted d d') (w w' : World) (e : MessageEnvelope) :
    Together (d.handleMessage w e.sortPayload).1 (d'.handleMessage w' e).1
      ∧ Counted (d.handleMessage w e.sortPayload).2 (d'.handleMessage w' e).2 := by
  have htype : e.sortPayload.messageType = e.messageType := rfl
  have hkey : proposalKey e.sortPayload.payload = proposalKey e.payload :=
    proposalKey_sorted e.payload
  unfold MockCognitiaDaemon.handleMessage
  rw [htype]
  cases e.messageType with
  | sessionHello => exact h.handleSessionHello w w' e
  | observation =>
    refine ⟨together_ok, { h with observations := ?_ }⟩
    show (d.observationsStore ++ [_]).length = (d'.observationsStore ++ [_]).length
    rw [List.length_append, List.length_append, h.observations]
    rfl
  | executionAuthorizationObserved =>
    simp only [handleExecutionAuthObserved, hkey]
    cases proposalKey e.payload with
    | error err => exact ⟨together_error, h⟩
    | ok key =>
      -- the stored payloads differ in order, the keys do not
      have hkeys := keys_insert_congr h.authorizations key e.sortPayload.payload e.payload
      exact ⟨together_ok, { h with authorizations := hkeys }⟩
  | executionResultObserved =>
    simp only [handleExecutionResultObserved, hkey]
    cases proposalKey e.payload with
    | error err => exact ⟨together_error, h⟩
    | ok key =>
      have hkeys := keys_insert_congr h.results key e.sortPayload.payload e.payload
      exact ⟨together_ok, { h with results := hkeys }⟩
  | sessionClose => exact ⟨together_ok, { h with activeSessionId := rfl }⟩
  | _ => exact ⟨together_ok, h⟩

/-- The validators of both let the same envelopes pass. -/
theorem Counted.passes_iff (h : Counted d d') : Passes lib d e.sortPayload ↔ Passes lib d' e := by
  unfold Passes
  rw [h.protocolValidator, h.securityValidator]
  exact and_congr (ProtocolValidator.validateEnvelope_sortPayload _ e).2
    (SecurityValidator.validateMessageSecurity_sortPayload _ e)

/-- What they remember of an envelope is the same. -/
theorem Counted.validated (h : Counted d d') (e : MessageEnvelope) :
    Counted (d.validated e.sortPayload) (d'.validated e) := by
  refine { h with protocolValidator := ?_ }
  show (d.protocolValidator.validateEnvelope e.sortPayload).2
    = (d'.protocolValidator.validateEnvelope e).2
  rw [h.protocolValidator]
  exact (ProtocolValidator.validateEnvelope_sortPayload _ e).1

/-- One envelope keeps the daemons alike. -/
theorem Counted.processIncomingEnvelope (h : Counted d d') (w w' : World) (e : MessageEnvelope) :
    Together (d.processIncomingEnvelope lib w e.sortPayload).1
        (d'.processIncomingEnvelope lib w' e).1
      ∧ Counted (d.processIncomingEnvelope lib w e.sortPayload).2
        (d'.processIncomingEnvelope lib w' e).2 := by
  by_cases hpasses : Passes lib d e.sortPayload
  · rw [processIncomingEnvelope_of_passes hpasses,
      processIncomingEnvelope_of_passes (h.passes_iff.mp hpasses)]
    have hlogged : Counted (logInbound w (d.validated e.sortPayload) e.sortPayload)
        (logInbound w' (d'.validated e) e) := { h.validated e with }
    exact hlogged.handleMessage w w' e
  · -- a refused envelope is not handled, and only the validators remember it
    obtain ⟨err, herr⟩ := @processIncomingEnvelope_of_not_passes lib w d e.sortPayload hpasses
    obtain ⟨err', herr'⟩ :=
      @processIncomingEnvelope_of_not_passes lib w' d' e (h.passes_iff.not.mp hpasses)
    rw [herr, herr']
    exact ⟨together_error, h.validated e⟩

/-- Fed with the same envelopes, the daemons raise at the same one or both come to the end. -/
theorem Counted.feed (lib : PyLib) (h : Counted d d') (ws ws' : ℕ → World) (n : ℕ)
    (es : List MessageEnvelope) :
    (∃ i err err', feed lib ws n d (es.map MessageEnvelope.sortPayload) = .error ⟨i, err⟩
      ∧ feed lib ws' n d' es = .error ⟨i, err'⟩)
    ∨ ∃ d₁ d₁', feed lib ws n d (es.map MessageEnvelope.sortPayload) = .ok d₁
      ∧ feed lib ws' n d' es = .ok d₁' ∧ Counted d₁ d₁' := by
  induction es generalizing n d d' with
  | nil => exact .inr ⟨d, d', rfl, rfl, h⟩
  | cons e es ih =>
    obtain ⟨htogether, hnext⟩ := @Counted.processIncomingEnvelope lib d d' h (ws n) (ws' n) e
    rw [List.map_cons, MockCognitiaDaemon.feed, MockCognitiaDaemon.feed]
    unfold Together at htogether
    cases hout : (d.processIncomingEnvelope lib (ws n) e.sortPayload).1 with
    | error err =>
      cases hout' : (d'.processIncomingEnvelope lib (ws' n) e).1 with
      | error err' => exact .inl ⟨n, err, err', rfl, rfl⟩
      | ok reply =>
        -- only one of them would raise
        rw [hout, hout'] at htogether
        cases htogether
    | ok reply =>
      cases hout' : (d'.processIncomingEnvelope lib (ws' n) e).1 with
      | error err' =>
        rw [hout, hout'] at htogether
        cases htogether
      | ok reply' => exact ih hnext (n + 1)

end MockCognitiaDaemon

/-! ## The replay of a file -/

namespace TraceRecorder

open MockCognitiaDaemon ReplayHarness

variable {steps : List Step} {readFloat : ReadFloat} {lib : PyLib}

/-- The bytes that are hashed for an event do not depend on the order of keys in its payload. -/
theorem hashEvent_sortPayload (hasher : Hasher) (e : MessageEnvelope) :
    hashEvent hasher e.sortPayload.toDict = hashEvent hasher e.toDict := by
  have hsorted : e.sortPayload.toDict.sorted = e.toDict.sorted := by
    simp only [MessageEnvelope.toDict, MessageEnvelope.sortPayload, sorted, sortedValues,
      sorted_sorted]
  unfold hashEvent dumpsAscii
  rw [hsorted]

/-- So the digest of a trace is that of its envelopes. -/
theorem foldl_hashEvent_sortPayload (es : List MessageEnvelope) (hasher : Hasher) :
    (es.map fun e => e.sortPayload.toDict).foldl hashEvent hasher
      = (es.map MessageEnvelope.toDict).foldl hashEvent hasher := by
  induction es generalizing hasher with
  | nil => rfl
  | cons e es ih => rw [List.map_cons, List.map_cons, List.foldl_cons, List.foldl_cons, ih,
      hashEvent_sortPayload]

/-- The replay ends like the live daemon: with the summary of its run, or with an exception at the
same envelope. -/
def EndsLike (sha256 : ByteArray → String) (es : List MessageEnvelope)
    (replay : Option (Except Raised ReplaySummary)) : Except Raised MockCognitiaDaemon → Prop
  | .ok d => replay = some (.ok (liveSummary sha256 es d))
  | .error raised => ∃ err, replay = some (.error ⟨raised.index, err⟩)

/-- The summary of a replay counts what the live daemon counted. -/
theorem summary_eq_liveSummary (sha256 : ByteArray → String) {s : ReplayState}
    {d d' : MockCognitiaDaemon} {es : List MessageEnvelope} (hsynced : Synced s d)
    (hcounted : Counted d d') (hcount : s.processedCount = es.length)
    (hhash : s.hasher = (es.map MessageEnvelope.toDict).foldl hashEvent {}) :
    summary sha256 s = liveSummary sha256 es d' := by
  -- the replayed daemon ends in the state of the one that was fed
  have hepistemic := hsynced.alike.epistemic
  have hsession : s.daemon.activeSessionId = d.activeSessionId :=
    congrArg EpistemicState.activeSessionId hepistemic
  have hobservations : s.daemon.observationsStore = d.observationsStore :=
    congrArg EpistemicState.observationsStore hepistemic
  have hauthorizations : s.daemon.authorizationsStore = d.authorizationsStore :=
    congrArg EpistemicState.authorizationsStore hepistemic
  have hresults : s.daemon.executionResultsStore = d.executionResultsStore :=
    congrArg EpistemicState.executionResultsStore hepistemic
  unfold summary liveSummary EventRecorder.getTraceSha256 EventRecorder.traceHasher
  rw [hcount, hhash, hsession, hobservations, hauthorizations, hresults, recordedEvents_foldl,
    hcounted.activeSessionId, hcounted.observations, hcounted.authorizations, hcounted.results]
  rfl

/-- A replay of envelopes as the file gives them back ends like the live daemon. -/
theorem endsLike_replayEvents (lib : PyLib) (sha256 : ByteArray → String) (ws ws' : ℕ → World)
    (token : String) (es : List MessageEnvelope) :
    EndsLike sha256 es
      (replayEvents lib sha256 ws { daemonToken := token }
        (es.map fun e => e.sortPayload.toDict))
      (MockCognitiaDaemon.feed lib ws' 0 { expectedToken := token } es) := by
  have hmap : (es.map fun e => e.sortPayload.toDict)
      = (es.map MessageEnvelope.sortPayload).map MessageEnvelope.toDict := by
    rw [List.map_map]
    rfl
  have hstart : Synced { daemon := { expectedToken := token } } { expectedToken := token } :=
    ⟨rfl, rfl, .refl _⟩
  have hfeed := (Counted.refl { expectedToken := token }).feed lib ws ws' 0 es
  have hloop := replayLoop_eq lib ws ws (es.map MessageEnvelope.sortPayload) hstart
  unfold replayEvents
  rw [hmap]
  -- both daemons stop at the same envelope, or both run to the end
  rcases hfeed with ⟨i, err, err', hsorted, hlive⟩ | ⟨d, d', hsorted, hlive, hcounted⟩
  · rw [hlive]
    rcases hloop with ⟨raised, hraised, hreplay⟩ | ⟨d, s, hended, -⟩
    · obtain rfl := Except.error.inj (hraised.symm.trans hsorted)
      rw [hreplay]
      exact ⟨err, rfl⟩
    · cases hended.symm.trans hsorted
  · rw [hlive]
    rcases hloop with ⟨raised, hraised, -⟩ | ⟨d₁, s, hended, hreplay, hsynced, hcount, hhash⟩
    · cases hraised.symm.trans hsorted
    · obtain rfl := Except.ok.inj (hended.symm.trans hsorted)
      rw [← hmap, foldl_hashEvent_sortPayload] at hhash
      rw [List.length_map, Nat.zero_add] at hcount
      rw [hreplay]
      show some (Except.ok (summary sha256 s)) = some (Except.ok (liveSummary sha256 es d'))
      rw [summary_eq_liveSummary sha256 hsynced hcounted hcount hhash]

/-- Whatever was recorded, cleared and recorded again: the trace file is read without an exception,
and its replay ends like a new daemon that got all recorded envelopes live. -/
theorem replay_trace (lib : PyLib) (sha256 : ByteArray → String) (ws ws' : ℕ → World)
    (token : String) (h : ∀ e ∈ recorded steps, e.payload.Readable readFloat) :
    ∃ events, readEvents readFloat (after steps).file = pure events
      ∧ EndsLike sha256 (recorded steps)
        (replayEvents lib sha256 ws { daemonToken := token } events)
        (MockCognitiaDaemon.feed lib ws' 0 { expectedToken := token } (recorded steps)) :=
  ⟨_, readEvents_file h, endsLike_replayEvents lib sha256 ws ws' token (recorded steps)⟩

/-- SHA-256 of the two recorded events. -/
def digestOfTwo (_ : ByteArray) : String :=
  "a73bb0ed19bd7bdf0af660c3058e28d2d6277741f57694e6231ead8291d7d88a"

/-- The trace of a recorder that was cleared. -/
theorem replay_interrupted :
    ∃ events, readEvents MessageEnvelope.readHalf (after interrupted).file = pure events
      ∧ EndsLike digestOfTwo (recorded interrupted)
        (replayEvents PyLib.sample digestOfTwo (fun _ => World.sample 10) {} events)
        (MockCognitiaDaemon.feed PyLib.sample (fun _ => World.sample 0) 0 {}
          (recorded interrupted)) :=
  replay_trace PyLib.sample digestOfTwo (fun _ => World.sample 10) (fun _ => World.sample 0)
    "mock_secret_token" readable_interrupted

-- the live daemon does not raise, and has one observation
example : (MockCognitiaDaemon.feed PyLib.sample (fun _ => World.sample 0) 0 {}
    (recorded interrupted)).toOption.map (fun d => d.observationsStore.length) = some 1 := by
  decide +kernel

end TraceRecorder
end ThoriumFrugal.Protocol

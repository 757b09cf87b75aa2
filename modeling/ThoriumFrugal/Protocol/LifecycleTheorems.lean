import ThoriumFrugal.Lib.DropOldest
import ThoriumFrugal.Protocol.Lifecycle

/-!
# What reaches the daemon

In every interleaving the stored observations are some of those that the adapter made, each at
most once and in order, and each made with the switch released. Engaging the switch is a barrier:
what was made before it and not delivered yet is never stored. The daemon proposes only in a
session that was started with its token.
-/

namespace ThoriumFrugal.Protocol

open Lib

namespace Lifecycle

open MockThoriumAdapter (respond)

variable {lib : PyLib} {u : Setup} {s : Lifecycle} {x : Step} {steps rest : List Step}
  {e : MessageEnvelope}

/-! ## One step -/

theorem observationsStore_generate (d : MockCognitiaDaemon) (w : World)
    (args : MockCognitiaDaemon.ProposalArgs) :
    (MockCognitiaDaemon.step lib d (.generate w args)).observationsStore
      = d.observationsStore := by
  cases h : truthy d.activeSessionId with
  | false => rw [MockCognitiaDaemon.step_generate_of_not h]
  | true => rw [MockCognitiaDaemon.step_generate_of_truthy h]

/-- Behind the checks only an observation is stored as one. -/
theorem observationsStore_receive (s : MockCognitiaDaemon.EpistemicState) (token : String)
    (t : MessageType) (sessionId : String) (payload envelope : Json) :
    (s.receive token t sessionId payload envelope).observationsStore
      = s.observationsStore ++ if t = .observation then [envelope] else [] := by
  unfold MockCognitiaDaemon.EpistemicState.receive
  cases t with
  | sessionHello => cases MockCognitiaDaemon.authenticates token payload <;> simp
  | executionAuthorizationObserved => cases MockCognitiaDaemon.proposalKey payload <;> simp
  | executionResultObserved => cases MockCognitiaDaemon.proposalKey payload <;> simp
  | _ => simp

theorem observationsStore_incoming (d : MockCognitiaDaemon) (w : World) (e : MessageEnvelope) :
    (MockCognitiaDaemon.step lib d (.incoming w e)).observationsStore
      = d.observationsStore
        ++ if MockCognitiaDaemon.Passes lib d e ∧ e.messageType = .observation then [e.toDict]
          else [] := by
  by_cases h : MockCognitiaDaemon.Passes lib d e
  · have hstore := congrArg MockCognitiaDaemon.EpistemicState.observationsStore
      (MockCognitiaDaemon.epistemic_step_of_passes (w := w) h)
    rw [observationsStore_receive] at hstore
    simp only [h, true_and]
    exact hstore
  · rw [MockCognitiaDaemon.step_of_not_passes h, if_neg (fun hboth => h hboth.1), List.append_nil]
    rfl

theorem observationsStore_step (s : Lifecycle) (x : Step) :
    (s.step lib x).daemon.observationsStore
      = s.daemon.observationsStore ++ (s.stores lib x).toList.map (·.toDict) := by
  unfold step stores
  cases hheard : s.heard x with
  | none => simp
  | some call =>
    cases call with
    | incoming w e =>
      show (MockCognitiaDaemon.step lib s.daemon (.incoming w e)).observationsStore = _
      rw [observationsStore_incoming]
      simp only
      split <;> rfl
    | generate w args =>
      show (MockCognitiaDaemon.step lib s.daemon (.generate w args)).observationsStore = _
      rw [observationsStore_generate]
      simp

/-- Only what is delivered is stored. -/
theorem stores_sublist_takes (s : Lifecycle) (x : Step) :
    (s.stores lib x).toList.Sublist (s.takes x).toList := by
  unfold stores
  cases x with
  | call call => exact List.nil_sublist _
  | deliver w =>
    unfold heard takes
    cases s.adapter.eventQueue.pop.1 with
    | none => exact List.nil_sublist _
    | some e =>
      simp only [Option.map_some]
      split
      · exact List.Sublist.refl _
      · exact List.nil_sublist _
  | report w r =>
    -- a report is no observation
    have hother : r.envelope.messageType ≠ .observation := by
      rcases r.about_execution with h | h
      · rw [h]
        decide
      · rw [h]
        decide
    simp only [heard]
    rw [if_neg (fun hboth => hother hboth.2)]
    exact List.nil_sublist _
  | generate w args => exact List.nil_sublist _

/-- What a call puts into the queue, behind what the call makes of the queue. -/
theorem eventQueue_respond (a : MockThoriumAdapter) (call : MockThoriumAdapter.Call) :
    (∃ e, (respond lib a call).1 = some e
        ∧ (respond lib a call).2.eventQueue = a.eventQueue.enqueue e)
      ∨ (respond lib a call).1 = none
        ∧ ((respond lib a call).2.eventQueue = a.eventQueue
          ∨ (respond lib a call).2.eventQueue.queue = []) := by
  have hcase := MockThoriumAdapter.response_respond lib a call
  generalize call.kind = kind, respond lib a call = r at hcase ⊢
  cases hcase with
  | hello id e => exact .inl ⟨e, rfl, rfl⟩
  | closing e => exact .inl ⟨e, rfl, rfl⟩
  | observation e => exact .inl ⟨e, rfl, rfl⟩
  | not_closing => exact .inr ⟨rfl, .inl rfl⟩
  | no_observation => exact .inr ⟨rfl, .inl rfl⟩
  | switched disabled =>
    cases disabled with
    | false => exact .inr ⟨rfl, .inl rfl⟩
    | true => exact .inr ⟨rfl, .inr rfl⟩

/-- Every step keeps the order of the queue. -/
theorem conveys_step {given taken : List MessageEnvelope}
    (h : Conveys given taken s.adapter.eventQueue.queue) (x : Step) :
    Conveys (given ++ (s.makes lib x).toList) (taken ++ (s.takes x).toList)
      (s.step lib x).adapter.eventQueue.queue := by
  cases x with
  | call call =>
    show Conveys (given ++ (respond lib s.adapter call).1.toList) (taken ++ [])
      (respond lib s.adapter call).2.eventQueue.queue
    rw [List.append_nil]
    -- a call adds an envelope, adds none, or clears the queue
    rcases @eventQueue_respond lib s.adapter call with ⟨e, hmade, hqueue⟩ | ⟨hmade, hsame | hnil⟩
    · rw [hmade, hqueue]
      exact h.push e _
    · rw [hmade, hsame, Option.toList_none, List.append_nil]
      exact h
    · rw [hmade, hnil, Option.toList_none, List.append_nil]
      exact h.clear
  | deliver w =>
    show Conveys (given ++ []) (taken ++ s.adapter.eventQueue.pop.1.toList)
      s.adapter.eventQueue.pop.2.queue
    rw [List.append_nil]
    unfold BoundedEventQueue.pop
    split
    · rename_i hnil
      simpa [hnil] using h
    · rename_i item more hcons
      rw [hcons] at h
      exact h.pop
  | report w r => simpa [makes, takes, step] using h
  | generate w args => simpa [makes, takes, step] using h

/-! ## Runs -/

/-- From a moment at which nothing waits, what was delivered and what waits was made since. -/
theorem conveys_after (hempty : s.adapter.eventQueue.queue = []) (steps : List Step) :
    Conveys (made lib s steps) (taken lib s steps)
      (after lib s steps).adapter.eventQueue.queue := by
  induction steps using List.reverseRecOn with
  | nil =>
    show Conveys [] [] s.adapter.eventQueue.queue
    rw [hempty]
    exact .start
  | append_singleton steps x ih =>
    unfold made taken at ih ⊢
    rw [gathered_concat, gathered_concat, after_concat]
    exact conveys_step ih x

theorem observationsStore_after (s : Lifecycle) (steps : List Step) :
    (after lib s steps).daemon.observationsStore
      = s.daemon.observationsStore ++ (stored lib s steps).map (·.toDict) := by
  induction steps using List.reverseRecOn with
  | nil => simp [after, stored]
  | append_singleton steps x ih =>
    unfold stored at ih ⊢
    rw [after_concat, observationsStore_step, ih, gathered_concat, List.map_append,
      List.append_assoc]
    rfl

/-- From a moment at which nothing waits, only what was made since is stored. -/
theorem stored_sublist_made (hempty : s.adapter.eventQueue.queue = []) (steps : List Step) :
    (stored lib s steps).Sublist (made lib s steps) :=
  (gathered_sublist stores_sublist_takes steps).trans (conveys_after hempty steps).taken_sublist

/-! ## The switch -/

theorem isEnabled_respond (a : MockThoriumAdapter) (call : MockThoriumAdapter.Call) :
    (respond lib a call).2.isEnabled = (call.kind.switched.map not).getD a.isEnabled := by
  have hcase := MockThoriumAdapter.response_respond lib a call
  generalize call.kind = kind, respond lib a call = r at hcase ⊢
  cases hcase with
  | switched disabled => rfl
  | _ => rfl

theorem isEnabled_step (s : Lifecycle) (x : Step) :
    (s.step lib x).adapter.isEnabled
      = ((x.call?.bind fun call => call.kind.switched).map not).getD s.adapter.isEnabled := by
  cases x with
  | call call => exact isEnabled_respond s.adapter call
  | _ => rfl

theorem engaged_concat (u : Setup) (steps : List Step) (x : Step) :
    engaged u (steps ++ [x])
      = (x.call?.bind fun call => call.kind.switched).getD (engaged u steps) := by
  unfold engaged
  rw [List.filterMap_append]
  cases h : x.call? with
  | none => simp [h]
  | some call => simp [h, MockThoriumAdapter.engaged_concat]

theorem isEnabled_after (lib : PyLib) (u : Setup) (steps : List Step) :
    (after lib u.start steps).adapter.isEnabled = !engaged u steps := by
  induction steps using List.reverseRecOn with
  | nil => rfl
  | append_singleton steps x ih =>
    rw [after_concat, isEnabled_step, ih, engaged_concat]
    cases x.call?.bind fun call => call.kind.switched <;> rfl

/-- An engaged switch stays engaged until a call releases it. -/
theorem isEnabled_after_of_engaged (hoff : s.adapter.isEnabled = false)
    (hrest : Step.call (.setKillSwitch false) ∉ rest) :
    (after lib s rest).adapter.isEnabled = false := by
  induction rest using List.reverseRecOn with
  | nil => exact hoff
  | append_singleton rest x ih =>
    rw [List.mem_append, not_or] at hrest
    rw [after_concat, isEnabled_step, ih hrest.1]
    cases x with
    | call call =>
      cases call with
      | setKillSwitch disabled =>
        have hdisabled : disabled = true := by simpa using hrest.2
        rw [hdisabled]
        rfl
      | _ => rfl
    | _ => rfl

/-! ## Where an observation comes from -/

theorem exists_call_of_mem_made (h : e ∈ made lib s steps) :
    ∃ past call rest, steps = past ++ .call call :: rest
      ∧ (respond lib (after lib s past).adapter call).1 = some e := by
  obtain ⟨past, x, rest, rfl, hx⟩ := mem_gathered_iff.mp h
  cases x with
  | call call => exact ⟨past, call, rest, rfl, Option.mem_toList.mp hx⟩
  | _ => cases hx

/-- Observations are made with the switch released. -/
theorem observation_of_respond {a : MockThoriumAdapter} {call : MockThoriumAdapter.Call}
    (h : (respond lib a call).1 = some e) (htype : e.messageType = .observation) :
    call.kind = .observe ∧ a.isEnabled = true := by
  have hcase := MockThoriumAdapter.response_respond lib a call
  generalize call.kind = kind, respond lib a call = r at hcase h ⊢
  cases hcase with
  | hello id e' hhello =>
    obtain rfl : e' = e := Option.some.inj h
    rw [hhello] at htype
    cases htype
  | closing e' hclose =>
    obtain rfl : e' = e := Option.some.inj h
    rw [hclose] at htype
    cases htype
  | observation e' _ henabled => exact ⟨rfl, henabled⟩
  | not_closing => cases h
  | no_observation => cases h
  | switched => cases h

theorem observation_of_mem_stored (h : e ∈ stored lib s steps) : e.messageType = .observation := by
  obtain ⟨past, x, rest, rfl, hx⟩ := mem_gathered_iff.mp h
  rw [Option.mem_toList] at hx
  unfold stores at hx
  split at hx
  · split at hx
    · next hboth =>
      obtain rfl := Option.some.inj hx
      exact hboth.2
    · cases hx
  · cases hx

/-- In every interleaving the stored observations are some of those the adapter made, each at most
as often as it was made and in the order of making; each was made by a call at a moment at which
the switch was released. -/
theorem stored_observations (lib : PyLib) (u : Setup) (steps : List Step) :
    ∃ accepted : List MessageEnvelope,
      (after lib u.start steps).daemon.observationsStore = accepted.map (·.toDict)
        ∧ accepted.Sublist (made lib u.start steps)
        ∧ ∀ e ∈ accepted, e.messageType = .observation
          ∧ ∃ past call rest, steps = past ++ .call call :: rest ∧ call.kind = .observe
            ∧ engaged u past = false
            ∧ (respond lib (after lib u.start past).adapter call).1 = some e := by
  have hsublist : (stored lib u.start steps).Sublist (made lib u.start steps) :=
    stored_sublist_made rfl steps
  refine ⟨stored lib u.start steps, observationsStore_after u.start steps, hsublist, ?_⟩
  intro e he
  have htype := observation_of_mem_stored he
  obtain ⟨past, call, rest, hsplit, hcall⟩ := exists_call_of_mem_made (hsublist.subset he)
  obtain ⟨hkind, henabled⟩ := observation_of_respond hcall htype
  rw [isEnabled_after, Bool.not_eq_true'] at henabled
  exact ⟨htype, past, call, rest, hsplit, hkind, henabled, hcall⟩

/-- Engaging the switch is a barrier, whatever waits in the queue: of what was not stored before,
only observations made later are stored, and none until the switch is released. -/
theorem kill_switch_barrier (lib : PyLib) (u : Setup) (past rest : List Step) :
    let s := after lib u.start (past ++ [.call (.setKillSwitch true)])
    ∃ accepted : List MessageEnvelope,
      (after lib s rest).daemon.observationsStore
          = (after lib u.start past).daemon.observationsStore ++ accepted.map (·.toDict)
        ∧ accepted.Sublist (made lib s rest)
        ∧ (.call (.setKillSwitch false) ∉ rest → accepted = []) := by
  intro s
  have hs : s = (after lib u.start past).step lib (.call (.setKillSwitch true)) := after_concat ..
  -- the switch clears the queue and disables the adapter
  have hempty : s.adapter.eventQueue.queue = [] := by
    rw [hs]
    rfl
  have hoff : s.adapter.isEnabled = false := by
    rw [hs]
    rfl
  have hdaemon : s.daemon = (after lib u.start past).daemon := by
    rw [hs]
    rfl
  have hsublist : (stored lib s rest).Sublist (made lib s rest) :=
    stored_sublist_made hempty rest
  refine ⟨stored lib s rest, ?_, hsublist, fun hrelease => ?_⟩
  · rw [observationsStore_after, hdaemon]
  · rw [List.eq_nil_iff_forall_not_mem]
    intro e he
    -- an accepted observation was made by a call behind the switch
    obtain ⟨mid, call, tail, hsplit, hcall⟩ := exists_call_of_mem_made (hsublist.subset he)
    obtain ⟨-, henabled⟩ := observation_of_respond hcall (observation_of_mem_stored he)
    rw [hsplit, List.mem_append, not_or] at hrelease
    -- but the adapter stayed disabled
    rw [isEnabled_after_of_engaged hoff hrelease.1] at henabled
    cases henabled

/-! ## Where a session comes from -/

theorem expectedToken_after (lib : PyLib) (u : Setup) (steps : List Step) :
    (after lib u.start steps).daemon.expectedToken = u.expectedToken := by
  induction steps using List.reverseRecOn with
  | nil => rfl
  | append_singleton steps x ih =>
    rw [after_concat]
    unfold step
    cases (after lib u.start steps).heard x with
    | none => exact ih
    | some call => exact (MockCognitiaDaemon.expectedToken_step call).trans ih

/-- Only a start makes a hello, with its token and the session id it draws. -/
theorem hello_of_respond {a : MockThoriumAdapter} {call : MockThoriumAdapter.Call} {token : String}
    (h : (respond lib a call).1 = some e) (htype : e.messageType = .sessionHello)
    (hauth : MockCognitiaDaemon.authenticates token e.payload = true) :
    ∃ w, call = .startSession w token ∧ e.sessionId = w.uuidStr 0 := by
  -- observations are no hellos
  have hobserve : call.kind ≠ .observe := by
    intro hkind
    have hcase := MockThoriumAdapter.response_respond lib a call
    rw [hkind] at hcase
    generalize respond lib a call = r at hcase h
    cases hcase with
    | observation e' hobs =>
      obtain rfl : e' = e := Option.some.inj h
      rw [hobs] at htype
      cases htype
    | no_observation => cases h
  cases call with
  | startSession w authToken =>
    obtain rfl := Option.some.inj h
    have htoken : authToken = token := of_decide_eq_true hauth
    exact ⟨w, by rw [htoken], rfl⟩
  | closeSession w reason =>
    have hclose : (a.closeSession w reason).1 = some e := h
    unfold MockThoriumAdapter.closeSession at hclose
    split at hclose
    · cases hclose
    · obtain rfl := Option.some.inj hclose
      cases htype
  | observeNavigation w args => exact absurd rfl hobserve
  | observeContentExtraction w args => exact absurd rfl hobserve
  | setKillSwitch disabled => cases h

/-- A call started the session with the daemon's token, and its hello was delivered. -/
def Opened (lib : PyLib) (u : Setup) (steps : List Step) (sessionId : String) : Prop :=
  ∃ w, .call (.startSession w u.expectedToken) ∈ steps ∧ sessionId = w.uuidStr 0
    ∧ ∃ hello ∈ taken lib u.start steps, hello.messageType = .sessionHello
      ∧ hello.sessionId = sessionId

theorem Opened.concat {sessionId : String} (h : Opened lib u steps sessionId) (x : Step) :
    Opened lib u (steps ++ [x]) sessionId := by
  obtain ⟨w, hstart, hid, hello, htaken, hhello⟩ := h
  refine ⟨w, List.mem_append_left _ hstart, hid, hello, ?_, hhello⟩
  unfold taken
  rw [gathered_concat]
  exact List.mem_append_left _ htaken

/-- The session after a step is the one before it, or none, or that of a hello with the token that
was delivered. -/
theorem activeSessionId_step {sessionId : String}
    (h : (s.step lib x).daemon.activeSessionId = some sessionId) :
    s.daemon.activeSessionId = some sessionId
      ∨ ∃ e ∈ s.takes x, e.messageType = .sessionHello ∧ e.sessionId = sessionId
        ∧ MockCognitiaDaemon.authenticates s.daemon.expectedToken e.payload = true := by
  -- an incoming envelope opens a session only as an authenticated hello
  have hincoming : ∀ w e,
      (MockCognitiaDaemon.step lib s.daemon (.incoming w e)).activeSessionId = some sessionId →
      s.daemon.activeSessionId = some sessionId
        ∨ e.messageType = .sessionHello ∧ e.sessionId = sessionId
          ∧ MockCognitiaDaemon.authenticates s.daemon.expectedToken e.payload = true := by
    intro w e hactive
    by_cases hpass : MockCognitiaDaemon.Passes lib s.daemon e
    · have hsession := congrArg MockCognitiaDaemon.EpistemicState.activeSessionId
        (MockCognitiaDaemon.epistemic_step_of_passes (w := w) hpass)
      rw [MockCognitiaDaemon.activeSessionId_receive] at hsession
      have hsome := hsession.symm.trans hactive
      split at hsome
      · next hhello => exact .inr ⟨hhello.1, Option.some.inj hsome, hhello.2⟩
      · split at hsome
        · cases hsome
        · exact .inl hsome
    · rw [MockCognitiaDaemon.step_of_not_passes hpass] at hactive
      exact .inl hactive
  cases x with
  | call call => exact .inl h
  | deliver w =>
    unfold step heard at h
    unfold takes
    cases hpop : s.adapter.eventQueue.pop.1 with
    | none =>
      rw [hpop] at h
      exact .inl h
    | some e =>
      rw [hpop] at h
      exact (hincoming w e h).imp_right fun hhello => ⟨e, rfl, hhello⟩
  | report w r =>
    rcases hincoming w r.envelope h with hsame | ⟨hhello, -⟩
    · exact .inl hsame
    · -- a report is no hello
      rcases r.about_execution with htype | htype
      · rw [htype] at hhello
        cases hhello
      · rw [htype] at hhello
        cases hhello
  | generate w args =>
    have hgenerate : (MockCognitiaDaemon.step lib s.daemon (.generate w args)).activeSessionId
        = s.daemon.activeSessionId := by
      cases hactive : truthy s.daemon.activeSessionId with
      | false => rw [MockCognitiaDaemon.step_generate_of_not hactive]
      | true => rw [MockCognitiaDaemon.step_generate_of_truthy hactive]
    exact .inl (hgenerate.symm.trans h)

theorem opened_of_activeSessionId {sessionId : String}
    (h : (after lib u.start steps).daemon.activeSessionId = some sessionId) :
    Opened lib u steps sessionId := by
  induction steps using List.reverseRecOn with
  | nil => cases h
  | append_singleton steps x ih =>
    rw [after_concat] at h
    rcases activeSessionId_step h with hsame | ⟨e, htakes, htype, rfl, hauth⟩
    · exact (ih hsame).concat x
    · rw [expectedToken_after] at hauth
      have htaken : e ∈ taken lib u.start (steps ++ [x]) := by
        unfold taken
        rw [gathered_concat]
        exact List.mem_append_right _ (Option.mem_toList.mpr htakes)
      have hmade := (conveys_after (s := u.start) rfl _).taken_sublist.subset htaken
      obtain ⟨past, call, rest, hsplit, hcall⟩ := exists_call_of_mem_made hmade
      obtain ⟨w, rfl, hid⟩ := hello_of_respond hcall htype hauth
      exact ⟨w, by rw [hsplit]; simp, hid, e, htaken, htype, rfl⟩

/-- In every interleaving the daemon makes a proposal only in a session that a call on the adapter
started with the daemon's token and whose hello was delivered. -/
theorem opened_of_proposal {w : World} {args : MockCognitiaDaemon.ProposalArgs}
    (h : (MockCognitiaDaemon.generateCandidateProposal w (after lib u.start steps).daemon args).1
      = .ok e) : Opened lib u steps e.sessionId := by
  unfold MockCognitiaDaemon.generateCandidateProposal at h
  split at h
  · next hactive =>
    have hsession := MockThoriumAdapter.eq_some_getD_of_truthy hactive
    obtain rfl := Except.ok.inj h
    exact opened_of_activeSessionId hsession
  · cases h

/-- A session is started and its hello delivered. -/
def greeting : List Step :=
  [.call (.startSession (World.sample 0) "mock_secret_token"), .deliver (World.sample 10)]

/-- A proposal to search the web. -/
def searchProposal : MockCognitiaDaemon.ProposalArgs where
  domainId := "web_search"
  intent := "INSPECT"
  target := "https://news.example/"
  candidateAction := .obj [("action", .str "OPEN_TAB")]
  rationale := "The user asked for it."

theorem session_greeting :
    let d := (after PyLib.sample (Setup.start {}) greeting).daemon
    d.activeSessionId = some ((World.sample 0).uuidStr 0) ∧ d.sequenceNumber = 1 := by
  decide +kernel

theorem opened_of_proposal_greeting :
    Opened PyLib.sample {} greeting
      (MockCognitiaDaemon.proposalEnvelope (World.sample 20) searchProposal
        ((World.sample 0).uuidStr 0) 1).sessionId := by
  have hmade : (MockCognitiaDaemon.generateCandidateProposal (World.sample 20)
      (after PyLib.sample (Setup.start {}) greeting).daemon searchProposal).1
      = .ok (MockCognitiaDaemon.proposalEnvelope (World.sample 20) searchProposal
        ((World.sample 0).uuidStr 0) 1) := by
    unfold MockCognitiaDaemon.generateCandidateProposal
    rw [session_greeting.1, session_greeting.2, if_pos (by decide)]
    rfl
  exact opened_of_proposal hmade

end Lifecycle
end ThoriumFrugal.Protocol

import ThoriumFrugal.Protocol.AdapterRuns

/-!
# The session language

What the adapter should say: blocks of envelopes, one for each session, with a hello in front, a
close at most at the end, and numbers that count from 1. The adapter remembers a session that it
has closed, so it says this in exactly those runs that leave a closed session alone.
-/

namespace ThoriumFrugal.Protocol

open Lib

namespace MockThoriumAdapter

/-! ## Blocks -/

/-- The envelopes of one session. -/
structure Block where
  hello : MessageEnvelope
  observations : List MessageEnvelope
  close : Option MessageEnvelope
  hello_type : hello.messageType = .sessionHello
  observation_type : ∀ e ∈ observations, e.messageType = .observation
  close_type : ∀ e ∈ close, e.messageType = .sessionClose
  session : ∀ e ∈ observations ++ close.toList, e.sessionId = hello.sessionId
  numbers : (hello :: (observations ++ close.toList)).map (·.sequenceNumber)
    = List.range' 1 (hello :: (observations ++ close.toList)).length

namespace Block

/-- The envelopes of a block in order. -/
def envelopes (b : Block) : List MessageEnvelope := b.hello :: (b.observations ++ b.close.toList)

/-- The session of a block. -/
def id (b : Block) : String := b.hello.sessionId

/-- A hello is a block. -/
def ofHello (e : MessageEnvelope) (htype : e.messageType = .sessionHello)
    (hnumber : e.sequenceNumber = 1) : Block where
  hello := e
  observations := []
  close := none
  hello_type := htype
  observation_type := by simp
  close_type := by simp
  session := by simp
  numbers := by simp [hnumber]

theorem numbers_concat {es : List MessageEnvelope} {e : MessageEnvelope}
    (h : es.map (·.sequenceNumber) = List.range' 1 es.length)
    (he : e.sequenceNumber = es.length + 1) :
    (es ++ [e]).map (·.sequenceNumber) = List.range' 1 (es ++ [e]).length := by
  rw [List.map_append, h, List.length_append, List.map_singleton, he, List.length_singleton,
    List.range'_1_concat, Nat.add_comm 1]

/-- An open block and one more observation. -/
def observe (b : Block) (hopen : b.close = none) (e : MessageEnvelope)
    (htype : e.messageType = .observation) (hid : e.sessionId = b.id)
    (hnumber : e.sequenceNumber = b.envelopes.length + 1) : Block where
  hello := b.hello
  observations := b.observations ++ [e]
  close := none
  hello_type := b.hello_type
  observation_type := by
    intro x hx
    rcases List.mem_append.mp hx with hx | hx
    · exact b.observation_type x hx
    · rw [List.mem_singleton.mp hx]
      exact htype
  close_type := by simp
  session := by
    intro x hx
    rw [Option.toList_none, List.append_nil] at hx
    rcases List.mem_append.mp hx with hx | hx
    · exact b.session x (List.mem_append_left _ hx)
    · rw [List.mem_singleton.mp hx]
      exact hid
  numbers := by
    have hall := numbers_concat b.numbers hnumber
    simpa [hopen] using hall

/-- An open block and its close. -/
def shut (b : Block) (hopen : b.close = none) (e : MessageEnvelope)
    (htype : e.messageType = .sessionClose) (hid : e.sessionId = b.id)
    (hnumber : e.sequenceNumber = b.envelopes.length + 1) : Block where
  hello := b.hello
  observations := b.observations
  close := some e
  hello_type := b.hello_type
  observation_type := b.observation_type
  close_type := by
    rintro x ⟨⟩
    exact htype
  session := by
    intro x hx
    rcases List.mem_append.mp hx with hx | hx
    · exact b.session x (List.mem_append_left _ hx)
    · rw [Option.toList_some, List.mem_singleton] at hx
      rw [hx]
      exact hid
  numbers := by
    have hall := numbers_concat b.numbers hnumber
    simpa [hopen] using hall

/-- An open block has no close in it. -/
theorem not_close_of_open {b : Block} (hopen : b.close = none) {e : MessageEnvelope}
    (he : e ∈ b.envelopes) : e.messageType ≠ .sessionClose := by
  unfold envelopes at he
  rw [hopen, Option.toList_none, List.append_nil] at he
  intro hclose
  rcases List.mem_cons.mp he with rfl | he
  · rw [b.hello_type] at hclose
    cases hclose
  · rw [b.observation_type e he] at hclose
    cases hclose

theorem numbers_of_concat {es : List MessageEnvelope} {e : MessageEnvelope}
    (h : (es ++ [e]).map (·.sequenceNumber) = List.range' 1 (es ++ [e]).length) :
    es.map (·.sequenceNumber) = List.range' 1 es.length := by
  rw [List.map_append, List.length_append, List.length_singleton, List.range'_1_concat] at h
  exact (List.append_inj' h rfl).1

/-- The numbers up to the last observation. -/
theorem numbers_observations (b : Block) : (b.hello :: b.observations).map (·.sequenceNumber)
    = List.range' 1 (b.hello :: b.observations).length := by
  have hall := b.numbers
  cases hclose : b.close with
  | none =>
    rw [hclose, Option.toList_none, List.append_nil] at hall
    exact hall
  | some c =>
    rw [hclose, Option.toList_some, ← List.cons_append] at hall
    exact numbers_of_concat hall

/-- The block without its close. -/
def reopen (b : Block) : Block where
  hello := b.hello
  observations := b.observations
  close := none
  hello_type := b.hello_type
  observation_type := b.observation_type
  close_type := by simp
  session := by
    intro x hx
    rw [Option.toList_none, List.append_nil] at hx
    exact b.session x (List.mem_append_left _ hx)
  numbers := by
    rw [Option.toList_none, List.append_nil]
    exact b.numbers_observations

/-- An open block without its last observation. -/
def unobserve (b : Block) (front : List MessageEnvelope) (e : MessageEnvelope)
    (hfront : b.observations = front ++ [e]) : Block where
  hello := b.hello
  observations := front
  close := none
  hello_type := b.hello_type
  observation_type := by
    intro x hx
    exact b.observation_type x (hfront ▸ List.mem_append_left _ hx)
  close_type := by simp
  session := by
    intro x hx
    rw [Option.toList_none, List.append_nil] at hx
    have hobs : x ∈ b.observations := hfront ▸ List.mem_append_left _ hx
    exact b.session x (List.mem_append_left _ hobs)
  numbers := by
    have hall := b.numbers_observations
    rw [hfront, ← List.cons_append] at hall
    rw [Option.toList_none, List.append_nil]
    exact numbers_of_concat hall

/-- A block is its hello, or one envelope behind an open block. -/
theorem cut (b : Block) : b.envelopes = [b.hello]
    ∨ ∃ (b' : Block) (e : MessageEnvelope), b'.close = none ∧ b'.id = b.id
      ∧ b.envelopes = b'.envelopes ++ [e] := by
  cases hclose : b.close with
  | some c =>
    refine .inr ⟨b.reopen, c, rfl, rfl, ?_⟩
    simp [envelopes, reopen, hclose]
  | none =>
    rcases List.eq_nil_or_concat b.observations with hnil | ⟨front, e, hfront⟩
    · left
      simp [envelopes, hclose, hnil]
    · rw [List.concat_eq_append] at hfront
      refine .inr ⟨b.unobserve front e hfront, e, rfl, rfl, ?_⟩
      simp [envelopes, unobserve, hclose, hfront]

end Block

/-- The envelopes split into blocks of different sessions. -/
def WellFormed (sent : List MessageEnvelope) : Prop :=
  ∃ blocks : List Block, sent = blocks.flatMap Block.envelopes ∧ (blocks.map Block.id).Nodup

/-- A session language ends in a hello, or in an envelope behind an open block. -/
theorem WellFormed.concat {sent : List MessageEnvelope} {e : MessageEnvelope}
    (h : WellFormed (sent ++ [e])) : WellFormed sent
      ∧ (e.messageType = .sessionHello ∨ ∃ x ∈ sent.getLast?, x.messageType ≠ .sessionClose) := by
  obtain ⟨blocks, hsent, hnodup⟩ := h
  rcases List.eq_nil_or_concat blocks with rfl | ⟨front, b, rfl⟩
  · simp at hsent
  rw [List.concat_eq_append] at hsent hnodup
  rw [List.flatMap_append, List.flatMap_singleton] at hsent
  rw [List.map_append, List.map_singleton] at hnodup
  -- the last envelope is a hello alone, or ends a block that was open
  rcases b.cut with hhello | ⟨b', x, hopen, hid, hcut⟩
  · rw [hhello] at hsent
    obtain ⟨hfront, hlast⟩ := List.append_inj' hsent rfl
    refine ⟨⟨front, hfront, hnodup.of_append_left⟩, .inl ?_⟩
    rw [List.singleton_inj.mp hlast]
    exact b.hello_type
  · rw [hcut, ← List.append_assoc] at hsent
    obtain ⟨hfront, hlast⟩ := List.append_inj' hsent rfl
    refine ⟨⟨front ++ [b'], ?_, ?_⟩, .inr ?_⟩
    · rw [hfront, List.flatMap_append, List.flatMap_singleton]
    · rw [List.map_append, List.map_singleton, hid]
      exact hnodup
    · have hne : b'.envelopes ≠ [] := List.cons_ne_nil _ _
      refine ⟨b'.envelopes.getLast hne, ?_, Block.not_close_of_open hopen (List.getLast_mem hne)⟩
      rw [hfront, List.getLast?_append_of_ne_nil _ hne]
      exact List.getLast?_eq_some_getLast hne

/-! ## Where a session stands -/

/-- Where a session stands. -/
inductive Phase
  | idle
  | live
  | closed
deriving DecidableEq

/-- The phase after an envelope. -/
def Phase.next : Phase → Kind → Phase
  | _, .start _ => .live
  | .live, .close => .closed
  | phase, _ => phase

/-- Where the session stands after some calls. -/
def phase (past : List Call) : Phase := run (fun p call => p.next call.kind) .idle past

theorem phase_concat (past : List Call) (call : Call) :
    phase (past ++ [call]) = (phase past).next call.kind := run_concat past call

/-- A closed session is left alone. -/
def LeavesClosed (past : List Call) (call : Call) : Prop :=
  phase past = .closed → call.kind ≠ .close ∧ call.kind ≠ .observe

/-- The last block and the adapter, by where the session stands. -/
inductive SessionState (a : MockThoriumAdapter) : Phase → List Block → Prop
  | idle (hsession : truthy a.sessionId = false) : SessionState a .idle []
  | live (front : List Block) (b : Block) (hopen : b.close = none)
    (hsession : truthy a.sessionId = true) (hid : a.sessionId = some b.id)
    (hnumber : a.sequenceNumber = b.envelopes.length) : SessionState a .live (front ++ [b])
  | closed (front : List Block) (b : Block) (c : MessageEnvelope) (hclose : b.close = some c)
    (hsession : truthy a.sessionId = true) : SessionState a .closed (front ++ [b])

variable {a : MockThoriumAdapter} {p : Phase} {kind : Kind} {blocks : List Block}
  {r : Option MessageEnvelope × MockThoriumAdapter}

/-- The state depends on the session and the number only. -/
theorem SessionState.congr (h : SessionState a p blocks) {a' : MockThoriumAdapter}
    (hsession : a'.sessionId = a.sessionId) (hnumber : a'.sequenceNumber = a.sequenceNumber) :
    SessionState a' p blocks := by
  cases h with
  | idle hnone => exact .idle (hsession ▸ hnone)
  | live front b hopen htruthy hid hlast =>
    exact .live front b hopen (hsession ▸ htruthy) (hsession ▸ hid) (hnumber ▸ hlast)
  | closed front b c hclose htruthy => exact .closed front b c hclose (hsession ▸ htruthy)

/-- A session that is there and not closed is the last block, still open. -/
theorem SessionState.live_of_truthy (h : SessionState a p blocks)
    (hsession : truthy a.sessionId = true) (hnot : p ≠ .closed) :
    ∃ (front : List Block) (b : Block), blocks = front ++ [b] ∧ p = .live ∧ b.close = none
      ∧ a.sessionId = some b.id ∧ a.sequenceNumber = b.envelopes.length := by
  cases h with
  | idle hnone =>
    rw [hsession] at hnone
    cases hnone
  | live front b hopen htruthy hid hlast => exact ⟨front, b, rfl, rfl, hopen, hid, hlast⟩
  | closed => exact absurd rfl hnot

/-- A call that leaves a closed session alone adds a block, adds to the last block, or says
nothing. -/
theorem SessionState.step (h : SessionState a p blocks) (hr : Response a kind r)
    (hleaves : p = .closed → kind ≠ .close ∧ kind ≠ .observe) :
    ∃ blocks', blocks'.flatMap Block.envelopes = blocks.flatMap Block.envelopes ++ r.1.toList
      ∧ blocks'.map Block.id = blocks.map Block.id ++ kind.drawn.toList
      ∧ SessionState r.2 (p.next kind) blocks' := by
  cases hr with
  | hello id e htype hid hnumber hne =>
    -- a start opens a new block
    refine ⟨blocks ++ [Block.ofHello e htype hnumber], ?_, ?_, ?_⟩
    · rw [List.flatMap_append, List.flatMap_singleton]
      rfl
    · rw [List.map_append, List.map_singleton, Kind.drawn, Option.toList_some, ← hid]
      rfl
    · have hstart : p.next (.start id) = .live := by cases p <;> rfl
      rw [hstart]
      exact .live blocks _ rfl ((truthy_some id).mpr hne) (congrArg some hid.symm) hnumber
  | closing e htype hsession hid hnumber =>
    obtain ⟨front, b, rfl, rfl, hopen, hlive, hlast⟩ :=
      h.live_of_truthy hsession fun hclosed => (hleaves hclosed).1 rfl
    have hsame : e.sessionId = b.id := Option.some.inj (hid.symm.trans hlive)
    rw [hlast] at hnumber
    -- a close ends the open block
    refine ⟨front ++ [b.shut hopen e htype hsame hnumber], ?_, ?_, .closed front _ e rfl hsession⟩
    · simp [Block.envelopes, Block.shut, hopen]
    · simp [Block.id, Block.shut, Kind.drawn]
  | observation e htype henabled hsession hid hnumber =>
    obtain ⟨front, b, rfl, rfl, hopen, hlive, hlast⟩ :=
      h.live_of_truthy hsession fun hclosed => (hleaves hclosed).2 rfl
    have hsame : e.sessionId = b.id := Option.some.inj (hid.symm.trans hlive)
    rw [hlast] at hnumber
    -- an observation is added to the open block
    refine ⟨front ++ [b.observe hopen e htype hsame hnumber], ?_, ?_, ?_⟩
    · simp [Block.envelopes, Block.observe, hopen]
    · simp [Block.id, Block.observe, Kind.drawn]
    · refine .live front _ rfl hsession hlive ?_
      show e.sequenceNumber = _
      rw [hnumber]
      simp [Block.envelopes, Block.observe, hopen]
  | not_closing hnone =>
    cases h with
    | idle _ => exact ⟨[], rfl, rfl, .idle hnone⟩
    | live front b hopen htruthy hlive hlast =>
      rw [htruthy] at hnone
      cases hnone
    | closed => exact absurd rfl (hleaves rfl).1
  | no_observation hnone =>
    have hsame : p.next .observe = p := by cases p <;> rfl
    rw [hsame]
    exact ⟨blocks, (List.append_nil _).symm, (List.append_nil _).symm, h⟩
  | switched disabled =>
    have hsame : p.next (.switch disabled) = p := by cases p <;> rfl
    rw [hsame]
    exact ⟨blocks, (List.append_nil _).symm, (List.append_nil _).symm, h.congr rfl rfl⟩

/-! ## Runs -/

variable (lib : PyLib) (instanceId : String) (queueCapacity : ℕ)

/-- The session ids that the calls draw. -/
def drawnIds (calls : List Call) : List String := calls.filterMap fun call => call.kind.drawn

/-- A run that leaves closed sessions alone speaks in blocks, one for each session id drawn. -/
theorem exists_blocks (enableKillSwitch : Bool) {calls : List Call}
    (h : Along LeavesClosed calls) :
    ∃ blocks : List Block,
      blocks.flatMap Block.envelopes
          = emitted lib (init instanceId queueCapacity enableKillSwitch) calls
        ∧ blocks.map Block.id = drawnIds calls
        ∧ SessionState (after lib (init instanceId queueCapacity enableKillSwitch) calls)
          (phase calls) blocks := by
  induction calls using List.reverseRecOn with
  | nil => exact ⟨[], rfl, rfl, .idle rfl⟩
  | append_singleton past call ih =>
    obtain ⟨hpast, hcall⟩ := along_concat.mp h
    obtain ⟨blocks, hsent, hids, hstate⟩ := ih hpast
    -- the last call adds a block, changes the last one, or changes none
    obtain ⟨blocks', hsent', hids', hstate'⟩ :=
      hstate.step (response_respond lib _ call) hcall
    refine ⟨blocks', ?_, ?_, ?_⟩
    · rw [hsent', hsent, emitted_concat]
    · rw [hids', hids]
      unfold drawnIds
      rw [List.filterMap_append]
      cases hdrawn : call.kind.drawn <;> simp [hdrawn]
    · rw [after_concat, phase_concat]
      exact hstate'

/-- A call on a closed session that the switch does not stop says something that is no hello. -/
theorem exists_emitted_of_closed {call : Call} (henabled : a.isEnabled = true)
    (hsession : truthy a.sessionId = true) (hkind : call.kind = .close ∨ call.kind = .observe) :
    ∃ e, (respond lib a call).1 = some e ∧ e.messageType ≠ .sessionHello := by
  have hcase := response_respond lib a call
  generalize call.kind = kind, respond lib a call = r at hcase hkind ⊢
  cases hcase with
  | hello => simp at hkind
  | closing e htype => exact ⟨e, rfl, by simp [htype]⟩
  | observation e htype => exact ⟨e, rfl, by simp [htype]⟩
  | not_closing hnone =>
    rw [hsession] at hnone
    cases hnone
  | no_observation hnone => simp [henabled, hsession] at hnone
  | switched disabled => simp at hkind

/-- A closed session has said its close last. -/
theorem SessionState.last_of_closed (h : SessionState a .closed blocks) :
    truthy a.sessionId = true
      ∧ ∀ x ∈ (blocks.flatMap Block.envelopes).getLast?, x.messageType = .sessionClose := by
  cases h with
  | closed front b c hclose hsession =>
    refine ⟨hsession, fun x hx => ?_⟩
    have hlast : (front ++ [b]).flatMap Block.envelopes
        = front.flatMap Block.envelopes ++ (b.hello :: b.observations) ++ [c] := by
      simp [Block.envelopes, hclose]
    rw [hlast, List.getLast?_concat, Option.mem_some] at hx
    rw [← hx]
    exact b.close_type c hclose

theorem not_engaged_of_off {past : List Call} (hoff : ∀ call ∈ past, call.kind ≠ .switch true) :
    engaged false past = false := by
  induction past using List.reverseRecOn with
  | nil => rfl
  | append_singleton past call ih =>
    have hpast := ih fun x hx => hoff x (List.mem_append_left _ hx)
    have hcall := hoff call (List.mem_append_right _ (List.mem_singleton_self call))
    rw [engaged_concat, hpast]
    generalize call.kind = kind at hcall ⊢
    cases kind with
    | switch disabled =>
      cases disabled with
      | false => rfl
      | true => exact absurd rfl hcall
    | _ => rfl

theorem WellFormed.of_append_toList {sent : List MessageEnvelope} {o : Option MessageEnvelope}
    (h : WellFormed (sent ++ o.toList)) : WellFormed sent := by
  cases o with
  | none => rwa [Option.toList_none, List.append_nil] at h
  | some e => exact h.concat.1

/-- What is said on a closed session breaks the language. -/
theorem leavesClosed_of_wellFormed {past : List Call} {call : Call}
    (hoff : ∀ x ∈ past, x.kind ≠ .switch true) (hpast : Along LeavesClosed past)
    (h : WellFormed (emitted lib (init instanceId queueCapacity false) (past ++ [call]))) :
    LeavesClosed past call := by
  intro hclosed
  obtain ⟨blocks, hsent, -, hstate⟩ := exists_blocks lib instanceId queueCapacity false hpast
  rw [hclosed] at hstate
  obtain ⟨hsession, hlast⟩ := hstate.last_of_closed
  have henabled := isEnabled_after lib instanceId queueCapacity false past
  rw [not_engaged_of_off hoff] at henabled
  by_contra hnot
  have hkind : call.kind = .close ∨ call.kind = .observe := by tauto
  obtain ⟨e, hsaid, hhello⟩ := exists_emitted_of_closed lib henabled hsession hkind
  rw [emitted_concat, hsaid, Option.toList_some, ← hsent] at h
  rcases h.concat.2 with htype | ⟨x, hx, hclose⟩
  · exact hhello htype
  · exact hclose (hlast x hx)

/-- With the switch off and session ids that do not repeat, the adapter speaks the session language
in exactly those runs that leave closed sessions alone. -/
theorem wellFormed_emitted_iff (calls : List Call)
    (hoff : ∀ call ∈ calls, call.kind ≠ .switch true) (hfresh : (drawnIds calls).Nodup) :
    WellFormed (emitted lib (init instanceId queueCapacity false) calls)
      ↔ Along LeavesClosed calls := by
  constructor
  · intro h
    clear hfresh
    induction calls using List.reverseRecOn with
    | nil => exact along_nil
    | append_singleton past call ih =>
      have hpastoff : ∀ x ∈ past, x.kind ≠ .switch true :=
        fun x hx => hoff x (List.mem_append_left _ hx)
      have hbefore := h
      rw [emitted_concat] at hbefore
      have hpast := ih hpastoff hbefore.of_append_toList
      exact along_concat.mpr ⟨hpast, leavesClosed_of_wellFormed _ _ _ hpastoff hpast h⟩
  · intro h
    obtain ⟨blocks, hsent, hids, -⟩ := exists_blocks lib instanceId queueCapacity false h
    exact ⟨blocks, hsent.symm, hids ▸ hfresh⟩

/-- Two sessions, of which the first is closed. -/
def twoSessions : List Call := [
  .startSession (World.sample 1) "mock_secret_token",
  .observeNavigation (World.sample 10) { url := "https://example.com", tabId := 1 },
  .closeSession (World.sample 20) "USER_REQUEST",
  .startSession (World.sample 30) "mock_secret_token"]

theorem wellFormed_twoSessions :
    WellFormed (emitted PyLib.sample (init "thorium_proc_1" 100 false) twoSessions) := by
  refine (wellFormed_emitted_iff PyLib.sample "thorium_proc_1" 100 twoSessions ?_ ?_).mpr ?_
  · simp [twoSessions, Call.kind]
  · decide +kernel
  · show Along LeavesClosed ([] ++ [_] ++ [_] ++ [_] ++ [_])
    simp only [along_concat]
    refine ⟨⟨⟨⟨along_nil, ?_⟩, ?_⟩, ?_⟩, ?_⟩
    · intro h
      cases h
    · intro h
      cases h
    · intro h
      cases h
    · exact fun _ => ⟨Kind.noConfusion, Kind.noConfusion⟩

/-- A closed session is closed again. -/
theorem not_wellFormed_closedTwice :
    ¬WellFormed (emitted PyLib.sample (init "thorium_proc_1" 100 false)
      [.startSession (World.sample 1) "mock_secret_token",
        .closeSession (World.sample 10) "USER_REQUEST",
        .closeSession (World.sample 20) "USER_REQUEST"]) := by
  intro h
  have hpast : Along LeavesClosed
      ([] ++ [.startSession (World.sample 1) "mock_secret_token"]
        ++ [.closeSession (World.sample 10) "USER_REQUEST"]) := by
    simp only [along_concat]
    refine ⟨⟨along_nil, ?_⟩, ?_⟩
    · intro h
      cases h
    · intro h
      cases h
  have hoff : ∀ x ∈ [] ++ [.startSession (World.sample 1) "mock_secret_token"]
      ++ [Call.closeSession (World.sample 10) "USER_REQUEST"], x.kind ≠ .switch true := by
    simp [Call.kind]
  exact (leavesClosed_of_wellFormed PyLib.sample "thorium_proc_1" 100 hoff hpast h rfl).1 rfl

end MockThoriumAdapter
end ThoriumFrugal.Protocol

import ThoriumFrugal.Protocol.ProtocolValidatorTheorems

/-!
# Reconnection

A new session starts with a fresh `SESSION_HELLO` of number 1 and goes on with the numbers
2, 3, 4, … The sets of the validator are cleared only by a hello that replaces an established
session. So a reconnection works in exactly the states that are established, or in which no
number has been seen.
-/

namespace ThoriumFrugal.Protocol

open Lib

namespace ProtocolValidator

variable {v v' : ProtocolValidator} {e : MessageEnvelope} {es : List MessageEnvelope}

/-- All envelopes are accepted, one after the other. -/
def AcceptsAll (v : ProtocolValidator) : List MessageEnvelope → Prop
  | [] => True
  | e :: es => Accepts v e ∧ AcceptsAll (after v e) es

/-- Apart from `SESSION_ACCEPT`s, the envelopes are numbered from `n` on. -/
def NumberedFrom (n : ℕ) : List MessageEnvelope → Prop
  | [] => True
  | e :: es =>
    if e.messageType = .sessionAccept then NumberedFrom n es
    else e.sequenceNumber = n ∧ NumberedFrom (n + 1) es

/-- After the run `es`, the hello of a session that was never used, and messages of it. -/
structure Reconnection (es : List MessageEnvelope) (hello : MessageEnvelope)
    (more : List MessageEnvelope) : Prop where
  hello_type : hello.messageType = .sessionHello
  hello_number : hello.sequenceNumber = 1
  session_fresh : ∀ e ∈ es, e.sessionId ≠ hello.sessionId
  session_same : ∀ e ∈ more, e.sessionId = hello.sessionId
  ids_fresh : ∀ e ∈ es, e.messageId ∉ (hello :: more).map (·.messageId)
  ids_distinct : ((hello :: more).map (·.messageId)).Nodup
  numbers : NumberedFrom 2 more
  content : ∀ e ∈ hello :: more, ContentOk e

/-- Every reconnection is accepted, the hello and all that follows. -/
def Reconnects (es : List MessageEnvelope) : Prop :=
  ∀ hello more, Reconnection es hello more → AcceptsAll (reached es) (hello :: more)

theorem acceptsAll_append {xs ys : List MessageEnvelope} :
    AcceptsAll v (xs ++ ys) ↔ AcceptsAll v xs ∧ AcceptsAll (run after v xs) ys := by
  induction xs generalizing v with
  | nil => simp [AcceptsAll]
  | cons x xs ih => simp [AcceptsAll, ih, and_assoc]

/-! ## What a validator holds comes from the run -/

/-- The active session and the message ids are those of envelopes of the run. -/
structure Known (es : List MessageEnvelope) (v : ProtocolValidator) : Prop where
  active : ∀ s, v.activeSessionId = some s → ∃ e ∈ es, e.sessionId = s
  ids : ∀ id ∈ v.seenMessageIds, ∃ e ∈ es, e.messageId = id
  numbers_pos : ∀ k ∈ v.seenSequenceNumbers, 1 ≤ k

theorem Known.concat (h : Known es v) (e : MessageEnvelope) : Known (es ++ [e]) v where
  active := fun s hs => by
    obtain ⟨x, hx, hxs⟩ := h.active s hs
    exact ⟨x, List.mem_append_left _ hx, hxs⟩
  ids := fun id hid => by
    obtain ⟨x, hx, hxid⟩ := h.ids id hid
    exact ⟨x, List.mem_append_left _ hx, hxid⟩
  numbers_pos := h.numbers_pos

theorem seenMessageIds_handshake {id : String} (h : id ∈ (handshake v e).seenMessageIds) :
    id ∈ v.seenMessageIds := by
  unfold handshake at h
  split at h
  · simp [resetSession] at h
  · exact h

theorem Known.handshake (h : Known (es ++ [e]) v) : Known (es ++ [e]) (handshake v e) where
  active := fun s hs => by
    rw [activeSessionId_handshake] at hs
    cases hs
    exact ⟨e, by simp, rfl⟩
  ids := fun id hid => h.ids id (seenMessageIds_handshake hid)
  numbers_pos := fun k hk => by
    unfold ProtocolValidator.handshake at hk
    split at hk
    · simp [resetSession] at hk
    · exact h.numbers_pos k hk

theorem Known.record (h : Known (es ++ [e]) v) : Known (es ++ [e]) (record v e) where
  active := h.active
  ids := fun id hid => by
    rcases Finset.mem_insert.mp hid with rfl | hid
    · exact ⟨e, by simp, rfl⟩
    · exact h.ids id hid
  numbers_pos := fun k hk => by
    simp only [ProtocolValidator.record] at hk
    split at hk
    · exact h.numbers_pos k hk
    · rcases Finset.mem_insert.mp hk with rfl | hk
      · exact e.sequence_pos
      · exact h.numbers_pos k hk

/-- The session check leaves the state alone or makes the handshake. -/
theorem checkSession_cases (h : checkSession v e = .ok v') : v' = v ∨ v' = handshake v e := by
  by_cases hhand : IsHandshake e.messageType
  · rw [checkSession_handshake hhand] at h
    cases h
    exact Or.inr rfl
  · exact Or.inl ((checkSession_regular hhand).mp h).1

theorem known_reached (es : List MessageEnvelope) : Known es (reached es) := by
  refine run_invariant (I := Known) ⟨?_, ?_, ?_⟩ ?_ es
  · simp
  · simp
  · simp
  · intro past e h
    generalize run after {} past = v at h ⊢
    have hconcat := h.concat e
    -- also what an aborted call leaves behind is known
    have hsession : ∀ v', checkSession v e = .ok v' → Known (past ++ [e]) v' := by
      intro v' hv'
      rcases checkSession_cases hv' with rfl | rfl
      · exact hconcat
      · exact hconcat.handshake
    cases callCase v e with
    | refused _ hafter =>
      rw [hafter]
      exact hconcat
    | aborted v' _ hafter _ hv' =>
      rw [hafter]
      exact hsession v' hv'
    | accepted v' _ hafter _ hv' =>
      rw [hafter]
      exact (hsession v' hv').record

/-! ## Where it works -/

/-- The state in the middle of a session `s` whose last number is `n`, with the message ids
`used` so far. -/
structure InSession (used : List String) (s : String) (n : ℕ) (v : ProtocolValidator) :
    Prop where
  active : v.activeSessionId = some s
  last : v.lastSequenceNumber = n
  numbers_le : ∀ k ∈ v.seenSequenceNumbers, k ≤ n
  ids : ∀ id ∈ v.seenMessageIds, id ∈ used

/-- A message of the active session passes the session check. -/
theorem checkSession_of_active (h : v.activeSessionId = some e.sessionId) :
    checkSession v e = .ok { v with
      sessionEstablished := v.sessionEstablished || e.messageType = .sessionAccept } := by
  by_cases hhand : IsHandshake e.messageType
  · rw [checkSession_handshake hhand]
    unfold handshake
    rw [if_neg (by simp [h])]
    simp [h]
  · have haccept : e.messageType ≠ .sessionAccept := fun ht => hhand (Or.inr ht)
    rw [checkSession_regular hhand]
    refine ⟨?_, fun _ => h, fun _ _ => h⟩
    cases v
    simp [haccept]

/-- The state after an accepted envelope of the session. -/
theorem after_of_active (h : v.activeSessionId = some e.sessionId) (hacc : Accepts v e) :
    after v e = record { v with
      sessionEstablished := v.sessionEstablished || e.messageType = .sessionAccept } e :=
  after_of_accepts hacc (checkSession_of_active h)

/-- The next message of a session is accepted, and the session goes on. -/
theorem InSession.next {used : List String} {s : String} {n : ℕ} (h : InSession used s n v)
    (hs : e.sessionId = s) (hid : e.messageId ∉ used) (hcontent : ContentOk e)
    (hseq : e.messageType ≠ .sessionAccept → e.sequenceNumber = n + 1) :
    Accepts v e ∧ InSession (e.messageId :: used) s
      (if e.messageType = .sessionAccept then n else n + 1) (after v e) := by
  have hactive : v.activeSessionId = some e.sessionId := by rw [hs, h.active]
  have hacc : Accepts v e := by
    rw [accepts_iff]
    refine ⟨fun hmem => hid (h.ids _ hmem), _, checkSession_of_active hactive, ⟨?_, ?_⟩, hcontent⟩
    · intro haccept hmem
      have hle := h.numbers_le _ hmem
      have hnext := hseq haccept
      omega
    · intro hregular
      show e.sequenceNumber = v.lastSequenceNumber + 1
      rw [h.last]
      exact hseq fun ht => hregular (Or.inr ht)
  refine ⟨hacc, ?_⟩
  rw [after_of_active hactive hacc]
  by_cases haccept : e.messageType = .sessionAccept
  · rw [if_pos haccept]
    refine ⟨h.active, ?_, ?_, ?_⟩
    · simp [record, haccept, h.last]
    · simpa [record, haccept] using h.numbers_le
    · intro id hmem
      rcases Finset.mem_insert.mp hmem with rfl | hmem
      · simp
      · exact List.mem_cons_of_mem _ (h.ids id hmem)
  · rw [if_neg haccept]
    refine ⟨h.active, ?_, ?_, ?_⟩
    · simp [record, haccept, hseq haccept]
    · intro k hk
      simp only [record, haccept, if_false] at hk
      rcases Finset.mem_insert.mp hk with rfl | hk
      · rw [hseq haccept]
      · have hle := h.numbers_le k hk
        omega
    · intro id hmem
      rcases Finset.mem_insert.mp hmem with rfl | hmem
      · simp
      · exact List.mem_cons_of_mem _ (h.ids id hmem)

/-- In the middle of a session everything that is numbered on is accepted. -/
theorem InSession.acceptsAll {used : List String} {s : String} {n : ℕ}
    {more : List MessageEnvelope} (h : InSession used s n v)
    (hs : ∀ e ∈ more, e.sessionId = s) (hfresh : ∀ e ∈ more, e.messageId ∉ used)
    (hdistinct : (more.map (·.messageId)).Nodup) (hcontent : ∀ e ∈ more, ContentOk e)
    (hnumbers : NumberedFrom (n + 1) more) : AcceptsAll v more := by
  induction more generalizing v used n with
  | nil => trivial
  | cons e more ih =>
    obtain ⟨hnot, hdistinct⟩ := List.nodup_cons.mp hdistinct
    have hseq : e.messageType ≠ .sessionAccept → e.sequenceNumber = n + 1 := by
      intro ht
      rw [NumberedFrom, if_neg ht] at hnumbers
      exact hnumbers.1
    obtain ⟨hacc, hnext⟩ := h.next (hs e (by simp)) (hfresh e (by simp)) (hcontent e (by simp)) hseq
    refine ⟨hacc, ih hnext (fun x hx => hs x (by simp [hx])) ?_ hdistinct
      (fun x hx => hcontent x (by simp [hx])) ?_⟩
    · intro x hx hmem
      rcases List.mem_cons.mp hmem with heq | hmem
      · exact hnot (List.mem_map.mpr ⟨x, hx, heq⟩)
      · exact hfresh x (by simp [hx]) hmem
    · by_cases ht : e.messageType = .sessionAccept
      · rw [NumberedFrom, if_pos ht] at hnumbers
        rw [if_pos ht]
        exact hnumbers
      · rw [NumberedFrom, if_neg ht] at hnumbers
        rw [if_neg ht]
        exact hnumbers.2

/-- A new hello of number 1 that finds no number is accepted, and starts its session. -/
theorem inSession_hello {used : List String} (ht : e.messageType = .sessionHello)
    (hnumber : e.sequenceNumber = 1) (hempty : (handshake v e).seenSequenceNumbers = ∅)
    (hids : ∀ id ∈ v.seenMessageIds, id ∈ used) (hid : e.messageId ∉ used)
    (hcontent : ContentOk e) :
    Accepts v e ∧ InSession (e.messageId :: used) e.sessionId 1 (after v e) := by
  have hhand : IsHandshake e.messageType := Or.inl ht
  have hseq : SequenceOk (handshake v e) e := by
    refine ⟨fun _ => ?_, fun hnot => absurd hhand hnot⟩
    rw [hempty]
    simp
  have hacc : Accepts v e :=
    (accepts_handshake hhand).mpr ⟨fun hmem => hid (hids _ hmem), hseq, hcontent⟩
  refine ⟨hacc, ?_⟩
  rw [after_of_accepts hacc (checkSession_handshake hhand)]
  refine ⟨by simp, ?_, ?_, ?_⟩
  · simp [record, ht, hnumber]
  · intro k hk
    simp only [record, ht, hempty, reduceCtorEq, if_false] at hk
    rcases Finset.mem_insert.mp hk with rfl | hk
    · rw [hnumber]
    · simp at hk
  · intro id hmem
    rcases Finset.mem_insert.mp hmem with rfl | hmem
    · simp
    · exact List.mem_cons_of_mem _ (hids id (seenMessageIds_handshake hmem))

/-- A fresh hello finds no number in a state that is established, or has seen none. -/
theorem seenSequenceNumbers_handshake (ht : e.messageType = .sessionHello)
    (hfresh : v.activeSessionId ≠ some e.sessionId)
    (h : v.sessionEstablished = true ∨ v.seenSequenceNumbers = ∅) :
    (handshake v e).seenSequenceNumbers = ∅ := by
  unfold handshake
  split
  · rfl
  · rename_i hreset
    rcases h with hest | hempty
    · exact absurd ⟨ht, hest, hfresh⟩ hreset
    · exact hempty

theorem reconnects_of (h : (reached es).sessionEstablished = true
    ∨ (reached es).seenSequenceNumbers = ∅) : Reconnects es := by
  intro hello more hre
  have hknown := known_reached es
  have hfresh : (reached es).activeSessionId ≠ some hello.sessionId := by
    intro hactive
    obtain ⟨x, hx, hxs⟩ := hknown.active _ hactive
    exact hre.session_fresh x hx hxs
  have hids : ∀ id ∈ (reached es).seenMessageIds, id ∈ es.map (·.messageId) := by
    intro id hmem
    obtain ⟨x, hx, hxid⟩ := hknown.ids id hmem
    exact List.mem_map.mpr ⟨x, hx, hxid⟩
  have hnew : ∀ e ∈ hello :: more, e.messageId ∉ es.map (·.messageId) := by
    intro e he hmem
    obtain ⟨x, hx, hxid⟩ := List.mem_map.mp hmem
    refine hre.ids_fresh x hx ?_
    rw [hxid]
    exact List.mem_map.mpr ⟨e, he, rfl⟩
  have hempty := seenSequenceNumbers_handshake hre.hello_type hfresh h
  obtain ⟨hacc, hsession⟩ := inSession_hello hre.hello_type hre.hello_number hempty hids
    (hnew hello (by simp)) (hre.content hello (by simp))
  obtain ⟨hnot, hdistinct⟩ := List.nodup_cons.mp hre.ids_distinct
  refine ⟨hacc, hsession.acceptsAll hre.session_same ?_ hdistinct
    (fun x hx => hre.content x (by simp [hx])) hre.numbers⟩
  intro x hx hmem
  rcases List.mem_cons.mp hmem with heq | hmem
  · exact hnot (List.mem_map.mpr ⟨x, hx, heq⟩)
  · exact hnew x (by simp [hx]) hmem

/-! ## Where it does not -/

/-- Some string of a family that grows is new, and so are the later ones. -/
theorem exists_fresh (used : List String) (f : ℕ → String) (hf : ∀ n, n ≤ (f n).length) :
    ∃ m, ∀ n, m ≤ n → f n ∉ used := by
  refine ⟨(used.map String.length).sum + 1, fun n hn hmem => ?_⟩
  have hle : (f n).length ≤ (used.map String.length).sum :=
    List.single_le_sum (by simp) _ (List.mem_map.mpr ⟨f n, hmem, rfl⟩)
  have hlong := hf n
  omega

theorem length_hyphened (k n : ℕ) : (Uuid.hyphened k n).length = k + 36 := by
  rw [← String.length_toList]
  simp [Uuid.hyphened, Uuid.strUuid]

/-- The message with number `k + 1` of a session; its id has `m + k` hyphens in front. -/
def numbered (session : String) (m : ℕ) (t : MessageType) (k : ℕ) : MessageEnvelope where
  protocolVersion := "1.0"
  messageType := t
  messageId := Uuid.hyphened (m + k) 0
  sessionId := session
  sequenceNumber := k + 1
  timestamp := "2026-01-01T00:00:00Z"
  source := {}
  payload := .obj []
  version_supported := supportedVersion_mock
  sequence_pos := Nat.succ_pos k
  messageId_uuid := by rw [Uuid.parse_hyphened _ (by decide)]; rfl

theorem numberedFrom_numbered (session : String) (m n len : ℕ) :
    NumberedFrom (n + 1) ((List.range' n len).map (numbered session m .heartbeat)) := by
  induction len generalizing n with
  | zero => trivial
  | succ len ih => exact ⟨rfl, ih (n + 1)⟩

/-- The first messages of a session that a run has not used, with ids that it has not used. -/
theorem reconnection_numbered {session : String} {m : ℕ} (n : ℕ)
    (hs : ∀ e ∈ es, e.sessionId ≠ session)
    (hids : ∀ k, m ≤ k → Uuid.hyphened k 0 ∉ es.map (·.messageId)) :
    Reconnection es (numbered session m .sessionHello 0)
      ((List.range' 1 n).map (numbered session m .heartbeat)) := by
  have hmap : (numbered session m .sessionHello 0 ::
      (List.range' 1 n).map (numbered session m .heartbeat)).map (·.messageId)
        = (List.range' 0 (n + 1)).map fun k => Uuid.hyphened (m + k) 0 := by
    rw [List.range'_succ, List.map_cons, List.map_cons, List.map_map]
    rfl
  refine
    { hello_type := rfl
      hello_number := rfl
      session_fresh := hs
      session_same := ?_
      ids_fresh := ?_
      ids_distinct := ?_
      numbers := numberedFrom_numbered session m 1 n
      content := ?_ }
  · intro e he
    obtain ⟨k, -, rfl⟩ := List.mem_map.mp he
    rfl
  · intro e he hmem
    rw [hmap] at hmem
    obtain ⟨k, -, hk⟩ := List.mem_map.mp hmem
    refine hids (m + k) (by omega) ?_
    rw [hk]
    exact List.mem_map.mpr ⟨e, he, rfl⟩
  · rw [hmap]
    refine List.Nodup.map ?_ List.nodup_range'
    intro i j hij
    have hlen : (Uuid.hyphened (m + i) 0).length = (Uuid.hyphened (m + j) 0).length := by
      simp only at hij
      rw [hij]
    rw [length_hyphened, length_hyphened] at hlen
    omega
  · have htime : IsoFormat.fromisoformat (cleanTimestamp "2026-01-01T00:00:00Z") = true := by decide
    intro e he
    rcases List.mem_cons.mp he with rfl | he
    · exact ⟨htime, rfl⟩
    · obtain ⟨k, -, rfl⟩ := List.mem_map.mp he
      exact ⟨htime, rfl⟩

/-- Messages outside a handshake never clear the numbers that were seen. -/
theorem mem_seenSequenceNumbers_run {k : ℕ} {xs : List MessageEnvelope}
    (hxs : ∀ e ∈ xs, ¬IsHandshake e.messageType) (hk : k ∈ v.seenSequenceNumbers) :
    k ∈ (run after v xs).seenSequenceNumbers := by
  induction xs generalizing v with
  | nil => exact hk
  | cons x xs ih =>
    refine ih (fun e he => hxs e (List.mem_cons_of_mem _ he)) ?_
    have hregular := hxs x (by simp)
    cases callCase v x with
    | refused _ hafter =>
      rw [hafter]
      exact hk
    | aborted v' _ hafter _ hsession =>
      obtain ⟨rfl, -⟩ := (checkSession_regular hregular).mp hsession
      rw [hafter]
      exact hk
    | accepted v' _ hafter _ hsession =>
      obtain ⟨rfl, -⟩ := (checkSession_regular hregular).mp hsession
      rw [hafter]
      unfold record
      split
      · exact hk
      · exact Finset.mem_insert_of_mem hk

/-- A hello while no session is established clears no numbers. -/
theorem seenSequenceNumbers_handshake_of_not (h : v.sessionEstablished ≠ true) :
    (handshake v e).seenSequenceNumbers = v.seenSequenceNumbers := by
  unfold handshake
  rw [if_neg fun hreset => h hreset.2.1]

theorem mem_seenSequenceNumbers_after_hello {k : ℕ} (h : v.sessionEstablished ≠ true)
    (ht : e.messageType = .sessionHello) (hk : k ∈ v.seenSequenceNumbers) (hacc : Accepts v e) :
    k ∈ (after v e).seenSequenceNumbers := by
  rw [after_of_accepts hacc (checkSession_handshake (Or.inl ht))]
  simp only [record, ht, seenSequenceNumbers_handshake_of_not h]
  exact Finset.mem_insert_of_mem hk

/-- A session that starts while none is established gets stuck at a number that was seen
before. -/
theorem of_reconnects (h : Reconnects es) : (reached es).sessionEstablished = true
    ∨ (reached es).seenSequenceNumbers = ∅ := by
  by_contra hnot
  rw [not_or, ← ne_eq, ← ne_eq, ← Finset.nonempty_iff_ne_empty] at hnot
  obtain ⟨hest, k, hk⟩ := hnot
  obtain ⟨a, ha⟩ := exists_fresh (es.map (·.sessionId)) (fun n => String.ofList (.replicate n 'a'))
    fun n => by rw [← String.length_toList]; simp
  obtain ⟨m, hm⟩ := exists_fresh (es.map (·.messageId)) (Uuid.hyphened · 0)
    fun n => by rw [length_hyphened]; omega
  have hs : ∀ e ∈ es, e.sessionId ≠ String.ofList (.replicate a 'a') := by
    intro e he hes
    exact ha a le_rfl (List.mem_map.mpr ⟨e, he, hes⟩)
  generalize String.ofList (.replicate a 'a') = session at hs
  have hpos := (known_reached es).numbers_pos k hk
  -- up to number `k` of the new session
  have hall := h _ _ (reconnection_numbered (k - 1) hs hm)
  obtain ⟨hacc, hall⟩ := hall
  have hnew := ((accepts_handshake (Or.inl rfl)).mp hacc).2.1.1
    (show MessageType.sessionHello ≠ .sessionAccept by decide)
  rw [seenSequenceNumbers_handshake_of_not hest] at hnew
  have hone : k ≠ 1 := by
    intro hk1
    rw [hk1] at hk
    exact hnew hk
  obtain ⟨n, rfl⟩ : ∃ n, k = n + 2 := ⟨k - 2, by omega⟩
  -- the last message of the new session has the number that was seen
  rw [show n + 2 - 1 = n + 1 by omega, List.range'_1_concat, List.map_append,
    acceptsAll_append] at hall
  obtain ⟨-, hlast, -⟩ := hall
  obtain ⟨-, v', hsession, hseq, -⟩ := accepts_iff.mp hlast
  have hregular : ¬IsHandshake MessageType.heartbeat := by decide
  obtain ⟨rfl, -⟩ := (checkSession_regular hregular).mp hsession
  refine hseq.1 (show MessageType.heartbeat ≠ .sessionAccept by decide) ?_
  show 1 + n + 1 ∈ _
  rw [show 1 + n + 1 = n + 2 by omega]
  refine mem_seenSequenceNumbers_run ?_ ?_
  · intro e he
    obtain ⟨j, -, rfl⟩ := List.mem_map.mp he
    exact hregular
  · exact mem_seenSequenceNumbers_after_hello hest rfl hk hacc

/-- Reconnection works in exactly the states that are established or have seen no number. -/
theorem reconnects_iff (es : List MessageEnvelope) :
    Reconnects es ↔ (reached es).sessionEstablished = true
      ∨ (reached es).seenSequenceNumbers = ∅ :=
  ⟨of_reconnects, reconnects_of⟩

/-- After a hello and a close without a `SESSION_ACCEPT` the next hello is refused. -/
theorem not_reconnects_closed : ¬∀ es : List MessageEnvelope, Reconnects es := by
  intro h
  have hacc := (h [sample .sessionHello "s" 1 0, sample .sessionClose "s" 2 1]
    (numbered "t" 0 .sessionHello 0) []
    { hello_type := rfl
      hello_number := rfl
      session_fresh := by decide
      session_same := by simp
      ids_fresh := by decide
      ids_distinct := by decide
      numbers := trivial
      content := by
        intro e he
        rw [List.mem_singleton] at he
        rw [he]
        exact ⟨by decide, rfl⟩ }).1
  exact absurd hacc (by decide)

end ProtocolValidator
end ThoriumFrugal.Protocol

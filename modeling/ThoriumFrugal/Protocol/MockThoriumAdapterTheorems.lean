import ThoriumFrugal.Lib.DropOldest
import ThoriumFrugal.Protocol.MockThoriumAdapter
import ThoriumFrugal.Protocol.ReconnectTheorems

/-!
# Backpressure and the session

The adapter numbers its envelopes when it makes them, the queue drops the oldest when it is full,
and the validator behind the queue insists on the successor of the last number. Over the window
of the queue: the envelope in front has the number of everything popped and dropped before it,
plus one. So the validator accepts what is popped until the queue drops an envelope, and
nothing after that.
-/

namespace ThoriumFrugal.Protocol

open Lib

/-! ## The queue as a window -/

/-- A queue and its history. -/
structure BoundedEventQueue.Tracks {α : Type*} {cap : ℕ} (q : BoundedEventQueue α)
    (w : Window α cap) : Prop where
  capacity : q.capacity = cap
  queue : q.queue = w.held
  enqueued : q.totalEnqueued = w.pushed.length
  dropped : q.totalDropped = w.dropped

namespace BoundedEventQueue.Tracks

variable {α : Type*} {cap : ℕ} {q : BoundedEventQueue α} {w : Window α cap}

theorem enqueue (h : q.Tracks w) (item : α) : (q.enqueue item).Tracks (w.push item) where
  capacity := h.capacity
  queue := by
    show append q.capacity q.queue item = _
    rw [Window.held_push, h.capacity, h.queue]
    rfl
  enqueued := by
    show q.totalEnqueued + 1 = (w.pushed ++ [item]).length
    rw [h.enqueued, List.length_append, List.length_singleton]
  dropped := by
    show (if q.queue.length ≥ q.capacity then _ else _) = if cap ≤ w.held.length then _ else _
    rw [h.dropped, h.queue, h.capacity]

theorem pop (h : q.Tracks w) : q.pop.2.Tracks w.pop := by
  have hqueue : q.pop.2.queue = q.queue.tail := by
    unfold BoundedEventQueue.pop
    split
    · rename_i hnil
      rw [hnil, List.tail_nil]
    · rename_i hcons
      rw [hcons, List.tail_cons]
  have hrest : q.pop.2.capacity = q.capacity ∧ q.pop.2.totalEnqueued = q.totalEnqueued
      ∧ q.pop.2.totalDropped = q.totalDropped := by
    unfold BoundedEventQueue.pop
    split
    · exact ⟨rfl, rfl, rfl⟩
    · exact ⟨rfl, rfl, rfl⟩
  obtain ⟨hcap, henq, hdrop⟩ := hrest
  refine ⟨?_, ?_, ?_, ?_⟩
  · rw [hcap, h.capacity]
  · rw [hqueue, Window.held_pop, h.queue]
  · rw [henq, h.enqueued]
    rfl
  · rw [hdrop, h.dropped]
    rfl

theorem pop_fst (h : q.Tracks w) : q.pop.1 = w.pushed[w.popped + w.dropped]? := by
  rw [← Window.head?_held, ← h.queue]
  exact BoundedEventQueue.pop_fst q

end BoundedEventQueue.Tracks

/-! ## What the operations make -/

namespace MockThoriumAdapter

open ProtocolValidator

/-- What an operation returns and does: nothing, or it sends one envelope with the next number.
Only a start sends a hello, with number 1, and sets the session. -/
inductive Sends (a : MockThoriumAdapter) :
    Bool → Option MessageEnvelope × MockThoriumAdapter → Prop
  | nothing : Sends a false (none, a)
  | hello (e : MessageEnvelope) (htype : e.messageType = .sessionHello)
    (hnumber : e.sequenceNumber = 1) (hcontent : ContentOk e) :
    Sends a true (some e,
      { a with
        sessionId := some e.sessionId
        sequenceNumber := 1
        eventQueue := a.eventQueue.enqueue e })
  | observation (e : MessageEnvelope) (htype : e.messageType = .observation)
    (hsession : a.sessionId = some e.sessionId) (hnumber : e.sequenceNumber = a.sequenceNumber + 1)
    (hcontent : ContentOk e) :
    Sends a false (some e,
      { a with
        sequenceNumber := a.sequenceNumber + 1
        eventQueue := a.eventQueue.enqueue e })

theorem startSession_sends (w : World) (a : MockThoriumAdapter) (authToken : String) :
    Sends a true (startSession w a authToken) :=
  .hello _ rfl rfl ⟨fromisoformat_timestamp w 0, rfl⟩

/-- An operation that sends an observation in the current session. -/
theorem send_sends (w : World) (uuid : ℕ) {a : MockThoriumAdapter} (d : ObservationData)
    (h : truthy a.sessionId = true) : Sends a false (send w uuid a .observation d.toDict) := by
  cases hs : a.sessionId with
  | none =>
    rw [hs] at h
    cases h
  | some s =>
    refine .observation _ rfl ?_ rfl ⟨fromisoformat_timestamp w 0, rfl⟩
    rw [hs]
    rfl

variable (lib : PyLib)

theorem observeNavigation_sends (w : World) (a : MockThoriumAdapter) (args : NavigationArgs) :
    Sends a false (observeNavigation lib w a args) := by
  unfold observeNavigation
  split
  · exact .nothing
  · rename_i h
    exact send_sends _ _ _ (not_not.mp fun hnot => h (Or.inr hnot))

theorem observeContentExtraction_sends (w : World) (a : MockThoriumAdapter)
    (args : ExtractionArgs) : Sends a false (observeContentExtraction lib w a args) := by
  unfold observeContentExtraction
  split
  · exact .nothing
  · rename_i h
    exact send_sends _ _ _ (not_not.mp fun hnot => h (Or.inr hnot))

/-! ## The adapter, its queue, and the validator behind it -/

/-- The adapter, the validator that receives what is popped, and every envelope that went into
the queue. -/
structure Link where
  adapter : MockThoriumAdapter
  validator : ProtocolValidator := {}
  sent : List MessageEnvelope := []

/-- The calls that send an envelope, and the `pop` of the consumer. -/
inductive Op
  | startSession (w : World) (authToken : String)
  | observeNavigation (w : World) (args : NavigationArgs)
  | observeContentExtraction (w : World) (args : ExtractionArgs)
  | pop

/-- The call starts a session. -/
def Op.isStart : Op → Bool
  | .startSession .. => true
  | _ => false

/-- What an operation of the adapter returns and leaves behind. -/
def perform (a : MockThoriumAdapter) : Op → Option MessageEnvelope × MockThoriumAdapter
  | .startSession w authToken => a.startSession w authToken
  | .observeNavigation w args => a.observeNavigation lib w args
  | .observeContentExtraction w args => a.observeContentExtraction lib w args
  | .pop => (none, { a with eventQueue := a.eventQueue.pop.2 })

/-- What the consumer gets out of the queue. -/
def delivered (a : MockThoriumAdapter) : Op → Option MessageEnvelope
  | .pop => a.eventQueue.pop.1
  | _ => none

/-- What is popped goes to the validator at once. -/
def Link.step (l : Link) (op : Op) : Link where
  adapter := (perform lib l.adapter op).2
  validator := ((delivered l.adapter op).map l.validator.after).getD l.validator
  sent := l.sent ++ (perform lib l.adapter op).1.toList

/-- The state after a run with a new adapter and a fresh validator. -/
def reached (a : MockThoriumAdapter) (ops : List Op) : Link :=
  run (Link.step lib) { adapter := a } ops

/-- The validator accepts what is popped. -/
def AcceptsDelivered (a : MockThoriumAdapter) (past : List Op) (op : Op) : Prop :=
  let l := reached lib a past
  ∀ e ∈ delivered l.adapter op, l.validator.Accepts e

/-- The validator accepts what is popped if and only if the queue has dropped nothing so far. -/
def AcceptsUntilDrop (a : MockThoriumAdapter) (past : List Op) (op : Op) : Prop :=
  let l := reached lib a past
  ∀ e ∈ delivered l.adapter op,
    (l.validator.Accepts e ↔ l.adapter.eventQueue.totalDropped = 0)

/-- The session starts at most once, and a new envelope has a new id. -/
structure FairStep (a : MockThoriumAdapter) (past : List Op) (op : Op) : Prop where
  starts_once : op.isStart = true → past.any Op.isStart = false
  fresh_id : ∀ e ∈ (perform lib (reached lib a past).adapter op).1,
    e.messageId ∉ (reached lib a past).sent.map (·.messageId)

/-- What the envelopes sent so far have to do with the adapter: numbers count from 1, the first is
the hello, the others are observations, and all are of the adapter's session. -/
structure SentInv (started : Bool) (a : MockThoriumAdapter) (sent : List MessageEnvelope) :
    Prop where
  not_started : started = false → sent = []
  session_none : a.sessionId = none ↔ sent = []
  sequence : a.sequenceNumber = sent.length
  numbers : ∀ (i : ℕ) e, sent[i]? = some e → e.sequenceNumber = i + 1
  types : ∀ (i : ℕ) e, sent[i]? = some e →
    e.messageType = if i = 0 then .sessionHello else .observation
  sessions : ∀ e ∈ sent, a.sessionId = some e.sessionId
  contents : ∀ e ∈ sent, ContentOk e
  ids : (sent.map (·.messageId)).Nodup

/-- What holds of each envelope and its place still holds if it holds of the new one. -/
theorem forall_getElem?_concat {α : Type*} {P : ℕ → α → Prop} {xs : List α} {x : α}
    (h : ∀ i y, xs[i]? = some y → P i y) (hx : P xs.length x) :
    ∀ i y, (xs ++ [x])[i]? = some y → P i y := by
  intro i y hy
  rw [List.getElem?_append] at hy
  split at hy
  · exact h i y hy
  · rename_i hlen
    rw [List.getElem?_singleton] at hy
    split at hy
    · obtain rfl : i = xs.length := by omega
      exact Option.some.inj hy ▸ hx
    · cases hy

/-- A step of the adapter keeps the invariant, if the session starts only once and new envelopes
have new ids. -/
theorem SentInv.sends {started start : Bool} {a : MockThoriumAdapter}
    {sent : List MessageEnvelope} {r : Option MessageEnvelope × MockThoriumAdapter}
    (h : SentInv started a sent) (hr : Sends a start r) (hstart : start = true → started = false)
    (hid : ∀ e ∈ r.1, e.messageId ∉ sent.map (·.messageId)) :
    SentInv (started || start) r.2 (sent ++ r.1.toList) := by
  cases hr with
  | nothing =>
    rw [Bool.or_false, Option.toList_none, List.append_nil]
    exact h
  | hello e htype hnumber hcontent =>
    have hnil := h.not_started (hstart rfl)
    subst hnil
    exact {
      not_started := by simp
      session_none := by simp
      sequence := rfl
      numbers := forall_getElem?_concat (by simp) hnumber
      types := forall_getElem?_concat (by simp) htype
      sessions := by simp
      contents := List.forall_mem_singleton.mpr hcontent
      ids := by simp }
  | observation e htype hsession hnumber hcontent =>
    have hne : sent ≠ [] := by
      intro hnil
      rw [h.session_none.mpr hnil] at hsession
      cases hsession
    have hpos := List.length_pos_of_ne_nil hne
    rw [Bool.or_false, Option.toList_some]
    have hlast : e.sequenceNumber = sent.length + 1 := by rw [hnumber, h.sequence]
    have hregular : e.messageType = if sent.length = 0 then .sessionHello else .observation := by
      rw [if_neg (by omega)]
      exact htype
    exact {
      not_started := fun hnot => absurd (h.not_started hnot) hne
      session_none := by simp [hsession]
      sequence := by
        show a.sequenceNumber + 1 = _
        rw [h.sequence, List.length_append, List.length_singleton]
      numbers := forall_getElem?_concat h.numbers hlast
      types := forall_getElem?_concat h.types hregular
      sessions := List.forall_mem_append.mpr
        ⟨h.sessions, List.forall_mem_singleton.mpr hsession⟩
      contents := List.forall_mem_append.mpr
        ⟨h.contents, List.forall_mem_singleton.mpr hcontent⟩
      ids := by
        rw [List.map_append, List.map_singleton]
        exact List.Nodup.append h.ids (List.nodup_singleton _)
          (List.disjoint_singleton.mpr (hid e rfl)) }

/-- What the validator has to do with the window: nothing dropped, and it is in the middle of the
session, or dropped envelopes have put its last number out of reach. -/
structure ReceiverInv {cap : ℕ} (v : ProtocolValidator) (w : Window MessageEnvelope cap) :
    Prop where
  fresh : w.dropped = 0 → w.popped = 0 → v = {}
  in_session : w.dropped = 0 → 0 < w.popped → ∃ e ∈ w.pushed,
    InSession ((w.pushed.take w.popped).map (·.messageId)) e.sessionId w.popped v
  behind : 0 < w.dropped → v.lastSequenceNumber < w.popped + w.dropped

/-- While nothing is dropped, the validator has seen what was popped. -/
theorem ReceiverInv.last {cap : ℕ} {v : ProtocolValidator} {w : Window MessageEnvelope cap}
    (h : ReceiverInv v w) (hdrop : w.dropped = 0) : v.lastSequenceNumber = w.popped := by
  by_cases hpop : w.popped = 0
  · rw [h.fresh hdrop hpop, hpop]
  · obtain ⟨x, -, hin⟩ := h.in_session hdrop (by omega)
    exact hin.last

theorem ReceiverInv.push {cap : ℕ} {v : ProtocolValidator} {w : Window MessageEnvelope cap}
    (h : ReceiverInv v w) (e : MessageEnvelope) : ReceiverInv v (w.push e) := by
  have hle := w.dropped_le_push e
  refine ⟨fun hdrop hpop => ?_, fun hdrop hpop => ?_, fun hdrop => ?_⟩
  · exact h.fresh (by omega) hpop
  · obtain ⟨x, hx, hin⟩ := h.in_session (by omega) hpop
    refine ⟨x, List.mem_append_left _ hx, ?_⟩
    have hfirst := w.first_le
    show InSession (((w.pushed ++ [e]).take w.popped).map (·.messageId)) _ _ _
    rw [List.take_append_of_le_length (by omega)]
    exact hin
  · show v.lastSequenceNumber < w.popped + (w.push e).dropped
    -- the first drop takes away a number that the validator still waits for
    rcases Nat.eq_zero_or_pos w.dropped with hzero | hpos
    · rw [h.last hzero]
      omega
    · have hbehind := h.behind hpos
      omega

/-- A message outside a handshake that is not the next one is refused. -/
theorem refused_of_gap {v : ProtocolValidator} {e : MessageEnvelope}
    (hregular : ¬IsHandshake e.messageType) (hgap : e.sequenceNumber ≠ v.lastSequenceNumber + 1) :
    ¬v.Accepts e ∧ v.after e = v := by
  cases callCase v e with
  | refused hacc hafter => exact ⟨hacc, hafter⟩
  | aborted v' hacc hafter _ hsession =>
    rw [((checkSession_regular hregular).mp hsession).1] at hafter
    exact ⟨hacc, hafter⟩
  | accepted v' _ _ _ hsession hseq =>
    rw [((checkSession_regular hregular).mp hsession).1] at hseq
    exact absurd (hseq.2 hregular) hgap

theorem ids_take_succ {sent : List MessageEnvelope} {n : ℕ} {e : MessageEnvelope}
    (he : sent[n]? = some e) :
    (sent.take (n + 1)).map (·.messageId) = (sent.take n).map (·.messageId) ++ [e.messageId] := by
  rw [List.take_add_one, he, List.map_append]
  rfl

/-- An envelope has not the id of an earlier one. -/
theorem SentInv.id_notMem_take {started : Bool} {a : MockThoriumAdapter}
    {sent : List MessageEnvelope} {n : ℕ} {e : MessageEnvelope} (h : SentInv started a sent)
    (he : sent[n]? = some e) : e.messageId ∉ (sent.take n).map (·.messageId) := by
  have hnodup : ((sent.take (n + 1)).map (·.messageId)).Nodup :=
    h.ids.sublist ((List.take_sublist _ _).map _)
  rw [ids_take_succ he, List.nodup_append] at hnodup
  intro hold
  exact hnodup.2.2 _ hold _ (by simp) rfl

/-- While nothing is dropped, the validator accepts the envelope in front: it has the number of
what was popped, plus one. -/
theorem ReceiverInv.accepts_front {cap : ℕ} {started : Bool} {a : MockThoriumAdapter}
    {v : ProtocolValidator} {w : Window MessageEnvelope cap} {e : MessageEnvelope}
    (h : ReceiverInv v w) (hsent : SentInv started a w.pushed) (hzero : w.dropped = 0)
    (he : w.pushed[w.popped]? = some e) :
    v.Accepts e ∧ InSession (e.messageId :: (w.pushed.take w.popped).map (·.messageId))
      e.sessionId (w.popped + 1) (v.after e) := by
  have hnumber := hsent.numbers _ _ he
  have htype := hsent.types _ _ he
  have hmem : e ∈ w.pushed := List.mem_of_getElem? he
  have hcontent := hsent.contents e hmem
  by_cases hfirst : w.popped = 0
  · -- the hello
    rw [h.fresh hzero hfirst]
    rw [if_pos hfirst] at htype
    rw [hfirst] at hnumber ⊢
    exact inSession_hello htype hnumber (by simp [handshake]) (by simp) (by simp) hcontent
  · obtain ⟨x, hx, hin⟩ := h.in_session hzero (by omega)
    have hsame : e.sessionId = x.sessionId := by
      have hs := hsent.sessions e hmem
      rw [hsent.sessions x hx] at hs
      exact (Option.some.inj hs).symm
    rw [if_neg hfirst] at htype
    have hstep := hin.next hsame (hsent.id_notMem_take he) hcontent (fun _ => hnumber)
    rw [htype, if_neg (by decide)] at hstep
    rw [hsame]
    exact hstep

/-- A pop: the validator accepts the envelope exactly as long as nothing was dropped. -/
theorem ReceiverInv.pop {cap : ℕ} {started : Bool} {a : MockThoriumAdapter}
    {v : ProtocolValidator} {w : Window MessageEnvelope cap} {e : MessageEnvelope}
    (h : ReceiverInv v w) (hsent : SentInv started a w.pushed)
    (he : w.pushed[w.popped + w.dropped]? = some e) :
    (v.Accepts e ↔ w.dropped = 0) ∧ ReceiverInv (v.after e) w.pop := by
  have hheld : w.held ≠ [] := by
    intro hnil
    rw [← Window.head?_held, hnil] at he
    cases he
  have hpopped : w.pop.popped = w.popped + 1 := Window.popped_pop hheld
  have hdropped : w.pop.dropped = w.dropped := rfl
  rcases Nat.eq_zero_or_pos w.dropped with hzero | hpos
  · rw [hzero, Nat.add_zero] at he
    have hnext := h.accepts_front hsent hzero he
    refine ⟨iff_of_true hnext.1 hzero, fun _ hpop => ?_,
      fun _ _ => ⟨e, List.mem_of_getElem? he, ?_⟩, fun hdrop => ?_⟩
    · omega
    · rw [hpopped]
      show InSession ((w.pushed.take (w.popped + 1)).map (·.messageId)) _ _ _
      rw [ids_take_succ he]
      refine ⟨hnext.2.active, hnext.2.last, hnext.2.numbers_le, fun id hid => ?_⟩
      have hold := hnext.2.ids id hid
      rw [List.mem_cons] at hold
      rw [List.mem_append, List.mem_singleton]
      exact hold.symm
    · omega
  · -- a message outside the handshake whose number is out of reach
    have hnumber := hsent.numbers _ _ he
    have htype := hsent.types _ _ he
    have hbehind := h.behind hpos
    rw [if_neg (by omega)] at htype
    obtain ⟨hnot, hafter⟩ := refused_of_gap (v := v) (by rw [htype]; decide) (by omega)
    refine ⟨iff_of_false hnot (by omega), fun hdrop => ?_, fun hdrop => ?_, fun _ => ?_⟩
    · omega
    · omega
    · rw [hafter]
      omega

/-! ## Runs -/

theorem Sends.eventQueue {a : MockThoriumAdapter} {start : Bool}
    {r : Option MessageEnvelope × MockThoriumAdapter} (h : Sends a start r) :
    r.2.eventQueue = r.1.elim a.eventQueue a.eventQueue.enqueue := by
  cases h with
  | nothing => rfl
  | hello => rfl
  | observation => rfl

theorem perform_sends (a : MockThoriumAdapter) {op : Op} (h : op ≠ .pop) :
    Sends a op.isStart (perform lib a op) := by
  cases op with
  | startSession w authToken => exact startSession_sends w a authToken
  | observeNavigation w args => exact observeNavigation_sends lib w a args
  | observeContentExtraction w args => exact observeContentExtraction_sends lib w a args
  | pop => exact absurd rfl h

/-- The queue is a window onto what was sent, and both ends keep their invariants. -/
structure LinkInv {cap : ℕ} (started : Bool) (l : Link) (w : Window MessageEnvelope cap) :
    Prop where
  tracks : l.adapter.eventQueue.Tracks w
  pushed : w.pushed = l.sent
  sender : SentInv started l.adapter l.sent
  receiver : ReceiverInv l.validator w

/-- An operation of the adapter. -/
theorem LinkInv.send {cap : ℕ} {started start : Bool} {l : Link} {w : Window MessageEnvelope cap}
    {r : Option MessageEnvelope × MockThoriumAdapter} (h : LinkInv started l w)
    (hr : Sends l.adapter start r) (hstart : start = true → started = false)
    (hid : ∀ e ∈ r.1, e.messageId ∉ l.sent.map (·.messageId)) :
    ∃ w' : Window MessageEnvelope cap, LinkInv (started || start)
      { adapter := r.2, validator := l.validator, sent := l.sent ++ r.1.toList } w' := by
  have hsender := h.sender.sends hr hstart hid
  have hqueue := hr.eventQueue
  cases hsome : r.1 with
  | none =>
    rw [hsome] at hqueue hsender
    refine ⟨w, ?_, ?_, hsender, h.receiver⟩
    · rw [hqueue]
      exact h.tracks
    · rw [h.pushed, Option.toList_none, List.append_nil]
  | some e =>
    rw [hsome] at hqueue hsender
    refine ⟨w.push e, ?_, ?_, hsender, h.receiver.push e⟩
    · rw [hqueue]
      exact h.tracks.enqueue e
    · show w.pushed ++ [e] = _
      rw [h.pushed, Option.toList_some]

/-- A pop. -/
theorem LinkInv.pop {cap : ℕ} {started : Bool} {l : Link} {w : Window MessageEnvelope cap}
    (h : LinkInv started l w) : LinkInv started (l.step lib .pop) w.pop := by
  have hfst := h.tracks.pop_fst
  have hsent : (l.step lib .pop).sent = l.sent := List.append_nil _
  refine ⟨h.tracks.pop, ?_, ?_, ?_⟩
  · rw [hsent]
    exact h.pushed
  · rw [hsent]
    exact ⟨h.sender.not_started, h.sender.session_none, h.sender.sequence, h.sender.numbers,
      h.sender.types, h.sender.sessions, h.sender.contents, h.sender.ids⟩
  · show ReceiverInv ((l.adapter.eventQueue.pop.1.map l.validator.after).getD l.validator) _
    cases hpop : l.adapter.eventQueue.pop.1 with
    | none =>
      have hnil : w.held = [] := by
        rw [← List.head?_eq_none_iff, Window.head?_held, ← hfst, hpop]
      rw [Window.pop_of_nil hnil]
      exact h.receiver
    | some e =>
      rw [hpop] at hfst
      have hsender := h.sender
      rw [← h.pushed] at hsender
      exact (h.receiver.pop hsender hfst.symm).2

theorem linkInv_init (instanceId : String) (cap : ℕ) (enableKillSwitch : Bool) :
    LinkInv false { adapter := init instanceId cap enableKillSwitch }
      (Window.empty MessageEnvelope cap) where
  tracks := ⟨rfl, rfl, rfl, rfl⟩
  pushed := rfl
  sender :=
    { not_started := fun _ => rfl
      session_none := by simp [init]
      sequence := rfl
      numbers := by simp
      types := by simp
      sessions := by simp
      contents := by simp
      ids := List.nodup_nil }
  receiver :=
    { fresh := fun _ _ => rfl
      in_session := fun _ hpop => absurd hpop (lt_irrefl 0)
      behind := fun hdrop => absurd hdrop (lt_irrefl 0) }

variable {lib} in
theorem linkInv_reached {instanceId : String} {cap : ℕ} {enableKillSwitch : Bool} {ops : List Op}
    (h : Along (FairStep lib (init instanceId cap enableKillSwitch)) ops) :
    ∃ w : Window MessageEnvelope cap, LinkInv (ops.any Op.isStart)
      (reached lib (init instanceId cap enableKillSwitch) ops) w := by
  refine run_induction (I := fun past l => ∃ w : Window MessageEnvelope cap,
    LinkInv (past.any Op.isStart) l w) ⟨_, linkInv_init instanceId cap enableKillSwitch⟩ ?_ h
  intro past op hinv hfair
  obtain ⟨w, hinv⟩ := hinv
  rw [List.any_append, List.any_cons, List.any_nil, Bool.or_false]
  by_cases hop : op = .pop
  · rw [hop]
    show ∃ w' : Window MessageEnvelope cap, LinkInv (_ || false) _ w'
    rw [Bool.or_false]
    exact ⟨w.pop, hinv.pop lib⟩
  · have hsend := hinv.send (perform_sends lib _ hop) hfair.starts_once hfair.fresh_id
    have hnone : ∀ a : MockThoriumAdapter, delivered a op = none := by
      intro a
      cases op with
      | pop => exact absurd rfl hop
      | _ => rfl
    unfold Link.step
    rw [hnone]
    exact hsend

/-- In every run with one session the validator accepts exactly what is popped before the queue
drops its first envelope. -/
theorem along_acceptsUntilDrop (instanceId : String) (cap : ℕ) (enableKillSwitch : Bool)
    (ops : List Op) (h : Along (FairStep lib (init instanceId cap enableKillSwitch)) ops) :
    Along (AcceptsUntilDrop lib (init instanceId cap enableKillSwitch)) ops := by
  intro past op rest hops e he
  have hpast : Along (FairStep lib (init instanceId cap enableKillSwitch)) past := by
    rw [hops] at h
    exact h.left
  obtain ⟨w, hinv⟩ := linkInv_reached hpast
  cases op with
  | pop =>
    have hfst := hinv.tracks.pop_fst
    have hpop : (reached lib _ past).adapter.eventQueue.pop.1 = some e := he
    rw [hpop] at hfst
    have hsender := hinv.sender
    rw [← hinv.pushed] at hsender
    rw [hinv.tracks.dropped]
    exact (hinv.receiver.pop hsender hfst.symm).1
  | _ => cases he

/-- The hello is popped, and two observations wait when the next pop comes. -/
def sampleOps : List Op :=
  [.startSession (World.sample 0) "mock_secret_token", .pop,
    .observeNavigation (World.sample 10) { url := "https://news.example/", tabId := 1 },
    .observeNavigation (World.sample 20) { url := "https://shop.example/", tabId := 1 }, .pop]

theorem along_acceptsUntilDrop_sampleOps :
    Along (AcceptsUntilDrop PyLib.sample (init "thorium_proc_1" 100 false)) sampleOps := by
  refine along_acceptsUntilDrop PyLib.sample "thorium_proc_1" 100 false
    ([] ++ [_] ++ [_] ++ [_] ++ [_] ++ [_]) ?_
  simp only [along_concat]
  refine ⟨⟨⟨⟨⟨along_nil, ?_⟩, ?_⟩, ?_⟩, ?_⟩, ?_⟩
  · exact ⟨by decide, by decide +kernel⟩
  · exact ⟨by decide, by decide +kernel⟩
  · exact ⟨by decide, by decide +kernel⟩
  · exact ⟨by decide, by decide +kernel⟩
  · exact ⟨by decide, by decide +kernel⟩

/-- With room for one envelope the second observation evicts the first, and is refused. -/
theorem not_along_acceptsDelivered :
    ¬∀ (lib : PyLib) (instanceId : String) (cap : ℕ) (enableKillSwitch : Bool) (ops : List Op),
      1 ≤ cap → Along (FairStep lib (init instanceId cap enableKillSwitch)) ops →
      Along (AcceptsDelivered lib (init instanceId cap enableKillSwitch)) ops := by
  intro h
  have hfair : Along (FairStep PyLib.sample (init "thorium_proc_1" 1 false)) sampleOps := by
    show Along _ ([] ++ [_] ++ [_] ++ [_] ++ [_] ++ [_])
    simp only [along_concat]
    exact ⟨⟨⟨⟨⟨along_nil, ⟨by decide, by decide +kernel⟩⟩, ⟨by decide, by decide +kernel⟩⟩,
      ⟨by decide, by decide +kernel⟩⟩, ⟨by decide, by decide +kernel⟩⟩,
      ⟨by decide, by decide +kernel⟩⟩
  have hlast := h PyLib.sample "thorium_proc_1" 1 false sampleOps le_rfl hfair sampleOps.dropLast
    .pop [] rfl
  unfold AcceptsDelivered at hlast
  exact absurd hlast (by decide +kernel)

end MockThoriumAdapter
end ThoriumFrugal.Protocol

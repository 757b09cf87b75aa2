import ThoriumFrugal.Cognitia.NamedPipeTransportWin

/-!
# What the transport delivers

Each part of a task has a case lemma that says all it can do to a channel: a connection
attempt leaves the queue as it is, drains it, or fails at one queued payload and puts that
payload back behind the others. The invariants of runs are read off these cases.
-/

namespace ThoriumFrugal.Cognitia

open Lib

namespace Channel

/-! ## What a task can do -/

/-- `c` with the payloads of `front` delivered and `queue` left. -/
def flushed (c : Channel) (front queue : List Text) : Channel :=
  { c with
    transport.eventQueue := { c.transport.eventQueue with queue := queue }
    written := c.written ++ front.map framedMessage }

/-- The outcomes of a flush loop that starts with round `i`. -/
inductive FlushCase (flushWrite : ℕ → Bool) (i : ℕ) (c : Channel) : Channel → Prop
  | drained (hall : ∀ j < c.queued.length, flushWrite (i + j) = true) :
    FlushCase flushWrite i c (c.flushed c.queued [])
  | failed (front : List Text) (item : Text) (back : List Text)
    (hqueued : c.queued = front ++ item :: back)
    (hfail : flushWrite (i + front.length) = false) :
    FlushCase flushWrite i c (c.flushed front (back ++ [item])).closeHandle

variable {c c' : Channel} {o : Outcomes} {payload : Text}

/-- The payload put back by a failed round finds the place it came from free. -/
theorem enqueue_of_lt (h : c.queued.length < c.transport.eventQueue.maxCapacity) :
    c.enqueue payload
      = { c with transport.eventQueue :=
          { c.transport.eventQueue with queue := c.queued ++ [payload] } } := by
  unfold enqueue
  rw [BoundedEventQueue.enqueue_of_lt _ _ h, BoundedEventQueue.overflow_of_lt _ h,
    List.append_nil]

@[simp] theorem queued_flushed (c : Channel) (front queue : List Text) :
    (c.flushed front queue).queued = queue := rfl

theorem flushed_nil (hnil : c.queued = []) : c.flushed [] [] = c := by
  unfold flushed
  rw [List.map_nil, List.append_nil, ← hnil]

theorem flushed_flushed (c : Channel) (front queue front' queue' : List Text) :
    (c.flushed front queue).flushed front' queue' = c.flushed (front ++ front') queue' := by
  simp [flushed]

/-- A round that succeeds, before the cases of the rounds left. -/
theorem FlushCase.cons {flushWrite : ℕ → Bool} {i : ℕ} {item : Text} {rest : List Text}
    (hqueued : c.queued = item :: rest) (hround : flushWrite i = true)
    (h : FlushCase flushWrite (i + 1) (c.flushed [item] rest) c') :
    FlushCase flushWrite i c c' := by
  cases h with
  | drained hall =>
    rw [queued_flushed, flushed_flushed, List.singleton_append, ← hqueued]
    refine .drained fun j hj => ?_
    rcases j with _ | j
    · exact hround
    · have hlt : j < rest.length := by
        rw [hqueued, List.length_cons] at hj
        omega
      have hnext := hall j hlt
      rwa [Nat.add_right_comm] at hnext
  | failed front failing back hrest hfail =>
    rw [flushed_flushed]
    refine .failed (item :: front) failing back ?_ ?_
    · rw [hqueued, ← queued_flushed c [item] rest, hrest, List.cons_append]
    · rw [List.length_cons]
      rwa [Nat.add_right_comm] at hfail

/-- A flush ends in one of the two cases. The induction is over its rounds. -/
theorem flushLoop_case (flushWrite : ℕ → Bool) (rounds i : ℕ) (c : Channel)
    (hrounds : c.queued.length ≤ rounds)
    (hcap : c.queued.length ≤ c.transport.eventQueue.maxCapacity) :
    FlushCase flushWrite i c (flushLoop flushWrite rounds i c) := by
  -- an empty queue ends the loop, whether or not rounds are left
  have hempty : ∀ i c, c.queued = [] → FlushCase flushWrite i c c := by
    intro i c hnil
    have hdrained : FlushCase flushWrite i c (c.flushed c.queued []) := .drained (by simp [hnil])
    rwa [hnil, flushed_nil hnil] at hdrained
  induction rounds generalizing i c with
  | zero => exact hempty i c (List.length_eq_zero_iff.mp (by omega))
  | succ rounds ih =>
    cases hqueued : c.queued with
    | nil =>
      have hstop : flushLoop flushWrite (rounds + 1) i c = c := by
        simp only [flushLoop, BoundedEventQueue.dequeue, hqueued]
      rw [hstop]
      exact hempty i c hqueued
    | cons item rest =>
      have hround : flushLoop flushWrite (rounds + 1) i c
          = if flushWrite i then flushLoop flushWrite rounds (i + 1) (c.flushed [item] rest)
            else (c.flushed [] rest).closeHandle.enqueue item := by
        simp [flushLoop, BoundedEventQueue.dequeue, hqueued, flushed, deliver]
      rw [hqueued, List.length_cons] at hrounds hcap
      rw [hround]
      split
      · next hwrite =>
        have hrest : rest.length ≤ c.transport.eventQueue.maxCapacity := by omega
        exact .cons hqueued hwrite (ih (i + 1) _ (by rw [queued_flushed]; omega) hrest)
      · next hwrite =>
        have hroom : (c.flushed [] rest).closeHandle.queued.length
            < (c.flushed [] rest).closeHandle.transport.eventQueue.maxCapacity := hcap
        rw [enqueue_of_lt hroom]
        exact .failed [] item rest hqueued (by simpa using hwrite)

/-- What `ConnectOnBackgroundThread` does. -/
inductive ConnectCase (o : Outcomes) (c : Channel) : Channel → Prop
  | connected (hopen : c.transport.pipeOpen = true) : ConnectCase o c c
  | refused (hclosed : c.transport.pipeOpen = false) (hcreate : o.createFile = false) :
    ConnectCase o c c.closeHandle
  | drained (hclosed : c.transport.pipeOpen = false) (hcreate : o.createFile = true)
    (hall : ∀ i < c.queued.length, o.flushWrite i = true) :
    ConnectCase o c
      { c.flushed c.queued [] with transport.pipeOpen := true, transport.status := .kConnected }
  | failed (hclosed : c.transport.pipeOpen = false) (hcreate : o.createFile = true)
    (front : List Text) (item : Text) (back : List Text)
    (hqueued : c.queued = front ++ item :: back)
    (hfail : o.flushWrite front.length = false) :
    ConnectCase o c (c.flushed front (back ++ [item])).closeHandle

/-- A connect finds the pipe open, fails to open it, or opens it and flushes. -/
theorem connect_case (o : Outcomes) (c : Channel)
    (hcap : c.queued.length ≤ c.transport.eventQueue.maxCapacity) :
    ConnectCase o c (c.connect o) := by
  unfold connect
  split
  · next hopen => exact .connected hopen
  · next hopen =>
    have hclosed : c.transport.pipeOpen = false := by simpa using hopen
    split
    · next hcreate =>
      have hrefused := ConnectCase.refused hclosed hcreate
      unfold closeHandle at hrefused
      rwa [← hclosed] at hrefused
    · next hcreate =>
      have hcreate : o.createFile = true := by simpa using hcreate
      unfold flushQueue
      rw [if_neg (by simp)]
      have hflush := flushLoop_case o.flushWrite c.transport.eventQueue.size 0
        { c with transport.pipeOpen := true, transport.status := .kConnected } le_rfl hcap
      generalize flushLoop _ _ _ _ = c' at hflush ⊢
      cases hflush with
      | drained hall => exact .drained hclosed hcreate (by simpa using hall)
      | failed front item back hqueued hfail =>
        exact .failed hclosed hcreate front item back hqueued (by simpa using hfail)

/-- What is left of a task that sends, once a connection has been attempted. -/
inductive SendCase (o : Outcomes) (c : Channel) (payload : Text) : Channel → Prop
  | buffered (hclosed : c.transport.pipeOpen = false) : SendCase o c payload (c.enqueue payload)
  | delivered (hopen : c.transport.pipeOpen = true) (hwrite : o.sendWrite = true) :
    SendCase o c payload (c.deliver payload)
  | broken (hopen : c.transport.pipeOpen = true) (hwrite : o.sendWrite = false) :
    SendCase o c payload (c.closeHandle.enqueue payload)

/-- A send writes, or puts the payload into the queue. -/
theorem sendPayload_case (o : Outcomes) (c : Channel) (payload : Text) :
    SendCase o (c.connect o) payload (c.sendPayload o payload) := by
  have hconnect : (if c.transport.pipeOpen = false then c.connect o else c) = c.connect o := by
    split
    · rfl
    · next hopen =>
      unfold connect
      rw [if_pos (by simpa using hopen)]
  unfold sendPayload
  simp only [hconnect]
  split
  · next hclosed => exact .buffered hclosed
  · next hopen =>
    have hopen : (c.connect o).transport.pipeOpen = true := by simpa using hopen
    split
    · next hwrite => exact .delivered hopen hwrite
    · next hwrite => exact .broken hopen (by simpa using hwrite)

/-! ## Status, handle and queue -/

/-- What holds of a channel between two tasks. -/
structure Coherent (c : Channel) : Prop where
  connected_iff : c.transport.status = .kConnected ↔ c.transport.pipeOpen = true
  queued_of_open : c.transport.pipeOpen = true → c.queued = []
  maxCapacity_eq : c.transport.eventQueue.maxCapacity = 100
  length_queued : c.queued.length ≤ 100

namespace Coherent

/-- The queue is within its capacity. -/
theorem length_le (h : Coherent c) :
    c.queued.length ≤ c.transport.eventQueue.maxCapacity := by
  rw [h.maxCapacity_eq]
  exact h.length_queued

/-- A closed handle shows in the status. -/
theorem closeHandle (h : Coherent c) : Coherent c.closeHandle where
  connected_iff := by simp [Channel.closeHandle]
  queued_of_open := by simp [Channel.closeHandle]
  maxCapacity_eq := h.maxCapacity_eq
  length_queued := h.length_queued

/-- The queue drops before it exceeds its capacity. -/
theorem enqueue (h : Coherent c) (hclosed : c.transport.pipeOpen = false) (payload : Text) :
    Coherent (c.enqueue payload) where
  connected_iff := h.connected_iff
  queued_of_open := fun hopen => by
    rw [show c.transport.pipeOpen = true from hopen] at hclosed
    cases hclosed
  maxCapacity_eq := by
    rw [← h.maxCapacity_eq]
    exact BoundedEventQueue.maxCapacity_enqueue _ _
  length_queued := by
    rw [← h.maxCapacity_eq]
    exact BoundedEventQueue.length_enqueue_le payload (by rw [h.maxCapacity_eq]; omega) h.length_le

/-- A connect ends connected with an empty queue, or disconnected. -/
theorem connect (h : Coherent c) (o : Outcomes) : Coherent (c.connect o) := by
  have hcase := connect_case o c h.length_le
  generalize c.connect o = c' at hcase ⊢
  cases hcase with
  | connected hopen => exact h
  | refused hclosed hcreate => exact h.closeHandle
  | drained hclosed hcreate hall =>
    exact ⟨by simp, fun _ => rfl, h.maxCapacity_eq, Nat.zero_le _⟩
  | failed hclosed hcreate front item back hqueued hfail =>
    refine ⟨by simp [Channel.closeHandle], by simp [Channel.closeHandle], h.maxCapacity_eq, ?_⟩
    have hle := h.length_queued
    rw [hqueued] at hle
    show (back ++ [item]).length ≤ 100
    simp only [List.length_append, List.length_cons, List.length_nil] at hle ⊢
    omega

/-- So every task leaves the transport coherent. -/
theorem step (h : Coherent c) (x : Task Text) : Coherent (c.step x) := by
  cases x with
  | reconnect o => exact h.connect o
  | send payload o =>
    have hconnect := h.connect o
    have hcase := sendPayload_case o c payload
    show Coherent (c.sendPayload o payload)
    generalize c.sendPayload o payload = c' at hcase ⊢
    cases hcase with
    | buffered hclosed => exact hconnect.enqueue hclosed payload
    | delivered hopen hwrite =>
      exact ⟨hconnect.connected_iff, hconnect.queued_of_open, hconnect.maxCapacity_eq,
        hconnect.length_queued⟩
    | broken hopen hwrite => exact hconnect.closeHandle.enqueue rfl payload

end Coherent

/-- And with it every run. -/
theorem coherent_after (tasks : List (Task Text)) : Coherent (after tasks) :=
  run_invariant (I := fun _ c => Coherent c)
    ⟨by decide, fun _ => rfl, rfl, Nat.zero_le _⟩ (fun _ x h => h.step x) tasks

/-! ## Where the payloads are -/

/-- Each payload of `sent` was written, waits in the queue, or was evicted. -/
structure Accounted (sent : List Text) (c : Channel) : Prop where
  perm : (sent.map framedMessage).Perm (c.written ++ (c.queued ++ c.evicted).map framedMessage)
  dropped : c.evicted.length = c.transport.eventQueue.droppedCount

namespace Accounted

variable {sent : List Text}

/-- A payload that is put into the queue is in it, or has evicted another. -/
theorem enqueue (h : Accounted sent c) (hpos : 0 < c.transport.eventQueue.maxCapacity)
    (payload : Text) : Accounted (sent ++ [payload]) (c.enqueue payload) where
  perm := by
    rw [List.perm_iff_count]
    intro m
    have hsent := h.perm.count_eq m
    have hqueue := congrArg (List.count m ∘ List.map framedMessage)
      (BoundedEventQueue.overflow_append_enqueue c.transport.eventQueue payload)
    simp only [Function.comp_apply, queued, List.map_append, List.count_append] at hsent hqueue
    simp only [Channel.enqueue, queued, List.map_append, List.count_append]
    omega
  dropped := by
    show (c.evicted ++ c.transport.eventQueue.overflow).length
      = (c.transport.eventQueue.enqueue payload).droppedCount
    rw [BoundedEventQueue.droppedCount_enqueue payload hpos, List.length_append, h.dropped]

/-- A payload that is written is among the written ones. -/
theorem deliver (h : Accounted sent c) (payload : Text) :
    Accounted (sent ++ [payload]) (c.deliver payload) where
  perm := by
    rw [List.perm_iff_count]
    intro m
    have hsent := h.perm.count_eq m
    simp only [queued, List.map_append, List.count_append] at hsent
    simp only [Channel.deliver, queued, List.map_append, List.count_append, List.map_singleton]
    omega
  dropped := h.dropped

/-- A flush moves payloads from the queue to the pipe, and evicts none. -/
theorem connect (h : Accounted sent c) (hc : Coherent c) (o : Outcomes) :
    Accounted sent (c.connect o) := by
  have hcase := connect_case o c hc.length_le
  generalize c.connect o = c' at hcase ⊢
  cases hcase with
  | connected hopen => exact h
  | refused hclosed hcreate => exact ⟨h.perm, h.dropped⟩
  | drained hclosed hcreate hall =>
    refine ⟨?_, h.dropped⟩
    rw [List.perm_iff_count]
    intro m
    have hsent := h.perm.count_eq m
    simp only [queued, List.map_append, List.count_append] at hsent
    simp only [flushed, queued, List.map_append, List.count_append, List.map_nil, List.count_nil]
    omega
  | failed hclosed hcreate front item back hqueued hfail =>
    refine ⟨?_, h.dropped⟩
    rw [List.perm_iff_count]
    intro m
    have hsent := h.perm.count_eq m
    rw [hqueued] at hsent
    simp only [List.map_append, List.map_cons, List.count_append, List.count_cons] at hsent
    simp only [flushed, closeHandle, queued, List.map_append, List.count_append, List.map_cons,
      List.map_nil, List.count_cons, List.count_nil]
    omega

/-- Every task accounts for the payload that it sends. -/
theorem step (h : Accounted sent c) (hc : Coherent c) (x : Task Text) :
    Accounted (sent ++ x.payload?.toList) (c.step x) := by
  cases x with
  | reconnect o =>
    rw [show sent ++ (Task.reconnect o : Task Text).payload?.toList = sent from
      List.append_nil sent]
    exact h.connect hc o
  | send payload o =>
    have hconnect := h.connect hc o
    have hpos : 0 < (c.connect o).transport.eventQueue.maxCapacity := by
      rw [(hc.connect o).maxCapacity_eq]
      omega
    have hcase := sendPayload_case o c payload
    show Accounted (sent ++ [payload]) (c.sendPayload o payload)
    generalize c.sendPayload o payload = c' at hcase ⊢
    cases hcase with
    | buffered hclosed => exact hconnect.enqueue hpos payload
    | delivered hopen hwrite => exact hconnect.deliver payload
    | broken hopen hwrite =>
      have hclosed : Accounted sent (c.connect o).closeHandle :=
        ⟨hconnect.perm, hconnect.dropped⟩
      exact hclosed.enqueue hpos payload

end Accounted

/-- Every run accounts for what was sent. -/
theorem accounted_after (tasks : List (Task Text)) :
    Accounted (Task.sent tasks) (after tasks) :=
  run_invariant (I := fun tasks c => Accounted (Task.sent tasks) c)
    (by exact ⟨List.Perm.refl _, rfl⟩) (fun past x h => by
      rw [Task.sent_concat]
      exact h.step (coherent_after past) x) tasks

/-- A connection attempt evicts nothing, even when its flush fails half-way. -/
theorem evicted_connect (hc : Coherent c) (o : Outcomes) :
    (c.connect o).evicted = c.evicted := by
  have hcase := connect_case o c hc.length_le
  generalize c.connect o = c' at hcase ⊢
  cases hcase <;> rfl

/-- After every run the handle agrees with the status, is open only over an empty queue, and
each payload sent was written once, waits among at most 100, or was evicted and counted; no
payload is ever evicted to put back another one. -/
theorem transport_accounts (tasks : List (Task Text)) :
    let c := after tasks
    (c.transport.status = .kConnected ↔ c.transport.pipeOpen = true)
      ∧ (c.transport.pipeOpen = true → c.queued = [])
      ∧ c.queued.length ≤ 100
      ∧ ((Task.sent tasks).map framedMessage).Perm
          (c.written ++ (c.queued ++ c.evicted).map framedMessage)
      ∧ c.evicted.length = c.transport.eventQueue.droppedCount
      ∧ ∀ o, (c.connect o).evicted = c.evicted := by
  have hcoherent := coherent_after tasks
  have haccounted := accounted_after tasks
  exact ⟨hcoherent.connected_iff, hcoherent.queued_of_open, hcoherent.length_queued,
    haccounted.perm, haccounted.dropped, evicted_connect hcoherent⟩

/-! ## The order of delivery -/

/-- What was written, and then what waits, is in the order of sending. -/
def Ordered (sent : List Text) (c : Channel) : Prop :=
  (c.written ++ c.queued.map framedMessage).Sublist (sent.map framedMessage)

/-- If the task opens the pipe, no write of the flush fails while further payloads wait behind
the one it takes out. -/
def FlushKeepsOrder (c : Channel) (x : Task Text) : Prop :=
  c.transport.pipeOpen = false → x.outcomes.createFile = true →
    ∀ i, i + 1 < c.queued.length → x.outcomes.flushWrite i = true

namespace Ordered

variable {sent : List Text}

/-- A payload goes behind those that were sent before it. -/
theorem enqueue (h : Ordered sent c) (payload : Text) :
    Ordered (sent ++ [payload]) (c.enqueue payload) := by
  have hqueue : (c.enqueue payload).queued.Sublist (c.queued ++ [payload]) := by
    rw [← BoundedEventQueue.overflow_append_enqueue c.transport.eventQueue payload]
    exact List.sublist_append_right _ _
  have hall : (c.written ++ (c.queued ++ [payload]).map framedMessage).Sublist
      ((sent ++ [payload]).map framedMessage) := by
    rw [List.map_append, List.map_append, ← List.append_assoc]
    exact h.append_right _
  exact ((hqueue.map framedMessage).append_left c.written).trans hall

/-- Over an empty queue a direct write overtakes nothing. -/
theorem deliver (h : Ordered sent c) (hnil : c.queued = []) (payload : Text) :
    Ordered (sent ++ [payload]) (c.deliver payload) := by
  unfold Ordered at h ⊢
  rw [hnil, List.map_nil, List.append_nil] at h
  rw [show (c.deliver payload).queued = [] from hnil, List.map_nil, List.append_nil,
    List.map_append]
  exact h.append_right _

/-- A flush keeps the order if none of its writes but the last fails. -/
theorem connect (h : Ordered sent c) (hc : Coherent c) (o : Outcomes)
    (hflush : c.transport.pipeOpen = false → o.createFile = true →
      ∀ i, i + 1 < c.queued.length → o.flushWrite i = true) : Ordered sent (c.connect o) := by
  have hcase := connect_case o c hc.length_le
  generalize c.connect o = c' at hcase ⊢
  cases hcase with
  | connected hopen => exact h
  | refused hclosed hcreate => exact h
  | drained hclosed hcreate hall =>
    show (c.written ++ c.queued.map framedMessage ++ List.map framedMessage []).Sublist _
    rw [List.map_nil, List.append_nil]
    exact h
  | failed hclosed hcreate front item back hqueued hfail =>
    -- the write that fails can only be the last one, so nothing waits behind its payload
    have hback : back = [] := by
      by_contra hne
      have hpos := List.length_pos_of_ne_nil hne
      have hok := hflush hclosed hcreate front.length (by
        rw [hqueued, List.length_append, List.length_cons]
        omega)
      rw [hok] at hfail
      cases hfail
    subst hback
    show (c.written ++ front.map framedMessage ++ [item].map framedMessage).Sublist _
    rw [List.append_assoc, ← List.map_append, ← hqueued]
    exact h

/-- So does every task under that condition. -/
theorem step (h : Ordered sent c) (hc : Coherent c) {x : Task Text}
    (hflush : FlushKeepsOrder c x) : Ordered (sent ++ x.payload?.toList) (c.step x) := by
  cases x with
  | reconnect o =>
    rw [show sent ++ (Task.reconnect o : Task Text).payload?.toList = sent from
      List.append_nil sent]
    exact h.connect hc o hflush
  | send payload o =>
    have hconnect := h.connect hc o hflush
    have hcase := sendPayload_case o c payload
    show Ordered (sent ++ [payload]) (c.sendPayload o payload)
    generalize c.sendPayload o payload = c' at hcase ⊢
    cases hcase with
    | buffered hclosed => exact hconnect.enqueue payload
    | delivered hopen hwrite => exact hconnect.deliver ((hc.connect o).queued_of_open hopen) payload
    | broken hopen hwrite =>
      have hclosed : Ordered sent (c.connect o).closeHandle := hconnect
      exact hclosed.enqueue payload

end Ordered

/-- In a run in which every flush keeps the order, the messages reach the pipe in the order in
which their payloads were sent. -/
theorem written_sublist_sent (tasks : List (Task Text))
    (hflush : Along (fun past x => FlushKeepsOrder (after past) x) tasks) :
    (after tasks).written.Sublist ((Task.sent tasks).map framedMessage) := by
  have hordered : Ordered (Task.sent tasks) (after tasks) :=
    run_induction (I := fun tasks c => Ordered (Task.sent tasks) c) (by exact List.Sublist.refl _)
      (fun past x h hx => by
        rw [Task.sent_concat]
        exact h.step (coherent_after past) hx) hflush
  exact (List.sublist_append_left _ _).trans hordered

/-- Two payloads are sent while nobody listens, the next connection drains them in order. -/
theorem written_sublist_sent_reconnect :
    (after [.send ['A'] .absent, .send ['B'] .absent, .reconnect .working,
        .send ['C'] .working]).written.Sublist
      ((Task.sent [.send ['A'] .absent, .send ['B'] .absent, .reconnect .working,
        .send ['C'] .working]).map framedMessage) := by
  apply written_sublist_sent
  show Along _ ([] ++ [_] ++ [_] ++ [_] ++ [_])
  simp only [along_concat]
  refine ⟨⟨⟨⟨along_nil, ?_⟩, ?_⟩, ?_⟩, ?_⟩
  · intro _ hcreate
    cases hcreate
  · intro _ hcreate
    cases hcreate
  · intro _ _ i _
    rfl
  · intro _ _ i _
    rfl

/-- With a connection that breaks at the first of two queued payloads the second is delivered
before it. -/
theorem not_written_sublist_sent :
    ¬∀ tasks : List (Task Text),
      (after tasks).written.Sublist ((Task.sent tasks).map framedMessage) := by
  intro h
  have hswapped := h [.send ['A'] .absent, .send ['B'] .absent,
    .reconnect { Outcomes.absent with createFile := true }, .reconnect .working]
  revert hswapped
  decide

end Channel
end ThoriumFrugal.Cognitia

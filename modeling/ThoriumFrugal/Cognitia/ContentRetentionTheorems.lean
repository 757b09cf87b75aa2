import ThoriumFrugal.Cognitia.ContentEnvelope
import ThoriumFrugal.Cognitia.TransportTheorems

/-!
# Page content in the transport's queue

A task that cannot write its payload keeps it, whatever it is. So content stays out of the
queue in exactly those runs in which every content envelope is written by its own task.
-/

namespace ThoriumFrugal.Cognitia

open Lib

namespace Channel

variable {c : Channel} {o : Outcomes} {p payload : Text}

/-! ## What stays in the queue -/

/-- The task writes the payload it sends: the pipe is open, or opens and takes everything that
waits, and takes the payload. -/
def Writes (c : Channel) (o : Outcomes) : Prop :=
  (c.transport.pipeOpen = true
      ∨ o.createFile = true ∧ ∀ i < c.queued.length, o.flushWrite i = true)
    ∧ o.sendWrite = true

theorem pipeOpen_connect_iff (hc : Coherent c) (o : Outcomes) :
    (c.connect o).transport.pipeOpen = true
      ↔ c.transport.pipeOpen = true
        ∨ o.createFile = true ∧ ∀ i < c.queued.length, o.flushWrite i = true := by
  have hcase := connect_case o c hc.length_le
  generalize c.connect o = c' at hcase ⊢
  cases hcase with
  | connected hopen => simp [hopen]
  | refused hclosed hcreate => simp [closeHandle, hclosed, hcreate]
  | drained hclosed hcreate hall => exact ⟨fun _ => .inr ⟨hcreate, hall⟩, fun _ => rfl⟩
  | failed hclosed hcreate front item back hqueued hfail =>
    constructor
    · intro hopen
      cases hopen
    · rintro (hopen | ⟨_, hall⟩)
      · rw [hclosed] at hopen
        cases hopen
      · have hok := hall front.length (by
          rw [hqueued, List.length_append, List.length_cons]
          omega)
        rw [hfail] at hok
        cases hok

theorem mem_queued_of_connect (hc : Coherent c) (h : p ∈ (c.connect o).queued) :
    p ∈ c.queued := by
  have hcase := connect_case o c hc.length_le
  generalize c.connect o = c' at hcase h
  cases hcase with
  | connected hopen => exact h
  | refused hclosed hcreate => exact h
  | drained hclosed hcreate hall => cases h
  | failed hclosed hcreate front item back hqueued hfail =>
    have hp : p ∈ back ++ [item] := h
    rw [hqueued]
    grind

/-- A payload that its task does not write is in the queue of a closed transport. -/
theorem retained_of_not_writes (hc : Coherent c) (h : ¬c.Writes o) (payload : Text) :
    (c.sendPayload o payload).transport.pipeOpen = false
      ∧ payload ∈ (c.sendPayload o payload).queued := by
  have hcase := sendPayload_case o c payload
  generalize c.sendPayload o payload = c' at hcase ⊢
  cases hcase with
  | buffered hclosed => exact ⟨hclosed, BoundedEventQueue.mem_enqueue_self _ _⟩
  | delivered hopen hwrite => exact absurd ⟨(pipeOpen_connect_iff hc o).mp hopen, hwrite⟩ h
  | broken hopen hwrite => exact ⟨rfl, BoundedEventQueue.mem_enqueue_self _ _⟩

/-- Only a payload that its task does not write is new in the queue. -/
theorem mem_queued_of_sendPayload (hc : Coherent c)
    (h : p ∈ (c.sendPayload o payload).queued) :
    p ∈ c.queued ∨ p = payload ∧ ¬c.Writes o := by
  have hcase := sendPayload_case o c payload
  have hwrites : c.Writes o ↔ (c.connect o).transport.pipeOpen = true ∧ o.sendWrite = true := by
    rw [pipeOpen_connect_iff hc]
    rfl
  generalize c.sendPayload o payload = c' at hcase h
  cases hcase with
  | buffered hclosed =>
    rcases BoundedEventQueue.mem_of_mem_enqueue _ _ h with hold | hnew
    · exact .inl (mem_queued_of_connect hc hold)
    · exact .inr ⟨hnew, by simp [hwrites, hclosed]⟩
  | delivered hopen hwrite => exact .inl (mem_queued_of_connect hc h)
  | broken hopen hwrite =>
    rcases BoundedEventQueue.mem_of_mem_enqueue _ _ h with hold | hnew
    · exact .inl (mem_queued_of_connect hc hold)
    · exact .inr ⟨hnew, by simp [hwrites, hwrite]⟩

/-! ## Runs over envelopes -/

variable (writer : JsonWriter)

/-- The channel after tasks that send the texts of envelopes. -/
def afterEnvelopes (tasks : List (Task Envelope)) : Channel :=
  after (tasks.map (Task.map (Envelope.toJson writer)))

variable {writer}

theorem afterEnvelopes_concat (tasks : List (Task Envelope)) (x : Task Envelope) :
    afterEnvelopes writer (tasks ++ [x])
      = (afterEnvelopes writer tasks).step (x.map (Envelope.toJson writer)) := by
  unfold afterEnvelopes
  rw [List.map_append]
  exact after_concat _ _

theorem coherent_afterEnvelopes (tasks : List (Task Envelope)) :
    Coherent (afterEnvelopes writer tasks) := coherent_after _

variable (writer)

/-- While the pipe is closed, no content waits. -/
def NoContentRetained (past : List (Task Envelope)) (x : Task Envelope) : Prop :=
  (afterEnvelopes writer (past ++ [x])).transport.pipeOpen = false →
    ∀ p ∈ (afterEnvelopes writer (past ++ [x])).queued, ¬IsContent writer p

/-- A task that sends content writes it. -/
def WritesContent (past : List (Task Envelope)) (x : Task Envelope) : Prop :=
  ∀ envelope o, x = .send (.content envelope) o → (afterEnvelopes writer past).Writes o

variable {writer}

theorem not_isContent_of_along {tasks : List (Task Envelope)}
    (h : Along (WritesContent writer) tasks) :
    ∀ p ∈ (afterEnvelopes writer tasks).queued, ¬IsContent writer p := by
  induction tasks using List.reverseRecOn with
  | nil =>
    intro p hp
    cases hp
  | append_singleton past x ih =>
    obtain ⟨hpast, hx⟩ := along_concat.mp h
    have hold := ih hpast
    have hc : Coherent (afterEnvelopes writer past) := coherent_afterEnvelopes past
    intro p hp
    rw [afterEnvelopes_concat] at hp
    cases x with
    | reconnect o => exact hold p (mem_queued_of_connect hc hp)
    | send envelope o =>
      rcases mem_queued_of_sendPayload hc hp with hp | ⟨rfl, hnot⟩
      · exact hold p hp
      · cases envelope with
        | observation envelope => exact not_isContent_observation writer envelope
        | content envelope => exact absurd (hx envelope o rfl) hnot

/-- Content never waits for a connection in exactly the runs whose content envelopes are all
written by the tasks that send them. -/
theorem noContentRetained_iff (writer : JsonWriter) (tasks : List (Task Envelope)) :
    Along (NoContentRetained writer) tasks ↔ Along (WritesContent writer) tasks := by
  constructor
  · rintro h past x rest htasks envelope o rfl
    by_contra hnot
    have hkept := retained_of_not_writes (coherent_afterEnvelopes past) hnot
      (envelope.toJson writer)
    have hnone := h past _ rest htasks
    unfold NoContentRetained at hnone
    rw [afterEnvelopes_concat] at hnone
    exact hnone hkept.1 _ hkept.2 (isContent_content writer envelope)
  · rintro h past x rest rfl _
    rw [List.append_cons] at h
    exact not_isContent_of_along h.left

/-- A selection on a page. -/
def selection : ContentEnvelope where
  id := "1".toList
  createdAt := "2026-01-01T00:00:00.000Z".toList
  mode := .kSelectedText
  windowId := 1
  tabId := 1
  url := "https://clinic.example/".toList
  origin := "https://clinic.example".toList
  title := "Results".toList
  extractedText := "Private Medical Records".toList
  isTruncated := false

/-- The selection, sent while nobody listens, waits in the queue. -/
theorem not_noContentRetained :
    ¬∀ (writer : JsonWriter) (tasks : List (Task Envelope)),
      Along (NoContentRetained writer) tasks := by
  intro h
  have hnone := h .compact [.send (.content selection) .absent] [] _ [] rfl rfl
  exact hnone (selection.toJson .compact) (List.mem_singleton.mpr rfl)
    (isContent_content .compact selection)

end Channel
end ThoriumFrugal.Cognitia

import ThoriumFrugal.Cognitia.JsonWriter
import ThoriumFrugal.Cognitia.TransportTheorems
import ThoriumFrugal.Lib.Frames

/-!
# From the browser to the pipe

The collector and its transport as one system. The calls on them only post tasks; the
transport's sequenced runner takes the tasks in the order they were posted, at any later time.
So a step of the pipeline is a call, or the run of the oldest posted task with the answers the
system gives it.
-/

namespace ThoriumFrugal.Cognitia

open Lib

/-- What `SendObservation` and `TryReconnect` post. -/
inductive PostedTask
  | sendPayload (payload : Text)
  | connect
deriving DecidableEq, Repr

namespace PostedTask

/-- The task when it runs. -/
def answered (o : Outcomes) : PostedTask → Task Text
  | .sendPayload payload => .send payload o
  | .connect => .reconnect o

/-- The payload of a task that sends one. -/
def payload? : PostedTask → Option Text
  | .sendPayload payload => some payload
  | .connect => none

@[simp] theorem payload?_answered (o : Outcomes) (t : PostedTask) :
    (t.answered o).payload? = t.payload? := by
  cases t <;> rfl

end PostedTask

/-- The collector and the tasks that it has posted. -/
structure ObservationPipeline where
  collector : BrowserObservationCollector := { hasTransport := true }
  /-- The tasks that wait for the runner, oldest first. -/
  posted : List PostedTask := []
  channel : Channel := {}
deriving DecidableEq, Repr

namespace ObservationPipeline

open BrowserObservationCollector (Callback)

inductive Step
  | setEnabled (enabled : Bool)
  | setUrlExposurePolicy (policy : UrlExposurePolicy)
  | callback (call : Callback)
  | tryReconnect
  | runTask (o : Outcomes)

/-- What a step hands to the transport. -/
def emitted (lib : UrlLibrary) (collector : BrowserObservationCollector) : Step → List Value
  | .callback call => collector.observe lib call
  | _ => []

variable (lib : UrlLibrary) (writer : LineWriter)

def step (p : ObservationPipeline) : Step → ObservationPipeline
  | .setEnabled enabled => { p with collector := p.collector.setEnabled enabled }
  | .setUrlExposurePolicy policy =>
    { p with collector := p.collector.setUrlExposurePolicy policy }
  | .callback call =>
    { p with
      posted := p.posted
        ++ (p.collector.observe lib call).map fun v => .sendPayload (writer.write v) }
  | .tryReconnect => { p with posted := p.posted ++ [.connect] }
  | .runTask o =>
    match p.posted with
    | [] => p
    | t :: rest => { p with posted := rest, channel := p.channel.step (t.answered o) }

/-- The pipeline after the steps, from a new collector that owns a new transport. -/
def after (steps : List Step) : ObservationPipeline := run (step lib writer) {} steps

@[simp] theorem after_concat (steps : List Step) (x : Step) :
    after lib writer (steps ++ [x]) = (after lib writer steps).step lib writer x :=
  run_concat steps x

/-- The observations emitted, in order. -/
def observed (steps : List Step) : List Value :=
  gathered (step lib writer) (fun p x => emitted lib p.collector x) {} steps

theorem observed_concat (steps : List Step) (x : Step) :
    observed lib writer (steps ++ [x])
      = observed lib writer steps ++ emitted lib (after lib writer steps).collector x :=
  gathered_concat ..

/-- The payloads that wait for the runner. -/
def pending (p : ObservationPipeline) : List Text := p.posted.filterMap PostedTask.payload?

/-- The bytes that the pipe has received. -/
def stream (p : ObservationPipeline) : Text := p.channel.written.flatten

/-! ## The transport inside -/

/-- The channel has run tasks that sent the first of the observations; the others wait. -/
theorem exists_tasks (steps : List Step) :
    ∃ tasks, (after lib writer steps).channel = Channel.after tasks
      ∧ Task.sent tasks ++ (after lib writer steps).pending
        = (observed lib writer steps).map writer.write := by
  induction steps using List.reverseRecOn with
  | nil => exact ⟨[], rfl, rfl⟩
  | append_singleton steps x ih =>
    obtain ⟨tasks, hchannel, hsent⟩ := ih
    rw [after_concat, observed_concat, List.map_append, ← hsent]
    generalize after lib writer steps = p at hchannel ⊢
    cases x with
    | setEnabled enabled => exact ⟨tasks, hchannel, (List.append_nil _).symm⟩
    | setUrlExposurePolicy policy => exact ⟨tasks, hchannel, (List.append_nil _).symm⟩
    | callback call =>
      refine ⟨tasks, hchannel, ?_⟩
      have hpayloads : ((p.collector.observe lib call).map fun v =>
          PostedTask.sendPayload (writer.write v)).filterMap PostedTask.payload?
            = (p.collector.observe lib call).map writer.write := by
        rw [List.filterMap_map]
        exact congrFun List.filterMap_eq_map' _
      simp only [step, pending, emitted, List.filterMap_append, List.append_assoc, hpayloads]
    | tryReconnect =>
      refine ⟨tasks, hchannel, ?_⟩
      simp [step, pending, emitted, PostedTask.payload?]
    | runTask o =>
      cases hposted : p.posted with
      | nil =>
        refine ⟨tasks, ?_, ?_⟩
        · simp only [step, hposted, hchannel]
        · simp only [step, hposted, emitted, List.map_nil, List.append_nil]
      | cons t rest =>
        -- the oldest posted task becomes the last task run
        refine ⟨tasks ++ [t.answered o], ?_, ?_⟩
        · simp only [step, hposted, hchannel, Channel.after_concat]
        · rw [Task.sent_concat, PostedTask.payload?_answered]
          simp only [step, pending, hposted, emitted, List.map_nil, List.append_nil,
            List.append_assoc]
          cases t <;> rfl

end ObservationPipeline
end ThoriumFrugal.Cognitia

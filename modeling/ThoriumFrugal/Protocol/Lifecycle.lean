import ThoriumFrugal.Protocol.AdapterRuns
import ThoriumFrugal.Protocol.DaemonRuns

/-!
# The lifecycle from the adapter to the daemon

The adapter, its queue and the daemon that receives what is popped. Calls on the adapter,
deliveries, the reports of the external actor and the requests for proposals interleave in any
order; an envelope that the daemon refuses is lost.
-/

namespace ThoriumFrugal.Protocol

open Lib

/-- What the external actor reports about an execution. -/
structure ExecutionReport where
  envelope : MessageEnvelope
  about_execution : envelope.messageType = .executionAuthorizationObserved
    ∨ envelope.messageType = .executionResultObserved

/-- An adapter, whose queue is the way to the daemon, and the daemon. -/
structure Lifecycle where
  adapter : MockThoriumAdapter
  daemon : MockCognitiaDaemon

namespace Lifecycle

open MockThoriumAdapter (respond)

inductive Step
  | call (call : MockThoriumAdapter.Call)
  /-- `pop`, and `process_incoming_envelope` with what comes out. -/
  | deliver (w : World)
  | report (w : World) (r : ExecutionReport)
  | generate (w : World) (args : MockCognitiaDaemon.ProposalArgs)

variable (lib : PyLib)

/-- What a step puts into the queue. -/
def makes (s : Lifecycle) : Step → Option MessageEnvelope
  | .call call => (respond lib s.adapter call).1
  | _ => none

/-- What a step takes out of the queue. -/
def takes (s : Lifecycle) : Step → Option MessageEnvelope
  | .deliver _ => s.adapter.eventQueue.pop.1
  | _ => none

/-- The daemon's part of a step. -/
def heard (s : Lifecycle) : Step → Option MockCognitiaDaemon.Call
  | .call _ => none
  | .deliver w => s.adapter.eventQueue.pop.1.map (.incoming w)
  | .report w r => some (.incoming w r.envelope)
  | .generate w args => some (.generate w args)

/-- A delivery takes the oldest envelope out of the queue; the daemon answers what it hears. -/
def step (s : Lifecycle) (x : Step) : Lifecycle where
  adapter :=
    match x with
    | .call call => (respond lib s.adapter call).2
    | .deliver _ => { s.adapter with eventQueue := s.adapter.eventQueue.pop.2 }
    | _ => s.adapter
  daemon := ((s.heard x).map (MockCognitiaDaemon.step lib s.daemon)).getD s.daemon

/-- What the daemon stores as an observation when it hears a step. -/
def stores (s : Lifecycle) (x : Step) : Option MessageEnvelope :=
  match s.heard x with
  | some (.incoming _ e) =>
    if MockCognitiaDaemon.Passes lib s.daemon e ∧ e.messageType = .observation then some e else none
  | _ => none

/-! ## Runs -/

/-- The arguments of the constructors. -/
structure Setup where
  instanceId : String := "thorium_proc_1"
  queueCapacity : ℕ := 100
  enableKillSwitch : Bool := false
  expectedToken : String := "mock_secret_token"

/-- A new adapter and a new daemon. -/
def Setup.start (u : Setup) : Lifecycle where
  adapter := .init u.instanceId u.queueCapacity u.enableKillSwitch
  daemon := { expectedToken := u.expectedToken }

/-- Both sides after some steps. -/
def after (s : Lifecycle) (steps : List Step) : Lifecycle := run (step lib) s steps

@[simp] theorem after_concat (s : Lifecycle) (steps : List Step) (x : Step) :
    after lib s (steps ++ [x]) = (after lib s steps).step lib x := run_concat steps x

/-- All envelopes that went into the queue, in order. -/
def made (s : Lifecycle) (steps : List Step) : List MessageEnvelope :=
  gathered (step lib) (fun s x => (s.makes lib x).toList) s steps

/-- All envelopes that were delivered, in order. -/
def taken (s : Lifecycle) (steps : List Step) : List MessageEnvelope :=
  gathered (step lib) (fun s x => (s.takes x).toList) s steps

/-- All envelopes whose observations were stored, in order. -/
def stored (s : Lifecycle) (steps : List Step) : List MessageEnvelope :=
  gathered (step lib) (fun s x => (s.stores lib x).toList) s steps

/-- The calls on the adapter among the steps. -/
def Step.call? : Step → Option MockThoriumAdapter.Call
  | .call adapterCall => some adapterCall
  | _ => none

/-- The switch after the steps. -/
def engaged (u : Setup) (steps : List Step) : Bool :=
  MockThoriumAdapter.engaged u.enableKillSwitch (steps.filterMap Step.call?)

end Lifecycle
end ThoriumFrugal.Protocol

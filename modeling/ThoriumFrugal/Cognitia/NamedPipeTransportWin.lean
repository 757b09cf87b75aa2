import ThoriumFrugal.Cognitia.BoundedEventQueue
import ThoriumFrugal.Lib.Run

/-!
# The named-pipe transport

`NamedPipeTransportWin` of `named_pipe_transport_win.cc`. Its tasks run one at a time on a
sequenced runner, so a run is a list of tasks. What the operating system answers is given
with each task. A `Channel` is the transport together with what the pipe has received and
what the queue has discarded.
-/

namespace ThoriumFrugal.Cognitia

open Lib

/-- The enumeration of the same name in `cognitia_transport.h`. -/
inductive TransportStatus
  | kDisconnected
  | kConnecting
  | kConnected
  | kError
deriving DecidableEq, Repr

/-- The members of the transport. -/
structure NamedPipeTransportWin where
  /-- Whether `pipe_handle_` differs from `INVALID_HANDLE_VALUE`. -/
  pipeOpen : Bool := false
  status : TransportStatus := .kDisconnected
  eventQueue : BoundedEventQueue := { maxCapacity := 100 }
deriving DecidableEq, Repr

/-- The results of the system calls of one task. -/
structure Outcomes where
  /-- Whether `CreateFileW` returns a handle. -/
  createFile : Bool
  /-- Whether the `WriteFile` of the flush loop's round `i` succeeds. -/
  flushWrite : ℕ → Bool
  /-- Whether the `WriteFile` of the payload itself succeeds. -/
  sendWrite : Bool

/-- Nobody listens on the pipe. -/
def Outcomes.absent : Outcomes where
  createFile := false
  flushWrite := fun _ => false
  sendWrite := false

/-- The pipe opens and takes every message. -/
def Outcomes.working : Outcomes where
  createFile := true
  flushWrite := fun _ => true
  sendWrite := true

/-- What is written to the pipe for a payload. -/
def framedMessage (payload : Text) : Text := payload ++ ['\n']

/-- The transport together with what it has delivered and discarded. -/
structure Channel where
  transport : NamedPipeTransportWin := {}
  /-- The messages of the successful writes. -/
  written : List Text := []
  /-- The payloads that the queue has discarded for lack of room. -/
  evicted : List Text := []
deriving DecidableEq, Repr

namespace Channel

/-- The payloads that wait in the queue. -/
abbrev queued (c : Channel) : List Text := c.transport.eventQueue.queue

/-- The payload goes into the queue of the transport. -/
def enqueue (c : Channel) (payload : Text) : Channel :=
  { c with
    transport.eventQueue := c.transport.eventQueue.enqueue payload
    evicted := c.evicted ++ c.transport.eventQueue.overflow }

/-- A successful `WriteFile`. -/
def deliver (c : Channel) (payload : Text) : Channel :=
  { c with written := c.written ++ [framedMessage payload] }

/-- `CloseHandle` and the assignments that follow it. -/
def closeHandle (c : Channel) : Channel :=
  { c with transport.pipeOpen := false, transport.status := .kDisconnected }

/-- The loop of `FlushQueueOnBackgroundThread` from round `i` on. Every round takes a payload
out of the queue, so its size bounds the rounds. -/
def flushLoop (flushWrite : ℕ → Bool) : ℕ → ℕ → Channel → Channel
  | 0, _, c => c
  | rounds + 1, i, c =>
    match c.transport.eventQueue.dequeue with
    | (none, _) => c
    | (some queuedItem, rest) =>
      let c := { c with transport.eventQueue := rest }
      if flushWrite i then flushLoop flushWrite rounds (i + 1) (c.deliver queuedItem)
      else c.closeHandle.enqueue queuedItem

/-- `FlushQueue`: the waiting payloads, oldest first, up to the first write that fails. -/
def flushQueue (o : Outcomes) (c : Channel) : Channel :=
  if c.transport.pipeOpen = false then c
  else flushLoop o.flushWrite c.transport.eventQueue.size 0 c

/-- `ConnectOnBackgroundThread`. -/
def connect (o : Outcomes) (c : Channel) : Channel :=
  if c.transport.pipeOpen then c
  else
    let c := { c with transport.status := .kConnecting }
    if o.createFile = false then { c with transport.status := .kDisconnected }
    else
      flushQueue o
        { c with transport.pipeOpen := true, transport.status := .kConnected }

/-- `SendPayloadOnBackgroundThread`. -/
def sendPayload (o : Outcomes) (c : Channel) (payload : Text) : Channel :=
  let c := if c.transport.pipeOpen = false then c.connect o else c
  if c.transport.pipeOpen = false then c.enqueue payload
  else if o.sendWrite then c.deliver payload
  else c.closeHandle.enqueue payload

end Channel

/-! ## Runs -/

/-- What `SendObservation` and `TryReconnect` post. -/
inductive Task (α : Type*)
  | send (payload : α) (o : Outcomes)
  | reconnect (o : Outcomes)

namespace Task

variable {α β : Type*}

/-- What the pipe does during a task. -/
def outcomes : Task α → Outcomes
  | .send _ o => o
  | .reconnect o => o

/-- The payload of a send. -/
def payload? : Task α → Option α
  | .send payload _ => some payload
  | .reconnect _ => none

/-- The task with another payload. -/
def map (f : α → β) : Task α → Task β
  | .send payload o => .send (f payload) o
  | .reconnect o => .reconnect o

/-- The payloads sent, in order. -/
def sent (tasks : List (Task α)) : List α := tasks.filterMap payload?

theorem sent_concat (tasks : List (Task α)) (x : Task α) :
    sent (tasks ++ [x]) = sent tasks ++ x.payload?.toList := by
  unfold sent
  rw [List.filterMap_append]
  cases x <;> rfl

end Task

namespace Channel

def step (c : Channel) : Task Text → Channel
  | .send payload o => c.sendPayload o payload
  | .reconnect o => c.connect o

/-- The channel of a new transport after the tasks. -/
def after (tasks : List (Task Text)) : Channel := run step {} tasks

@[simp] theorem after_concat (tasks : List (Task Text)) (x : Task Text) :
    after (tasks ++ [x]) = (after tasks).step x := run_concat tasks x

end Channel
end ThoriumFrugal.Cognitia

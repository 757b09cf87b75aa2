import ThoriumFrugal.Protocol.ProtocolValidator
import ThoriumFrugal.Protocol.SecurityValidator

/-!
# The adapter

The browser's side: observations become envelopes, which wait in a bounded queue. An operation
returns the envelope it has made, if any, together with the adapter's next state.
-/

namespace ThoriumFrugal.Protocol

open Lib

/-! ## The queue -/

/-- `deque(maxlen=capacity)` with its two counters. -/
structure BoundedEventQueue (α : Type*) where
  capacity : ℕ := 100
  queue : List α := []
  totalEnqueued : ℕ := 0
  totalDropped : ℕ := 0

namespace BoundedEventQueue

variable {α : Type*}

/-- `deque.append` with a `maxlen`: the items in front make room. -/
def append (maxlen : ℕ) (queue : List α) (item : α) : List α :=
  (queue ++ [item]).drop (queue.length + 1 - maxlen)

/-- `enqueue`. -/
def enqueue (q : BoundedEventQueue α) (item : α) : BoundedEventQueue α :=
  { q with
    totalDropped := if q.queue.length ≥ q.capacity then q.totalDropped + 1 else q.totalDropped
    queue := append q.capacity q.queue item
    totalEnqueued := q.totalEnqueued + 1 }

/-- `pop`, with the item. -/
def pop (q : BoundedEventQueue α) : Option α × BoundedEventQueue α :=
  match q.queue with
  | [] => (none, q)
  | item :: rest => (some item, { q with queue := rest })

/-- `size`. -/
def size (q : BoundedEventQueue α) : ℕ := q.queue.length

/-- `is_empty`. -/
def isEmpty (q : BoundedEventQueue α) : Bool := q.queue.length = 0

/-- `clear`. -/
def clear (q : BoundedEventQueue α) : BoundedEventQueue α := { q with queue := [] }

theorem pop_fst (q : BoundedEventQueue α) : q.pop.1 = q.queue.head? := by
  unfold pop
  split
  · rename_i hnil
    rw [hnil, List.head?_nil]
  · rename_i hcons
    rw [hcons, List.head?_cons]

end BoundedEventQueue

/-! ## The adapter -/

/-- The attributes of the adapter. -/
structure MockThoriumAdapter where
  instanceId : String := "thorium_proc_1"
  isEnabled : Bool := true
  sessionId : Option String := none
  sequenceNumber : ℕ := 0
  eventQueue : BoundedEventQueue MessageEnvelope := {}

/-- The arguments of `observe_navigation`. -/
structure NavigationArgs where
  url : String
  tabId : ℤ
  profileId : String := "profile_default"
  title : String := ""
  isIncognito : Bool := false
  navigationId : Option String := none

/-- The arguments of `observe_content_extraction`. -/
structure ExtractionArgs where
  url : String
  tabId : ℤ
  extractedText : String
  selector : String := "body"
  isIncognito : Bool := false

namespace MockThoriumAdapter

/-- `self.source`. -/
def source (a : MockThoriumAdapter) : SourceIdentity :=
  { application := "thorium"
    adapter := "cognitia_adapter"
    component := "observation_collector"
    instanceId := a.instanceId }

/-- The constructor. -/
def init (instanceId : String) (queueCapacity : ℕ) (enableKillSwitch : Bool) :
    MockThoriumAdapter :=
  { instanceId := instanceId
    isEnabled := !enableKillSwitch
    eventQueue := { capacity := queueCapacity } }

/-- `set_kill_switch`. -/
def setKillSwitch (a : MockThoriumAdapter) (disabled : Bool) : MockThoriumAdapter :=
  { a with
    isEnabled := !disabled
    eventQueue := if disabled then a.eventQueue.clear else a.eventQueue }

/-- An envelope of the adapter with the number `seq + 1`. -/
def envelope (w : World) (uuid : ℕ) (a : MockThoriumAdapter) (messageType : MessageType)
    (sessionId : String) (seq : ℕ) (payload : Json) : MessageEnvelope where
  protocolVersion := "1.0"
  messageType := messageType
  messageId := w.uuidStr uuid
  sessionId := sessionId
  sequenceNumber := seq + 1
  timestamp := w.timestamp 0
  source := a.source
  payload := payload
  version_supported := supportedVersion_mock
  sequence_pos := Nat.succ_pos seq
  messageId_uuid := w.uuidStr_valid uuid

/-- The end of every operation: the envelope with the next number goes into the queue. -/
def send (w : World) (uuid : ℕ) (a : MockThoriumAdapter) (messageType : MessageType)
    (payload : Json) : Option MessageEnvelope × MockThoriumAdapter :=
  let e := envelope w uuid a messageType (a.sessionId.getD "") a.sequenceNumber payload
  (some e,
    { a with
      sequenceNumber := a.sequenceNumber + 1
      eventQueue := a.eventQueue.enqueue e })

/-- `start_session`. -/
def startSession (w : World) (a : MockThoriumAdapter) (authToken : String) :
    Option MessageEnvelope × MockThoriumAdapter :=
  let helloPayload : SessionHelloData :=
    { clientVersion := "1.0.0"
      clientCapabilities := ["OBSERVATION", "SANITIZATION_V1"]
      authToken := authToken
      nonce := w.uuidStr 1 }
  send w 2 { a with sessionId := some (w.uuidStr 0), sequenceNumber := 0 } .sessionHello
    helloPayload.toDict

/-- `close_session`, nothing without a session. -/
def closeSession (w : World) (a : MockThoriumAdapter) (reason : String) :
    Option MessageEnvelope × MockThoriumAdapter :=
  if ¬truthy a.sessionId then (none, a)
  else send w 0 a .sessionClose (.obj [("reason", .str reason)])

/-- `observe_navigation`. -/
def observeNavigation (lib : PyLib) (w : World) (a : MockThoriumAdapter) (args : NavigationArgs) :
    Option MessageEnvelope × MockThoriumAdapter :=
  if ¬a.isEnabled ∨ ¬truthy a.sessionId then (none, a)
  else
    let cleanUrl := SecurityValidator.sanitizeUrl lib args.url
    -- a UUID is drawn for the navigation only if it has no id
    let given := truthy args.navigationId
    let context : ObservationContext :=
      { profileId := if ¬args.isIncognito then args.profileId else "incognito_transient"
        tabId := args.tabId
        isIncognito := args.isIncognito
        url := cleanUrl
        title := args.title
        navigationId := if given then args.navigationId else some (w.uuidStr 0) }
    let obsData : ObservationData :=
      { observationType := "PAGE_NAVIGATION"
        context := context
        data := .obj [("url", .str cleanUrl), ("title", .str args.title)]
        epistemicStatus := "UNRESOLVED"
        sourceType := "SENSOR" }
    send w (if given then 0 else 1) a .observation obsData.toDict

/-- `observe_content_extraction`. -/
def observeContentExtraction (lib : PyLib) (w : World) (a : MockThoriumAdapter)
    (args : ExtractionArgs) : Option MessageEnvelope × MockThoriumAdapter :=
  if ¬a.isEnabled ∨ ¬truthy a.sessionId then (none, a)
  else
    let cleanUrl := SecurityValidator.sanitizeUrl lib args.url
    let hasPromptInjection :=
      SecurityValidator.detectPromptInjectionInObservation lib args.extractedText
    let context : ObservationContext :=
      { profileId := if args.isIncognito then "incognito_transient" else "profile_default"
        tabId := args.tabId
        isIncognito := args.isIncognito
        url := cleanUrl }
    let obsData : ObservationData :=
      { observationType := "CONTENT_EXTRACTION"
        context := context
        data := .obj [("extracted_text", .str args.extractedText), ("selector", .str args.selector),
          ("quarantined_suspicious", .bool hasPromptInjection)]
        epistemicStatus := "UNRESOLVED"
        sourceType := "SENSOR" }
    send w 0 a .observation obsData.toDict

end MockThoriumAdapter
end ThoriumFrugal.Protocol

import ThoriumFrugal.Cognitia.UrlSanitizer

/-!
# Browser observations

`ObservationEnvelope` of `observation_envelope.cc` and `BrowserObservationCollector` of
`browser_observation_collector.cc`. The random id and the time of an envelope are arguments.
What the transport is handed is the dictionary behind the JSON text.
-/

namespace ThoriumFrugal.Cognitia

open Lib

/-- The enumeration of the same name in `observation_types.h`. -/
inductive BrowserEventType
  | kBrowserStarted
  | kTabCreated
  | kTabActivated
  | kTabClosed
  | kNavigationStarted
  | kNavigationCommitted
  | kNavigationFinished
  | kPageTitleChanged
  | kPageLoadCompleted
  | kTextSelectionChanged
deriving DecidableEq, Repr

/-- `BrowserEventTypeToString`. -/
def browserEventTypeToString : BrowserEventType → Text
  | .kBrowserStarted => "browser_started".toList
  | .kTabCreated => "tab_created".toList
  | .kTabActivated => "tab_activated".toList
  | .kTabClosed => "tab_closed".toList
  | .kNavigationStarted => "navigation_started".toList
  | .kNavigationCommitted => "navigation_committed".toList
  | .kNavigationFinished => "navigation_finished".toList
  | .kPageTitleChanged => "page_title_changed".toList
  | .kPageLoadCompleted => "page_load_completed".toList
  | .kTextSelectionChanged => "text_selection_changed".toList

/-- The values of `base::Value` that envelopes are made of. -/
inductive Value
  | bool (b : Bool)
  | int (n : ℤ)
  | string (s : Text)
  | dict (entries : List (Text × Value))

/-! ## Envelopes -/

/-- An observation; `title` is already in UTF-8. -/
structure ObservationEnvelope where
  id : Text
  schemaVersion : Text := "1.0.0".toList
  createdAt : Text
  eventType : BrowserEventType
  windowId : ℤ
  tabId : ℤ
  isActiveTab : Bool
  url : Text
  origin : Text
  title : Text
  isIncognito : Bool
deriving DecidableEq, Repr

namespace ObservationEnvelope

/-- `ObservationEnvelope::ToValueDict`. -/
def toValueDict (envelope : ObservationEnvelope) : Value :=
  let browser : Value := .dict
    [("name".toList, .string "Lean Thorium".toList),
      ("version".toList, .string "138.0.7204.306".toList)]
  let event : Value := .dict
    [("type".toList, .string (browserEventTypeToString envelope.eventType)),
      ("timestamp_utc".toList, .string envelope.createdAt)]
  let context : Value := .dict
    [("window_id".toList, .int envelope.windowId),
      ("tab_id".toList, .int envelope.tabId),
      ("is_active_tab".toList, .bool envelope.isActiveTab),
      ("is_incognito".toList, .bool envelope.isIncognito)]
  let page : Value := .dict
    [("url".toList, .string envelope.url),
      ("origin".toList, .string envelope.origin),
      ("title".toList, .string envelope.title)]
  let provenance : Value := .dict
    [("source_type".toList, .string "sensor".toList),
      ("producer_id".toList, .string "thorium_browser_adapter".toList),
      ("capability_id".toList, .string "browser_observation".toList)]
  .dict
    [("id".toList, .string envelope.id),
      ("schema_version".toList, .string envelope.schemaVersion),
      ("created_at".toList, .string envelope.createdAt),
      ("source_id".toList, .string "thorium_browser_adapter".toList),
      ("metadata".toList, .dict []),
      ("payload".toList, .dict
        [("browser".toList, browser), ("event".toList, event), ("context".toList, context),
          ("page".toList, page), ("provenance".toList, provenance)])]

/-- Of two envelopes that agree elsewhere, the dictionaries show URL and origin. -/
theorem toValueDict_eq_iff (envelope : ObservationEnvelope) {url origin url' origin' : Text} :
    ({ envelope with url := url, origin := origin } : ObservationEnvelope).toValueDict
        = ({ envelope with url := url', origin := origin' } : ObservationEnvelope).toValueDict
      ↔ url = url' ∧ origin = origin' := by
  simp [toValueDict]

end ObservationEnvelope

/-! ## The collector -/

/-- The members of the collector that decide what it sends. -/
structure BrowserObservationCollector where
  isEnabled : Bool := false
  urlPolicy : UrlExposurePolicy := .kFullUrlSanitized
  hasTransport : Bool
deriving DecidableEq, Repr

namespace BrowserObservationCollector

/-- The arguments of `EmitEvent` next to the URL. -/
structure EventData where
  eventType : BrowserEventType
  windowId : ℤ
  tabId : ℤ
  isActiveTab : Bool
  title : Text
  isIncognito : Bool

/-- What `EmitEvent` hands to the transport, if anything. -/
def emitEvent (lib : UrlLibrary) (collector : BrowserObservationCollector) (data : EventData)
    (url : GURL) (id createdAt : Text) : Option Value :=
  if collector.isEnabled = false ∨ collector.hasTransport = false then none
  else
    let sanitizedUrl := UrlSanitizer.sanitizeUrl lib url collector.urlPolicy
    -- filled in under every policy
    let origin := (url.deprecatedGetOriginAsURL lib).spec
    let envelope : ObservationEnvelope :=
      { id := id
        createdAt := createdAt
        eventType := data.eventType
        windowId := data.windowId
        tabId := data.tabId
        isActiveTab := data.isActiveTab
        url := sanitizedUrl
        origin := origin
        title := data.title
        isIncognito := data.isIncognito }
    some envelope.toValueDict

end BrowserObservationCollector

/-! ## Settings and observer callbacks -/

/-- The random id and the creation time of an envelope. -/
structure Stamp where
  id : Text
  createdAt : Text
deriving DecidableEq, Repr

/-- `TabStripModelChange::Type`. -/
inductive TabStripModelChange
  | kSelectionOnly
  | kInserted
  | kRemoved
  | kMoved
  | kReplaced
deriving DecidableEq, Repr

/-- The parts of `TabStripSelectionChange` that the collector reads. -/
structure TabStripSelectionChange where
  oldActiveIndex : ℤ
  newActiveIndex : ℤ
  activeTabChanged : Bool
deriving DecidableEq, Repr

/-- The parts of `content::NavigationHandle` that the collector reads. -/
structure NavigationHandle where
  isInPrimaryMainFrame : Bool
  hasCommitted : Bool
  url : GURL
deriving DecidableEq, Repr

/-- The parts of `content::WebContents` that the collector reads; `title` is in UTF-8. -/
structure WebContents where
  visibleUrl : GURL
  title : Text
deriving DecidableEq, Repr

/-- `GURL("about:blank")`. -/
def GURL.aboutBlank : GURL :=
  { isValid := true, scheme := "about".toList, path := "blank".toList }

/-- `GURL()`. -/
def GURL.empty : GURL := { isValid := false }

namespace BrowserObservationCollector

section

variable (lib : UrlLibrary) (collector : BrowserObservationCollector)

/-- `SetUrlExposurePolicy`. -/
def setUrlExposurePolicy (policy : UrlExposurePolicy) : BrowserObservationCollector :=
  { collector with urlPolicy := policy }

/-- `SetEnabled`. -/
def setEnabled (enabled : Bool) : BrowserObservationCollector :=
  { collector with isEnabled := enabled }

/-- `OnTabStripModelChanged`, with the stamps of the two envelopes it may emit. -/
def onTabStripModelChanged (change : TabStripModelChange) (selection : TabStripSelectionChange)
    (first second : Stamp) : List Value :=
  if collector.isEnabled = false then []
  else
    (if change = .kInserted then
        (collector.emitEvent lib
          { eventType := .kTabCreated
            windowId := 1
            tabId := selection.newActiveIndex
            isActiveTab := true
            title := "New Tab".toList
            isIncognito := false }
          .aboutBlank first.id first.createdAt).toList
      else if change = .kRemoved then
        (collector.emitEvent lib
          { eventType := .kTabClosed
            windowId := 1
            tabId := selection.oldActiveIndex
            isActiveTab := false
            title := []
            isIncognito := false }
          .empty first.id first.createdAt).toList
      else [])
    ++ if selection.activeTabChanged then
        (collector.emitEvent lib
          { eventType := .kTabActivated
            windowId := 1
            tabId := selection.newActiveIndex
            isActiveTab := true
            title := []
            isIncognito := false }
          .empty second.id second.createdAt).toList
      else []

/-- The arguments that the page callbacks share: tab 0 of window 1. -/
def pageEvent (eventType : BrowserEventType) (title : Text) : EventData where
  eventType := eventType
  windowId := 1
  tabId := 0
  isActiveTab := true
  title := title
  isIncognito := false

/-- `DidStartNavigation`: only the primary main frame is observed. -/
def didStartNavigation (handle : NavigationHandle) (stamp : Stamp) : List Value :=
  if collector.isEnabled = false ∨ handle.isInPrimaryMainFrame = false then []
  else
    (collector.emitEvent lib (pageEvent .kNavigationStarted []) handle.url
      stamp.id stamp.createdAt).toList

/-- `DidFinishNavigation`: only a committed navigation of the primary main frame is observed. -/
def didFinishNavigation (handle : NavigationHandle) (stamp : Stamp) : List Value :=
  if collector.isEnabled = false ∨ handle.isInPrimaryMainFrame = false
      ∨ handle.hasCommitted = false then []
  else
    (collector.emitEvent lib (pageEvent .kNavigationCommitted []) handle.url
      stamp.id stamp.createdAt).toList

/-- `TitleWasSet`; `webContents` is none for a null pointer. -/
def titleWasSet (webContents : Option WebContents) (stamp : Stamp) : List Value :=
  match webContents with
  | none => []
  | some contents =>
    if collector.isEnabled = false then []
    else
      (collector.emitEvent lib (pageEvent .kPageTitleChanged contents.title) contents.visibleUrl
        stamp.id stamp.createdAt).toList

/-- The calls of the browser that may emit, and `EmitEvent` itself. -/
inductive Callback
  | onTabStripModelChanged (change : TabStripModelChange) (selection : TabStripSelectionChange)
      (first second : Stamp)
  | didStartNavigation (handle : NavigationHandle) (stamp : Stamp)
  | didFinishNavigation (handle : NavigationHandle) (stamp : Stamp)
  | titleWasSet (webContents : Option WebContents) (stamp : Stamp)
  | emitEvent (data : EventData) (url : GURL) (stamp : Stamp)

/-- What a callback hands to the transport, in order. -/
def observe : Callback → List Value
  | .onTabStripModelChanged change selection first second =>
    collector.onTabStripModelChanged lib change selection first second
  | .didStartNavigation handle stamp => collector.didStartNavigation lib handle stamp
  | .didFinishNavigation handle stamp => collector.didFinishNavigation lib handle stamp
  | .titleWasSet webContents stamp => collector.titleWasSet lib webContents stamp
  | .emitEvent data url stamp =>
    (collector.emitEvent lib data url stamp.id stamp.createdAt).toList

end

end BrowserObservationCollector
end ThoriumFrugal.Cognitia

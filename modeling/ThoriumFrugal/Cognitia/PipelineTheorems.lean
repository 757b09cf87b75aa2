import ThoriumFrugal.Cognitia.ExposureTheorems
import ThoriumFrugal.Cognitia.ObservationPipeline

/-!
# What the pipe carries

The bytes in the pipe are the lines of some of the observations, and every observation is in
the pipe, in the transport, or discarded. What was observed is said by the calls alone: the
last settings before a callback decide whether it emits and how much of its URL it shows.
-/

namespace ThoriumFrugal.Cognitia

open Lib

namespace ObservationPipeline

open BrowserObservationCollector (Callback)

variable {lib : UrlLibrary} {writer : LineWriter} {steps past rest : List Step}

/-! ## Settings -/

/-- The new setting of the switch, if the step sets it. -/
def Step.enabled? : Step → Option Bool
  | .setEnabled enabled => some enabled
  | _ => none

/-- The new exposure policy, if the step sets it. -/
def Step.policy? : Step → Option UrlExposurePolicy
  | .setUrlExposurePolicy policy => some policy
  | _ => none

/-- The last `SetEnabled` decides; a new collector is disabled. -/
def enabledAfter (steps : List Step) : Bool := (steps.filterMap Step.enabled?).getLast?.getD false

/-- The last `SetUrlExposurePolicy` decides. -/
def policyAfter (steps : List Step) : UrlExposurePolicy :=
  (steps.filterMap Step.policy?).getLast?.getD .kFullUrlSanitized

/-- What an enabled collector with this policy reports. -/
def reported (lib : UrlLibrary) (policy : UrlExposurePolicy) (call : Callback) : List Value :=
  { isEnabled := true, urlPolicy := policy, hasTransport := true
    : BrowserObservationCollector }.observe lib call

/-- The collector after some steps is the one of the last settings. -/
theorem collector_after (steps : List Step) :
    (after lib writer steps).collector
      = { isEnabled := enabledAfter steps
          urlPolicy := policyAfter steps
          hasTransport := true } := by
  induction steps using List.reverseRecOn with
  | nil => rfl
  | append_singleton steps x ih =>
    rw [after_concat]
    cases x with
    | setEnabled enabled =>
      simp [step, ih, BrowserObservationCollector.setEnabled, enabledAfter, policyAfter,
        Step.enabled?, Step.policy?]
    | setUrlExposurePolicy policy =>
      simp [step, ih, BrowserObservationCollector.setUrlExposurePolicy, enabledAfter,
        policyAfter, Step.enabled?, Step.policy?]
    | runTask o =>
      have hframe : ((after lib writer steps).step lib writer (.runTask o)).collector
          = (after lib writer steps).collector := by
        simp only [step]
        split <;> rfl
      simp [hframe, ih, enabledAfter, policyAfter, Step.enabled?, Step.policy?]
    | _ => simp [step, ih, enabledAfter, policyAfter, Step.enabled?, Step.policy?]

/-- A disabled collector is silent. -/
theorem observe_of_disabled {collector : BrowserObservationCollector}
    (h : collector.isEnabled = false) (call : Callback) : collector.observe lib call = [] := by
  have hemit : ∀ data url id createdAt,
      collector.emitEvent lib data url id createdAt = none := fun data url id createdAt =>
    if_pos (.inl h)
  cases call with
  | onTabStripModelChanged => exact if_pos h
  | didStartNavigation => exact if_pos (.inl h)
  | didFinishNavigation => exact if_pos (.inl h)
  | titleWasSet contents =>
    cases contents with
    | none => rfl
    | some contents => exact if_pos h
  | emitEvent => simp [BrowserObservationCollector.observe, hemit]

/-- An observation was reported by a callback at which the last settings allowed it. -/
theorem mem_observed_iff {v : Value} :
    v ∈ observed lib writer steps
      ↔ ∃ past call rest, steps = past ++ .callback call :: rest ∧ enabledAfter past = true
        ∧ v ∈ reported lib (policyAfter past) call := by
  have hcallback : ∀ past call,
      (v ∈ emitted lib (after lib writer past).collector (.callback call)
        ↔ enabledAfter past = true ∧ v ∈ reported lib (policyAfter past) call) := by
    intro past call
    rw [collector_after]
    cases henabled : enabledAfter past with
    | false =>
      have hsilent : BrowserObservationCollector.observe lib
          { isEnabled := false, urlPolicy := policyAfter past, hasTransport := true } call = [] :=
        observe_of_disabled rfl call
      simp [emitted, hsilent]
    | true => simp [emitted, reported]
  unfold observed
  rw [mem_gathered_iff]
  constructor
  · rintro ⟨past, x, rest, rfl, hv⟩
    cases x with
    | callback call => exact ⟨past, call, rest, rfl, (hcallback past call).mp hv⟩
    | _ => cases hv
  · rintro ⟨past, call, rest, rfl, hon⟩
    exact ⟨past, .callback call, rest, rfl, (hcallback past call).mpr hon⟩

/-! ## The bytes in the pipe -/

/-- Where the observations are: their lines are in the pipe, wait in the queue, were discarded
from it, or wait for the runner. -/
structure Located (writer : LineWriter) (p : ObservationPipeline)
    (delivered waiting discarded unsent : List Value) : Prop where
  stream : p.stream = framed '\n' (delivered.map writer.write)
  queued : p.channel.queued = waiting.map writer.write
  evicted : p.channel.evicted = discarded.map writer.write
  pending : p.pending = unsent.map writer.write

theorem framedMessage_injective : Function.Injective framedMessage :=
  fun _ _ h => List.append_left_injective _ h

/-- A rearranged image is the image of a rearrangement. -/
theorem exists_map_eq_of_perm {α β : Type*} {f : α → β} {xs : List α} {ys : List β}
    (h : (xs.map f).Perm ys) : ∃ zs, ys = zs.map f ∧ xs.Perm zs := by
  have hcomp := congrFun₂ (List.eq_map_comp_perm f) ys xs
  obtain ⟨zs, hmap, hperm⟩ := cast hcomp.symm h.symm
  exact ⟨zs, hmap, hperm.symm⟩

/-- The channel wrote the payloads that it neither queues nor discarded. -/
theorem exists_written (tasks : List (Task Text)) :
    ∃ payloads, (Channel.after tasks).written = payloads.map framedMessage
      ∧ (Task.sent tasks).Perm (payloads
        ++ ((Channel.after tasks).queued ++ (Channel.after tasks).evicted)) := by
  obtain ⟨all, hall, hsent⟩ := exists_map_eq_of_perm (Channel.accounted_after tasks).perm
  obtain ⟨payloads, kept, rfl, hwritten, hkept⟩ := List.append_eq_map_iff.mp hall
  have hsame : kept = (Channel.after tasks).queued ++ (Channel.after tasks).evicted :=
    List.map_injective_iff.mpr framedMessage_injective hkept
  exact ⟨payloads, hwritten.symm, hsame ▸ hsent⟩

/-- Each observation is in one of the four places, as often as it was made. -/
theorem exists_located (lib : UrlLibrary) (writer : LineWriter) (steps : List Step) :
    ∃ delivered waiting discarded unsent,
      Located writer (after lib writer steps) delivered waiting discarded unsent
        ∧ (observed lib writer steps).Perm (delivered ++ (waiting ++ discarded) ++ unsent) := by
  obtain ⟨tasks, hchannel, hsent⟩ := exists_tasks lib writer steps
  obtain ⟨payloads, hwritten, hperm⟩ := exists_written tasks
  obtain ⟨all, hall, hobserved⟩ := exists_map_eq_of_perm (f := writer.write)
    (hsent ▸ hperm.append_right (after lib writer steps).pending)
  obtain ⟨sent, unsent, rfl, hsent, hunsent⟩ := List.append_eq_map_iff.mp hall
  obtain ⟨delivered, kept, rfl, hdelivered, hkept⟩ := List.append_eq_map_iff.mp hsent.symm
  obtain ⟨waiting, discarded, rfl, hwaiting, hdiscarded⟩ := List.append_eq_map_iff.mp hkept.symm
  refine ⟨delivered, waiting, discarded, unsent, ⟨?_, ?_, ?_, hunsent.symm⟩, hobserved⟩
  · rw [stream, hchannel, hwritten, hdelivered]
    exact List.flatMap_def.symm
  · rw [hchannel, hwaiting]
  · rw [hchannel, hdiscarded]

theorem newline_not_mem_lines (writer : LineWriter) (values : List Value) :
    ∀ m ∈ values.map writer.write, '\n' ∉ m := by
  intro m hm
  obtain ⟨v, -, rfl⟩ := List.mem_map.mp hm
  exact writer.newline_not_mem_write v

/-- In every interleaving of calls and tasks, whoever splits the bytes in the pipe at newlines
gets the texts of some observations, and earlier the first of them. These, the at most 100 in
the queue, the discarded and counted ones and those not sent yet are all the observations, each
as often as it was made. -/
theorem stream_accounts (lib : UrlLibrary) (writer : LineWriter) (steps : List Step) :
    let p := after lib writer steps
    ∃ delivered waiting discarded unsent : List Value,
      received '\n' p.stream = delivered.map writer.write
        ∧ (∀ s, s <+: p.stream → received '\n' s <+: delivered.map writer.write)
        ∧ p.channel.queued = waiting.map writer.write ∧ waiting.length ≤ 100
        ∧ p.channel.evicted = discarded.map writer.write
        ∧ discarded.length = p.channel.transport.eventQueue.droppedCount
        ∧ p.pending = unsent.map writer.write
        ∧ (observed lib writer steps).Perm (delivered ++ (waiting ++ discarded) ++ unsent) := by
  obtain ⟨delivered, waiting, discarded, unsent, hlocated, hperm⟩ :=
    exists_located lib writer steps
  obtain ⟨tasks, hchannel, -⟩ := exists_tasks lib writer steps
  have hlines := newline_not_mem_lines writer delivered
  have hbound := (Channel.coherent_after tasks).length_queued
  have hdropped := (Channel.accounted_after tasks).dropped
  rw [← hchannel, hlocated.queued, List.length_map] at hbound
  rw [← hchannel, hlocated.evicted, List.length_map] at hdropped
  refine ⟨delivered, waiting, discarded, unsent, ?_, fun s hs => ?_, hlocated.queued, hbound,
    hlocated.evicted, hdropped, hlocated.pending, hperm⟩
  · rw [hlocated.stream, received_framed hlines]
  · exact received_initial hlines (hlocated.stream ▸ hs)

/-! ## What a line shows -/

/-- The URLs that a callback reports. -/
def urls : Callback → List GURL
  | .onTabStripModelChanged .. => [.aboutBlank, .empty]
  | .didStartNavigation handle _ => [handle.url]
  | .didFinishNavigation handle _ => [handle.url]
  | .titleWasSet webContents _ => (webContents.map WebContents.visibleUrl).toList
  | .emitEvent _ url _ => [url]

/-- An observation is the dictionary of an envelope with the sanitized form of such a URL. -/
theorem exists_envelope_of_mem_reported {policy : UrlExposurePolicy} {call : Callback} {v : Value}
    (h : v ∈ reported lib policy call) :
    ∃ envelope : ObservationEnvelope, v = envelope.toValueDict
      ∧ ∃ url ∈ urls call, envelope.url = UrlSanitizer.sanitizeUrl lib url policy := by
  have hemit : ∀ {data url id createdAt},
      v ∈ (BrowserObservationCollector.emitEvent lib
        { isEnabled := true, urlPolicy := policy, hasTransport := true } data url id
        createdAt).toList →
      ∃ envelope : ObservationEnvelope, v = envelope.toValueDict
        ∧ envelope.url = UrlSanitizer.sanitizeUrl lib url policy := by
    intro data url id createdAt hv
    rw [Option.mem_toList] at hv
    exact ⟨_, (Option.some.inj hv).symm, rfl⟩
  -- a callback reports nothing, or emits its event with one of its URLs
  have hone : ∀ {url data id createdAt}, url ∈ urls call →
      v ∈ (BrowserObservationCollector.emitEvent lib
        { isEnabled := true, urlPolicy := policy, hasTransport := true } data url id
        createdAt).toList →
      ∃ envelope : ObservationEnvelope, v = envelope.toValueDict
        ∧ ∃ url ∈ urls call, envelope.url = UrlSanitizer.sanitizeUrl lib url policy := by
    intro url data id createdAt hurl hv
    obtain ⟨envelope, heq, hsanitized⟩ := hemit hv
    exact ⟨envelope, heq, url, hurl, hsanitized⟩
  have hon : ¬(true = false) := by decide
  cases call with
  | onTabStripModelChanged change selection first second =>
    unfold reported BrowserObservationCollector.observe at h
    simp only [BrowserObservationCollector.onTabStripModelChanged, if_neg hon] at h
    rcases List.mem_append.mp h with htab | hactivated
    · split at htab
      · exact hone (by simp [urls]) htab
      · split at htab
        · exact hone (by simp [urls]) htab
        · cases htab
    · split at hactivated
      · exact hone (by simp [urls]) hactivated
      · cases hactivated
  | didStartNavigation handle stamp =>
    unfold reported BrowserObservationCollector.observe at h
    simp only [BrowserObservationCollector.didStartNavigation] at h
    split at h
    · cases h
    · exact hone (by simp [urls]) h
  | didFinishNavigation handle stamp =>
    unfold reported BrowserObservationCollector.observe at h
    simp only [BrowserObservationCollector.didFinishNavigation] at h
    split at h
    · cases h
    · exact hone (by simp [urls]) h
  | titleWasSet webContents stamp =>
    cases webContents with
    | none => cases h
    | some contents => exact hone (by simp [urls]) h
  | emitEvent data url stamp => exact hone (by simp [urls]) h

/-- At every moment each complete line in the pipe is an envelope that some callback emitted
while the last `SetEnabled` before it enabled the collector, with a URL sanitized under the
policy last set before it. -/
theorem received_line (lib : UrlLibrary) (writer : LineWriter) (steps : List Step) {s line : Text}
    (hs : s <+: (after lib writer steps).stream) (hline : line ∈ received '\n' s) :
    ∃ past call rest, steps = past ++ .callback call :: rest ∧ enabledAfter past = true
      ∧ ∃ envelope : ObservationEnvelope, line = writer.write envelope.toValueDict
        ∧ ∃ url ∈ urls call,
          envelope.url = UrlSanitizer.sanitizeUrl lib url (policyAfter past) := by
  obtain ⟨delivered, waiting, discarded, unsent, hlocated, hperm⟩ :=
    exists_located lib writer steps
  have hlines := newline_not_mem_lines writer delivered
  have hmem := (received_initial hlines (hlocated.stream ▸ hs)).subset hline
  obtain ⟨v, hv, rfl⟩ := List.mem_map.mp hmem
  have hobserved : v ∈ observed lib writer steps :=
    hperm.mem_iff.mpr (List.mem_append_left _ (List.mem_append_left _ hv))
  obtain ⟨past, call, rest, hsplit, hon, hreported⟩ := mem_observed_iff.mp hobserved
  obtain ⟨envelope, rfl, hurl⟩ := exists_envelope_of_mem_reported hreported
  exact ⟨past, call, rest, hsplit, hon, envelope, rfl, hurl⟩

/-- A page whose URL carries a secret twice. -/
def loginUrl (secret : Text) : GURL where
  isValid := true
  scheme := "https".toList
  username := "ann".toList
  password := secret
  host := some "news.example".toList
  path := "/".toList
  query := some ("token=".toList ++ secret)

/-- A navigation to a page with a token in its query. -/
def visit (secret : Text) : Step :=
  .callback (.didStartNavigation
    { isInPrimaryMainFrame := true, hasCommitted := false, url := loginUrl secret }
    { id := "1".toList, createdAt := "2026-01-01T00:00:00.000Z".toList })

/-- The page is visited before and after the collector is enabled. -/
def stroll (secret : Text) : List Step :=
  [visit secret, .setEnabled true, visit secret, .runTask .working]

/-! ## Two runs -/

/-- Valid URLs of one origin that the policy must not distinguish. The origin is sent under every
policy, so without it URLs are told apart even under `kOmitted`. -/
structure Undistinguished (policy : UrlExposurePolicy) (u v : GURL) : Prop where
  left_valid : u.isValid = true
  right_valid : v.isValid = true
  origin : SameOrigin u v
  same : MustNotDistinguish policy u v

/-- Two changes of the tab strip that agree in what their events name: the same events, with the
indices and the stamps that these carry. -/
structure SameTabEvents (change change' : TabStripModelChange)
    (selection selection' : TabStripSelectionChange) (first first' second second' : Stamp) :
    Prop where
  inserted : change = .kInserted ↔ change' = .kInserted
  removed : change = .kRemoved ↔ change' = .kRemoved
  activated : selection.activeTabChanged = selection'.activeTabChanged
  newIndex : change = .kInserted ∨ selection.activeTabChanged = true →
    selection.newActiveIndex = selection'.newActiveIndex
  oldIndex : change = .kRemoved → selection.oldActiveIndex = selection'.oldActiveIndex
  first : change = .kInserted ∨ change = .kRemoved → first = first'
  second : selection.activeTabChanged = true → second = second'

/-- The callbacks that report nothing under any settings: of frames that are not the primary main
frame, of navigations that did not commit, and without a page. -/
inductive Unreported : Callback → Prop
  | startedElsewhere {handle : NavigationHandle} (h : handle.isInPrimaryMainFrame = false)
    (stamp : Stamp) : Unreported (.didStartNavigation handle stamp)
  | finishedElsewhere {handle : NavigationHandle} (h : handle.isInPrimaryMainFrame = false)
    (stamp : Stamp) : Unreported (.didFinishNavigation handle stamp)
  | uncommitted {handle : NavigationHandle} (h : handle.hasCommitted = false) (stamp : Stamp) :
    Unreported (.didFinishNavigation handle stamp)
  | noContents (stamp : Stamp) : Unreported (.titleWasSet none stamp)

/-- The same step, except that a disabled collector may see any callback, and an enabled one other
callbacks that it does not report, other parts of a tab change that its events do not name, and
another URL that the policy must not distinguish. -/
inductive Alike (enabled : Bool) (policy : UrlExposurePolicy) : Step → Step → Prop
  | refl (x : Step) : Alike enabled policy x x
  | disabled (hoff : enabled = false) (call call' : Callback) :
    Alike enabled policy (.callback call) (.callback call')
  | unreported {call call' : Callback} (h : Unreported call) (h' : Unreported call') :
    Alike enabled policy (.callback call) (.callback call')
  | onTabStripModelChanged {change change' : TabStripModelChange}
    {selection selection' : TabStripSelectionChange} {first first' second second' : Stamp}
    (h : SameTabEvents change change' selection selection' first first' second second') :
    Alike enabled policy (.callback (.onTabStripModelChanged change selection first second))
      (.callback (.onTabStripModelChanged change' selection' first' second'))
  | didStartNavigation (handle : NavigationHandle) (stamp : Stamp) {url : GURL}
    (h : Undistinguished policy handle.url url) :
    Alike enabled policy (.callback (.didStartNavigation handle stamp))
      (.callback (.didStartNavigation { handle with url := url } stamp))
  | didFinishNavigation (handle : NavigationHandle) (stamp : Stamp) {url : GURL}
    (h : Undistinguished policy handle.url url) :
    Alike enabled policy (.callback (.didFinishNavigation handle stamp))
      (.callback (.didFinishNavigation { handle with url := url } stamp))
  | titleWasSet (contents : WebContents) (stamp : Stamp) {url : GURL}
    (h : Undistinguished policy contents.visibleUrl url) :
    Alike enabled policy (.callback (.titleWasSet (some contents) stamp))
      (.callback (.titleWasSet (some { contents with visibleUrl := url }) stamp))
  | emitEvent (data : BrowserObservationCollector.EventData) (stamp : Stamp) {url url' : GURL}
    (h : Undistinguished policy url url') :
    Alike enabled policy (.callback (.emitEvent data url stamp))
      (.callback (.emitEvent data url' stamp))

/-- A collector does not tell undistinguished URLs apart. -/
theorem Undistinguished.emitEvent_eq {collector : BrowserObservationCollector} {u v : GURL}
    (h : Undistinguished collector.urlPolicy u v)
    (data : BrowserObservationCollector.EventData) (id createdAt : Text) :
    collector.emitEvent lib data u id createdAt = collector.emitEvent lib data v id createdAt := by
  unfold BrowserObservationCollector.emitEvent
  rw [h.same.sanitizeUrl_eq lib h.left_valid h.right_valid,
    h.origin.getOrigin_eq lib h.left_valid h.right_valid]

/-- Nor tab changes with the same events. -/
theorem SameTabEvents.onTabStripModelChanged_eq {change change' : TabStripModelChange}
    {selection selection' : TabStripSelectionChange} {first first' second second' : Stamp}
    (h : SameTabEvents change change' selection selection' first first' second second')
    (collector : BrowserObservationCollector) :
    collector.onTabStripModelChanged lib change selection first second
      = collector.onTabStripModelChanged lib change' selection' first' second' := by
  have hactivated : (selection.activeTabChanged = true) = (selection'.activeTabChanged = true) := by
    rw [h.activated]
  unfold BrowserObservationCollector.onTabStripModelChanged
  congr 2
  · -- the events of an insertion and of a removal
    by_cases hinserted : change = .kInserted
    · rw [if_pos hinserted, if_pos (h.inserted.mp hinserted), h.newIndex (.inl hinserted),
        h.first (.inl hinserted)]
    rw [if_neg hinserted, if_neg (h.inserted.not.mp hinserted)]
    by_cases hremoved : change = .kRemoved
    · rw [if_pos hremoved, if_pos (h.removed.mp hremoved), h.oldIndex hremoved,
        h.first (.inr hremoved)]
    · rw [if_neg hremoved, if_neg (h.removed.not.mp hremoved)]
  · by_cases hchanged : selection.activeTabChanged = true
    · rw [if_pos hchanged, if_pos (hactivated.mp hchanged), h.newIndex (.inr hchanged),
        h.second hchanged]
    · rw [if_neg hchanged, if_neg (hactivated ▸ hchanged)]

theorem Unreported.observe_eq_nil {call : Callback} (h : Unreported call)
    (collector : BrowserObservationCollector) : collector.observe lib call = [] := by
  cases h with
  | startedElsewhere h => exact if_pos (.inr h)
  | finishedElsewhere h => exact if_pos (.inr (.inl h))
  | uncommitted h => exact if_pos (.inr (.inr h))
  | noContents => rfl

/-- The pipeline takes the same step. -/
theorem Alike.step_eq {p : ObservationPipeline} {x y : Step}
    (h : Alike p.collector.isEnabled p.collector.urlPolicy x y) :
    p.step lib writer x = p.step lib writer y := by
  cases h with
  | refl => rfl
  | disabled hoff call call' =>
    simp only [step, observe_of_disabled hoff]
  | unreported h h' =>
    simp only [step, h.observe_eq_nil, h'.observe_eq_nil]
  | onTabStripModelChanged h =>
    simp only [step, BrowserObservationCollector.observe, h.onTabStripModelChanged_eq]
  | didStartNavigation handle stamp h =>
    simp only [step, BrowserObservationCollector.observe,
      BrowserObservationCollector.didStartNavigation, h.emitEvent_eq]
  | didFinishNavigation handle stamp h =>
    simp only [step, BrowserObservationCollector.observe,
      BrowserObservationCollector.didFinishNavigation, h.emitEvent_eq]
  | titleWasSet contents stamp h =>
    simp only [step, BrowserObservationCollector.observe,
      BrowserObservationCollector.titleWasSet, h.emitEvent_eq]
  | emitEvent data stamp h =>
    simp only [step, BrowserObservationCollector.observe, h.emitEvent_eq]

/-- Two runs that are alike under the settings of their own past leave the same pipeline: the
same bytes in the pipe, the same queue and the same tasks. -/
theorem after_eq_of_alike (lib : UrlLibrary) (writer : LineWriter) (pairs : List (Step × Step))
    (h : Along (fun past x => Alike (enabledAfter (past.map Prod.fst))
      (policyAfter (past.map Prod.fst)) x.1 x.2) pairs) :
    after lib writer (pairs.map Prod.fst) = after lib writer (pairs.map Prod.snd) := by
  induction pairs using List.reverseRecOn with
  | nil => rfl
  | append_singleton pairs x ih =>
    obtain ⟨hpairs, hx⟩ := along_concat.mp h
    rw [List.map_append, List.map_append, List.map_singleton, List.map_singleton, after_concat,
      after_concat, ← ih hpairs]
    refine Alike.step_eq ?_
    rw [collector_after]
    exact hx

theorem undistinguished_loginUrl :
    Undistinguished .kFullUrlSanitized (loginUrl "red".toList) (loginUrl "blue".toList) := by
  have hred : queryIterator "token=red".toList = [("token".toList, "red".toList)] := by decide
  have hblue : queryIterator "token=blue".toList = [("token".toList, "blue".toList)] := by decide
  refine ⟨rfl, rfl, ⟨rfl, rfl, rfl⟩, ⟨rfl, rfl, rfl⟩, rfl, .some ?_⟩
  show List.Forall₂ SamePair (queryIterator "token=red".toList) (queryIterator "token=blue".toList)
  rw [hred, hblue]
  exact .cons ⟨rfl, .inl (by decide)⟩ .nil

/-- The secret does not show in the pipe. -/
theorem after_stroll_eq :
    after httpsLibrary .compact (stroll "red".toList)
      = after httpsLibrary .compact (stroll "blue".toList) := by
  refine after_eq_of_alike httpsLibrary .compact
    [(visit "red".toList, visit "blue".toList), (.setEnabled true, .setEnabled true),
      (visit "red".toList, visit "blue".toList), (.runTask .working, .runTask .working)] ?_
  show Along _ ([] ++ [_] ++ [_] ++ [_] ++ [_])
  simp only [along_concat]
  refine ⟨⟨⟨⟨along_nil, ?_⟩, ?_⟩, ?_⟩, ?_⟩
  · exact .disabled rfl _ _
  · exact .refl _
  · exact .didStartNavigation _ _ undistinguished_loginUrl
  · exact .refl _

end ObservationPipeline
end ThoriumFrugal.Cognitia

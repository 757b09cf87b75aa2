import ThoriumFrugal.Lib.Run
import ThoriumFrugal.Privacy.Types

/-!
# The event dispatcher

`PrivacyEventDispatcher` of `privacy_event_dispatcher.cc`. `DispatchEvent` copies the listeners
under the lock and calls the copies after it. A listener may itself call the dispatcher, and so
may other threads; so between two calls of one `DispatchEvent` anything may happen. A step is
one access to the listeners under the lock, or the next call that one of the dispatches under
way makes.
-/

namespace ThoriumFrugal.Privacy

open Lib

/-- A `DispatchEvent` behind its copy. -/
structure Dispatching (L : Type*) where
  event : PrivacyEvent
  /-- The copied listeners that are still to be called; none is an empty function. -/
  localListeners : List (Option L)
deriving DecidableEq, Repr

/-- The listeners in the order of registration, null ones included. -/
structure PrivacyEventDispatcher (L : Type*) where
  listeners : List (Option L) := []
  /-- All dispatches so far, in the order in which they copied the listeners. -/
  dispatches : List (Dispatching L) := []
  /-- The calls of listeners so far, each with the number of its dispatch. -/
  heard : List (ℕ × L) := []
deriving DecidableEq, Repr

namespace PrivacyEventDispatcher

variable {L : Type*}

/-- `AddListener`. -/
def addListener (s : PrivacyEventDispatcher L) (listener : Option L) : PrivacyEventDispatcher L :=
  { s with listeners := s.listeners ++ [listener] }

/-- `ClearListeners`. -/
def clearListeners (s : PrivacyEventDispatcher L) : PrivacyEventDispatcher L :=
  { s with listeners := [] }

/-- The part of `DispatchEvent` under the lock. -/
def dispatchEvent (s : PrivacyEventDispatcher L) (event : PrivacyEvent) :
    PrivacyEventDispatcher L :=
  { s with dispatches := s.dispatches ++ [{ event := event, localListeners := s.listeners }] }

/-- The next round of the loop of dispatch `i`. -/
def callNext (s : PrivacyEventDispatcher L) (i : ℕ) : PrivacyEventDispatcher L :=
  match s.dispatches[i]? with
  | none => s
  | some d =>
    match d.localListeners with
    | [] => s
    | listener :: rest =>
      { s with
        dispatches := s.dispatches.set i { d with localListeners := rest }
        heard := s.heard ++ (listener.map fun l => (i, l)).toList }

/-! ## Runs -/

/-- The calls on a dispatcher. -/
inductive Step (L : Type*)
  | addListener (listener : Option L)
  | clearListeners
  | dispatchEvent (event : PrivacyEvent)
  | callNext (i : ℕ)

/-- What a call does to the dispatcher. -/
def step (s : PrivacyEventDispatcher L) : Step L → PrivacyEventDispatcher L
  | .addListener listener => s.addListener listener
  | .clearListeners => s.clearListeners
  | .dispatchEvent event => s.dispatchEvent event
  | .callNext i => s.callNext i

/-- The dispatcher after the steps, from a new one. -/
def after (steps : List (Step L)) : PrivacyEventDispatcher L := run step {} steps

@[simp] theorem after_concat (steps : List (Step L)) (x : Step L) :
    after (steps ++ [x]) = (after steps).step x := run_concat steps x

/-- The listeners that dispatch `i` has called, in order. -/
def heardIn (s : PrivacyEventDispatcher L) (i : ℕ) : List L :=
  (s.heard.filter (·.1 = i)).map Prod.snd

/-- What one round can do: nothing, or call the first of the listeners left. -/
inductive CallCase (s : PrivacyEventDispatcher L) (i : ℕ) : PrivacyEventDispatcher L → Prop
  | nothing : CallCase s i s
  | called (d : Dispatching L) (listener : Option L) (rest : List (Option L))
    (hd : s.dispatches[i]? = some d) (hleft : d.localListeners = listener :: rest) :
    CallCase s i
      { s with
        dispatches := s.dispatches.set i { d with localListeners := rest }
        heard := s.heard ++ (listener.map fun l => (i, l)).toList }

theorem callNext_case (s : PrivacyEventDispatcher L) (i : ℕ) : CallCase s i (s.callNext i) := by
  unfold callNext
  split
  · exact .nothing
  · next d hd =>
    split
    · exact .nothing
    · next listener rest hleft => exact .called d listener rest hd hleft

theorem lt_length_of_called {s : PrivacyEventDispatcher L} {i : ℕ} {d : Dispatching L}
    (hd : s.dispatches[i]? = some d) : i < s.dispatches.length :=
  (List.getElem?_eq_some_iff.mp hd).1

theorem length_dispatches_step (s : PrivacyEventDispatcher L) (x : Step L) :
    s.dispatches.length ≤ (s.step x).dispatches.length := by
  cases x with
  | dispatchEvent event => simp [step, dispatchEvent]
  | callNext i =>
    show _ ≤ (s.callNext i).dispatches.length
    have hcase := s.callNext_case i
    generalize s.callNext i = s' at hcase ⊢
    cases hcase with
    | nothing => exact le_rfl
    | called d listener rest hd hleft => simp
  | _ => exact le_rfl

/-- Listeners are called by dispatches only. -/
theorem lt_length_of_heard (steps : List (Step L)) :
    ∀ call ∈ (after steps).heard, call.1 < (after steps).dispatches.length := by
  induction steps using List.reverseRecOn with
  | nil => simp [after]
  | append_singleton steps x ih =>
    rw [after_concat]
    have hmono := (after steps).length_dispatches_step x
    generalize after steps = s at ih hmono ⊢
    cases x with
    | callNext i =>
      have hcase := s.callNext_case i
      show ∀ call ∈ (s.callNext i).heard, call.1 < (s.callNext i).dispatches.length
      generalize s.callNext i = s' at hcase ⊢
      cases hcase with
      | nothing => exact ih
      | called d listener rest hd hleft =>
        intro call hcall
        rw [List.length_set]
        rcases List.mem_append.mp hcall with hold | hnew
        · exact ih call hold
        · obtain ⟨l, -, rfl⟩ := Option.map_eq_some_iff.mp (Option.mem_toList.mp hnew)
          exact lt_length_of_called hd
    | _ => exact fun call hcall => lt_of_lt_of_le (ih call hcall) hmono

/-! ## Who hears an event -/

/-- The listener that is added, if the call adds one. -/
def Step.added? : Step L → Option (Option L)
  | .addListener listener => some listener
  | _ => none

/-- The call clears the listeners. -/
def Step.isClear : Step L → Bool
  | .clearListeners => true
  | _ => false

/-- The listeners added since the last `ClearListeners`, in order. -/
def registered (steps : List (Step L)) : List (Option L) :=
  ((steps.reverse.takeWhile fun x => !x.isClear).reverse).filterMap Step.added?

theorem registered_concat (steps : List (Step L)) (x : Step L) :
    registered (steps ++ [x])
      = if x.isClear then [] else registered steps ++ x.added?.toList := by
  unfold registered
  rw [List.reverse_append, List.reverse_singleton, List.singleton_append]
  cases hx : x.isClear with
  | true => simp [hx]
  | false =>
    cases hadded : x.added? with
    | none => simp [hx, hadded]
    | some listener => simp [hx, hadded]

theorem listeners_after (steps : List (Step L)) : (after steps).listeners = registered steps := by
  induction steps using List.reverseRecOn with
  | nil => rfl
  | append_singleton steps x ih =>
    rw [after_concat, registered_concat, ← ih]
    generalize after steps = s
    cases x with
    | clearListeners => rfl
    | callNext i =>
      have hcase := s.callNext_case i
      show (s.callNext i).listeners = _
      generalize s.callNext i = s' at hcase ⊢
      cases hcase <;> exact (List.append_nil _).symm
    | addListener listener => rfl
    | dispatchEvent event => exact (List.append_nil _).symm

/-- Dispatch `i` is one of this event; the listeners it called and the ones left are those of
the copy. -/
def Covers (s : PrivacyEventDispatcher L) (i : ℕ) (event : PrivacyEvent)
    (copy : List (Option L)) : Prop :=
  ∃ d, s.dispatches[i]? = some d ∧ d.event = event
    ∧ s.heardIn i ++ d.localListeners.reduceOption = copy.reduceOption

variable {s : PrivacyEventDispatcher L} {i : ℕ} {event : PrivacyEvent} {copy : List (Option L)}

/-- A dispatch starts with the listeners of the moment. -/
theorem covers_dispatchEvent (hheard : ∀ call ∈ s.heard, call.1 < s.dispatches.length)
    (event : PrivacyEvent) :
    (s.dispatchEvent event).Covers s.dispatches.length event s.listeners := by
  refine ⟨_, List.getElem?_concat_length, rfl, ?_⟩
  have hnone : (s.dispatchEvent event).heardIn s.dispatches.length = [] := by
    unfold heardIn
    rw [List.map_eq_nil_iff, List.filter_eq_nil_iff]
    intro call hcall
    have hlt := hheard call hcall
    simp only [decide_eq_true_eq]
    omega
  rw [hnone, List.nil_append]

/-- Nothing that happens later changes whom a dispatch calls. -/
theorem Covers.step (h : s.Covers i event copy) (x : Step L) :
    (s.step x).Covers i event copy := by
  obtain ⟨d, hd, hevent, hcopy⟩ := h
  have hlt := lt_length_of_called hd
  cases x with
  | addListener listener => exact ⟨d, hd, hevent, hcopy⟩
  | clearListeners => exact ⟨d, hd, hevent, hcopy⟩
  | dispatchEvent new =>
    refine ⟨d, ?_, hevent, hcopy⟩
    exact (List.getElem?_append_left hlt).trans hd
  | callNext j =>
    have hcase := s.callNext_case j
    show (s.callNext j).Covers i event copy
    generalize s.callNext j = s' at hcase ⊢
    cases hcase with
    | nothing => exact ⟨d, hd, hevent, hcopy⟩
    | called d' listener rest hd' hleft =>
      by_cases hij : j = i
      · -- a round of this dispatch moves its first listener to the ones called
        subst hij
        obtain rfl : d' = d := Option.some.inj (hd'.symm.trans hd)
        refine ⟨{ d' with localListeners := rest }, ?_, hevent, ?_⟩
        · exact List.getElem?_set_self hlt
        · rw [← hcopy, hleft]
          unfold heardIn
          rw [List.filter_append, List.map_append, List.append_assoc]
          cases listener with
          | none => rfl
          | some l => simp
      · refine ⟨d, ?_, hevent, ?_⟩
        · exact (List.getElem?_set_ne hij).trans hd
        · rw [← hcopy]
          unfold heardIn
          rw [List.filter_append, List.map_append]
          cases listener with
          | none => simp
          | some l => simp [hij]

/-- However calls, re-entrant listeners and other threads interleave, a dispatch calls exactly
the listeners that were added before it and not cleared since, each as often as it was added,
in the order of registration; until it is through, it has called the first of them. -/
theorem heard_of_dispatchEvent (past rest : List (Step L)) (event : PrivacyEvent) :
    (after (past ++ .dispatchEvent event :: rest)).Covers (after past).dispatches.length event
      (registered past) := by
  induction rest using List.reverseRecOn with
  | nil =>
    rw [after_concat, ← listeners_after]
    exact covers_dispatchEvent (lt_length_of_heard past) event
  | append_singleton rest x ih =>
    rw [← List.cons_append, ← List.append_assoc, after_concat]
    exact ih.step x

/-! ## Dispatches one at a time -/

/-- What the listeners would hear if every dispatch were one step. -/
def broadcast (steps : List (Step L)) : List (PrivacyEvent × L) :=
  history step (fun s heard x => heard ++ match x with
    | .dispatchEvent event => s.listeners.reduceOption.map fun l => (event, l)
    | _ => []) {} [] steps

/-- What the listeners have heard, in order. -/
def log (s : PrivacyEventDispatcher L) : List (PrivacyEvent × L) :=
  s.heard.filterMap fun call => s.dispatches[call.1]?.map fun d => (d.event, call.2)

/-- What they will still hear of the dispatches under way. -/
def left (s : PrivacyEventDispatcher L) : List (PrivacyEvent × L) :=
  s.dispatches.flatMap fun d => d.localListeners.reduceOption.map fun l => (d.event, l)

/-- No dispatch is under way. -/
def Idle (s : PrivacyEventDispatcher L) : Prop := ∀ d ∈ s.dispatches, d.localListeners = []

/-- Only the dispatch that started last may be under way. -/
def OneUnderWay (s : PrivacyEventDispatcher L) : Prop :=
  ∀ i d, s.dispatches[i]? = some d → d.localListeners ≠ [] → i + 1 = s.dispatches.length

theorem Idle.left_eq_nil (h : s.Idle) : s.left = [] := by
  unfold left
  rw [List.flatMap_eq_nil_iff]
  intro d hd
  rw [h d hd]
  rfl

/-- The dispatch under way stands behind dispatches that are through. -/
theorem OneUnderWay.exists_append (h : s.OneUnderWay) {d : Dispatching L}
    (hd : s.dispatches[i]? = some d) (hleft : d.localListeners ≠ []) :
    ∃ through, s.dispatches = through ++ [d] ∧ through.length = i
      ∧ ∀ d' ∈ through, d'.localListeners = [] := by
  have hlast := h i d hd hleft
  obtain ⟨hlt, hget⟩ := List.getElem?_eq_some_iff.mp hd
  refine ⟨s.dispatches.take i, ?_, by simp; omega, fun d' hd' => ?_⟩
  · rw [← hget, List.take_concat_get', hlast, List.take_length]
  · obtain ⟨j, hj, rfl⟩ := List.mem_take_iff_getElem.mp hd'
    by_contra hne
    have hjlt : j < s.dispatches.length := by omega
    have := h j _ (List.getElem?_eq_getElem hjlt) hne
    omega

/-- Behind dispatches that are through, the last one is all that is left. -/
theorem left_eq {through : List (Dispatching L)} {d : Dispatching L}
    (hs : s.dispatches = through ++ [d]) (hthrough : ∀ d' ∈ through, d'.localListeners = []) :
    s.left = d.localListeners.reduceOption.map fun l => (d.event, l) := by
  have hnil : (through.flatMap fun d =>
      d.localListeners.reduceOption.map fun l => (d.event, l)) = [] := by
    rw [List.flatMap_eq_nil_iff]
    intro d' hd'
    rw [hthrough d' hd']
    rfl
  unfold left
  rw [hs, List.flatMap_append, hnil, List.flatMap_singleton, List.nil_append]

theorem log_dispatchEvent (hheard : ∀ call ∈ s.heard, call.1 < s.dispatches.length)
    (event : PrivacyEvent) : (s.dispatchEvent event).log = s.log := by
  refine List.filterMap_congr fun call hcall => ?_
  exact congrArg (Option.map _) (List.getElem?_append_left (hheard call hcall))

/-- A round adds the call it makes. -/
theorem log_called {d : Dispatching L} {listener : Option L} {rest : List (Option L)}
    (hd : s.dispatches[i]? = some d) :
    log { s with
        dispatches := s.dispatches.set i { d with localListeners := rest }
        heard := s.heard ++ (listener.map fun l => (i, l)).toList }
      = s.log ++ (listener.map fun l => (d.event, l)).toList := by
  have hevent : ∀ j : ℕ, ∀ l : L,
      ((s.dispatches.set i { d with localListeners := rest })[j]?.map fun d => (d.event, l))
        = s.dispatches[j]?.map fun d => (d.event, l) := by
    intro j l
    by_cases hij : i = j
    · subst hij
      rw [List.getElem?_set_self (lt_length_of_called hd), hd]
      rfl
    · rw [List.getElem?_set_ne hij]
  unfold log
  rw [List.filterMap_append]
  simp only [hevent]
  cases listener with
  | none => rfl
  | some l => simp [hd]

/-- If no dispatch starts while another is under way, the listeners hear what they would hear
of atomic dispatches, in the same order. -/
theorem log_append_left {steps : List (Step L)}
    (h : Along (fun past x => ∀ event, x = .dispatchEvent event → (after past).Idle) steps) :
    (after steps).log ++ (after steps).left = broadcast steps := by
  suffices hinv : (after steps).OneUnderWay
      ∧ (after steps).log ++ (after steps).left = broadcast steps from hinv.2
  refine history_induction
    (I := fun _ (s : PrivacyEventDispatcher L) heard => s.OneUnderWay ∧ s.log ++ s.left = heard)
    ⟨fun i d hd => by simp at hd, rfl⟩ ?_ h
  intro past x ⟨hone, hlog⟩ hx
  have hheard := lt_length_of_heard past
  unfold after at hx hheard
  generalize run step {} past = s at hone hlog hx hheard ⊢
  cases x with
  | addListener listener => exact ⟨hone, by rw [List.append_nil]; exact hlog⟩
  | clearListeners => exact ⟨hone, by rw [List.append_nil]; exact hlog⟩
  | dispatchEvent event =>
    have hidle := hx event rfl
    rw [hidle.left_eq_nil, List.append_nil] at hlog
    refine ⟨fun i d hd hne => ?_, ?_⟩
    · by_contra hlast
      have hlt := lt_length_of_called hd
      have hlength : (s.dispatchEvent event).dispatches.length = s.dispatches.length + 1 := by
        simp [dispatchEvent]
      have hold : s.dispatches[i]? = some d :=
        (List.getElem?_append_left (by
          change i + 1 ≠ (s.dispatchEvent event).dispatches.length at hlast
          change i < (s.dispatchEvent event).dispatches.length at hlt
          omega)).symm.trans hd
      exact hne (hidle d (List.mem_of_getElem? hold))
    · show (s.dispatchEvent event).log ++ (s.dispatchEvent event).left = _
      rw [log_dispatchEvent hheard, hlog, left_eq (s := s.dispatchEvent event) rfl hidle]
  | callNext i =>
    have hcase := s.callNext_case i
    show (s.callNext i).OneUnderWay ∧ (s.callNext i).log ++ (s.callNext i).left = _
    rw [List.append_nil]
    generalize s.callNext i = s' at hcase ⊢
    cases hcase with
    | nothing => exact ⟨hone, hlog⟩
    | called d listener rest hd hleft =>
      have hne : d.localListeners ≠ [] := by simp [hleft]
      have hlast := hone i d hd hne
      refine ⟨fun j d' hd' hne' => ?_, ?_⟩
      · rw [List.length_set]
        by_cases hij : i = j
        · rw [← hij]
          exact hlast
        · exact hone j d' ((List.getElem?_set_ne hij).symm.trans hd') hne'
      · obtain ⟨through, hs, hlength, hthrough⟩ := hone.exists_append hd hne
        have hset : s.dispatches.set i { d with localListeners := rest }
            = through ++ [{ d with localListeners := rest }] := by
          rw [hs, ← hlength]
          simp
        rw [log_called hd, left_eq hset hthrough, ← hlog, left_eq hs hthrough, hleft]
        cases listener with
        | none => simp
        | some l => simp

/-- Two listeners, of which the second is added behind the first event; the dispatches of two
events do not overlap. -/
theorem log_append_left_two :
    let steps : List (Step ℕ) := [.addListener (some 1), .dispatchEvent {}, .addListener (some 2),
      .callNext 0, .dispatchEvent { eventId := ['2'] }, .callNext 1]
    (after steps).log ++ (after steps).left = broadcast steps := by
  intro steps
  apply log_append_left
  show Along _ ([] ++ [_] ++ [_] ++ [_] ++ [_] ++ [_] ++ [_])
  simp only [along_concat]
  refine ⟨⟨⟨⟨⟨⟨along_nil, nofun⟩, fun _ _ => ?_⟩, nofun⟩, nofun⟩, fun _ _ => ?_⟩, nofun⟩
  · show ∀ d ∈ _, _
    decide
  · show ∀ d ∈ _, _
    decide

end PrivacyEventDispatcher
end ThoriumFrugal.Privacy

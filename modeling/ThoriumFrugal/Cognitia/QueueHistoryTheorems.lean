import ThoriumFrugal.Cognitia.BoundedEventQueue
import ThoriumFrugal.Lib.Ledger
import ThoriumFrugal.Lib.Run

/-!
# The history of the transport's queue

Over any sequence of calls on a queue with room for at least one payload: what was accepted left
in front, once and in order, or is still held, and `dropped_count_` counts what was pushed out or
refused.
-/

namespace ThoriumFrugal.Cognitia

open Lib

namespace BoundedEventQueue

/-! ## Calls -/

/-- The calls on a queue. -/
inductive Call
  | enqueue (payload : Text)
  | enqueueContentWithPolicy (payload : Text) (isConnected : Bool)
  | dequeue
  | clear
deriving DecidableEq

/-- What a call does to the queue. -/
def apply (q : BoundedEventQueue) : Call → BoundedEventQueue
  | .enqueue payload => q.enqueue payload
  | .enqueueContentWithPolicy payload isConnected =>
    (q.enqueueContentWithPolicy payload isConnected).2
  | .dequeue => q.dequeue.2
  | .clear => q.clear

/-- The queue after a sequence of calls on a new one. -/
def reached (maxCapacity : ℕ) (calls : List Call) : BoundedEventQueue :=
  run apply { maxCapacity := maxCapacity } calls

/-! ## What the calls do to the payloads -/

/-- Why a payload leaves the queue. -/
inductive Departure
  | returned
  | evicted
  | cleared
deriving DecidableEq

/-- The payload that a call puts into the queue. -/
def Call.accepts : Call → Option Text
  | .enqueue payload => some payload
  | .enqueueContentWithPolicy payload isConnected => if isConnected then some payload else none
  | .dequeue => none
  | .clear => none

/-- Content that is dropped instead of buffered. -/
def Call.isRefused : Call → Bool
  | .enqueueContentWithPolicy _ isConnected => !isConnected
  | _ => false

/-- The payloads that leave the queue with a call. -/
def departures (q : BoundedEventQueue) (call : Call) : List (Departure × Text) :=
  match call with
  | .dequeue => q.dequeue.1.toList.map (.returned, ·)
  | .clear => q.queue.map (.cleared, ·)
  | _ => if call.accepts.isSome then q.overflow.map (.evicted, ·) else []

/-- The payloads that went in and out with a sequence of calls. -/
def ledger (maxCapacity : ℕ) (calls : List Call) : Ledger Departure Text :=
  history apply (fun q l call => l.enter (q.departures call) call.accepts.toList)
    { maxCapacity := maxCapacity } {} calls

theorem reached_concat (n : ℕ) (calls : List Call) (call : Call) :
    reached n (calls ++ [call]) = (reached n calls).apply call := run_concat calls call

variable (q : BoundedEventQueue) (call : Call)

theorem dequeue_fst : q.dequeue.1 = q.queue.head? := by
  unfold dequeue
  split
  · rename_i hnil
    rw [hnil, List.head?_nil]
  · rename_i hcons
    rw [hcons, List.head?_cons]

/-- What a call can do: to the queue, to the payloads and to the counter. -/
inductive CallCase (q : BoundedEventQueue) :
    Call → BoundedEventQueue → List (Departure × Text) → Prop
  | accepted (call : Call) (payload : Text) (haccepts : call.accepts = some payload)
    (hrefused : call.isRefused = false) :
    CallCase q call (q.enqueue payload) (q.overflow.map (.evicted, ·))
  | refused (call : Call) (haccepts : call.accepts = none) (hrefused : call.isRefused = true) :
    CallCase q call { q with droppedCount := q.droppedCount + 1 } []
  | returned (item : Text) (rest : List Text) (hq : q.queue = item :: rest) :
    CallCase q .dequeue { q with queue := rest } [(.returned, item)]
  | nothing (hq : q.queue = []) : CallCase q .dequeue q []
  | cleared : CallCase q .clear q.clear (q.queue.map (.cleared, ·))

theorem callCase : CallCase q call (q.apply call) (q.departures call) := by
  cases call with
  | enqueue payload => exact .accepted (.enqueue payload) payload rfl rfl
  | enqueueContentWithPolicy payload isConnected =>
    cases isConnected with
    | false => exact .refused (.enqueueContentWithPolicy payload false) rfl rfl
    | true => exact .accepted (.enqueueContentWithPolicy payload true) payload rfl rfl
  | dequeue =>
    show CallCase q .dequeue q.dequeue.2 (q.dequeue.1.toList.map (.returned, ·))
    unfold dequeue
    split
    · rename_i hq
      exact .nothing hq
    · rename_i item rest hq
      exact .returned item rest hq
  | clear => exact .cleared

@[simp] theorem maxCapacity_apply : (q.apply call).maxCapacity = q.maxCapacity := by
  have hcase := q.callCase call
  generalize q.apply call = after, q.departures call = gone at hcase ⊢
  cases hcase with
  | accepted _ payload => exact q.maxCapacity_enqueue payload
  | _ => rfl

theorem map_snd_departed (d : Departure) (l : List Text) :
    (l.map (d, ·)).map Prod.snd = l := by
  rw [List.map_map]
  exact List.map_id l

/-- A call takes payloads out in front and puts its own in behind. -/
theorem departures_append_apply :
    (q.departures call).map Prod.snd ++ (q.apply call).queue
      = q.queue ++ call.accepts.toList := by
  have hcase := q.callCase call
  generalize q.apply call = after, q.departures call = gone at hcase ⊢
  cases hcase with
  | accepted _ payload haccepts =>
    rw [map_snd_departed, haccepts]
    exact q.overflow_append_enqueue payload
  | refused _ haccepts =>
    rw [haccepts]
    exact (List.append_nil q.queue).symm
  | returned item rest hq =>
    rw [hq]
    exact (List.append_nil (item :: rest)).symm
  | nothing => exact (List.append_nil q.queue).symm
  | cleared =>
    rw [map_snd_departed]
    rfl

/-- Only a call that puts a payload into a full queue pushes one out, the one in front. -/
theorem of_evicted_mem_departures {p : Text} (h : (.evicted, p) ∈ q.departures call) :
    call.accepts.isSome = true ∧ q.maxCapacity ≤ q.size ∧ q.queue.head? = some p := by
  have hcase := q.callCase call
  generalize q.apply call = after, q.departures call = gone at hcase h
  cases hcase with
  | accepted _ payload haccepts =>
    -- only an accepted payload evicts, and then the oldest one
    have hp : p ∈ q.overflow := by simpa using h
    unfold overflow at hp
    split at hp
    · rename_i hfull
      refine ⟨by rw [haccepts, Option.isSome_some], hfull, ?_⟩
      cases hq : q.queue with
      | nil => simp [hq] at hp
      | cons item rest =>
        rw [hq, List.take_succ_cons, List.take_zero, List.mem_singleton] at hp
        rw [hp, List.head?_cons]
    · cases hp
  | refused => cases h
  | returned => simp at h
  | nothing => cases h
  | cleared => simp at h

/-- The counter counts the payloads pushed out and the content refused. -/
theorem droppedCount_apply (hpos : 0 < q.maxCapacity) :
    (q.apply call).droppedCount = q.droppedCount
      + (q.departures call).countP (·.1 = .evicted) + [call].countP Call.isRefused := by
  have hcase := q.callCase call
  generalize q.apply call = after, q.departures call = gone at hcase ⊢
  cases hcase with
  | accepted _ payload haccepts hrefused =>
    -- the overflow is what the full queue drops
    have hevicted : (q.overflow.map (Departure.evicted, ·)).countP (·.1 = .evicted)
        = q.overflow.length := by
      rw [List.countP_map]
      exact List.countP_eq_length.mpr fun _ _ => by simp
    rw [hevicted, List.countP_singleton, hrefused]
    exact droppedCount_enqueue payload hpos
  | refused _ haccepts hrefused =>
    rw [List.countP_singleton, hrefused]
    rfl
  | returned => rfl
  | nothing => rfl
  | cleared =>
    -- clearing counts no drops
    have hnone : (q.queue.map (Departure.cleared, ·)).countP (·.1 = .evicted) = 0 :=
      List.countP_eq_zero.mpr (by simp)
    rw [hnone]
    rfl

theorem length_apply_le (hpos : 0 < q.maxCapacity) (h : q.queue.length ≤ q.maxCapacity) :
    (q.apply call).queue.length ≤ q.maxCapacity := by
  have hcase := q.callCase call
  generalize q.apply call = after, q.departures call = gone at hcase ⊢
  cases hcase with
  | accepted _ payload => exact length_enqueue_le payload hpos h
  | refused => exact h
  | returned item rest hq =>
    rw [hq, List.length_cons] at h
    show rest.length ≤ q.maxCapacity
    omega
  | nothing => exact h
  | cleared => exact Nat.zero_le _

/-! ## Runs -/

@[simp] theorem maxCapacity_reached (n : ℕ) (calls : List Call) :
    (reached n calls).maxCapacity = n := by
  induction calls using List.reverseRecOn with
  | nil => rfl
  | append_singleton past call ih => rw [reached_concat, maxCapacity_apply, ih]

/-- The queue, the payloads that went in and out, and the counter, after some calls. -/
structure HistoryInv (n : ℕ) (calls : List Call) (q : BoundedEventQueue)
    (l : Ledger Departure Text) : Prop where
  capacity : q.maxCapacity = n
  size_le : q.queue.length ≤ n
  balanced : l.Balanced q.queue
  dropped : q.droppedCount = l.count .evicted + calls.countP Call.isRefused

theorem historyInv_reached {n : ℕ} (hn : 0 < n) (calls : List Call) :
    HistoryInv n calls (reached n calls) (ledger n calls) := by
  have hnew : HistoryInv n [] { maxCapacity := n } {} :=
    ⟨rfl, Nat.zero_le n, Ledger.balanced_empty, rfl⟩
  refine history_invariant hnew ?_ calls
  intro past call h
  generalize run apply _ past = q at h ⊢
  have hpos : 0 < q.maxCapacity := by rw [h.capacity]; exact hn
  refine ⟨?_, ?_, ?_, ?_⟩
  · rw [maxCapacity_apply, h.capacity]
  · have hle := h.size_le
    rw [← h.capacity] at hle ⊢
    exact q.length_apply_le call hpos hle
  · exact h.balanced.enter (q.departures_append_apply call)
  · rw [q.droppedCount_apply call hpos, h.dropped, Ledger.count_enter, List.countP_append]
    omega

/-- Every payload that left was returned, pushed out or cleared. -/
theorem length_departed (l : Ledger Departure Text) :
    l.departed.length = l.count .returned + l.count .evicted + l.count .cleared := by
  unfold Ledger.count
  induction l.departed with
  | nil => rfl
  | cons d ds ih =>
    obtain ⟨reason, p⟩ := d
    rw [List.length_cons, ih]
    cases reason
    · simp
      omega
    · simp
      omega
    · simp
      omega

/-- What a queue owes to its callers after some calls. -/
structure Accounted (n : ℕ) (calls : List Call) : Prop where
  size_le : (reached n calls).size ≤ n
  contents : (reached n calls).queue
    = (ledger n calls).accepted.drop ((ledger n calls).accepted.length - (reached n calls).size)
  in_order : (ledger n calls).departed.map Prod.snd ++ (reached n calls).queue
    = (ledger n calls).accepted
  oldest : (reached n calls).dequeue.1 = (reached n calls).queue.head?
  evicted : ∀ call p, (.evicted, p) ∈ (reached n calls).departures call →
    call.accepts.isSome = true ∧ (reached n calls).size = n
      ∧ (reached n calls).queue.head? = some p
  returned_once : ((ledger n calls).positions .returned).Pairwise (· < ·)
  returned_eq : ((ledger n calls).positions .returned).map ((ledger n calls).accepted[·]?)
    = ((ledger n calls).departed.filter (·.1 = .returned)).map fun d => some d.2
  dropped : (reached n calls).droppedCount
    = (ledger n calls).count .evicted + calls.countP Call.isRefused
  conserved : (ledger n calls).accepted.length = (ledger n calls).count .returned
    + (ledger n calls).count .evicted + (ledger n calls).count .cleared + (reached n calls).size

/-- A queue with room accounts for every payload, after any sequence of calls. -/
theorem accounted_of_pos (n : ℕ) (hn : 0 < n) (calls : List Call) : Accounted n calls := by
  have h := historyInv_reached hn calls
  refine ⟨h.size_le, h.balanced.held_eq, h.balanced, dequeue_fst _, ?_,
    Ledger.positions_pairwise _ _, h.balanced.map_positions _, h.dropped, ?_⟩
  · intro call p hp
    obtain ⟨haccepts, hfull, hhead⟩ := of_evicted_mem_departures _ _ hp
    have hle := h.size_le
    rw [h.capacity] at hfull
    exact ⟨haccepts, Nat.le_antisymm hle hfull, hhead⟩
  · rw [h.balanced.length, length_departed]
    rfl

/-- Two payloads fit; the third pushes the first out, and one is refused. -/
theorem accounted_two : 0 < 2 ∧ Accounted 2 [.enqueue "a".toList, .enqueue "b".toList,
    .enqueueContentWithPolicy "c".toList false, .enqueue "d".toList, .dequeue, .clear] :=
  ⟨by decide, accounted_of_pos 2 (by decide) _⟩

end BoundedEventQueue
end ThoriumFrugal.Cognitia

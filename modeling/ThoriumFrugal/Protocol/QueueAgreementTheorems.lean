import ThoriumFrugal.Cognitia.QueueHistoryTheorems
import ThoriumFrugal.Protocol.MockThoriumAdapter

/-!
# Two bounded queues

The queue of the browser evicts before it pushes, the queue of the mock adapter leaves the
eviction to its `deque`. Step by step they hold the same and count the same, as long as there is
room for one payload. Without any room the browser's queue pops an empty container.
-/

namespace ThoriumFrugal.Protocol

open Lib

/-- A call that both queues have. -/
inductive QueueCall
  | enqueue (payload : Text)
  | pop
  | clear
deriving DecidableEq

namespace QueueCall

/-- The call is an enqueue. -/
def isEnqueue : QueueCall → Bool
  | enqueue _ => true
  | _ => false

/-- The call on the browser's queue. -/
def browser : QueueCall → Cognitia.BoundedEventQueue.Call
  | enqueue payload => .enqueue payload
  | pop => .dequeue
  | clear => .clear

end QueueCall

/-! ## The browser's queue -/

/-- What a call on the browser's queue returns. -/
def browserReturns (q : Cognitia.BoundedEventQueue) : QueueCall → Option Text
  | .pop => q.dequeue.1
  | _ => none

/-- The call executes `queue_.pop_front()`. -/
def browserPopsFront (q : Cognitia.BoundedEventQueue) : QueueCall → Bool
  | .enqueue _ => q.queue.length ≥ q.maxCapacity
  | .pop => !q.isEmpty
  | .clear => false

/-- The browser's queue after some calls. -/
def browserAfter (capacity : ℕ) (calls : List QueueCall) : Cognitia.BoundedEventQueue :=
  Cognitia.BoundedEventQueue.reached capacity (calls.map QueueCall.browser)

/-! ## The mock's queue -/

/-- What a call on the mock's queue returns. -/
def mockReturns (q : BoundedEventQueue Text) : QueueCall → Option Text
  | .pop => q.pop.1
  | _ => none

/-- The call executes `self.queue.popleft()`. -/
def mockPopsLeft (q : BoundedEventQueue Text) : QueueCall → Bool
  | .pop => !q.isEmpty
  | _ => false

/-- What a call does to the mock's queue. -/
def mockApply (q : BoundedEventQueue Text) : QueueCall → BoundedEventQueue Text
  | .enqueue payload => q.enqueue payload
  | .pop => q.pop.2
  | .clear => q.clear

/-- The mock's queue after some calls. -/
def mockAfter (capacity : ℕ) (calls : List QueueCall) : BoundedEventQueue Text :=
  run mockApply { capacity := capacity } calls

/-! ## Agreement -/

/-- One call on both queues: they return the same, have the same size and the same count of drops
afterwards, stay within the capacity, and pop no empty container. -/
structure Agree (n : ℕ) (past : List QueueCall) (call : QueueCall) : Prop where
  returns : browserReturns (browserAfter n past) call = mockReturns (mockAfter n past) call
  size : (browserAfter n (past ++ [call])).size = (mockAfter n (past ++ [call])).size
  dropped : (browserAfter n (past ++ [call])).droppedCount
    = (mockAfter n (past ++ [call])).totalDropped
  size_le : (browserAfter n (past ++ [call])).size ≤ n
  browser_pop : browserPopsFront (browserAfter n past) call = true →
    (browserAfter n past).queue ≠ []
  mock_pop : mockPopsLeft (mockAfter n past) call = true → (mockAfter n past).queue ≠ []

/-- Both queues hold the same, have counted the same and are within their capacity. -/
structure Matches (n : ℕ) (q : Cognitia.BoundedEventQueue) (p : BoundedEventQueue Text) :
    Prop where
  capacity : q.maxCapacity = n
  mock_capacity : p.capacity = n
  queue : p.queue = q.queue
  dropped : p.totalDropped = q.droppedCount
  size_le : q.queue.length ≤ n

/-- There is room for a payload, or the call brings none. -/
def HasRoom (n : ℕ) (call : QueueCall) : Prop := 0 < n ∨ call.isEnqueue = false

variable {n : ℕ} {q : Cognitia.BoundedEventQueue} {p : BoundedEventQueue Text}

/-- The two ways to evict give the same contents. -/
theorem append_eq_enqueue (hpos : 0 < q.maxCapacity) (hle : q.queue.length ≤ q.maxCapacity)
    (payload : Text) :
    BoundedEventQueue.append q.maxCapacity q.queue payload = (q.enqueue payload).queue := by
  unfold BoundedEventQueue.append Cognitia.BoundedEventQueue.enqueue
  by_cases hfull : q.queue.length ≥ q.maxCapacity
  · have hone : q.queue.length + 1 - q.maxCapacity = 1 := by omega
    have hlen : 1 ≤ q.queue.length := by omega
    rw [if_pos hfull, hone, List.drop_append_of_le_length hlen, List.drop_one]
  · have hzero : q.queue.length + 1 - q.maxCapacity = 0 := by omega
    rw [if_neg hfull, hzero, List.drop_zero]

/-- A call with room keeps the match. -/
theorem Matches.apply (h : Matches n q p) {call : QueueCall} (hroom : HasRoom n call) :
    Matches n (q.apply call.browser) (mockApply p call) := by
  obtain ⟨hcap, hmock, hqueue, hdropped, hle⟩ := h
  subst hcap
  cases call with
  | enqueue payload =>
    have hpos : 0 < q.maxCapacity := hroom.resolve_right (by simp [QueueCall.isEnqueue])
    refine ⟨q.maxCapacity_apply _, hmock, ?_, ?_, q.length_apply_le _ hpos hle⟩
    · show BoundedEventQueue.append p.capacity p.queue payload = _
      rw [hmock, hqueue]
      exact append_eq_enqueue hpos hle payload
    · show (if p.queue.length ≥ p.capacity then p.totalDropped + 1 else p.totalDropped)
        = (q.enqueue payload).droppedCount
      rw [hmock, hqueue, hdropped]
      unfold Cognitia.BoundedEventQueue.enqueue
      split
      · rfl
      · rfl
  | pop =>
    show Matches _ q.dequeue.2 p.pop.2
    unfold Cognitia.BoundedEventQueue.dequeue BoundedEventQueue.pop
    rw [hqueue]
    cases hq : q.queue with
    | nil => exact ⟨rfl, hmock, hqueue, hdropped, hle⟩
    | cons item rest =>
      rw [hq, List.length_cons] at hle
      exact ⟨rfl, hmock, rfl, hdropped, by show rest.length ≤ _; omega⟩
  | clear => exact ⟨rfl, hmock, rfl, hdropped, Nat.zero_le _⟩

theorem matches_after {calls : List QueueCall} (h : Along (fun _ => HasRoom n) calls) :
    Matches n (browserAfter n calls) (mockAfter n calls) := by
  induction calls using List.reverseRecOn with
  | nil => exact ⟨rfl, rfl, rfl, rfl, Nat.zero_le n⟩
  | append_singleton past call ih =>
    obtain ⟨hpast, hcall⟩ := along_concat.mp h
    unfold browserAfter mockAfter
    rw [List.map_append, List.map_singleton, Cognitia.BoundedEventQueue.reached_concat, run_concat]
    exact (ih hpast).apply hcall

/-- Matching queues agree on a call with room. -/
theorem agree_of_room {past : List QueueCall} {call : QueueCall}
    (h : Along (fun _ => HasRoom n) (past ++ [call])) : Agree n past call := by
  obtain ⟨hpast, hcall⟩ := along_concat.mp h
  have hnow := matches_after hpast
  have hnext := matches_after h
  refine ⟨?_, ?_, hnext.dropped.symm, hnext.size_le, ?_, ?_⟩
  · cases call with
    | pop =>
      show (browserAfter n past).dequeue.1 = (mockAfter n past).pop.1
      rw [Cognitia.BoundedEventQueue.dequeue_fst, BoundedEventQueue.pop_fst, hnow.queue]
    | _ => rfl
  · show (browserAfter n (past ++ [call])).queue.length
      = (mockAfter n (past ++ [call])).queue.length
    rw [hnext.queue]
  · intro hpops hnil
    cases call with
    | enqueue payload =>
      -- a full queue with room is not empty
      have hpos : 0 < n := hcall.resolve_right (by simp [QueueCall.isEnqueue])
      simp [browserPopsFront, hnil, hnow.capacity] at hpops
      omega
    | pop => simp [browserPopsFront, Cognitia.BoundedEventQueue.isEmpty, hnil] at hpops
    | clear => cases hpops
  · intro hpops hnil
    cases call with
    | pop => simp [mockPopsLeft, BoundedEventQueue.isEmpty, hnil] at hpops
    | _ => cases hpops

/-- Queues that have agreed so far are within their capacity. -/
theorem size_le_of_along {calls : List QueueCall} (h : Along (Agree n) calls) :
    (browserAfter n calls).queue.length ≤ n := by
  induction calls using List.reverseRecOn with
  | nil => exact Nat.zero_le n
  | append_singleton past call _ => exact (along_concat.mp h).2.size_le

/-- The two queues agree on a run of calls exactly if their capacity is not zero or nothing is ever
enqueued. -/
theorem along_agree_iff (n : ℕ) (calls : List QueueCall) :
    Along (Agree n) calls ↔ 0 < n ∨ ∀ call ∈ calls, call.isEnqueue = false := by
  constructor
  · intro h
    by_contra hnot
    obtain ⟨hn, henqueue⟩ := not_or.mp hnot
    obtain rfl : n = 0 := by omega
    push Not at henqueue
    obtain ⟨call, hcall, hcalls⟩ := henqueue
    obtain ⟨past, rest, rfl⟩ := List.append_of_mem hcall
    -- the browser's queue is empty before the call, and full
    have hempty := size_le_of_along h.left
    have hstep := h past call rest rfl
    have hnil : (browserAfter 0 past).queue = [] :=
      List.length_eq_zero_iff.mp (Nat.le_zero.mp hempty)
    cases call with
    | enqueue payload =>
      refine hstep.browser_pop ?_ hnil
      simp [browserPopsFront, browserAfter]
    | pop => exact hcalls rfl
    | clear => exact hcalls rfl
  · rintro hroom past call rest rfl
    refine agree_of_room fun past' call' rest' h => ?_
    rcases hroom with hpos | hnone
    · exact .inl hpos
    · refine .inr (hnone call' ?_)
      rw [List.append_cons, h]
      exact List.mem_append_left _ (List.mem_append_right _ List.mem_cons_self)

/-- A queue without room pops its empty container when something is enqueued. -/
theorem not_along_agree_zero : ¬Along (Agree 0) [.enqueue "x".toList] := by
  intro h
  have hstep := h [] (.enqueue "x".toList) [] rfl
  exact hstep.browser_pop (by decide) (by decide)

end ThoriumFrugal.Protocol

import ThoriumFrugal.Lib.Digits
import ThoriumFrugal.Privacy.PrivacyPolicyManager

/-!
# The order of event ids

The ids of a manager are those of the counter values 1, 2, and so on. Up to six digits they are
padded to one width and stand in the order of the values; a longer one is compared by its leading
digits, so it may come before a shorter one.
-/

namespace ThoriumFrugal.Privacy

open Lib

namespace PrivacyPolicyManager

/-! ## Runs -/

/-- A call on a manager. -/
inductive Call
  | op (op : Op)
  | generateEventId

/-- What a call does to the manager. -/
def perform (manager : PrivacyPolicyManager) : Call → PrivacyPolicyManager
  | .op op => manager.apply op
  | .generateEventId => manager.generateEventId.2

/-- The ids that a call obtains from `GenerateEventId`. -/
def idsOf (manager : PrivacyPolicyManager) : Call → List Text
  | .op (.sanitizeUrl urlStr now) => (manager.sanitizeUrl urlStr now).2.1.map (·.eventId)
  | .op (.evaluateRequest targetUrlStr initiatorOriginStr resourceType now) =>
    (manager.evaluateRequest targetUrlStr initiatorOriginStr resourceType now).2.1.map (·.eventId)
  | .op _ => []
  | .generateEventId => [manager.generateEventId.1]

/-- The ids of a run, in order. -/
def ids (processPrefix : Text) (calls : List Call) : List Text :=
  history perform (fun manager ids call => ids ++ manager.idsOf call)
    { processPrefix := processPrefix } [] calls

theorem ids_concat (processPrefix : Text) (calls : List Call) (call : Call) :
    ids processPrefix (calls ++ [call]) = ids processPrefix calls
      ++ (run perform { processPrefix := processPrefix } calls).idsOf call :=
  history_concat ..

/-- A call obtains no id, or the next one, and leaves the prefix. -/
inductive IdCase (manager after : PrivacyPolicyManager) : List Text → Prop
  | none (hpre : after.processPrefix = manager.processPrefix)
    (hcounter : after.eventCounter = manager.eventCounter) : IdCase manager after []
  | one (hpre : after.processPrefix = manager.processPrefix)
    (hcounter : after.eventCounter = manager.eventCounter + 1) :
    IdCase manager after [manager.generateEventId.1]

theorem Dispatch.idCase {manager : PrivacyPolicyManager} {host sanitizedUrl : Text}
    {r : List PrivacyEvent × PrivacyPolicyManager} (h : Dispatch manager host sanitizedUrl r) :
    IdCase manager r.2 (r.1.map (·.eventId)) := by
  cases h with
  | nothing => exact .none rfl rfl
  | event e hid =>
    rw [List.map_singleton, hid]
    exact .one rfl rfl

theorem idCase (manager : PrivacyPolicyManager) (call : Call) :
    IdCase manager (manager.perform call) (manager.idsOf call) := by
  cases call with
  | generateEventId => exact .one rfl rfl
  | op op =>
    cases op with
    | sanitizeUrl urlStr now => exact (manager.dispatch_sanitizeUrl urlStr now).idCase
    | evaluateRequest target initiator type now =>
      exact (manager.dispatch_evaluateRequest target initiator type now).idCase
    | _ => exact .none rfl rfl

/-- The id of a counter value. -/
def eventId (processPrefix : Text) (count : ℕ) : Text :=
  processPrefix ++ (Nat.toDigits 10 count).leftpad 6 '0'

/-- The counter and the ids after some calls. -/
theorem counter_and_ids (processPrefix : Text) (calls : List Call) :
    let manager := run perform { processPrefix := processPrefix } calls
    let n := (ids processPrefix calls).length
    manager.processPrefix = processPrefix
      ∧ manager.eventCounter = UInt64.ofNat (n + 1)
      ∧ ids processPrefix calls
        = (List.range' 1 n).map fun count => eventId processPrefix (count % 2 ^ 64) := by
  induction calls using List.reverseRecOn with
  | nil => exact ⟨rfl, rfl, rfl⟩
  | append_singleton calls call ih =>
    obtain ⟨hpre, hcounter, hids⟩ := ih
    rw [run_concat, ids_concat]
    generalize run perform _ calls = manager at hpre hcounter ⊢
    have hcase := manager.idCase call
    generalize manager.perform call = after, manager.idsOf call = new at hcase ⊢
    cases hcase with
    | none hpre' hcounter' =>
      rw [List.append_nil]
      exact ⟨hpre'.trans hpre, hcounter'.trans hcounter, hids⟩
    | one hpre' hcounter' =>
      have hnew : manager.generateEventId.1
          = eventId processPrefix ((1 + (ids processPrefix calls).length) % 2 ^ 64) := by
        show manager.processPrefix ++ (Nat.toDigits 10 manager.eventCounter.toNat).leftpad 6 '0' = _
        rw [hpre, hcounter, UInt64.toNat_ofNat', Nat.add_comm]
        rfl
      refine ⟨hpre'.trans hpre, ?_, ?_⟩
      · rw [hcounter', hcounter, List.length_append, List.length_singleton]
        exact (UInt64.ofNat_add _ 1).symm
      · rw [List.length_append, List.length_singleton, List.range'_1_concat, List.map_append,
          ← hids, List.map_singleton, hnew]

/-- With fewer than `2 ^ 64` ids the counter does not wrap around. -/
theorem ids_eq {processPrefix : Text} {calls : List Call}
    (hcalls : (ids processPrefix calls).length < 2 ^ 64) :
    ids processPrefix calls
      = (List.range' 1 (ids processPrefix calls).length).map (eventId processPrefix) := by
  obtain ⟨-, -, hids⟩ := counter_and_ids processPrefix calls
  refine hids.trans (List.map_congr_left fun count hcount => ?_)
  rw [List.mem_range'_1] at hcount
  rw [Nat.mod_eq_of_lt (by omega)]

theorem getElem?_ids {processPrefix : Text} {calls : List Call}
    (hcalls : (ids processPrefix calls).length < 2 ^ 64) {i : ℕ}
    (hi : i < (ids processPrefix calls).length) :
    (ids processPrefix calls)[i]? = some (eventId processPrefix (i + 1)) := by
  rw [ids_eq hcalls, List.getElem?_map, List.getElem?_range' hi, Option.map_some, Nat.one_mul,
    Nat.add_comm 1 i]

/-! ## The order of two ids -/

/-- The number of digits that a counter value is written with. -/
def width (count : ℕ) : ℕ := max 6 (Nat.toDigits 10 count).length

theorem lt_pow_width (count : ℕ) : count < 10 ^ width count := by
  have hpos : 0 < width count := Nat.lt_of_lt_of_le (by decide) (Nat.le_max_left 6 _)
  exact (Nat.length_toDigits_le_iff (by decide) hpos).mp (Nat.le_max_right 6 _)

theorem width_mono {a b : ℕ} (h : a ≤ b) : width a ≤ width b := by
  have hpos : 0 < width b := Nat.lt_of_lt_of_le (by decide) (Nat.le_max_left 6 _)
  have hlen := (Nat.length_toDigits_le_iff (b := 10) (by decide) hpos).mpr
    (Nat.lt_of_le_of_lt h (lt_pow_width b))
  exact max_le (Nat.le_max_left 6 _) hlen

theorem eventId_eq (processPrefix : Text) (count : ℕ) :
    eventId processPrefix count = processPrefix ++ Digits.fixedDigits 10 (width count) count := by
  have hpos : 0 < width count := Nat.lt_of_lt_of_le (by decide) (Nat.le_max_left 6 _)
  have hpad : (Nat.toDigits 10 count).leftpad 6 '0'
      = (Nat.toDigits 10 count).leftpad (width count) '0' := by
    unfold List.leftpad
    congr 2
    unfold width
    omega
  unfold eventId
  rw [hpad, Digits.leftpad_toDigits hpos (lt_pow_width count)]

/-- The id of a later value is greater exactly if its leading digits, as many as the earlier
one has, are not less than the earlier value. -/
theorem eventId_lt_iff (processPrefix : Text) {a b : ℕ} (h : a < b) :
    eventId processPrefix a < eventId processPrefix b
      ↔ a ≤ b / 10 ^ (width b - width a) := by
  have hwidth := width_mono h.le
  have ha := lt_pow_width a
  have hb := lt_pow_width b
  rw [eventId_eq, eventId_eq, Digits.append_lt_append_iff rfl]
  simp only [lt_irrefl, false_or, true_and]
  obtain ⟨l, hl⟩ := Nat.exists_eq_add_of_le hwidth
  rw [hl, Nat.add_sub_cancel_left]
  rw [hl] at hb
  rcases Nat.eq_zero_or_pos l with rfl | hpos
  · rw [Nat.add_zero] at hb ⊢
    rw [Digits.fixedDigits_lt_iff, Nat.mod_eq_of_lt ha, Nat.mod_eq_of_lt hb, pow_zero, Nat.div_one]
    exact iff_of_true h h.le
  · rw [pow_add] at hb
    rw [Digits.fixedDigits_lt_add_iff hpos, Nat.mod_eq_of_lt ha,
      Nat.mod_eq_of_lt (Nat.div_lt_of_lt_mul (by rwa [Nat.mul_comm]))]

theorem eventId_injective (processPrefix : Text) : Function.Injective (eventId processPrefix) := by
  -- ids of different widths have different lengths, the others are in order
  have hlt : ∀ {a b : ℕ}, a < b → eventId processPrefix a ≠ eventId processPrefix b := by
    intro a b h heq
    have hlen := congrArg List.length heq
    simp only [eventId_eq, List.length_append, Digits.length_fixedDigits] at hlen
    have hle := eventId_lt_iff processPrefix h
    rw [← heq, Nat.add_left_cancel hlen, Nat.sub_self, pow_zero, Nat.div_one] at hle
    exact lt_irrefl _ (hle.mpr h.le)
  intro a b heq
  rcases Nat.lt_trichotomy a b with h | h | h
  · exact absurd heq (hlt h)
  · exact h
  · exact absurd heq.symm (hlt h)

theorem width_eq_six_iff {count : ℕ} : width count = 6 ↔ count < 10 ^ 6 := by
  rw [← Nat.length_toDigits_le_iff (by decide) (by decide)]
  unfold width
  omega

/-- The `j`-th id of a list differs from the `i`-th and is greater. -/
def Ordered (ids : List Text) (i j : ℕ) : Prop :=
  ∃ a b, ids[i]? = some a ∧ ids[j]? = some b ∧ a ≠ b ∧ a < b

/-- Two ids of a run stand in their order exactly if the leading digits of the later counter value
are not less than the earlier one. -/
theorem ordered_ids_iff (processPrefix : Text) (calls : List Call)
    (hcalls : (ids processPrefix calls).length < 2 ^ 64) (i j : ℕ) (hij : i < j)
    (hj : j < (ids processPrefix calls).length) :
    Ordered (ids processPrefix calls) i j
      ↔ i + 1 ≤ (j + 1) / 10 ^ (width (j + 1) - width (i + 1)) := by
  rw [← eventId_lt_iff processPrefix (Nat.add_lt_add_right hij 1)]
  unfold Ordered
  rw [getElem?_ids hcalls (hij.trans hj), getElem?_ids hcalls hj]
  constructor
  · rintro ⟨a, b, ⟨⟩, ⟨⟩, -, hlt⟩
    exact hlt
  · intro hlt
    exact ⟨_, _, rfl, rfl, ne_of_lt hlt, hlt⟩

theorem ordered_ids_two :
    Ordered (ids "lt_priv_1000_".toList [.generateEventId, .generateEventId]) 0 1 :=
  (ordered_ids_iff _ [.generateEventId, .generateEventId] (by decide) 0 1 (by decide)
    (by decide)).mpr (by decide)

/-- A million ids, one after the other. -/
def millionIds : List Text := ids "lt_priv_1000_".toList (List.replicate 1000000 .generateEventId)

theorem length_ids_replicate (processPrefix : Text) (n : ℕ) :
    (ids processPrefix (List.replicate n .generateEventId)).length = n := by
  induction n with
  | zero => rfl
  | succ n ih =>
    rw [List.replicate_succ', ids_concat, List.length_append, ih]
    rfl

/-- The value that no longer fits into six digits. -/
theorem not_eventId_lt_million (processPrefix : Text) :
    ¬eventId processPrefix 999999 < eventId processPrefix 1000000 := by
  have hsix : width 999999 = 6 := width_eq_six_iff.mpr (by decide)
  have hmore : width 1000000 ≠ 6 := mt width_eq_six_iff.mp (by decide)
  have hge : 6 ≤ width 1000000 := Nat.le_max_left 6 _
  rw [eventId_lt_iff processPrefix (by decide), hsix, Nat.not_le]
  refine Nat.div_lt_of_lt_mul ?_
  calc 1000000 < 10 ^ 1 * 999999 := by decide
    _ ≤ 10 ^ (width 1000000 - 6) * 999999 :=
      Nat.mul_le_mul_right _ (Nat.pow_le_pow_right (by decide) (by omega))

/-- The millionth id stands before the one before it. -/
theorem not_ordered_millionIds : ¬Ordered millionIds 999998 999999 := by
  have hlen := length_ids_replicate "lt_priv_1000_".toList 1000000
  rintro ⟨a, b, ha, hb, -, hlt⟩
  unfold millionIds at ha hb
  rw [getElem?_ids (by rw [hlen]; decide) (by rw [hlen]; decide)] at ha hb
  rw [← Option.some.inj ha, ← Option.some.inj hb] at hlt
  exact not_eventId_lt_million _ hlt

/-! ## All ids of a run -/

section

variable {processPrefix : Text} {calls : List Call}

/-- In any case the ids are different. -/
theorem nodup_ids (hcalls : (ids processPrefix calls).length < 2 ^ 64) :
    (ids processPrefix calls).Nodup := by
  rw [ids_eq hcalls]
  exact List.Nodup.map (eventId_injective processPrefix) List.nodup_range'

/-- Sorting the events of a run by their ids recovers their order exactly as long as there are
fewer than a million. -/
theorem pairwise_ids_iff (hcalls : (ids processPrefix calls).length < 2 ^ 64) :
    (ids processPrefix calls).Pairwise (· < ·) ↔ (ids processPrefix calls).length < 10 ^ 6 := by
  rw [ids_eq hcalls, List.pairwise_map, List.length_map, List.length_range']
  generalize (ids processPrefix calls).length = n
  constructor
  · intro h
    by_contra hn
    have hlast : 999999 < (List.range' 1 n).length := by
      rw [List.length_range']
      omega
    have hpair := List.pairwise_iff_getElem.mp h 999998 999999 (by omega) hlast (by decide)
    rw [List.getElem_range', List.getElem_range'] at hpair
    exact not_eventId_lt_million processPrefix hpair
  · intro hn
    refine List.Pairwise.imp_of_mem (fun ha hb hab => ?_) List.pairwise_lt_range'
    rw [List.mem_range'_1] at ha hb
    have hwidth : ∀ {c : ℕ}, c < 1 + n → width c = 6 :=
      fun hc => width_eq_six_iff.mpr (by omega)
    rw [eventId_lt_iff processPrefix hab, hwidth ha.2, hwidth hb.2, Nat.sub_self, pow_zero,
      Nat.div_one]
    exact hab.le

end

end PrivacyPolicyManager
end ThoriumFrugal.Privacy

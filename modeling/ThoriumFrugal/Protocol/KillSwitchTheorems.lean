import ThoriumFrugal.Protocol.AdapterRuns

/-!
# The kill switch

The observations consult the switch, the start and the close of a session do not. So the adapter
is silent while the switch is engaged in exactly those runs in which no session is started, and
none that was started is closed, behind the switch.
-/

namespace ThoriumFrugal.Protocol

open Lib

namespace MockThoriumAdapter

variable (lib : PyLib) (instanceId : String) (queueCapacity : ℕ) (enableKillSwitch : Bool)

/-- While the switch is engaged, nothing waits in the queue. -/
def QueueSilent (past : List Call) : Prop :=
  engaged enableKillSwitch past = true →
    (after lib (init instanceId queueCapacity enableKillSwitch) past).eventQueue.queue = []

/-- While the switch is engaged, a call makes no envelope. -/
def CallSilent (past : List Call) (call : Call) : Prop :=
  engaged enableKillSwitch past = true →
    (respond lib (after lib (init instanceId queueCapacity enableKillSwitch) past) call).1 = none

/-- While the switch is engaged, a call starts no session and closes none that was started. -/
def Obeys (past : List Call) (call : Call) : Prop :=
  engaged enableKillSwitch past = true →
    call.kind.drawn = none ∧ (call.kind = .close → started past = false)

theorem callSilent_iff (past : List Call) (call : Call) :
    CallSilent lib instanceId queueCapacity enableKillSwitch past call
      ↔ Obeys enableKillSwitch past call := by
  refine imp_congr_right fun hengaged => ?_
  have henabled := isEnabled_after lib instanceId queueCapacity enableKillSwitch past
  have hsession := truthy_sessionId_after lib instanceId queueCapacity enableKillSwitch past
  rw [hengaged] at henabled
  rw [← hsession]
  generalize after lib _ past = a at henabled ⊢
  have hcase := response_respond lib a call
  generalize call.kind = kind, respond lib a call = r at hcase ⊢
  cases hcase with
  | hello id e htype hid hnumber hne => simp [Kind.drawn]
  | closing e htype htruthy hid hnumber => simp [htruthy]
  | observation e htype hon htruthy hid hnumber =>
    rw [henabled] at hon
    cases hon
  | not_closing hnone => simp [Kind.drawn, hnone]
  | no_observation hnone => simp [Kind.drawn]
  | switched disabled => simp [Kind.drawn]

/-- A run of silent calls leaves the queue silent. -/
theorem queueSilent_of_along {calls : List Call}
    (h : Along (CallSilent lib instanceId queueCapacity enableKillSwitch) calls) :
    QueueSilent lib instanceId queueCapacity enableKillSwitch calls := by
  induction calls using List.reverseRecOn with
  | nil => exact fun _ => rfl
  | append_singleton past call ih =>
    obtain ⟨hpast, hcall⟩ := along_concat.mp h
    have hqueue := ih hpast
    unfold QueueSilent at hqueue ⊢
    unfold CallSilent at hcall
    rw [after_concat, engaged_concat]
    generalize after lib _ past = a at hqueue hcall ⊢
    have hcase := response_respond lib a call
    generalize call.kind = kind, respond lib a call = r at hcase hcall ⊢
    intro hengaged
    cases hcase with
    | hello => cases hcall hengaged
    | closing => cases hcall hengaged
    | observation => cases hcall hengaged
    | not_closing => exact hqueue hengaged
    | no_observation => exact hqueue hengaged
    | switched disabled =>
      -- engaging the switch clears the queue
      have hdisabled : disabled = true := hengaged
      rw [hdisabled]
      rfl

/-- The switch silences the adapter over a run: at every point at which it is engaged the queue is
empty, and no call made there makes an envelope. -/
def Silenced (calls : List Call) : Prop :=
  (∀ past, past <+: calls → QueueSilent lib instanceId queueCapacity enableKillSwitch past)
    ∧ Along (CallSilent lib instanceId queueCapacity enableKillSwitch) calls

/-- The switch silences the adapter in exactly those runs that start and close no session behind
it. -/
theorem silenced_iff (calls : List Call) :
    Silenced lib instanceId queueCapacity enableKillSwitch calls
      ↔ Along (Obeys enableKillSwitch) calls := by
  have hsteps : Along (CallSilent lib instanceId queueCapacity enableKillSwitch) calls
      ↔ Along (Obeys enableKillSwitch) calls := along_congr (callSilent_iff _ _ _ _)
  constructor
  · intro h
    exact hsteps.mp h.2
  · intro h
    have hsilent := hsteps.mpr h
    refine ⟨?_, hsilent⟩
    rintro past ⟨rest, rfl⟩
    exact queueSilent_of_along _ _ _ _ hsilent.left

/-- A session is started behind the switch. -/
theorem not_silenced_start : ¬Silenced PyLib.sample "killswitch_test" 100 false
    [.setKillSwitch true, .startSession (World.sample 1) "mock_secret_token"] := by
  intro h
  have hnone := h.2 [.setKillSwitch true] _ [] rfl rfl
  cases hnone

end MockThoriumAdapter
end ThoriumFrugal.Protocol

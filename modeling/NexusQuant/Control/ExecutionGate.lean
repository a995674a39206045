import NexusQuant.Control.CleanTrading
import NexusQuant.Control.KillSwitch
import NexusQuant.Execution.Stage

/-!
# The control hook of the execution stage

`services/workers/src/control/gate.ts` and `inputs.ts`.  The hook is asked for every proposal, before
the risk hook: it reads the kill switch from the database and then looks at the permission of the last
evaluation, which it distrusts from a certain age on.  What an evaluation gathers is its surroundings,
the switch as the database answers, and whether the risk engine is armed.
-/

namespace NexusQuant.Control

open Execution

/-- `createControlExecutionGate`.  An error of the database is the message of what was thrown. -/
def createControlExecutionGate (maxPermissionAgeMs : Option ℚ)
    (killSwitch : Except String KillSwitchView) (permission : Option TradingPermission) (now : ℚ) :
    RiskGateDecision :=
  match killSwitch with
  | .error message => .blocked "FAIL_CLOSED" ("control gate error: " ++ message)
  | .ok ks =>
      if ks.engaged then
        .blocked "TRADING_STOPPED" ("kill switch engaged by " ++ ks.actor.getD "operator" ++ ": " ++
          ks.reason.getD "no reason")
      else
        match permission with
        | none => .blocked "CONTROL_NOT_READY" "control plane has not evaluated yet"
        | some perm =>
            match stale perm with
            | some age => .blocked "FAIL_CLOSED" ("permission snapshot stale (" ++ seconds age.1 ++
                "s old > " ++ seconds age.2 ++ "s) — control evaluator may be wedged")
            | none =>
                if perm.permission = .blocked then
                  let detail := "; ".intercalate
                    (perm.blockedBy.map fun b => b.label ++ ": " ++ b.detail)
                  .blocked "TRADING_BLOCKED" (if detail = "" then "trading blocked" else detail)
                else .approved
where
  /-- The age of a snapshot and the greatest age, when the snapshot is too old. -/
  stale (perm : TradingPermission) : Option (ℚ × ℚ) :=
    match maxPermissionAgeMs, perm.generatedAt.finite? with
    | some maxAge, some generatedAt =>
        if now - generatedAt > maxAge then some (now - generatedAt, maxAge) else none
    -- Without a bound, or without an instant, a snapshot has no age.
    | _, _ => none
  seconds (ms : ℚ) : String := numberText (mathRound (.fin (ms / 1000)))

/-- `FRESHNESS_BANDS`, as the lag of a stream is measured against them. -/
def lag (now : ℚ) (ts : Option ℚ) (warningSeconds staleSeconds : ℚ) : FreshnessObservation where
  lagSeconds := ts.map fun t => JsNumber.max (.fin 0) (mathRound (.fin ((now - t) / 1000)))
  staleSeconds := .fin staleSeconds
  warningSeconds := .fin warningSeconds

/-- What gathering meets.  A stream whose read fails has no instant, and a switch that cannot be read
counts as disengaged. -/
structure ControlSurroundings where
  now : ℚ
  database : ComponentHealth
  redis : ComponentHealth
  quant : ComponentHealth
  featureAt : Option ℚ
  signalAt : Option ℚ
  killReadable : Bool
deriving DecidableEq, Repr

def gatherControlInputs (around : ControlSurroundings) (row : Option ControlKillSwitch)
    (lastExecutionAt : Option ℚ) (riskActive : Bool) : ControlInputs :=
  let view := if around.killReadable then getKillSwitch row else getKillSwitch none
  { now := .fin around.now
    database := around.database
    redis := around.redis
    quant := around.quant
    features := lag around.now around.featureAt 60 180
    signals := lag around.now around.signalAt 60 120
    execution := lag around.now lastExecutionAt 120 300
    riskEngineActive := riskActive
    killSwitch := ⟨view.engaged, view.actor, view.reason⟩ }

/-- What a proposal is cleared by: the switch was read disengaged, and the permission is ALLOWED and
not older than its bound. -/
theorem controlGate_approved {maxAge : ℚ} {killSwitch : Except String KillSwitchView}
    {permission : Option TradingPermission} {now : ℚ}
    (h : createControlExecutionGate (some maxAge) killSwitch permission now = .approved) :
    (∃ view, killSwitch = .ok view ∧ view.engaged = false) ∧
    ∃ perm, permission = some perm ∧ perm.permission = .allowed ∧
      ∀ t, perm.generatedAt = .fin t → now - t ≤ maxAge := by
  unfold createControlExecutionGate at h
  -- Every branch but the last blocks.
  split at h
  · cases h
  · rename_i view
    split at h
    · cases h
    · rename_i hengaged
      split at h
      · cases h
      · rename_i perm
        split at h
        · cases h
        · rename_i hfresh
          split at h
          · cases h
          · rename_i hallowed
            refine ⟨⟨view, rfl, Bool.not_eq_true _ ▸ hengaged⟩, perm, rfl, ?_, ?_⟩
            · cases hverdict : perm.permission with
              | allowed => rfl
              | blocked => exact absurd hverdict hallowed
            · intro t ht
              by_contra hold
              unfold createControlExecutionGate.stale at hfresh
              rw [ht] at hfresh
              simp [not_le.mp hold] at hfresh

end NexusQuant.Control

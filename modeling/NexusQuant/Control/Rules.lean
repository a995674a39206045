import NexusQuant.Core

/-!
# Control plane: the pure evaluators

`packages/control/src`: protection rules and soft degradation (`protection.ts`), the recovery
aggregation (`recovery.ts`), the runtime state machine (`state-machine.ts`) and the trading permission
(`permission.ts`).  The recovery plan texts and runbooks are read by no function modelled here.
-/

namespace NexusQuant.Control

inductive RuntimeState where
  | booting | starting | healthy | degraded | «protected» | stopped | recovering | failed
deriving DecidableEq, Repr

inductive ComponentHealth where
  | healthy | degraded | failing | unknown
deriving DecidableEq, Repr

inductive ControlComponent where
  | database | redis | quant | features | signals | execution | risk
deriving DecidableEq, Repr

inductive ProtectionRuleId where
  | databaseUnavailable | redisUnavailable | quantUnavailable | featureStale | signalStale
  | executionStale | riskDisabled
deriving DecidableEq, Repr

inductive ControlSeverity where
  | info | warning | critical | emergency
deriving DecidableEq, Repr

def RuntimeState.text : RuntimeState → String
  | .booting => "BOOTING"
  | .starting => "STARTING"
  | .healthy => "HEALTHY"
  | .degraded => "DEGRADED"
  | .protected => "PROTECTED"
  | .stopped => "STOPPED"
  | .recovering => "RECOVERING"
  | .failed => "FAILED"

def ComponentHealth.text : ComponentHealth → String
  | .healthy => "healthy"
  | .degraded => "degraded"
  | .failing => "failing"
  | .unknown => "unknown"

def ControlComponent.text : ControlComponent → String
  | .database => "database"
  | .redis => "redis"
  | .quant => "quant"
  | .features => "features"
  | .signals => "signals"
  | .execution => "execution"
  | .risk => "risk"

def ProtectionRuleId.text : ProtectionRuleId → String
  | .databaseUnavailable => "database.unavailable"
  | .redisUnavailable => "redis.unavailable"
  | .quantUnavailable => "quant.unavailable"
  | .featureStale => "feature.stale"
  | .signalStale => "signal.stale"
  | .executionStale => "execution.stale"
  | .riskDisabled => "risk.disabled"

structure FreshnessObservation where
  lagSeconds : Option JsNumber
  staleSeconds : JsNumber
  warningSeconds : JsNumber
deriving DecidableEq, Repr

structure KillSwitchState where
  engaged : Bool
  actor : Option String
  reason : Option String
deriving DecidableEq, Repr

structure ControlInputs where
  now : JsNumber
  database : ComponentHealth
  redis : ComponentHealth
  quant : ComponentHealth
  features : FreshnessObservation
  signals : FreshnessObservation
  execution : FreshnessObservation
  riskEngineActive : Bool
  killSwitch : KillSwitchState
deriving DecidableEq, Repr

/-! ## Protection rules (`protection.ts`) -/

structure ProtectionVerdict where
  ruleId : ProtectionRuleId
  component : ControlComponent
  active : Bool
  severity : ControlSeverity
  detail : String
deriving DecidableEq, Repr

def infraDown (h : ComponentHealth) : Bool := h = .failing || h = .unknown

def freshnessBreached (lagSeconds : Option JsNumber) (staleSeconds : JsNumber) : Bool :=
  match lagSeconds with
  | none => false
  | some lag => JsNumber.lt staleSeconds lag

def lagText (lagSeconds : Option JsNumber) : String :=
  match lagSeconds with
  | none => "null"
  | some lag => numberText lag

/-- A rule on the health of one piece of infrastructure. -/
def unavailableRule (ruleId : ProtectionRuleId) (component : ControlComponent) (name : String)
    (health : ComponentHealth) : ProtectionVerdict where
  ruleId := ruleId
  component := component
  active := infraDown health
  severity := .critical
  detail :=
    if infraDown health then name ++ " health is " ++ health.text else name ++ " reachable"

/-- A rule on the freshness of one stream. -/
def staleRule (ruleId : ProtectionRuleId) (component : ControlComponent) (name within : String)
    (o : FreshnessObservation) : ProtectionVerdict where
  ruleId := ruleId
  component := component
  active := freshnessBreached o.lagSeconds o.staleSeconds
  severity := .critical
  detail :=
    if freshnessBreached o.lagSeconds o.staleSeconds then
      name ++ " stale " ++ lagText o.lagSeconds ++ "s > " ++ numberText o.staleSeconds ++ "s"
    else within

def riskDisabledRule (riskEngineActive : Bool) : ProtectionVerdict where
  ruleId := .riskDisabled
  component := .risk
  active := !riskEngineActive
  severity := .critical
  detail := if riskEngineActive then "risk engine armed" else "risk engine disabled/halted"

def evaluateProtectionRules (inputs : ControlInputs) : List ProtectionVerdict :=
  [unavailableRule .databaseUnavailable .database "database" inputs.database,
    unavailableRule .redisUnavailable .redis "redis" inputs.redis,
    unavailableRule .quantUnavailable .quant "quant" inputs.quant,
    staleRule .featureStale .features "FeatureSnapshot" "feature generation within bound"
      inputs.features,
    staleRule .signalStale .signals "EngineSignal" "signal engine within bound" inputs.signals,
    staleRule .executionStale .execution "Execution" "execution within bound (or idle)"
      inputs.execution,
    riskDisabledRule inputs.riskEngineActive]

def activeProtections (inputs : ControlInputs) : List ProtectionVerdict :=
  (evaluateProtectionRules inputs).filter (·.active)

def softStale (o : FreshnessObservation) : Bool :=
  match o.lagSeconds with
  | none => false
  | some lag => JsNumber.lt o.warningSeconds lag && JsNumber.le lag o.staleSeconds

def isDegraded (inputs : ControlInputs) : Bool :=
  inputs.database = .degraded || inputs.redis = .degraded || inputs.quant = .degraded ||
    softStale inputs.features || softStale inputs.signals || softStale inputs.execution

/-! ## Recovery aggregation (`recovery.ts`) -/

/-- `null` (not run), verified or failed. -/
abbrev RecoveryOutcome := Option Bool

structure RecoveryStep where
  name : String
  passed : Bool
  detail : String
deriving DecidableEq, Repr

structure RecoveryReport where
  component : ControlComponent
  verified : Bool
  steps : List RecoveryStep
deriving DecidableEq, Repr

def recoveryOutcome (reports : List RecoveryReport) : RecoveryOutcome :=
  if reports.length = 0 then none else some (reports.all (·.verified))

/-! ## State machine (`state-machine.ts`) -/

structure SteadyStateInput where
  killEngaged : Bool
  activeProtections : List ProtectionVerdict
  degraded : Bool
  recoveryOutcome : RecoveryOutcome

structure RuntimeStateResult where
  state : RuntimeState
  reason : String
  affectedComponents : List ControlComponent
deriving DecidableEq, Repr

def protectionReason (active : List ProtectionVerdict) : String :=
  match active with
  | [a] => a.detail
  | _ =>
      toString active.length ++ " protection conditions active: " ++
        ", ".intercalate (active.map (·.ruleId.text))

def deriveRuntimeState (prev : RuntimeState) (input : SteadyStateInput) : RuntimeStateResult :=
  if input.killEngaged then ⟨.stopped, "manual kill switch engaged", []⟩
  else if 0 < input.activeProtections.length then
    ⟨.protected, protectionReason input.activeProtections,
      input.activeProtections.map (·.component)⟩
  -- Out of protection only a verified recovery leads; degradation is not asked here.
  else if prev = .protected ∨ prev = .recovering then
    match input.recoveryOutcome with
    | some true => ⟨.healthy, "recovery verified", []⟩
    | some false => ⟨.protected, "recovery verification failed — holding protected", []⟩
    | none => ⟨.recovering, "verifying recovery", []⟩
  -- Past this row the kill switch is off: the operator has resumed.
  else if prev = .stopped then
    if input.degraded then ⟨.degraded, "resumed — soft degradation present", []⟩
    else ⟨.healthy, "resumed by operator", []⟩
  else if input.degraded then ⟨.degraded, "non-critical degradation", []⟩
  else ⟨.healthy, "all systems nominal", []⟩

/-! ## Trading permission (`permission.ts`) -/

inductive PermissionCheckId where
  | database | redis | quant | featureFreshness | signalFreshness | executionFreshness | riskEngine
  | killSwitch | runtimeState
deriving DecidableEq, Repr

inductive TradingPermissionVerdict where
  | allowed | blocked
deriving DecidableEq, Repr

structure PermissionReason where
  check : PermissionCheckId
  label : String
  ok : Bool
  detail : String
deriving DecidableEq, Repr

structure TradingPermission where
  permission : TradingPermissionVerdict
  generatedAt : JsNumber
  reasons : List PermissionReason
  blockedBy : List PermissionReason
deriving DecidableEq, Repr

def streamFresh (lagSeconds : Option JsNumber) (staleSeconds : JsNumber) : Bool :=
  match lagSeconds with
  | none => false
  | some lag => JsNumber.le lag staleSeconds

/-- The check that one piece of infrastructure is healthy. -/
def healthCheck (check : PermissionCheckId) (label name : String) (health : ComponentHealth) :
    PermissionReason where
  check := check
  label := label
  ok := health = .healthy
  detail := if health = .healthy then "healthy" else name ++ " is " ++ health.text

/-- The check that one required stream is fresh. -/
def freshnessCheck (check : PermissionCheckId) (label name : String) (o : FreshnessObservation) :
    PermissionReason where
  check := check
  label := label
  ok := streamFresh o.lagSeconds o.staleSeconds
  detail :=
    if streamFresh o.lagSeconds o.staleSeconds then "fresh (" ++ lagText o.lagSeconds ++ "s)"
    else if o.lagSeconds = none then "no " ++ name ++ " observed"
    else name ++ " stale " ++ lagText o.lagSeconds ++ "s > " ++ numberText o.staleSeconds ++ "s"

/-- Execution is the exception: a system that never executed may place its first order. -/
def executionCheck (o : FreshnessObservation) : PermissionReason where
  check := .executionFreshness
  label := "Execution freshness valid"
  ok := !freshnessBreached o.lagSeconds o.staleSeconds
  detail :=
    if freshnessBreached o.lagSeconds o.staleSeconds then
      "Execution stalled " ++ lagText o.lagSeconds ++ "s > " ++ numberText o.staleSeconds ++ "s"
    else if o.lagSeconds = none then "no prior execution (first order allowed)"
    else "fresh (" ++ lagText o.lagSeconds ++ "s)"

def riskEngineCheck (active : Bool) : PermissionReason where
  check := .riskEngine
  label := "Risk engine active"
  ok := active
  detail := if active then "armed" else "disabled/halted"

def killSwitchCheck (k : KillSwitchState) : PermissionReason where
  check := .killSwitch
  label := "Kill switch disengaged"
  ok := !k.engaged
  detail :=
    if k.engaged then
      "ENGAGED by " ++ k.actor.getD "unknown" ++ ": " ++ k.reason.getD "no reason"
    else "disengaged"

def runtimeStateCheck (state : RuntimeState) : PermissionReason where
  check := .runtimeState
  label := "Runtime state HEALTHY"
  ok := state = .healthy
  detail := if state = .healthy then "HEALTHY" else "state is " ++ state.text

def evaluateTradingPermission (inputs : ControlInputs) (runtimeState : Option RuntimeState) :
    TradingPermission :=
  let reasons :=
    [healthCheck .database "Database healthy" "database" inputs.database,
      healthCheck .redis "Redis healthy" "redis" inputs.redis,
      healthCheck .quant "Quant healthy" "quant" inputs.quant,
      freshnessCheck .featureFreshness "Feature freshness valid" "FeatureSnapshot" inputs.features,
      freshnessCheck .signalFreshness "Signal freshness valid" "EngineSignal" inputs.signals,
      executionCheck inputs.execution,
      riskEngineCheck inputs.riskEngineActive,
      killSwitchCheck inputs.killSwitch] ++
    -- The ninth check is only made where the caller knows the state.
    (runtimeState.map runtimeStateCheck).toList
  let blockedBy := reasons.filter fun r => !r.ok
  { permission := if blockedBy.length = 0 then .allowed else .blocked
    generatedAt := inputs.now
    reasons
    blockedBy }

end NexusQuant.Control

import NexusQuant.Risk.Types

/-!
# The decisions of the risk layer

`capital.ts`, `kill-switch.ts` and `gate.ts`: the capital snapshot of a market view, the global
triggers that halt trading, and the checks an order passes before it is traded.
-/

namespace NexusQuant.Risk

open DecimalText Execution Market

/-! ## Capital -/

/-- The exposure of a position with its sign. -/
def signedNotional (p : Position) : ℚ :=
  match positionSide p with
  | .long => positionNotional p
  | .short => -positionNotional p
  | .flat => 0

def buildCapitalSnapshot (account : Account) (positions : Dict Position) (config : AccountConfig) :
    CapitalSnapshot :=
  let v := valuateAccount account positions config
  let net := ((positions.sortedKeys.filterMap positions.get?).map signedNotional).sum
  { accountEquity := v.equity
    availableCash := v.cashBalance
    usedMargin := v.marginUsed
    availableMargin := quantizeNotional (parseDecimal v.equity - parseDecimal v.marginUsed)
    unrealizedPnl := v.unrealizedPnl
    realizedPnl := v.realizedPnl
    grossExposure := v.grossExposure
    netExposure := quantizeNotional net }

/-- All the amounts of a snapshot are canonical texts. -/
structure CapitalSnapshot.Canonical (c : CapitalSnapshot) : Prop where
  accountEquity : isCanonicalDecimalString c.accountEquity notionalDp
  availableCash : isCanonicalDecimalString c.availableCash notionalDp
  usedMargin : isCanonicalDecimalString c.usedMargin notionalDp
  availableMargin : isCanonicalDecimalString c.availableMargin notionalDp
  unrealizedPnl : isCanonicalDecimalString c.unrealizedPnl notionalDp
  realizedPnl : isCanonicalDecimalString c.realizedPnl notionalDp
  grossExposure : isCanonicalDecimalString c.grossExposure notionalDp
  netExposure : isCanonicalDecimalString c.netExposure notionalDp

theorem canonical_buildCapitalSnapshot (account : Account) (positions : Dict Position)
    (config : AccountConfig) : (buildCapitalSnapshot account positions config).Canonical := by
  constructor <;> dsimp only [buildCapitalSnapshot, valuateAccount, quantizePnl] <;>
    exact isCanonical_quantizeNotional _

/-! ## Kill switch -/

def currentDrawdown (peakEquity equity : JsNumber) : JsNumber :=
  -- No peak yet, or an equity that is no number: no drawdown.
  if ! JsNumber.lt (.fin 0) peakEquity || ! equity.isFinite then .fin 0
  else
    let dd := (peakEquity - equity) / peakEquity
    if JsNumber.lt (.fin 0) dd then dd else .fin 0

structure TriggerResult where
  trigger : KillSwitchTrigger
  detail : String
deriving DecidableEq, Repr

/-- The leverage trigger: too much exposure for the equity, or exposure without equity. -/
def leverageTrigger (capital : CapitalSnapshot) (limits : RiskLimits) : Option TriggerResult :=
  let equity := parseDecimal capital.accountEquity
  let gross := parseDecimal capital.grossExposure
  if equity > 0 then
    if JsNumber.lt limits.maxLeverage (.fin (gross / equity)) then
      some ⟨.leverageBreach, "leverage " ++ toFixed 6 (gross / equity) ++ " (gross " ++
        capital.grossExposure ++ " / equity " ++ capital.accountEquity ++ ") > max " ++
        DecimalText.numberText limits.maxLeverage⟩
    else none
  -- Without equity no ratio is formed: any exposure trips, an empty account does not.
  else if gross > 0 then
    some ⟨.leverageBreach, "insolvent: equity " ++ capital.accountEquity ++
      " <= 0 with gross exposure " ++ capital.grossExposure⟩
  else none

/-- The first health flag that is set. -/
def healthTrigger (h : HealthSignals) : Option TriggerResult :=
  if h.marketDataStale then some ⟨.marketDataStale, "market data is stale"⟩
  else if h.recoveryFailure then some ⟨.recoveryFailure, "state recovery failed"⟩
  else if h.journalIntegrityFailure then
    some ⟨.journalIntegrityFailure, "journal integrity failure"⟩
  else if h.exchangeConnectivityFailure then
    some ⟨.exchangeConnectivityFailure, "exchange connectivity failure"⟩
  else none

def evaluateTriggers (capital : CapitalSnapshot) (limits : RiskLimits)
    (dailyPnL drawdown : JsNumber) (health : HealthSignals) : Option TriggerResult :=
  -- The order is fixed: loss, drawdown, leverage, then the health flags.
  if dailyPnL.isFinite && JsNumber.lt dailyPnL (-limits.dailyLossLimit) then
    some ⟨.dailyLossBreach, "dailyPnL " ++ jsToFixed 2 dailyPnL ++ " < -dailyLossLimit " ++
      DecimalText.numberText limits.dailyLossLimit⟩
  else if drawdown.isFinite && JsNumber.lt limits.maxDrawdown drawdown then
    some ⟨.drawdownBreach, "drawdown " ++ jsToFixed 6 drawdown ++ " > maxDrawdown " ++
      DecimalText.numberText limits.maxDrawdown⟩
  else (leverageTrigger capital limits).or (healthTrigger health)

/-! ## Pre-trade gate -/

/-- `DEFAULT_RISK_LIMITS`. -/
def defaultRiskLimits : RiskLimits :=
  { maxPositionSize := .fin 1000
    maxPositionNotional := .fin 750000
    maxLeverage := .fin 3
    dailyLossLimit := .fin 100000
    maxAssetAllocation := .fin (6 / 10)
    maxDrawdown := .fin (1 / 4) }

/-- The portfolio after the order, whose target replaces the exposure in its symbol. -/
def projectOrder (positions : Dict Position) (capital : CapitalSnapshot) (order : ProposedOrder)
    (leverage : ℚ) : OrderProjection :=
  let lev := if leverage > 0 then leverage else 1
  let target := parseDecimal order.targetNotional
  let priorNotional := ((positions.get? order.symbol).map positionNotional).getD 0
  let equity := parseDecimal capital.accountEquity
  -- The target is the exposure wanted in the symbol, not an amount on top of the present one.
  { symbol := order.symbol
    positionAfterQty := order.targetQuantity
    positionNotional := order.targetNotional
    grossExposureAfter :=
      quantizeNotional (parseDecimal capital.grossExposure - priorNotional + target)
    requiredMargin := quantizeNotional (max 0 (target - priorNotional) / lev)
    -- Without equity the source reports a concentration of a billion.
    concentration := quantizeRatio (if equity > 0 then target / equity else 10 ^ 9) }

/-- One hard check: when it fails and what it says. -/
structure GateRule where
  reason : GateReason
  eventType : RiskEventType
  fails : Bool
  failDetail : String
  passDetail : String

/-- `block`. -/
def block (checks : List GateCheck) (reason : GateReason) (eventType : RiskEventType)
    (detail : String) : GateVerdict :=
  .blocked reason eventType detail (checks ++ [⟨reason, false, detail⟩])

/-- The checks in order, up to the first that fails. -/
def applyRules (checks : List GateCheck) : List GateRule → GateVerdict
  | [] => .approved checks
  | rule :: rules =>
      if rule.fails then block checks rule.reason rule.eventType rule.failDetail
      else applyRules (checks ++ [⟨rule.reason, true, rule.passDetail⟩]) rules

/-- The six hard checks. -/
def gateRules (order : ProposedOrder) (projection : OrderProjection) (capital : CapitalSnapshot)
    (limits : RiskLimits) (dailyPnL : JsNumber) : List GateRule :=
  let equity := parseDecimal capital.accountEquity
  let leverageAfter := parseDecimal projection.grossExposureAfter / equity
  [{ reason := .maxPositionSize
     eventType := .positionLimitBreached
     fails := JsNumber.lt limits.maxPositionSize (.fin (parseDecimal order.targetQuantity))
     failDetail := "position " ++ order.targetQuantity ++ " > maxPositionSize " ++
       DecimalText.numberText limits.maxPositionSize
     passDetail :=
       "qty " ++ order.targetQuantity ++ " <= " ++ DecimalText.numberText limits.maxPositionSize },
    { reason := .maxNotional
      eventType := .positionLimitBreached
      fails := JsNumber.lt limits.maxPositionNotional (.fin (parseDecimal order.targetNotional))
      failDetail := "notional " ++ order.targetNotional ++ " > maxPositionNotional " ++
        DecimalText.numberText limits.maxPositionNotional
      passDetail := "notional " ++ order.targetNotional ++ " <= " ++
        DecimalText.numberText limits.maxPositionNotional },
    { reason := .maxLeverage
      eventType := .leverageLimitBreached
      fails := JsNumber.lt limits.maxLeverage (.fin leverageAfter)
      failDetail := "leverage " ++ toFixed 6 leverageAfter ++ " (gross " ++
        projection.grossExposureAfter ++ " / equity " ++ capital.accountEquity ++ ") > max " ++
        DecimalText.numberText limits.maxLeverage
      passDetail := "leverage " ++ toFixed 6 leverageAfter ++ " <= " ++
        DecimalText.numberText limits.maxLeverage },
    { reason := .marginUnavailable
      eventType := .riskCheckFailed
      fails := parseDecimal projection.requiredMargin > parseDecimal capital.availableMargin
      failDetail := "requiredMargin " ++ projection.requiredMargin ++ " > availableMargin " ++
        capital.availableMargin
      passDetail := "requiredMargin " ++ projection.requiredMargin ++ " <= " ++
        capital.availableMargin },
    { reason := .dailyLossLimit
      eventType := .riskCheckFailed
      fails := JsNumber.lt dailyPnL (-limits.dailyLossLimit)
      failDetail := "dailyPnL " ++ jsToFixed 2 dailyPnL ++ " < -dailyLossLimit " ++
        DecimalText.numberText limits.dailyLossLimit
      passDetail := "dailyPnL " ++ jsToFixed 2 dailyPnL ++ " >= -" ++
        DecimalText.numberText limits.dailyLossLimit },
    { reason := .concentrationLimit
      eventType := .riskCheckFailed
      fails := JsNumber.lt limits.maxAssetAllocation (.fin (parseDecimal projection.concentration))
      failDetail := "concentration " ++ projection.concentration ++ " > maxAssetAllocation " ++
        DecimalText.numberText limits.maxAssetAllocation
      passDetail := "concentration " ++ projection.concentration ++ " <= " ++
        DecimalText.numberText limits.maxAssetAllocation }]

/-- The inputs the gate refuses before it checks anything.  `maxDrawdown` is not among the limits it
looks at. -/
def validInputs (order : ProposedOrder) (limits : RiskLimits) (dailyPnL : JsNumber) : Bool :=
  [limits.maxPositionSize, limits.maxPositionNotional, limits.maxLeverage, limits.dailyLossLimit,
    limits.maxAssetAllocation].all (fun x => x.isFinite && JsNumber.lt (.fin 0) x) &&
  decide (parseDecimal order.targetQuantity > 0 ∧ parseDecimal order.targetNotional > 0) &&
  dailyPnL.isFinite

def evaluatePreTrade (order : ProposedOrder) (projection : OrderProjection)
    (capital : CapitalSnapshot) (limits : RiskLimits) (dailyPnL : JsNumber) : GateVerdict :=
  let solvent := decide (parseDecimal capital.accountEquity > 0)
  -- Everything that could make a comparison below silently false is refused first.
  if ! validInputs order limits dailyPnL || ! solvent then
    .blocked .failClosed .riskCheckFailed
      (if ! solvent then "insolvent or non-positive equity " ++ capital.accountEquity ++
        " — blocking (fail-closed)"
      else "missing or invalid risk inputs — blocking (fail-closed)")
      [⟨.failClosed, false, "input validation failed"⟩]
  else applyRules [] (gateRules order projection capital limits dailyPnL)

/-! ## What a verdict can say -/

/-- No check halts or resumes trading. -/
def RiskEventType.isGateOutcome : RiskEventType → Bool
  | .riskCheckFailed | .positionLimitBreached | .leverageLimitBreached => true
  | _ => false

theorem applyRules_eventType {rules : List GateRule}
    (hrules : ∀ rule ∈ rules, rule.eventType.isGateOutcome) {checks checks' : List GateCheck}
    {reason : GateReason} {eventType : RiskEventType} {detail : String}
    (h : applyRules checks rules = .blocked reason eventType detail checks') :
    eventType.isGateOutcome := by
  -- On the checks still to come; the failing one is among them.
  induction rules generalizing checks with
  | nil => cases h
  | cons rule rules ih =>
      rw [applyRules] at h
      split at h
      · cases h
        exact hrules _ List.mem_cons_self
      · exact ih (fun r hr => hrules r (List.mem_cons_of_mem _ hr)) h

theorem gateRules_eventType (order : ProposedOrder) (projection : OrderProjection)
    (capital : CapitalSnapshot) (limits : RiskLimits) (dailyPnL : JsNumber) :
    ∀ rule ∈ gateRules order projection capital limits dailyPnL, rule.eventType.isGateOutcome := by
  simp [gateRules, RiskEventType.isGateOutcome]

/-- The event of a refused order is never one that moves the halt. -/
theorem evaluatePreTrade_eventType {order : ProposedOrder} {projection : OrderProjection}
    {capital : CapitalSnapshot} {limits : RiskLimits} {dailyPnL : JsNumber} {reason : GateReason}
    {eventType : RiskEventType} {detail : String} {checks : List GateCheck}
    (h : evaluatePreTrade order projection capital limits dailyPnL =
      .blocked reason eventType detail checks) : eventType.isGateOutcome := by
  unfold evaluatePreTrade at h
  dsimp only at h
  split at h
  · cases h
    rfl
  · exact applyRules_eventType (gateRules_eventType _ _ _ _ _) h

end NexusQuant.Risk

import NexusQuant.Execution.Stage
import NexusQuant.Lib.Fallible
import NexusQuant.Risk.Approval
import NexusQuant.Risk.Sizer

/-!
# The risk hook of the execution stage

`createRiskExecutionGate` of `services/workers/src/risk/integration.ts`: a proposal is sized at the
price of its quote and the order of that size evaluated by the engine.  The proposal keeps its
notional, the sizer only derives the quantity.
-/

namespace NexusQuant.Risk

open Execution Journal Market Rounding

/-- The proposal as the sizer gets it.  The equity is not read in this mode. -/
def sizingInput (cfg : RiskEngineConfig) (capital : CapitalSnapshot) (proposal : ProposedAllocation)
    (quote : Quote) : SizingInput where
  config :=
    { mode := .fixedNotional
      leverage := .fin cfg.accountConfig.leverage
      fixedNotional := some (.fin (parseDecimal proposal.targetNotional)) }
  equity := .fin (parseDecimal capital.accountEquity)
  price := .fin (parseDecimal quote.price)

/-- The order a proposal is checked as. -/
def proposedOrder (cfg : RiskEngineConfig) (view : MarketView) (proposal : ProposedAllocation)
    (quote : Quote) : ProposedOrder :=
  let capital := buildCapitalSnapshot view.account view.positions cfg.accountConfig
  let sizing := sizePosition (sizingInput cfg capital proposal quote)
  { symbol := proposal.symbol
    side := proposal.side
    targetQuantity := sizing.targetQuantity
    targetNotional := sizing.targetNotional
    price := quote.price
    strategyId := proposal.strategyId
    lineage := none }

def RefusalReason.text : RefusalReason → String
  | .gate reason => reason.text
  | .tradingHalted => "TRADING_HALTED"

def RiskDecision.toGate : RiskDecision → RiskGateDecision
  | .approved _ => .approved
  | .refused reason _ detail _ => .blocked reason.text detail

/-- The hook, on the quote of the proposal's symbol; the provider may throw, and so may the engine. -/
def createRiskExecutionGate (texts : FileRiskEventStore.Texts) (cfg : RiskEngineConfig)
    (e : RiskEngine) (view : MarketView) (health : HealthSignals)
    (quote : Except String (Option Quote)) (disk : Disk) (proposal : ProposedAllocation) :
    Outcome RiskGateDecision :=
  match quote with
  | .error message => ⟨.error message, [], e⟩
  | .ok none => ⟨.ok (.blocked "NO_MARKET_DATA" ("no quote for " ++ proposal.symbol)), [], e⟩
  | .ok (some quote) =>
      if ¬ parseDecimal quote.price > 0 then
        ⟨.ok (.blocked "NO_MARKET_DATA" ("invalid price " ++ quote.price)), [], e⟩
      else
        let o := evaluate texts cfg e (proposedOrder cfg view proposal quote) view health disk
        ⟨o.result.map RiskDecision.toGate, o.journaled, o.engine⟩

section Gate

variable {texts : FileRiskEventStore.Texts} {cfg : RiskEngineConfig} {e : RiskEngine}
  {view : MarketView} {health : HealthSignals} {quote : Except String (Option Quote)} {disk : Disk}
  {proposal : ProposedAllocation}

/-- A hook that approves has a quote with a price, and the approval of the engine. -/
theorem riskGate_approved
    (h : (createRiskExecutionGate texts cfg e view health quote disk proposal).result =
      .ok .approved) :
    ∃ q capital, quote = .ok (some q) ∧ 0 < parseDecimal q.price ∧
      (evaluate texts cfg e (proposedOrder cfg view proposal q) view health disk).result =
        .ok (.approved capital) ∧
      createRiskExecutionGate texts cfg e view health quote disk proposal =
        ⟨.ok .approved,
          (evaluate texts cfg e (proposedOrder cfg view proposal q) view health disk).journaled,
          (evaluate texts cfg e (proposedOrder cfg view proposal q) view health disk).engine⟩ := by
  unfold createRiskExecutionGate at h ⊢
  split at h
  · cases h
  · cases h
  · rename_i q
    split at h
    · cases h
    · rename_i hprice
      dsimp only at h
      obtain ⟨decision, hdecision, hgate⟩ := Fallible.map_eq_ok.mp h
      cases decision with
      | refused reason eventType detail capital => cases hgate
      | approved capital =>
          refine ⟨q, capital, rfl, not_not.mp hprice, hdecision, ?_⟩
          dsimp only
          rw [if_neg hprice, hdecision]
          rfl

/-- The order is for the notional of the proposal and, unless that is nothing at all, for as much of the
symbol as it is at the price. -/
theorem proposedOrder_amounts (cfg : RiskEngineConfig) (view : MarketView) {quote : Quote}
    (hquantized : isCanonicalDecimalString proposal.targetNotional notionalDp)
    (hnotional : 0 < parseDecimal proposal.targetNotional) (hprice : 0 < parseDecimal quote.price) :
    parseDecimal (proposedOrder cfg view proposal quote).targetNotional =
        parseDecimal proposal.targetNotional ∧
      (0 < parseDecimal (proposedOrder cfg view proposal quote).targetQuantity →
        parseDecimal (proposedOrder cfg view proposal quote).targetQuantity =
          roundTo qtyDp (parseDecimal proposal.targetNotional / parseDecimal quote.price)) := by
  let capital := buildCapitalSnapshot view.account view.positions cfg.accountConfig
  have hsizes : Sizes (sizingInput cfg capital proposal quote) (parseDecimal quote.price)
      (parseDecimal proposal.targetNotional) := ⟨rfl, hprice, hnotional, rfl, trivial⟩
  obtain ⟨detail, hsized⟩ := sizePosition_of_sizes hsizes
  obtain ⟨hqty, hntl, -⟩ := parseDecimal_sized (sizingInput cfg capital proposal quote).config
    (parseDecimal quote.price) (parseDecimal proposal.targetNotional) detail
  rw [← hsized] at hqty hntl
  refine ⟨hntl.trans (roundTo_eq_self (parseDecimal_mem_grid hquantized)), fun hpositive => ?_⟩
  -- A quantity that overflows would be given as zero.
  change 0 < parseDecimal (sizePosition _).targetQuantity at hpositive
  rw [hqty, Binary64.overflowing_fin (div_pos hnotional hprice).le] at hpositive
  rw [Binary64.overflowing_fin (div_pos hnotional hprice).le] at hqty
  split at hpositive
  · rename_i hlt
    rw [if_pos hlt] at hqty
    exact hqty
  · exact absurd hpositive (lt_irrefl _)

/-- What the checks of an approved order leave of its amounts. -/
structure WithinRiskLimits (cfg : RiskEngineConfig) (e : RiskEngine) (view : MarketView)
    (order : ProposedOrder) : Prop where
  running : e.state.halted = false
  solvent : 0 < parseDecimal
    (buildCapitalSnapshot view.account view.positions cfg.accountConfig).accountEquity
  positive : 0 < parseDecimal order.targetQuantity ∧ 0 < parseDecimal order.targetNotional
  quantity : JsNumber.le (.fin (parseDecimal order.targetQuantity)) cfg.limits.maxPositionSize
  notional : JsNumber.le (.fin (parseDecimal order.targetNotional)) cfg.limits.maxPositionNotional
  leverage : JsNumber.le (.fin (parseDecimal (projectOrder view.positions
    (buildCapitalSnapshot view.account view.positions cfg.accountConfig) order
      cfg.accountConfig.leverage).grossExposureAfter / parseDecimal
    (buildCapitalSnapshot view.account view.positions cfg.accountConfig).accountEquity))
    cfg.limits.maxLeverage
  margin : parseDecimal (projectOrder view.positions
      (buildCapitalSnapshot view.account view.positions cfg.accountConfig) order
        cfg.accountConfig.leverage).requiredMargin ≤
    parseDecimal
      (buildCapitalSnapshot view.account view.positions cfg.accountConfig).availableMargin

theorem withinRiskLimits_of_approved {order : ProposedOrder} {capital : CapitalSnapshot}
    (h : (evaluate texts cfg e order view health disk).result = .ok (.approved capital)) :
    WithinRiskLimits cfg e view order := by
  obtain ⟨rfl, checks, hassess, -⟩ := evaluate_approved h
  obtain ⟨hrunning, -, hgate⟩ := assess_judged hassess
  obtain ⟨hvalid, hequity, hrules⟩ := evaluatePreTrade_approved hgate
  obtain ⟨hsize, hnotional, hleverage, -⟩ := usable_of_validInputs hvalid
  have hpositive : 0 < parseDecimal order.targetQuantity ∧ 0 < parseDecimal order.targetNotional := by
    unfold validInputs at hvalid
    simp only [Bool.and_eq_true, decide_eq_true_eq] at hvalid
    exact hvalid.1.2
  simp only [gateRules, List.forall_mem_cons, decide_eq_false_iff_not, not_lt] at hrules
  exact
    { running := hrunning
      solvent := hequity
      positive := hpositive
      quantity := JsNumber.le_of_lt_eq_false hsize.1 rfl hrules.1
      notional := JsNumber.le_of_lt_eq_false hnotional.1 rfl hrules.2.1
      leverage := JsNumber.le_of_lt_eq_false hleverage.1 rfl hrules.2.2.1
      margin := hrules.2.2.2.1 }

/-- An approval is journaled by one passed check of its order. -/
theorem journaled_of_approved {order : ProposedOrder} {capital : CapitalSnapshot}
    (h : (evaluate texts cfg e order view health disk).result = .ok (.approved capital)) :
    ∃ record : RiskJournalRecord,
      (evaluate texts cfg e order view health disk).journaled = [record] ∧
      record.type = .riskCheckPassed ∧ record.order = some order := by
  obtain ⟨-, checks, -, hjournaled, -, hwritten⟩ := evaluate_approved h
  obtain ⟨-, record, hinput, hone, -⟩ := (appendEach_single _ _).resolve_right
    fun hfailed => Bool.false_ne_true (hwritten.symm.trans hfailed.1)
  rw [hjournaled]
  exact ⟨record, hone, congrArg RiskJournalInput.type hinput, congrArg RiskJournalInput.order hinput⟩

/-- A halted engine approves nothing and stays as it is. -/
theorem riskGate_halted (hhalted : e.state.halted = true) :
    (createRiskExecutionGate texts cfg e view health quote disk proposal).result ≠ .ok .approved ∧
      (createRiskExecutionGate texts cfg e view health quote disk proposal).engine = e := by
  have hevaluate : ∀ order, evaluate texts cfg e order view health disk =
      ⟨.ok (.refused .tradingHalted .tradingHalted (haltedDetail e.state)
        (buildCapitalSnapshot view.account view.positions cfg.accountConfig)), [], e⟩ := by
    intro order
    unfold evaluate assess
    dsimp only
    rw [if_pos hhalted]
  unfold createRiskExecutionGate
  split
  · simp
  · simp
  · split
    · simp
    · simp [hevaluate, Except.map, RiskDecision.toGate]

end Gate

end NexusQuant.Risk

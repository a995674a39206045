import NexusQuant.Core
import NexusQuant.Execution.Portfolio

/-!
# Decisions, allocations and intents

The decision half of `services/workers/src/execution/portfolio.ts`: the decisions of a tick are
netted per symbol and sized by the capital policy, and a proposed allocation is projected onto the
exposures it would leave.  `intent.ts` turns an allocation into an intent whose id is a digest of
its content.
-/

namespace NexusQuant.Execution

/-! ## Decisions -/

inductive DecisionAction where
  | enter | hold | standAside
deriving DecidableEq, Repr

/-- The lineage of a decision. -/
structure DecisionLineage where
  strategyVersionId : String
  featureSnapshotId : String
  dqReportId : String
  datasetHash : String
  featureHash : String
  executionStrategyId : String
  executionStrategyVersion : ℤ
deriving DecidableEq, Repr

/-- A decision event: what the portfolio layer reads of the observation, the intent and the
lineage. -/
structure DecisionEvent where
  symbol : String
  action : DecisionAction
  side : SignalDecision
  confidence : String
  lineage : DecisionLineage
deriving DecidableEq, Repr

structure ProposedAllocation where
  symbol : String
  side : ExecutionSide
  targetNotional : String
  netScore : String
  strategyId : String
  strategyVersion : ℤ
  primary : DecisionContribution
  contributions : List DecisionContribution
deriving DecidableEq, Repr

/-- The capital policy.  Its numbers come from a configuration, so nothing is known of them. -/
structure PortfolioConfig where
  totalCapital : JsNumber
  strategyWeights : Dict JsNumber
  defaultStrategyWeight : JsNumber
  netDeadband : JsNumber
deriving DecidableEq, Repr

/-- `config.strategyWeights[id] ?? config.defaultStrategyWeight`.  What an object inherits is there
too, and is not a number once it is multiplied. -/
def PortfolioConfig.weightOf (config : PortfolioConfig) (id : String) : JsNumber :=
  match config.strategyWeights.get? id with
  | some weight => weight
  | none => if id ∈ Dict.inherited then .nan else config.defaultStrategyWeight

/-- `DEFAULT_PORTFOLIO_CONFIG`. -/
def defaultPortfolioConfig : PortfolioConfig := ⟨.fin 1000000, [], .fin 1, .fin (1 / 100)⟩

def signOf : ExecutionSide → ℚ
  | .long => 1
  | .short => -1

/-- `quantizeNotional` on a number that may not be finite: such a one reads as zero. -/
def quantizeNumber [Arithmetic] (x : JsNumber) : String := quantizeNotional (x.finite?.getD 0)

/-- The contribution of one decision; only an ENTER that is not FLAT has one. -/
def contributionOf [A : Arithmetic] (config : PortfolioConfig) (event : DecisionEvent) :
    Option DecisionContribution :=
  let contribution (side : ExecutionSide) : DecisionContribution :=
    let lineage := event.lineage
    let weight := config.weightOf lineage.executionStrategyId
    let strategyCapital := A.number (config.totalCapital * weight)
    let conviction := parseDecimal event.confidence
    let signed := A.number
      (A.number (JsNumber.fin (signOf side) * strategyCapital) * JsNumber.fin conviction)
    { strategyVersionId := lineage.strategyVersionId
      executionStrategyId := lineage.executionStrategyId
      executionStrategyVersion := lineage.executionStrategyVersion
      featureSnapshotId := lineage.featureSnapshotId
      dqReportId := lineage.dqReportId
      datasetHash := lineage.datasetHash
      featureHash := lineage.featureHash
      side
      confidence := event.confidence
      weightedNotional := quantizeNumber signed }
  -- Only an ENTER is allocated, and none on a FLAT side.
  if event.action ≠ .enter then none
  else match event.side with
    | .long => some (contribution .long)
    | .short => some (contribution .short)
    | .flat => none

/-! ## Netting -/

section Netting

variable [A : Arithmetic] (localeCompare : String → String → ℤ)

/-- The first key that tells two contributions apart decides their order. -/
def compareContribution (a b : DecisionContribution) : ℚ :=
  let keys : List ℚ :=
    [A.rounded (|parseDecimal b.weightedNotional| - |parseDecimal a.weightedNotional|),
      localeCompare a.featureSnapshotId b.featureSnapshotId,
      localeCompare a.executionStrategyId b.executionStrategyId,
      a.executionStrategyVersion - b.executionStrategyVersion,
      localeCompare a.strategyVersionId b.strategyVersionId,
      localeCompare a.dqReportId b.dqReportId,
      localeCompare a.datasetHash b.datasetHash,
      localeCompare a.featureHash b.featureHash,
      localeCompare a.side.text b.side.text,
      localeCompare a.confidence b.confidence,
      localeCompare a.weightedNotional b.weightedNotional]
  (keys.find? (· ≠ 0)).getD 0

/-- The stable sort of the source. -/
def sortContributions (contributions : List DecisionContribution) : List DecisionContribution :=
  contributions.insertionSort fun a b => compareContribution localeCompare a b ≤ 0

/-- The contributions of each symbol, in the order the decisions arrived in. -/
def bySymbol (config : PortfolioConfig) (decisions : List DecisionEvent) :
    Dict (List DecisionContribution) :=
  decisions.foldl
    (fun d event => match contributionOf config event with
      | none => d
      | some c => d.set event.symbol ((d.get? event.symbol).getD [] ++ [c]))
    []

/-- The allocation of one symbol: nothing inside the deadband.  A negative weight or confidence can leave
no contribution on the side of the net, and reading its strategy then throws. -/
def allocate (config : PortfolioConfig) (symbol : String)
    (contributions : List DecisionContribution) : Except String (Option ProposedAllocation) :=
  let contributions := sortContributions localeCompare contributions
  let netSigned := A.sumOf (contributions.map fun c => parseDecimal c.weightedNotional)
  if JsNumber.le (.fin |netSigned|) config.netDeadband then .ok none
  else
    let side : ExecutionSide := if netSigned > 0 then .long else .short
    match contributions.find? (fun c => c.side = side) with
    -- The source asserts that there is one and reads its fields.
    | none => .error "Cannot read properties of undefined (reading 'executionStrategyId')"
    | some primary =>
        .ok (some
          { symbol
            side
            targetNotional := quantizeNotional |netSigned|
            netScore := quantizeNotional netSigned
            strategyId := primary.executionStrategyId
            strategyVersion := primary.executionStrategyVersion
            primary
            contributions })

/-- One allocation for each symbol with a net, in the order of the symbols. -/
def aggregateDecisions (decisions : List DecisionEvent) (config : PortfolioConfig) :
    Except String (List ProposedAllocation) :=
  let buckets := bySymbol config decisions
  (buckets.sortedKeys.mapM fun symbol =>
    allocate localeCompare config symbol ((buckets.get? symbol).getD [])).map
      fun allocations => allocations.filterMap id

end Netting

/-! ## Projection -/

structure ExposureProjection where
  grossAfter : ℚ
  strategyAfter : ℚ
deriving DecidableEq, Repr

/-- The exposures if the proposal were filled at its target in place of what its symbol holds; the
bucket only gives back what it owns. -/
def projectExposure [A : Arithmetic] (state : PortfolioState) (proposal : ProposedAllocation) :
    ExposureProjection :=
  let target := parseDecimal proposal.targetNotional
  let prior := state.positions.get? proposal.symbol
  let priorNotional := (prior.map fun p => parseDecimal p.notional).getD 0
  let bucket := proposal.strategyId
  let strategyBefore := parseDecimal ((state.byStrategy.get? bucket).getD "0")
  let priorInBucket := (prior.map fun p =>
    if p.strategyId = bucket then parseDecimal p.notional else 0).getD 0
  { grossAfter := A.rounded (A.rounded (parseDecimal state.grossExposure - priorNotional) + target)
    strategyAfter := A.rounded (A.rounded (strategyBefore - priorInBucket) + target) }

/-! ## Intents -/

def contributionText (c : DecisionContribution) : String :=
  c.featureSnapshotId ++ ":" ++ c.strategyVersionId ++ ":" ++ c.executionStrategyId ++ "@v" ++
    toString c.executionStrategyVersion ++ ":" ++ c.side.text ++ ":" ++ c.confidence ++ ":" ++
    c.weightedNotional ++ ":" ++ c.dqReportId ++ ":" ++ c.datasetHash ++ ":" ++ c.featureHash

/-- The object an intent id is the digest of, its keys sorted. -/
def intentParts (proposal : ProposedAllocation) (adapterId : String) : Json :=
  let primary := proposal.primary
  .obj [("action", .str "ENTER"), ("adapterId", .str adapterId),
    ("contributionKey", .str ("|".intercalate (proposal.contributions.map contributionText))),
    ("datasetHash", .str primary.datasetHash), ("dqReportId", .str primary.dqReportId),
    ("executionStrategyId", .str primary.executionStrategyId),
    ("executionStrategyVersion", .num primary.executionStrategyVersion),
    ("featureHash", .str primary.featureHash),
    ("featureSnapshotId", .str primary.featureSnapshotId), ("netScore", .str proposal.netScore),
    ("side", .str proposal.side.text), ("strategyVersionId", .str primary.strategyVersionId),
    ("symbol", .str proposal.symbol), ("targetNotional", .str proposal.targetNotional)]

/-- The intent of a proposal; `digest` is the part that is kept of the SHA-256 digest of a text. -/
def deriveExecutionIntent (digest : Bytes → String) (proposal : ProposedAllocation)
    (adapterId : String) (tickId : Option String) : ExecutionIntent :=
  let primary := proposal.primary
  let intentId := digest (intentParts proposal adapterId).print
  { intentId
    symbol := proposal.symbol
    side := proposal.side
    targetNotional := proposal.targetNotional
    adapterId
    lineage :=
      { tickId
        strategyVersionId := primary.strategyVersionId
        featureSnapshotId := primary.featureSnapshotId
        dqReportId := primary.dqReportId
        datasetHash := primary.datasetHash
        featureHash := primary.featureHash
        executionStrategyId := primary.executionStrategyId
        executionStrategyVersion := primary.executionStrategyVersion
        intentId
        netScore := proposal.netScore
        contributions := proposal.contributions }
    rationale := "ENTER " ++ proposal.side.text ++ " " ++ proposal.symbol ++ " notional " ++
      proposal.targetNotional ++ " via " ++ adapterId ++ " (net " ++ proposal.netScore ++ " from " ++
      toString proposal.contributions.length ++ " decision(s))" }

/-! ## What an allocation looks like -/

/-- What every proposal of a tick has: a quantized target and the strategy of its owner. -/
structure ProposedAllocation.WellFormed (a : ProposedAllocation) : Prop where
  quantized : isCanonicalDecimalString a.targetNotional notionalDp
  owner : a.strategyId = a.primary.executionStrategyId

theorem allocate_wellFormed [Arithmetic] {localeCompare : String → String → ℤ} {config : PortfolioConfig}
    {symbol : String} {contributions : List DecisionContribution} {a : ProposedAllocation}
    (h : allocate localeCompare config symbol contributions = .ok (some a)) : a.WellFormed := by
  unfold allocate at h
  dsimp only at h
  split at h
  · cases h
  · split at h
    · cases h
    · cases h
      exact ⟨isCanonicalDecimalString_quantize (by decide) _, rfl⟩

/-- What a list of calls returned, if none of them threw. -/
theorem exists_of_mem_mapM {α β : Type} {f : α → Except String β} {as : List α} {bs : List β}
    (h : as.mapM f = .ok bs) : ∀ b ∈ bs, ∃ a ∈ as, f a = .ok b := by
  -- On the calls: the first that throws would have ended them all.
  induction as generalizing bs with
  | nil =>
      cases h
      simp
  | cons a as ih =>
      rw [List.mapM_cons] at h
      cases ha : f a with
      | error e =>
          rw [ha] at h
          cases h
      | ok b =>
          rw [ha] at h
          cases hrest : as.mapM f with
          | error e =>
              rw [hrest] at h
              cases h
          | ok rest =>
              rw [hrest] at h
              cases h
              intro b' hb'
              rcases List.mem_cons.mp hb' with rfl | hmem
              · exact ⟨a, List.mem_cons_self, ha⟩
              · obtain ⟨a', ha', hfa'⟩ := ih hrest b' hmem
                exact ⟨a', List.mem_cons_of_mem a ha', hfa'⟩

theorem aggregateDecisions_wellFormed [Arithmetic] {localeCompare : String → String → ℤ}
    {decisions : List DecisionEvent} {config : PortfolioConfig}
    {proposals : List ProposedAllocation}
    (h : aggregateDecisions localeCompare decisions config = .ok proposals) :
    ∀ a ∈ proposals, a.WellFormed := by
  unfold aggregateDecisions at h
  dsimp only at h
  cases hmap : (bySymbol config decisions).sortedKeys.mapM fun symbol =>
      allocate localeCompare config symbol (((bySymbol config decisions).get? symbol).getD []) with
  | error e =>
      rw [hmap] at h
      cases h
  | ok allocations =>
      rw [hmap] at h
      cases h
      intro a ha
      -- A proposal is what one symbol's allocation returned.
      obtain ⟨slot, hslot, hid⟩ := List.mem_filterMap.mp ha
      obtain ⟨symbol, -, halloc⟩ := exists_of_mem_mapM hmap slot hslot
      rw [id_eq] at hid
      rw [hid] at halloc
      exact allocate_wellFormed halloc

end NexusQuant.Execution

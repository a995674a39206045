import NexusQuant.Risk.EventStore

/-!
# The risk engine

`state.ts`, `engine.ts` and `recovery.ts`: the control state is a fold over the journal, the engine
appends a record before it folds it, and a restart folds the whole file again.
-/

namespace NexusQuant.Risk

open Execution Journal Market

/-! ## Control state -/

def initialRiskControlState : RiskControlState :=
  { halted := false
    trigger := none
    haltDetail := none
    haltedAtSeq := none
    baselineEquity := none
    peakEquity := none
    checksPassed := 0
    checksFailed := 0 }

/-- `asHaltCause`. -/
def asHaltCause (record : RiskJournalRecord) : HaltCause :=
  (record.trigger.map .trigger).getD .manual

/-- The session baseline is the first equity seen, the peak the highest. -/
def observeEquity (state : RiskControlState) : Option CapitalSnapshot → RiskControlState
  | none => state
  | some capital =>
      let equity := parseDecimal capital.accountEquity
      { state with
        baselineEquity := state.baselineEquity.or (some (quantizePnl equity))
        peakEquity :=
          match state.peakEquity with
          | none => some (quantizePnl equity)
          -- Ties keep the text of the old peak.
          | some peak => if equity > parseDecimal peak then some (quantizePnl equity) else some peak }

/-- Fold one record.  The first record that engages a halt fixes its cause; only a resume clears
it. -/
def applyRiskRecord (state : RiskControlState) (record : RiskJournalRecord) : RiskControlState :=
  let state := observeEquity state record.capital
  match record.type with
  | .riskCheckPassed => { state with checksPassed := state.checksPassed + 1 }
  | .riskCheckFailed => { state with checksFailed := state.checksFailed + 1 }
  | .positionLimitBreached | .leverageLimitBreached | .drawdownLimitBreached => state
  | .killSwitchTriggered | .tradingHalted =>
      -- A second halt does not overwrite the cause of the first.
      if state.halted then state
      else
        { state with
          halted := true
          trigger := some (asHaltCause record)
          haltDetail := some record.detail
          haltedAtSeq := some record.seq }
  | .tradingResumed =>
      { state with halted := false, trigger := none, haltDetail := none, haltedAtSeq := none }

def reconstructRiskState (records : List RiskJournalRecord) : RiskControlState :=
  records.foldl applyRiskRecord initialRiskControlState

/-! ## Recovery -/

/-- The journal is unreadable. -/
structure RiskRecoveryError where
  cause : Option ReadError
deriving DecidableEq, Repr

structure RecoveredRiskState where
  state : RiskControlState
  recordsReplayed : ℕ
deriving DecidableEq, Repr

/-- `recoverRiskState` on a file.  Every value that is read was admitted, so that it is a record
(`RiskJournalRecord.ofJson?_of_admitted`). -/
def recoverRiskState (texts : FileRiskEventStore.Texts) (file : Bytes) :
    Except RiskRecoveryError RecoveredRiskState :=
  match FileRiskEventStore.readAll texts file with
  | .error e => .error ⟨some e⟩
  | .ok values =>
      match values.mapM RiskJournalRecord.ofJson? with
      | none => .error ⟨none⟩
      | some records => .ok ⟨reconstructRiskState records, records.length⟩

/-! ## Engine -/

structure RiskEngineConfig where
  limits : RiskLimits
  accountConfig : AccountConfig
deriving DecidableEq, Repr

structure RiskEngine where
  store : Store
  state : RiskControlState
deriving DecidableEq, Repr

structure MarketView where
  account : Account
  positions : Dict Position
deriving DecidableEq, Repr

/-- What the environment does to the appends of one call: how each of them ends, in order, and the
message of the one that fails. -/
structure Disk where
  writes : List Write
  errMsg : String
deriving DecidableEq, Repr

/-- A series of appends: whether one failed, the records that were completed, the engine after. -/
structure Journaling where
  failed : Bool
  journaled : List RiskJournalRecord
  engine : RiskEngine
deriving DecidableEq, Repr

/-- What a call returns or throws, the records it completed, and the engine after it. -/
structure Outcome (α : Type) where
  result : Except String α
  journaled : List RiskJournalRecord
  engine : RiskEngine

section Engine

variable (texts : FileRiskEventStore.Texts) (cfg : RiskEngineConfig)

def appendAndFold (e : RiskEngine) (input : RiskJournalInput) (write : Write) :
    Option RiskJournalRecord × RiskEngine :=
  match FileRiskEventStore.append texts e.store input write with
  | (some record, store) => (some record, ⟨store, applyRiskRecord e.state record⟩)
  | (none, store) => (none, ⟨store, e.state⟩)

/-- `appendAndFold` of one input after the other, up to the first that throws. -/
def appendEach (e : RiskEngine) : List RiskJournalInput → List Write → Journaling
  | [], _ => ⟨false, [], e⟩
  | input :: inputs, writes =>
      match appendAndFold texts e input (writes.headD .complete) with
      | (some record, e') =>
          let rest := appendEach e' inputs writes.tail
          { rest with journaled := record :: rest.journaled }
      | (none, e') => ⟨true, [], e'⟩

/-- The specific breach a trigger is announced by. -/
def breachType : Option KillSwitchTrigger → Option RiskEventType
  | some .drawdownBreach => some .drawdownLimitBreached
  | some .leverageBreach => some .leverageLimitBreached
  | _ => none

def haltCause (trigger : Option KillSwitchTrigger) : HaltCause :=
  (trigger.map .trigger).getD .manual

/-- The records of a halt: the breach, the kill switch, and the halt itself. -/
def haltInputs (detail : String) (trigger : Option KillSwitchTrigger)
    (capital : Option CapitalSnapshot) : List RiskJournalInput :=
  let reason := (haltCause trigger).text
  (breachType trigger).toList.map (fun type => ⟨type, reason, detail, none, capital, none, none⟩) ++
  trigger.toList.map (fun t =>
    ⟨.killSwitchTriggered, reason, detail, none, capital, some t, none⟩) ++
  [⟨.tradingHalted, reason, detail, none, capital, trigger, none⟩]

/-- `halt`: when an append throws, trading is halted in memory and the error thrown on. -/
def halt (e : RiskEngine) (detail : String) (trigger : Option KillSwitchTrigger)
    (capital : Option CapitalSnapshot) (disk : Disk) : Outcome Unit :=
  let j := appendEach texts e (haltInputs detail trigger capital) disk.writes
  if j.failed then
    ⟨.error disk.errMsg, j.journaled,
      { j.engine with
        state :=
          { j.engine.state with
            halted := true
            trigger := some (haltCause trigger)
            haltDetail := some (detail ++ " (journal write failed: " ++ disk.errMsg ++ ")") } }⟩
  else ⟨.ok (), j.journaled, j.engine⟩

def resetInput (detail : String) : RiskJournalInput :=
  ⟨.tradingResumed, "RESET", detail, none, none, none, none⟩

def reset (e : RiskEngine) (detail : String) (disk : Disk) : Outcome Unit :=
  let j := appendEach texts e [resetInput detail] disk.writes
  ⟨if j.failed then .error disk.errMsg else .ok (), j.journaled, j.engine⟩

/-- What an evaluation finds: trading is halted already, a trigger trips, or the gate decides. -/
inductive Assessment where
  | halted
  | tripped (trip : TriggerResult)
  | judged (verdict : GateVerdict)
deriving DecidableEq, Repr

/-- The part of `evaluate` before anything is journaled. -/
def assess (state : RiskControlState) (order : ProposedOrder) (view : MarketView)
    (health : HealthSignals) (capital : CapitalSnapshot) : Assessment :=
  if state.halted then .halted
  else
    let equity := parseDecimal capital.accountEquity
    let baseline := (state.baselineEquity.map parseDecimal).getD equity
    -- Without a peak the source starts from minus infinity.
    let priorPeak := (state.peakEquity.map fun p => JsNumber.fin (parseDecimal p)).getD .negInf
    let peak := JsNumber.max priorPeak (.fin equity)
    let dailyPnL := JsNumber.fin (equity - baseline)
    let drawdown := currentDrawdown peak (.fin equity)
    match evaluateTriggers capital cfg.limits dailyPnL drawdown health with
    | some trip => .tripped trip
    | none =>
        let projection := projectOrder view.positions capital order cfg.accountConfig.leverage
        .judged (evaluatePreTrade order projection capital cfg.limits dailyPnL)

/-- The records an assessment is journaled by. -/
def assessmentInputs (order : ProposedOrder) (capital : CapitalSnapshot) :
    Assessment → List RiskJournalInput
  | .halted => []
  | .tripped trip => haltInputs trip.detail (some trip.trigger) (some capital)
  | .judged (.approved _) =>
      [⟨.riskCheckPassed, "PASSED", "all pre-trade checks passed", some order.symbol, some capital,
        none, some order⟩]
  | .judged (.blocked reason eventType detail _) =>
      ⟨.riskCheckFailed, reason.text, detail, some order.symbol, some capital, none, some order⟩ ::
        if eventType = .riskCheckFailed then []
        else [⟨eventType, reason.text, detail, some order.symbol, some capital, none, some order⟩]

def haltedDetail (state : RiskControlState) : String :=
  "trading halted (" ++ (state.trigger.map HaltCause.text).getD "?" ++ "): " ++
    state.haltDetail.getD ""

/-- `evaluate`: an order is approved only after its passed check is journaled. -/
def evaluate (e : RiskEngine) (order : ProposedOrder) (view : MarketView) (health : HealthSignals)
    (disk : Disk) : Outcome RiskDecision :=
  let capital := buildCapitalSnapshot view.account view.positions cfg.accountConfig
  match assess cfg e.state order view health capital with
  | .halted =>
      ⟨.ok (.refused .tradingHalted .tradingHalted (haltedDetail e.state) capital), [], e⟩
  -- A breach halts first and refuses then; when the halt cannot be journaled the call throws.
  | .tripped trip =>
      let o := halt texts e trip.detail (some trip.trigger) (some capital) disk
      ⟨o.result.map fun _ => .refused .tradingHalted .killSwitchTriggered
        (trip.trigger.text ++ ": " ++ trip.detail) capital, o.journaled, o.engine⟩
  | .judged (.approved checks) =>
      let j := appendEach texts e (assessmentInputs order capital (.judged (.approved checks)))
        disk.writes
      -- An approval that is not on disk is a refusal.
      ⟨.ok (if j.failed then .refused (.gate .failClosed) .riskCheckFailed
          ("risk journal write failed: " ++ disk.errMsg) capital
        else .approved capital), j.journaled, j.engine⟩
  | .judged (.blocked reason eventType detail checks) =>
      let j := appendEach texts e
        (assessmentInputs order capital (.judged (.blocked reason eventType detail checks)))
        disk.writes
      ⟨.ok (.refused (.gate reason) eventType
        (if j.failed then detail ++ " (risk journal write failed: " ++ disk.errMsg ++ ")"
        else detail) capital), j.journaled, j.engine⟩

end Engine

/-! ## Processes on one file -/

/-- A call on the engine of the running process, or a new process. -/
inductive RiskCommand where
  | evaluate (order : ProposedOrder) (view : MarketView) (health : HealthSignals) (disk : Disk)
  | halt (detail : String) (trigger : Option KillSwitchTrigger) (capital : Option CapitalSnapshot)
      (disk : Disk)
  | reset (detail : String) (disk : Disk)
  | restart
deriving DecidableEq, Repr

/-- The store and the control state of the running engine, none when its recovery threw, and all
the records whose append completed, in any process. -/
structure RiskSystem where
  store : Store
  state : Option RiskControlState
  completed : List RiskJournalRecord
deriving DecidableEq, Repr

def initialRiskSystem : RiskSystem := ⟨⟨[], none⟩, some initialRiskControlState, []⟩

section System

variable (texts : FileRiskEventStore.Texts) (cfg : RiskEngineConfig)

/-- The system after a call. -/
def RiskSystem.after {α : Type} (s : RiskSystem) (o : Outcome α) : RiskSystem :=
  ⟨o.engine.store, some o.engine.state, s.completed ++ o.journaled⟩

/-- One command.  Without an engine on the file no call reaches it. -/
def RiskSystem.step (s : RiskSystem) (command : RiskCommand) : RiskSystem :=
  match command, s.state with
  | .restart, _ =>
      ⟨⟨s.store.file, none⟩, (recoverRiskState texts s.store.file).toOption.map (·.state),
        s.completed⟩
  | .evaluate order view health disk, some state =>
      s.after (evaluate texts cfg ⟨s.store, state⟩ order view health disk)
  | .halt detail trigger capital disk, some state =>
      s.after (halt texts ⟨s.store, state⟩ detail trigger capital disk)
  | .reset detail disk, some state => s.after (reset texts ⟨s.store, state⟩ detail disk)
  | _, none => s

end System

end NexusQuant.Risk

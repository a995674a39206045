import NexusQuant.Lib.Run
import NexusQuant.Market.PortfolioLedger

/-!
# The drawdown across restarts

A run of the ledger is a list of records and restarts.  The series it should leave does not depend on
the restarts; it does leave that series exactly when every drawdown, measured in doubles from any peak that
restarts can leave in memory, falls between the same midpoints as the exact one from the persisted peak.  A
failed write that carried a high moves it over one, and so can a double next to a midpoint.
-/

namespace NexusQuant.Market

open DecimalText Execution Rounding

/-! ## Runs -/

inductive LedgerOp where
  | record (call : RecordCall)
  | restart
deriving DecidableEq, Repr

/-- A new process on the database. -/
def boot (config : PortfolioLedgerConfig) (newId : String) (db : LedgerDatabase) : LedgerWorld :=
  (newPortfolioLedger config).init newId db

def portfolioStep (config : PortfolioLedgerConfig) (newId : String) (world : LedgerWorld) :
    LedgerOp → LedgerWorld
  | .record call => (PortfolioLedger.record call world).1
  | .restart => boot config newId world.db

/-- What the database holds after a run that starts with a new process. -/
def databaseAfter (config : PortfolioLedgerConfig) (newId : String) (db : LedgerDatabase)
    (ops : List LedgerOp) : LedgerDatabase :=
  (Run.run (portfolioStep config newId) (boot config newId db) ops).db

/-- The calls of a run, without its restarts. -/
def recordsOf : List LedgerOp → List RecordCall
  | [] => []
  | .record call :: ops => call :: recordsOf ops
  | .restart :: ops => recordsOf ops

theorem recordsOf_map_record (calls : List RecordCall) : recordsOf (calls.map .record) = calls := by
  induction calls with
  | nil => rfl
  | cons call calls ih => rw [List.map_cons, recordsOf, ih]

theorem recordsOf_append (ops ops' : List LedgerOp) :
    recordsOf (ops ++ ops') = recordsOf ops ++ recordsOf ops' := by
  induction ops with
  | nil => rfl
  | cons op ops ih => cases op <;> simp [recordsOf, ih]

/-! ## What should be persisted -/

def equityOf (call : RecordCall) : ℚ := parseDecimal call.valuation.equity

def RecordCall.written (call : RecordCall) : Bool := call.reply.isOk

def attempted (calls : List RecordCall) : List ℚ := calls.map equityOf

def succeeded (calls : List RecordCall) : List ℚ := (calls.filter RecordCall.written).map equityOf

/-- The highest of the opening value and the equities. -/
def peakOf (initial : ℚ) (equities : List ℚ) : ℚ := equities.foldl max initial

/-- Rounded to four decimals and clamped to the unit interval. -/
def drawdownFrom (peak equity : ℚ) : ℚ := max 0 (min 1 (roundTo 4 ((peak - equity) / peak)))

section Series

variable (portfolioId : String) (initial : ℚ) (earlier : List ℚ)

/-- The snapshot of a call with a drawdown. -/
def snapshotWith (drawdown : ℚ) (call : RecordCall) : PortfolioSnapshot where
  portfolioId := portfolioId
  ts := call.ts
  equity := equityOf call
  exposure := decimalColumn 2 call.valuation.grossExposure
  drawdown := drawdown
  positions := call.positions

/-- The highest of the opening value and what is persisted up to and including a call. -/
def persistedPeak (before : List RecordCall) (call : RecordCall) : ℚ :=
  peakOf initial (earlier ++ succeeded (before ++ [call]))

/-- The snapshot a call should leave after the calls before it, its drawdown from the peak of what is
persisted up to and including it. -/
def idealSnapshot (before : List RecordCall) (call : RecordCall) : PortfolioSnapshot :=
  snapshotWith portfolioId (drawdownFrom (persistedPeak initial earlier before call) (equityOf call)) call

/-- The snapshots the calls should leave after the calls before them. -/
def idealSeries : List RecordCall → List RecordCall → List PortfolioSnapshot
  | _, [] => []
  | before, call :: calls =>
      (if call.written then [idealSnapshot portfolioId initial earlier before call] else []) ++
        idealSeries (before ++ [call]) calls

end Series

/-- The portfolio of the ledger. -/
def portfolioOf (config : PortfolioLedgerConfig) (newId : String) (db : LedgerDatabase) : String :=
  ((db.portfolios.find? (·.name == config.name)).map (·.id)).getD newId

/-- The restarts of a run do not change what it persists, and each drawdown is that from the persisted
peak. -/
structure RestartTransparent (config : PortfolioLedgerConfig) (newId : String) (db : LedgerDatabase)
    (calls : List RecordCall) : Prop where
  restart : ∀ ops, recordsOf ops = calls →
    databaseAfter config newId db ops = databaseAfter config newId db (calls.map .record)
  drawdown : (databaseAfter config newId db (calls.map .record)).snapshots =
    db.snapshots ++ idealSeries (portfolioOf config newId db) config.initialValue
      (db.equities (portfolioOf config newId db)) [] calls

/-- No timestamp occurs twice, among the snapshots of the portfolio and the calls. -/
def DistinctTimestamps (db : LedgerDatabase) (portfolioId : String) (calls : List RecordCall) : Prop :=
  ((db.snapshots.filter (isSnapshotOf portfolioId)).map (·.ts) ++ calls.map (·.ts)).Nodup

/-- The drawdown from the peak comes to at least the level. -/
def Reaches (peak equity level : ℚ) : Prop := 0 < peak ∧ equity ≤ peak * (1 - level)

/-- The drawdown from the peak, computed in doubles, comes to at least the level. -/
def Measures (peak equity level : ℚ) : Prop := level ≤ doubleDrawdown peak equity

/-- The highest equity in memory after a call, `since` being the calls after the last restart and `done`
those before it. -/
def memoryPeak (initial : ℚ) (earlier : List ℚ) (done since : List RecordCall) (call : RecordCall) : ℚ :=
  peakOf initial (earlier ++ succeeded done ++ attempted (since ++ [call]))

/-- At each successful call, and wherever the last restart was: the midpoints of two neighbouring drawdowns
that are measured in doubles from the peak in memory are those that are reached from the persisted peak. -/
def PeakUndisturbed (initial : ℚ) (earlier : List ℚ) : List RecordCall → List RecordCall → Prop
  | _, [] => True
  | before, call :: calls =>
      (call.written = true → ∀ done since, done ++ since = before → ∀ m : ℕ, m < 10 ^ 4 →
        (Measures (memoryPeak initial earlier done since call) (equityOf call)
            (((m : ℚ) + 1 / 2) / 10 ^ 4) ↔
          Reaches (persistedPeak initial earlier before call) (equityOf call)
            (((m : ℚ) + 1 / 2) / 10 ^ 4))) ∧
        PeakUndisturbed initial earlier (before ++ [call]) calls

/-! ## The drawdown as a function of the peak -/

section Drawdown

variable {peak equity : ℚ}

/-- The nearest point of the unit interval. -/
def toUnit (x : ℚ) : ℚ := max 0 (min 1 x)

theorem toUnit_nonneg (x : ℚ) : 0 ≤ toUnit x := le_max_left _ _

theorem toUnit_le_one (x : ℚ) : toUnit x ≤ 1 := max_le zero_le_one (min_le_left _ _)

theorem toUnit_of_nonpos {x : ℚ} (h : x ≤ 0) : toUnit x = 0 :=
  max_eq_left ((min_le_right 1 x).trans h)

theorem le_toUnit_iff {t x : ℚ} (hpos : 0 < t) (hone : t ≤ 1) : t ≤ toUnit x ↔ t ≤ x := by
  rw [toUnit, le_max_iff, le_min_iff]
  constructor
  · intro h
    rcases h with h | h
    · exact absurd h (not_le.mpr hpos)
    · exact h.2
  · exact fun h => .inr ⟨hone, h⟩

theorem drawdownFrom_eq (peak equity : ℚ) :
    drawdownFrom peak equity = roundTo 4 (toUnit ((peak - equity) / peak)) := by
  have hmono : Monotone (roundTo 4) := fun _ _ h => roundTo_mono 4 h
  have hone : roundTo 4 1 = 1 := roundTo_eq_self (by exact_mod_cast natCast_mem_grid 4 1)
  rw [toUnit, hmono.map_max, hmono.map_min, roundTo_zero, hone]
  rfl

theorem parseDecimal_toFixed_of_nonneg {dp : ℕ} {x : ℚ} (hdp : 0 < dp) (hx : 0 ≤ x) :
    parseDecimal (toFixed dp x) = roundTo dp x := by
  rw [toFixed_of_nonneg hx, parseDecimal, number?_fixedText hdp]
  rfl

/-- The drawdown that is recorded for a peak in memory. -/
def recordedDrawdown (peak equity : ℚ) : ℚ := roundTo 4 (toUnit (doubleDrawdown peak equity))

theorem decimalColumn_quantizeDrawdown (x : ℚ) :
    decimalColumn 4 (quantizeDrawdown (.fin x)) = roundTo 4 (toUnit x) := by
  have hclamp : min (if 0 < x then x else 0) 1 = toUnit x := by
    by_cases hx : 0 < x
    · rw [if_pos hx, toUnit, min_comm, max_eq_right (le_min zero_le_one hx.le)]
    · rw [if_neg hx, toUnit_of_nonpos (not_lt.mp hx)]
      exact min_eq_left zero_le_one
  have htext : quantizeDrawdown (.fin x) = toFixed 4 (toUnit x) := congrArg (toFixed 4) hclamp
  rw [decimalColumn, htext, parseDecimal_toFixed_of_nonneg (by decide) (toUnit_nonneg x)]
  exact roundTo_eq_self (roundTo_mem_grid 4 (toUnit x))

/-- A peak that is not positive counts like zero. -/
theorem doubleDrawdown_max_zero (peak equity : ℚ) :
    doubleDrawdown (max 0 peak) equity = doubleDrawdown peak equity := by
  rcases le_total 0 peak with hpeak | hpeak
  · rw [max_eq_right hpeak]
  · have hdouble : Binary64.nearest peak ≤ 0 := by
      rw [← Binary64.nearest_zero]
      exact Binary64.nearest_mono hpeak
    rw [max_eq_left hpeak, doubleDrawdown, doubleDrawdown, Binary64.nearest_zero,
      if_neg (lt_irrefl _), if_neg (not_lt.mpr hdouble)]

theorem recordedDrawdown_congr {peak' : ℚ} (h : max 0 peak = max 0 peak') :
    recordedDrawdown peak equity = recordedDrawdown peak' equity := by
  rw [recordedDrawdown, recordedDrawdown, ← doubleDrawdown_max_zero peak, h, doubleDrawdown_max_zero]

theorem le_drawdown_iff {level : ℚ} (hlevel : 0 < level) (h : equity ≤ peak) :
    level ≤ (peak - equity) / peak ↔ Reaches peak equity level := by
  unfold Reaches
  by_cases hpeak : 0 < peak
  · rw [le_div_iff₀ hpeak]
    constructor
    · exact fun hle => ⟨hpeak, by linarith⟩
    · exact fun hle => by linarith [hle.2]
  · have hzero : (peak - equity) / peak ≤ 0 :=
      div_nonpos_of_nonneg_of_nonpos (sub_nonneg.mpr h) (not_lt.mp hpeak)
    constructor
    · exact fun hle => absurd (hle.trans hzero) (not_le.mpr hlevel)
    · exact fun hle => absurd hle.1 hpeak

/-- What is recorded for one peak is the drawdown from another exactly when both come to the same
midpoints. -/
theorem recordedDrawdown_eq_iff {persisted : ℚ} (hequity : equity ≤ persisted) :
    recordedDrawdown peak equity = drawdownFrom persisted equity ↔
      ∀ m : ℕ, m < 10 ^ 4 → (Measures peak equity (((m : ℚ) + 1 / 2) / 10 ^ 4) ↔
        Reaches persisted equity (((m : ℚ) + 1 / 2) / 10 ^ 4)) := by
  rw [recordedDrawdown, drawdownFrom_eq, roundTo_eq_iff_same_levels (toUnit_nonneg _)
    (toUnit_le_one _) (toUnit_nonneg _) (toUnit_le_one _)]
  have hpos (m : ℕ) : 0 < ((m : ℚ) + 1 / 2) / 10 ^ 4 := by positivity
  have hone {m : ℕ} (hm : m < 10 ^ 4) : ((m : ℚ) + 1 / 2) / 10 ^ 4 ≤ 1 := by
    have hcast : (m : ℚ) + 1 ≤ 10 ^ 4 := by exact_mod_cast hm
    rw [div_le_one₀ (by norm_num)]
    linarith
  apply forall_congr'
  intro m
  apply imp_congr_right
  intro hm
  rw [le_toUnit_iff (hpos m) (hone hm), le_toUnit_iff (hpos m) (hone hm),
    le_drawdown_iff (hpos m) hequity]
  exact Iff.rfl

-- A fall by 150 of a million is a tie that the double lies below.
example : recordedDrawdown 1000000 999850 = 1 / 10 ^ 4 ∧ drawdownFrom 1000000 999850 = 2 / 10 ^ 4 := by
  decide +kernel

end Drawdown

/-! ## The running peak -/

section Peak

variable {initial : ℚ} {equities : List ℚ} {equity : ℚ}

theorem peakOf_append_singleton :
    peakOf initial (equities ++ [equity]) = max (peakOf initial equities) equity :=
  List.foldl_concat ..

theorem initial_le_peakOf : initial ≤ peakOf initial equities := by
  induction equities using List.reverseRecOn with
  | nil => exact le_rfl
  | append_singleton equities equity ih =>
      rw [peakOf_append_singleton]
      exact ih.trans (le_max_left _ _)

theorem le_peakOf (h : equity ∈ equities) : equity ≤ peakOf initial equities := by
  induction equities using List.reverseRecOn with
  | nil => cases h
  | append_singleton equities last ih =>
      rw [peakOf_append_singleton]
      rcases List.mem_append.mp h with hmem | hlast
      · exact (ih hmem).trans (le_max_left _ _)
      · rw [List.mem_singleton.mp hlast]
        exact le_max_right _ _

theorem peakOf_le {bound : ℚ} (hinitial : initial ≤ bound) (h : ∀ equity ∈ equities, equity ≤ bound) :
    peakOf initial equities ≤ bound := by
  induction equities using List.reverseRecOn with
  | nil => exact hinitial
  | append_singleton equities last ih =>
      rw [peakOf_append_singleton]
      exact max_le (ih fun equity hmem => h equity (List.mem_append_left _ hmem))
        (h last (List.mem_append_right _ List.mem_cons_self))

/-- What is recovered is the peak of what is persisted, unless both are negative. -/
theorem peakOf_le_recovered :
    peakOf initial equities ≤ max (recoveredPeak (equities.max?.map .fin)) initial := by
  apply peakOf_le (le_max_right _ _)
  intro equity hmem
  cases hmax : equities.max? with
  | none => rw [List.max?_eq_none_iff.mp hmax] at hmem; cases hmem
  | some top => exact ((List.max?_le_iff hmax).mp le_rfl equity hmem).trans (le_max_left _ _)

theorem recovered_le_peakOf :
    max (recoveredPeak (equities.max?.map .fin)) initial ≤ max 0 (peakOf initial equities) := by
  apply max_le
  · cases hmax : equities.max? with
    | none => exact le_max_left _ _
    | some top => exact (le_peakOf (List.max?_mem hmax)).trans (le_max_right _ _)
  · exact initial_le_peakOf.trans (le_max_right _ _)

/-- A peak below zero counts like zero, and up to that what is recovered is the peak of what is persisted. -/
theorem max_zero_recovered :
    max 0 (max (recoveredPeak (equities.max?.map .fin)) initial) = max 0 (peakOf initial equities) :=
  le_antisymm (max_le (le_max_left _ _) recovered_le_peakOf) (max_le_max le_rfl peakOf_le_recovered)

end Peak

/-! ## One step -/

section Steps

variable {config : PortfolioLedgerConfig} {newId portfolioId : String} {earlier : List ℚ}
  {done since calls : List RecordCall} {world : LedgerWorld} {call : RecordCall} {db : LedgerDatabase}

theorem boot_snapshots (db : LedgerDatabase) : (boot config newId db).db.snapshots = db.snapshots := by
  unfold boot PortfolioLedger.init
  dsimp only
  split_ifs <;> rfl

theorem boot_equities (db : LedgerDatabase) (portfolioId : String) :
    (boot config newId db).db.equities portfolioId = db.equities portfolioId := by
  unfold LedgerDatabase.equities
  rw [boot_snapshots]

theorem boot_portfolioId (db : LedgerDatabase) :
    (boot config newId db).ledger.portfolioId = some (portfolioOf config newId db) := by
  show some ((db.portfolios.find? (·.name == config.name)).getD _).id = _
  unfold portfolioOf
  cases db.portfolios.find? (·.name == config.name) <;> rfl

theorem boot_peakEquity (db : LedgerDatabase) : (boot config newId db).ledger.peakEquity =
    max (recoveredPeak (((db.equities (portfolioOf config newId db)).max?).map .fin))
      config.initialValue := by
  have hpeak : (boot config newId db).ledger.peakEquity = max (recoveredPeak
      ((boot config newId db).db.maxEquity ((db.portfolios.find? (·.name == config.name)).getD _).id))
        config.initialValue := rfl
  have hid : ((db.portfolios.find? (·.name == config.name)).getD _).id = portfolioOf config newId db :=
    Option.some_inj.mp (@boot_portfolioId config newId db)
  rw [hpeak, hid, LedgerDatabase.maxEquity, boot_equities]

/-- The portfolio is found again, or has just been created. -/
theorem boot_portfolios (db : LedgerDatabase) :
    ((boot config newId db).db.portfolios.find? (·.name == config.name)).map (·.id) =
      some (portfolioOf config newId db) := by
  unfold boot PortfolioLedger.init portfolioOf newPortfolioLedger
  dsimp only
  cases hfind : db.portfolios.find? (·.name == config.name) with
  | none => simp [List.find?_append, hfind]
  | some row => simp [hfind]

theorem boot_db_of_found (h : (db.portfolios.find? (·.name == config.name)).map (·.id) = some portfolioId) :
    (boot config newId db).db = db ∧ portfolioOf config newId db = portfolioId := by
  unfold boot PortfolioLedger.init portfolioOf newPortfolioLedger
  dsimp only
  rw [h]
  cases hfind : db.portfolios.find? (·.name == config.name) with
  | none => rw [hfind] at h; cases h
  | some row => exact ⟨rfl, rfl⟩

/-- A world that has made the calls before its last restart and those since, after the earlier equities. -/
structure Tracks (config : PortfolioLedgerConfig) (portfolioId : String) (earlier : List ℚ)
    (done since : List RecordCall) (world : LedgerWorld) : Prop where
  ledger : world.ledger.portfolioId = some portfolioId
  portfolio : (world.db.portfolios.find? (·.name == config.name)).map (·.id) = some portfolioId
  equities : world.db.equities portfolioId = earlier ++ succeeded (done ++ since)
  peak : max 0 world.ledger.peakEquity =
    max 0 (peakOf config.initialValue (earlier ++ succeeded done ++ attempted since))

theorem tracks_boot (db : LedgerDatabase) :
    Tracks config (portfolioOf config newId db) (db.equities (portfolioOf config newId db)) [] []
      (boot config newId db) where
  ledger := boot_portfolioId db
  portfolio := boot_portfolios db
  equities := by rw [boot_equities]; exact (List.append_nil _).symm
  peak := by
    rw [boot_peakEquity, max_zero_recovered, show succeeded [] = [] from rfl,
      show attempted [] = [] from rfl, List.append_nil, List.append_nil]

/-- A restart recovers the peak of what was persisted. -/
theorem Tracks.restart (h : Tracks config portfolioId earlier done since world) :
    Tracks config portfolioId earlier (done ++ since) [] (boot config newId world.db) := by
  obtain ⟨hdb, hid⟩ := @boot_db_of_found config newId portfolioId world.db h.portfolio
  have hpeak := @boot_peakEquity config newId world.db
  rw [hid, h.equities] at hpeak
  constructor
  case ledger => rw [boot_portfolioId, hid]
  case portfolio => rw [hdb]; exact h.portfolio
  case equities => rw [hdb, List.append_nil]; exact h.equities
  case peak =>
    rw [hpeak, max_zero_recovered, show attempted [] = [] from rfl, List.append_nil]

/-- The snapshots a call adds. -/
def addedBy (portfolioId : String) (peak : ℚ) (call : RecordCall) : List PortfolioSnapshot :=
  if call.written then [snapshotWith portfolioId (recordedDrawdown peak (equityOf call)) call] else []

theorem upsert_of_fresh {row : PortfolioSnapshot}
    (h : ∀ r ∈ db.snapshots, isSnapshotOf row.portfolioId r = true → r.ts ≠ row.ts) :
    db.upsert row = { db with snapshots := db.snapshots ++ [row] } := by
  apply if_neg
  rw [List.any_eq_true]
  intro hit
  obtain ⟨r, hmem, hkey⟩ := hit
  rw [Bool.and_eq_true] at hkey
  exact h r hmem hkey.1 (beq_iff_eq.mp hkey.2)

theorem DistinctTimestamps.fresh (h : DistinctTimestamps db portfolioId (call :: calls)) :
    ∀ r ∈ db.snapshots, isSnapshotOf portfolioId r = true → r.ts ≠ call.ts := by
  intro r hmem hof
  have hdisjoint := (List.nodup_append.mp h).2.2
  apply hdisjoint r.ts (List.mem_map_of_mem (List.mem_filter.mpr ⟨hmem, hof⟩))
  exact List.mem_cons_self

/-- The record of a call, whose equity is a decimal with two places. -/
theorem record_eq (hid : world.ledger.portfolioId = some portfolioId)
    (hequity : isCanonicalDecimalString call.valuation.equity notionalDp = true)
    (hdistinct : DistinctTimestamps world.db portfolioId (call :: calls)) :
    portfolioStep config newId world (.record call) =
      { ledger := { world.ledger with peakEquity := max world.ledger.peakEquity (equityOf call) }
        db := { world.db with
          snapshots := world.db.snapshots ++
            addedBy portfolioId (max world.ledger.peakEquity (equityOf call)) call } } := by
  let peak := max world.ledger.peakEquity (equityOf call)
  let ledger := { world.ledger with peakEquity := peak }
  have hcolumn : decimalColumn 2 call.valuation.equity = equityOf call :=
    roundTo_eq_self (parseDecimal_mem_grid hequity)
  have hrow : { portfolioId, ts := call.ts
                equity := decimalColumn 2 call.valuation.equity
                exposure := decimalColumn 2 call.valuation.grossExposure
                drawdown := decimalColumn 4
                  (quantizeDrawdown (.fin (doubleDrawdown peak (equityOf call))))
                positions := call.positions } =
      snapshotWith portfolioId (recordedDrawdown peak (equityOf call)) call := by
    rw [hcolumn, decimalColumn_quantizeDrawdown]
    rfl
  show (PortfolioLedger.record call world).1 = _
  unfold PortfolioLedger.record addedBy RecordCall.written
  rw [hid]
  dsimp only
  cases call.reply with
  | ok answer =>
      show (⟨ledger, world.db.upsert _⟩ : LedgerWorld) = ⟨ledger, _⟩
      rw [show parseDecimal call.valuation.equity = equityOf call from rfl, hrow,
        @upsert_of_fresh _ (snapshotWith portfolioId _ call) hdistinct.fresh]
      rfl
  | error e =>
      show (⟨ledger, world.db⟩ : LedgerWorld) =
        ⟨ledger, { world.db with snapshots := world.db.snapshots ++ [] }⟩
      rw [List.append_nil]

theorem succeeded_append (before : List RecordCall) (call : RecordCall) :
    succeeded (before ++ [call]) = succeeded before ++ if call.written then [equityOf call] else [] := by
  unfold succeeded
  cases hwritten : call.written <;> simp [hwritten]

theorem attempted_append (before : List RecordCall) (call : RecordCall) :
    attempted (before ++ [call]) = attempted before ++ [equityOf call] := List.map_append

theorem equities_append_addedBy (db : LedgerDatabase) (portfolioId : String) (peak : ℚ) (call : RecordCall) :
    { db with
      snapshots := db.snapshots ++ addedBy portfolioId peak call : LedgerDatabase }.equities portfolioId =
      db.equities portfolioId ++ if call.written then [equityOf call] else [] := by
  unfold LedgerDatabase.equities addedBy
  cases call.written <;> simp [isSnapshotOf, snapshotWith]

theorem DistinctTimestamps.step {peak : ℚ} (h : DistinctTimestamps db portfolioId (call :: calls)) :
    DistinctTimestamps { db with snapshots := db.snapshots ++ addedBy portfolioId peak call }
      portfolioId calls := by
  unfold DistinctTimestamps at h ⊢
  unfold addedBy
  cases call.written with
  | true => simpa [isSnapshotOf, snapshotWith, List.append_assoc] using h
  | false =>
      rw [if_neg Bool.false_ne_true, List.append_nil]
      exact h.sublist ((List.Sublist.refl _).append (List.sublist_cons_self _ _))

/-- A call that is recorded, or whose write failed, is one of the calls since the last restart. -/
theorem Tracks.record (h : Tracks config portfolioId earlier done since world)
    (hequity : isCanonicalDecimalString call.valuation.equity notionalDp = true)
    (hdistinct : DistinctTimestamps world.db portfolioId (call :: calls)) :
    Tracks config portfolioId earlier done (since ++ [call])
      (portfolioStep config newId world (.record call)) := by
  rw [record_eq h.ledger hequity hdistinct]
  constructor
  case ledger => exact h.ledger
  case portfolio => exact h.portfolio
  case equities =>
    rw [equities_append_addedBy, h.equities, ← List.append_assoc, succeeded_append, List.append_assoc]
  case peak =>
    show max 0 (max world.ledger.peakEquity (equityOf call)) = _
    rw [attempted_append, ← List.append_assoc, peakOf_append_singleton, ← max_assoc, h.peak, max_assoc]

/-- What a call records in a world that has made these calls. -/
theorem Tracks.recordedDrawdown_eq (h : Tracks config portfolioId earlier done since world)
    (call : RecordCall) :
    recordedDrawdown (max world.ledger.peakEquity (equityOf call)) (equityOf call) =
      recordedDrawdown (memoryPeak config.initialValue earlier done since call) (equityOf call) := by
  apply recordedDrawdown_congr
  rw [memoryPeak, attempted_append, ← List.append_assoc, peakOf_append_singleton, ← max_assoc, h.peak,
    max_assoc]

theorem equityOf_le_persistedPeak {initial : ℚ} {before : List RecordCall}
    (hwritten : call.written = true) : equityOf call ≤ persistedPeak initial earlier before call := by
  apply le_peakOf
  rw [succeeded_append, if_pos hwritten]
  simp

/-- A successful call records the drawdown from the persisted peak exactly when it is undisturbed. -/
theorem Tracks.recorded_iff (h : Tracks config portfolioId earlier done since world)
    (hwritten : call.written = true) :
    recordedDrawdown (max world.ledger.peakEquity (equityOf call)) (equityOf call) =
        drawdownFrom (persistedPeak config.initialValue earlier (done ++ since) call) (equityOf call) ↔
      ∀ m : ℕ, m < 10 ^ 4 →
        (Measures (memoryPeak config.initialValue earlier done since call) (equityOf call)
            (((m : ℚ) + 1 / 2) / 10 ^ 4) ↔
          Reaches (persistedPeak config.initialValue earlier (done ++ since) call) (equityOf call)
            (((m : ℚ) + 1 / 2) / 10 ^ 4)) := by
  rw [h.recordedDrawdown_eq]
  exact recordedDrawdown_eq_iff (equityOf_le_persistedPeak hwritten)

end Steps

/-! ## Whole runs -/

section WholeRuns

variable {config : PortfolioLedgerConfig} {newId portfolioId : String} {initial : ℚ}
  {earlier : List ℚ} {before done since calls : List RecordCall} {world : LedgerWorld}
  {call : RecordCall}

/-- A world that can make the calls that are left. -/
structure Ready (config : PortfolioLedgerConfig) (portfolioId : String) (earlier : List ℚ)
    (done since calls : List RecordCall) (world : LedgerWorld) : Prop extends
    Tracks config portfolioId earlier done since world where
  distinct : DistinctTimestamps world.db portfolioId calls
  canonical : ∀ call ∈ calls, isCanonicalDecimalString call.valuation.equity notionalDp = true

theorem Ready.step_eq (h : Ready config portfolioId earlier done since (call :: calls) world) :
    portfolioStep config newId world (.record call) =
      { ledger := { world.ledger with peakEquity := max world.ledger.peakEquity (equityOf call) }
        db := { world.db with
          snapshots := world.db.snapshots ++
            addedBy portfolioId (max world.ledger.peakEquity (equityOf call)) call } } :=
  record_eq h.ledger (h.canonical call List.mem_cons_self) h.distinct

theorem Ready.record (newId : String) (h : Ready config portfolioId earlier done since (call :: calls) world) :
    Ready config portfolioId earlier done (since ++ [call]) calls
      (portfolioStep config newId world (.record call)) where
  toTracks := h.toTracks.record (h.canonical call List.mem_cons_self) h.distinct
  distinct := by
    rw [h.step_eq]
    exact h.distinct.step
  canonical c hmem := h.canonical c (List.mem_cons_of_mem call hmem)

theorem Ready.restart (newId : String) (h : Ready config portfolioId earlier done since calls world) :
    Ready config portfolioId earlier (done ++ since) [] calls
      (portfolioStep config newId world .restart) where
  toTracks := h.toTracks.restart
  distinct := by
    show DistinctTimestamps (boot config newId world.db).db portfolioId calls
    rw [(boot_db_of_found h.portfolio).1]
    exact h.distinct
  canonical := h.canonical

/-- An undisturbed call adds what it should. -/
theorem Ready.addedBy_eq (h : Ready config portfolioId earlier done since (call :: calls) world)
    (hundisturbed : PeakUndisturbed config.initialValue earlier (done ++ since) (call :: calls)) :
    addedBy portfolioId (max world.ledger.peakEquity (equityOf call)) call =
      if call.written then
        [idealSnapshot portfolioId config.initialValue earlier (done ++ since) call] else [] := by
  unfold addedBy
  by_cases hwritten : call.written = true
  · have hdrawdown := (h.recorded_iff hwritten).mpr (hundisturbed.1 hwritten done since rfl)
    rw [if_pos hwritten, if_pos hwritten, idealSnapshot, hdrawdown]
  · rw [if_neg hwritten, if_neg hwritten]

/-- A run leaves the series its calls should leave, whatever restarts it has. -/
theorem run_db {ops : List LedgerOp}
    (h : Ready config portfolioId earlier done since (recordsOf ops) world)
    (hundisturbed : PeakUndisturbed config.initialValue earlier (done ++ since) (recordsOf ops)) :
    (Run.run (portfolioStep config newId) world ops).db =
      { world.db with
        snapshots := world.db.snapshots ++
          idealSeries portfolioId config.initialValue earlier (done ++ since) (recordsOf ops) } := by
  induction ops generalizing done since world with
  | nil => simp [recordsOf, idealSeries]
  | cons op ops ih =>
      rw [Run.run_cons]
      cases op with
      | restart =>
          have hdb : (portfolioStep config newId world .restart).db = world.db :=
            (boot_db_of_found h.portfolio).1
          have hnext := ih (h.restart newId) (by rw [List.append_nil]; exact hundisturbed)
          rw [hnext, hdb, List.append_nil]
          rfl
      | record call =>
          have hnext := ih (h.record newId) (by rw [← List.append_assoc]; exact hundisturbed.2)
          rw [hnext, h.step_eq]
          dsimp only
          rw [h.addedBy_eq hundisturbed, List.append_assoc, ← List.append_assoc done]
          rfl

/-! ### A restart in front of a call -/

/-- A run without a restart adds a snapshot for each successful call. -/
theorem Ready.records (newId : String) (cs : List RecordCall)
    (h : Ready config portfolioId earlier done since (cs ++ calls) world) :
    Ready config portfolioId earlier done (since ++ cs) calls
        (Run.run (portfolioStep config newId) world (cs.map .record)) ∧
      ∃ added : List PortfolioSnapshot, added.length = (succeeded cs).length ∧
        (Run.run (portfolioStep config newId) world (cs.map .record)).db.snapshots =
          world.db.snapshots ++ added := by
  induction cs generalizing since world with
  | nil =>
      rw [List.append_nil]
      exact ⟨h, [], rfl, (List.append_nil _).symm⟩
  | cons c cs ih =>
      obtain ⟨hready, added, hlength, hadded⟩ := ih (Ready.record newId h)
      rw [List.append_assoc, List.singleton_append] at hready
      refine ⟨hready, addedBy portfolioId (max world.ledger.peakEquity (equityOf c)) c ++ added, ?_, ?_⟩
      · rw [List.length_append, hlength]
        unfold addedBy succeeded
        cases hwritten : c.written <;> simp [hwritten, Nat.add_comm]
      · rw [List.map_cons, Run.run_cons, hadded, h.step_eq, List.append_assoc]

theorem idealSeries_append (xs ys : List RecordCall) :
    idealSeries portfolioId initial earlier before (xs ++ ys) =
      idealSeries portfolioId initial earlier before xs ++
        idealSeries portfolioId initial earlier (before ++ xs) ys := by
  induction xs generalizing before with
  | nil => simp [idealSeries]
  | cons x xs ih => simp [idealSeries, ih]

theorem length_idealSeries (xs : List RecordCall) :
    (idealSeries portfolioId initial earlier before xs).length = (succeeded xs).length := by
  induction xs generalizing before with
  | nil => rfl
  | cons x xs ih =>
      unfold succeeded at ih ⊢
      rw [idealSeries, List.length_append, ih]
      cases hwritten : x.written <;> simp [hwritten, Nat.add_comm]

/-- A condition on a run, at each of its calls. -/
theorem peakUndisturbed_of_forall
    (h : ∀ pre call post, calls = pre ++ call :: post → call.written = true →
      ∀ done since, done ++ since = before ++ pre → ∀ m : ℕ, m < 10 ^ 4 →
        (Measures (memoryPeak initial earlier done since call) (equityOf call)
            (((m : ℚ) + 1 / 2) / 10 ^ 4) ↔
          Reaches (persistedPeak initial earlier (before ++ pre) call) (equityOf call)
            (((m : ℚ) + 1 / 2) / 10 ^ 4))) :
    PeakUndisturbed initial earlier before calls := by
  induction calls generalizing before with
  | nil => trivial
  | cons call calls ih =>
      constructor
      · intro hwritten done since hsplit
        have hcall := h [] call calls rfl hwritten done since (by rw [List.append_nil]; exact hsplit)
        rwa [List.append_nil] at hcall
      · apply ih
        intro pre c post hcalls hwritten done since hsplit
        have hcall := h (call :: pre) c post (by rw [hcalls]; rfl) hwritten done since
          (by rw [hsplit, List.append_assoc]; rfl)
        rwa [List.append_cons] at hcall

/-- A call that records the drawdown from the persisted peak, wherever the last restart was. -/
theorem measures_iff_of_recorded (hwritten : call.written = true)
    (h : ∀ k ≤ before.length, recordedDrawdown
      (memoryPeak initial earlier (before.take k) (before.drop k) call) (equityOf call) =
        drawdownFrom (persistedPeak initial earlier before call) (equityOf call)) :
    ∀ done since, done ++ since = before → ∀ m : ℕ, m < 10 ^ 4 →
      (Measures (memoryPeak initial earlier done since call) (equityOf call)
          (((m : ℚ) + 1 / 2) / 10 ^ 4) ↔
        Reaches (persistedPeak initial earlier before call) (equityOf call)
          (((m : ℚ) + 1 / 2) / 10 ^ 4)) := by
  rintro done since rfl
  apply (recordedDrawdown_eq_iff (equityOf_le_persistedPeak hwritten)).mp
  have hcall := h done.length (by simp)
  rwa [List.take_left, List.drop_left] at hcall

/-- The snapshot of a call after a restart in front of the calls `since`. -/
theorem recorded_of_transparent {db : LedgerDatabase} {post : List RecordCall}
    (h : RestartTransparent config newId db (done ++ since ++ call :: post))
    (hstart : Ready config (portfolioOf config newId db) (db.equities (portfolioOf config newId db))
      [] [] (done ++ since ++ call :: post) (boot config newId db))
    (hwritten : call.written = true) :
    ∀ m : ℕ, m < 10 ^ 4 →
      (Measures (memoryPeak config.initialValue (db.equities (portfolioOf config newId db)) done since
          call) (equityOf call) (((m : ℚ) + 1 / 2) / 10 ^ 4) ↔
        Reaches (persistedPeak config.initialValue (db.equities (portfolioOf config newId db))
          (done ++ since) call) (equityOf call) (((m : ℚ) + 1 / 2) / 10 ^ 4)) := by
  set portfolioId := portfolioOf config newId db
  set earlier := db.equities portfolioId
  -- The run that restarts after the calls `done`.
  have hops : recordsOf (done.map .record ++ (.restart :: (since.map .record ++
      .record call :: post.map .record))) = done ++ since ++ call :: post := by
    simp [recordsOf_append, recordsOf_map_record, recordsOf]
  have hsnapshots := (congrArg LedgerDatabase.snapshots (h.restart _ hops)).trans h.drawdown
  rw [databaseAfter, Run.run_append, Run.run_cons, Run.run_append, Run.run_cons] at hsnapshots
  rw [List.append_assoc] at hstart
  obtain ⟨hdone, added, hlength, hadded⟩ := hstart.records newId
  have hdb : (portfolioStep config newId (Run.run (portfolioStep config newId) (boot config newId db)
      (done.map .record)) .restart).db = _ := (boot_db_of_found hdone.portfolio).1
  obtain ⟨hsince, added', hlength', hadded'⟩ := (hdone.restart newId).records newId
  rw [hdb, hadded] at hadded'
  obtain ⟨-, added'', -, hadded''⟩ := Ready.records newId post
    (by rw [List.append_nil]; exact hsince.record newId)
  rw [hsince.step_eq] at hadded''
  rw [hsince.step_eq, hadded''] at hsnapshots
  dsimp only at hsnapshots
  -- As many snapshots stand before that of the call as should.
  rw [hadded', boot_snapshots, idealSeries_append, List.append_assoc, List.append_assoc,
    List.append_assoc, List.append_cancel_left_eq, ← List.append_assoc] at hsnapshots
  have htail := (List.append_inj hsnapshots (by
    rw [List.length_append, hlength, hlength', length_idealSeries]
    simp [succeeded])).2
  rw [addedBy, idealSeries, if_pos hwritten, if_pos hwritten, List.singleton_append,
    List.singleton_append, List.cons.injEq] at htail
  exact (hsince.recorded_iff hwritten).mp (congrArg PortfolioSnapshot.drawdown htail.1)

end WholeRuns

def sampleLedgerConfig : PortfolioLedgerConfig := ⟨"production", "USDT", 1000000⟩

def sampleCall (equity : String) (ts : ℤ) (reply : Except String Unit) : RecordCall where
  valuation := ⟨equity, "0.00", "0.00", equity, "0.00", equity, "0.00"⟩
  positions := []
  ts := ts
  reply := reply

def lostLow : List RecordCall :=
  [sampleCall "1100000.00" 0 (.ok ()), sampleCall "950000.00" 1 (.error "timeout"),
    sampleCall "990000.00" 2 (.ok ())]

def lostHigh : List RecordCall :=
  [sampleCall "1200000.00" 0 (.error "timeout"), sampleCall "1080000.00" 1 (.ok ())]

end NexusQuant.Market

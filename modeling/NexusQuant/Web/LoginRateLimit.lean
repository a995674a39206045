import NexusQuant.Lib.FixedWindow
import NexusQuant.Lib.LiveMap
import NexusQuant.Lib.Run

/-!
# Login rate limit

`lib/login-rate-limit.ts` of the web application where Redis is not configured: the map of failure
counters, the check before a token is compared, and the record of what came of it.  A key is the
prefix of a hexadecimal SHA-256 digest, which is a parameter; every `Date.now()` is a reading that the
request carries.  A request handled by `route.ts` is checked, and unless it is limited it is recorded
as a failure or a success, or not at all.
-/

namespace NexusQuant.Web

open FixedWindow

/-- `ThrottleConfig`: `readConfig` takes no zero but for the global limit, which zero disables. -/
structure ThrottleConfig where
  maxFailures : ℕ
  globalMaxFailures : ℕ
  windowSeconds : ℕ
  maxFailures_pos : 0 < maxFailures
  windowSeconds_pos : 0 < windowSeconds

/-! ## Keys -/

def keyPrefix : String := "nexus:web:login:fail:"

def globalKey : String := keyPrefix ++ "global"

def clientKey (digest : String → String) (clientId : String) : String :=
  keyPrefix ++ String.ofList ((digest clientId).toList.take 32)

def bucketKeys (digest : String → String) (clientId : String) (cfg : ThrottleConfig) : List String :=
  clientKey digest clientId :: if cfg.globalMaxFailures > 0 then [globalKey] else []

/-! ## The counters in memory -/

/-- `memoryBuckets`. -/
abbrev Buckets := LiveMap String Counter

def memoryMaxBuckets : ℕ := 10000

/-- The counter of a key, unless it has expired. -/
def liveEntry (m : Buckets) (key : String) (now : ℤ) : Option Counter :=
  (m.get? key).filter fun entry => now < entry.resetAt

def memoryGet (m : Buckets) (key : String) (now : ℤ) : ℕ × Buckets :=
  match m.get? key with
  | none => (0, m)
  | some entry => if entry.resetAt ≤ now then (0, m.erase key) else (entry.count, m)

/-- The loop that deletes the expired buckets. -/
def prune (m : Buckets) (now : ℤ) : Buckets := m.eraseWhere fun entry => entry.resetAt ≤ now

/-- The first bucket of the map goes. -/
def dropOldest (m : Buckets) : Buckets :=
  match m.cells.head? with
  | none => m
  | some oldest => m.erase oldest.key

/-- What `memoryIncr` does to the map before it adds a bucket. -/
def makeRoom (m : Buckets) (now : ℤ) : Buckets :=
  if m.size ≥ memoryMaxBuckets then
    let pruned := prune m now
    -- Still saturated: a bucket that has not expired is dropped.
    if pruned.size ≥ memoryMaxBuckets then dropOldest pruned else pruned
  else m

def memoryIncr (m : Buckets) (key : String) (windowSeconds : ℕ) (now : ℤ) : Buckets :=
  match liveEntry m key now with
  | some entry => m.set key ⟨entry.count + 1, entry.resetAt⟩
  | none => (makeRoom m now).set key ⟨1, now + windowSeconds * 1000⟩

/-! ## The limiter -/

structure LoginThrottleVerdict where
  limited : Bool
  retryAfterSeconds : ℕ
deriving DecidableEq, Repr

/-- `keys.map(memoryGet)`, each with its reading of the clock. -/
def memoryGets (m : Buckets) : List (String × ℤ) → List ℕ × Buckets
  | [] => ([], m)
  | (key, now) :: reads =>
      let first := memoryGet m key now
      let others := memoryGets first.2 reads
      (first.1 :: others.1, others.2)

def checkLoginAllowed (cfg : ThrottleConfig) (digest : String → String) (m : Buckets)
    (clientId : String) (readings : List ℤ) : LoginThrottleVerdict × Buckets :=
  let counts := memoryGets m ((bucketKeys digest clientId cfg).zip readings)
  let clientCount := (counts.1[0]?).getD 0
  let globalCount := (counts.1[1]?).getD 0
  ({ limited := decide (clientCount ≥ cfg.maxFailures) ||
      (decide (cfg.globalMaxFailures > 0) && decide (globalCount ≥ cfg.globalMaxFailures))
     retryAfterSeconds := cfg.windowSeconds }, counts.2)

def recordLoginFailure (cfg : ThrottleConfig) (digest : String → String) (m : Buckets)
    (clientId : String) (readings : List ℤ) : Buckets :=
  ((bucketKeys digest clientId cfg).zip readings).foldl
    (fun m read => memoryIncr m read.1 cfg.windowSeconds read.2) m

def recordLoginSuccess (digest : String → String) (m : Buckets) (clientId : String) : Buckets :=
  m.erase (clientKey digest clientId)

/-! ## Requests -/

/-- What a request comes to when it is not limited. -/
inductive LoginOutcome where
  | failure | success | unrecorded
deriving DecidableEq, Repr

/-- A login request, with the readings of the clock for each of its two keys. -/
structure LoginRequest where
  clientId : String
  outcome : LoginOutcome
  clientChecked : ℤ
  globalChecked : ℤ
  clientRecorded : ℤ
  globalRecorded : ℤ
deriving DecidableEq, Repr

/-- The readings in the order they are taken in. -/
def LoginRequest.readings (r : LoginRequest) : List ℤ :=
  [r.clientChecked, r.globalChecked, r.clientRecorded, r.globalRecorded]

/-- The counters, and the log of what has been recorded in them. -/
structure Throttle where
  buckets : Buckets
  log : List (Entry String)
deriving DecidableEq, Repr

def Throttle.initial : Throttle := ⟨.empty, []⟩

/-- A failure as the log has it: counted under each key, opening the bucket where none is live. -/
def failureEntries (cfg : ThrottleConfig) (m : Buckets) : List (String × ℤ) → List (Entry String)
  | [] => []
  | (key, now) :: reads =>
      .tick key now (liveEntry m key now).isNone ::
        failureEntries cfg (memoryIncr m key cfg.windowSeconds now) reads

/-- One request of `route.ts`, handled to its end. -/
def handleLogin (cfg : ThrottleConfig) (digest : String → String) (s : Throttle)
    (r : LoginRequest) : Throttle :=
  let checked := checkLoginAllowed cfg digest s.buckets r.clientId
    [r.clientChecked, r.globalChecked]
  -- A limited request is answered before its token is compared.
  if checked.1.limited then { s with buckets := checked.2 }
  else match r.outcome with
    | .failure =>
        let readings := [r.clientRecorded, r.globalRecorded]
        { buckets := recordLoginFailure cfg digest checked.2 r.clientId readings
          log := s.log ++
            failureEntries cfg checked.2 ((bucketKeys digest r.clientId cfg).zip readings) }
    | .success =>
        { buckets := recordLoginSuccess digest checked.2 r.clientId
          log := s.log ++ [.clear (clientKey digest r.clientId)] }
    | .unrecorded => { s with buckets := checked.2 }

end NexusQuant.Web

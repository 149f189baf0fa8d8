import SentinelSsh.Backend.Services
import SentinelSsh.Lib.Counter

/-!
# `backend/app/services/stats_service.py`

The aggregates of the dashboard with the queries of `AttackRepository` behind them. `now` is what
`datetime.now(timezone.utc)` returns, in microseconds since the epoch; a function that reads the clock
twice is given one reading for both.
-/

namespace SentinelSsh.Backend

open SentinelSsh.Core Python

/-! ## Queries -/

/-- The instant of a row. The database compares a timestamp with an aware `datetime` as it also returns
it, and what it returns without an offset is read as UTC. -/
def Dialect.instant (dialect : Dialect) (a : Attack) : Int :=
  (dialect.load a.timestamp).instant

/-- `AttackRepository._since` -/
def since (now : Int) (hours : Option Int) : Option Int :=
  hours.bind fun h => if h = 0 then none else some (now - h * 3600000000)

/-- `Attack.timestamp >= since`, if there is a window at all. -/
def Dialect.inWindow (dialect : Dialect) (start : Option Int) (a : Attack) : Bool :=
  start.all (· ≤ dialect.instant a)

/-- `AttackRepository.count_since` -/
def countSince (dialect : Dialect) (now : Int) (hours : Int) (db : Db) : Nat :=
  db.attacks.countP fun a => now - hours * 3600000000 ≤ dialect.instant a

/-- `AttackRepository.timestamps_since` -/
def timestampsSince (dialect : Dialect) (now : Int) (hours : Int) (db : Db) : List Datetime :=
  (db.attacks.filter fun a => now - hours * 3600000000 ≤ dialect.instant a).map fun a =>
    dialect.load a.timestamp

/-- `AttackRepository.risk_level_counts` -/
def riskLevelCounts (db : Db) : List (String × Nat) :=
  Counter.ofList (db.attacks.map fun a => a.riskLevel.text)

/-- `AttackRepository.fetch_json_column` -/
def fetchJsonColumn (dialect : Dialect) (now : Int) (column : Attack → Option String) (hours : Option Int)
    (db : Db) : List String :=
  ((db.attacks.filter (dialect.inWindow (since now hours))).filterMap column).filter (· ≠ "")

/-- `AttackRepository.top_column`, given the order the database chooses for the groups. -/
def topColumn {α : Type} [DecidableEq α] (arrange : List (α × Nat) → List (α × Nat)) (dialect : Dialect)
    (now : Int) (column : Attack → Option α) (limit : Nat) (hours : Option Int) (db : Db) : List (α × Nat) :=
  let rows := db.attacks.filter (dialect.inWindow (since now hours))
  (arrange (Counter.ofList (rows.filterMap column))).take limit

/-! ## Services -/

/-- An entry with `label` and `count`. -/
structure LabelCount where
  label : String
  count : Nat
  deriving DecidableEq, Repr

structure RiskDistribution where
  byLevel : List LabelCount
  byBucket : List LabelCount
  deriving DecidableEq, Repr

/-- `_BUCKETS` -/
def buckets : List (Int × Int) :=
  [(0, 10), (11, 20), (21, 30), (31, 40), (41, 50), (51, 60), (61, 70), (71, 80), (81, 90), (91, 100)]

/-- `lo <= s <= hi` -/
def inBucket (bucket : Int × Int) (score : Int) : Bool :=
  bucket.1 ≤ score && score ≤ bucket.2

/-- The levels `risk_distribution` reports. -/
def reportedLevels : List String :=
  ["low", "medium", "high"]

/-- `StatsService.risk_distribution` -/
def riskDistribution (db : Db) : RiskDistribution :=
  let levelCounts := riskLevelCounts db
  let scores := db.attacks.map (·.riskScore)
  { byLevel := reportedLevels.map fun level => ⟨level, (levelCounts.lookup level).getD 0⟩
    byBucket := buckets.map fun bucket =>
      ⟨toString bucket.1 ++ "-" ++ toString bucket.2, scores.countP (inBucket bucket)⟩ }

/-- An entry of `attacks_per_hour`. -/
structure HourBucket where
  label : String
  hour : String
  count : Nat
  deriving DecidableEq, Repr

/-- `slot.strftime("%H:00")` -/
def hourLabel (slot : Datetime) : String :=
  pad 2 ((slot.wall % 86400000000) / 3600000000).toNat ++ ":00"

/-- `entry["count"] += 1` for the entry of a slot, if there is one. -/
def countSlot (index : List (Datetime × Nat)) (slot : Datetime) : List (Datetime × Nat) :=
  index.map fun (key, count) => if key = slot then (key, count + 1) else (key, count)

/-- The slots of the last `hours` hours, the current one last. -/
def hourSlots (now : Int) (hours : Int) : List Datetime :=
  (List.range hours.toNat).reverse.map fun (i : Nat) => (Datetime.utc now).startOfHour.minusHours i

/-- `StatsService.attacks_per_hour` -/
def attacksPerHour (dialect : Dialect) (now : Int) (hours : Int) (db : Db) : List HourBucket :=
  let hours := max 1 (min hours 168)
  let seeded := (hourSlots now hours).map (·, 0)
  let index := (timestampsSince dialect now hours db).foldl
    (fun index ts => countSlot index ts.toUtc.startOfHour) seeded
  index.map fun (slot, count) => ⟨hourLabel slot, slot.isoformat, count⟩

/-- An entry of `_top_mitre`. -/
structure TopTechnique where
  id : String
  name : String
  tactic : String
  count : Nat
  deriving DecidableEq, Repr

/-- `StatsService._top_mitre` -/
def topMitre (dialect : Dialect) (now : Int) (limit : Nat) (hours : Option Int) (db : Db) :
    List TopTechnique :=
  let raw := fetchJsonColumn dialect now (fun a => a.mitreTechniques) hours db
  let counter := Counter.ofList (raw.flatMap fun blob => parseJsonList (some blob))
  (Counter.mostCommon counter limit).map fun (tid, count) =>
    let tech := catalogueGet tid
    ⟨tid, tech.elim tid (·.name), tech.elim "" (·.tactic), count⟩

/-- An entry with `value` and `count`. -/
structure ValueCount where
  value : String
  count : Nat
  deriving DecidableEq, Repr

/-- `StatsService.top_behaviors` -/
def topBehaviors (dialect : Dialect) (now : Int) (limit : Nat) (hours : Option Int) (db : Db) :
    List ValueCount :=
  let raw := fetchJsonColumn dialect now (fun a => a.behaviors) hours db
  let counter := Counter.ofList (raw.flatMap fun blob => parseJsonList (some blob))
  (Counter.mostCommon counter limit).map fun (b, c) => ⟨b, c⟩

/-- The numbers of `StatsService.overview` that are about attacks. -/
structure AttackCounts where
  totalAttacks : Nat
  uniqueIps : Nat
  topCountry : Option String
  topMitre : Option TopTechnique
  last24h : Nat
  deriving DecidableEq, Repr

/-- `StatsService.overview`, as far as it is about attacks. -/
def attackOverview (arrange : List (String × Nat) → List (String × Nat)) (dialect : Dialect) (now : Int)
    (db : Db) : AttackCounts where
  totalAttacks := db.attacks.length
  uniqueIps := (fromkeys (db.attacks.map (·.sourceIp))).length
  topCountry := (topColumn arrange dialect now (fun a => a.country) 1 none db).head?.map (·.1)
  topMitre := (topMitre dialect now 1 none db).head?
  last24h := countSince dialect now 24 db

/-! ## What the charts promise -/

/-- The attacks of the hour that begins at `slot`. -/
def attacksIn (dialect : Dialect) (slot : Datetime) (db : Db) : Nat :=
  db.attacks.countP fun a => slot.instant ≤ dialect.instant a &&
    dialect.instant a < slot.instant + 3600000000

/-- The slots are consecutive hours of UTC, from the oldest to the current one. -/
structure HoursUntil (now : Int) (n : Nat) (slots : List Datetime) : Prop where
  length : slots.length = n
  utc : ∀ slot ∈ slots, slot.utcoffset = some 0 ∧ slot.instant % 3600000000 = 0
  consecutive : slots.IsChain fun s t => t.instant = s.instant + 3600000000
  increasing : slots.Pairwise fun s t => s.instant < t.instant
  current : ∃ slot, slots.getLast? = some slot ∧ slot.instant ≤ now ∧ now < slot.instant + 3600000000

/-- An attack of the window that is older than the oldest slot: it is fetched, and counted nowhere. -/
def BeforeFirstSlot (dialect : Dialect) (now hours : Int) (a : Attack) : Prop :=
  now - hours * 3600000000 ≤ dialect.instant a ∧
    dialect.instant a < ((Datetime.utc now).startOfHour.minusHours (hours - 1)).instant

instance (dialect : Dialect) (now hours : Int) (a : Attack) :
    Decidable (BeforeFirstSlot dialect now hours a) :=
  inferInstanceAs (Decidable (_ ∧ _))

end SentinelSsh.Backend

import SentinelSsh.Core.Models
import SentinelSsh.Lib.Paging

/-!
# `backend/app/repositories`

The queries behind the listings of attacks and incidents and behind the free-text search, with the
query parameters after their validation (`schemas/attack.py`, `schemas/incident.py`). What the database
makes of `ORDER BY` is a function of its own, since it may order tied rows as it likes.
-/

namespace SentinelSsh.Backend

open SentinelSsh.Core Python

/-- How a database compares the values of a column, the nulls included, and how it evaluates `ILIKE`. -/
structure Sql where
  le : SqlValue → SqlValue → Bool
  /-- The pattern, then the value. -/
  ilike : String → SqlValue → Bool
  le_total : ∀ x y, le x y || le y x
  le_trans : ∀ x y z, le x y = true → le y z = true → le x z = true

inductive SortOrder where
  | asc
  | desc
  deriving DecidableEq, Repr

/-- `col.asc()` or `col.desc()` -/
def SortOrder.le (sql : Sql) : SortOrder → SqlValue → SqlValue → Bool
  | .asc, x, y => sql.le x y
  | .desc, x, y => sql.le y x

/-! ## Attacks -/

/-- `ALLOWED_SORT_FIELDS` -/
inductive AttackSort where
  | timestamp
  | riskScore
  | sourceIp
  | country
  | username
  | duration
  deriving DecidableEq, Repr

/-- `_SORT_COLUMNS` of the attacks. -/
def AttackSort.column : AttackSort → Attack → SqlValue
  | .timestamp, a => .datetime a.timestamp
  | .riskScore, a => .int a.riskScore
  | .sourceIp, a => .text (.str a.sourceIp)
  | .country, a => .ofStr a.country
  | .username, a => .ofStr a.username
  | .duration, a => .float a.duration

/-- `AttackQuery` after its validation. -/
structure AttackQuery where
  page : Nat := 1
  perPage : Nat := 25
  sort : AttackSort := .timestamp
  order : SortOrder := .desc
  sourceIp : Option String := none
  country : Option String := none
  username : Option String := none
  riskLevel : Option RiskLevel := none
  minRisk : Option Int := none
  maxRisk : Option Int := none
  isMalicious : Option Bool := none
  incidentId : Option Int := none
  dateFrom : Option Datetime := none
  dateTo : Option Datetime := none
  one_le_page : 1 ≤ page := by decide
  one_le_perPage : 1 ≤ perPage := by decide
  perPage_le : perPage ≤ 100 := by decide
  minRisk_mem : ∀ r ∈ minRisk, 0 ≤ r ∧ r ≤ 100 := by simp
  maxRisk_mem : ∀ r ∈ maxRisk, 0 ≤ r ∧ r ≤ 100 := by simp

/-- `AttackRepository._apply_filters` -/
def AttackQuery.applyFilters (sql : Sql) (q : AttackQuery) (a : Attack) : Bool :=
  (q.sourceIp.all fun v => v = "" || a.sourceIp = v) &&
    (q.country.all fun v => v = "" || a.country = some v) &&
    (q.username.all fun v => v = "" || a.username = some v) &&
    (q.riskLevel.all fun v => a.riskLevel = v) &&
    (q.minRisk.all fun v => v ≤ a.riskScore) &&
    (q.maxRisk.all fun v => a.riskScore ≤ v) &&
    (q.isMalicious.all fun v => a.isMalicious = v) &&
    (q.incidentId.all fun v => a.incidentId.any fun k => (k : Int) = v) &&
    (q.dateFrom.all fun v => sql.le (.datetime v) (.datetime a.timestamp)) &&
    (q.dateTo.all fun v => sql.le (.datetime a.timestamp) (.datetime v))

/-- The `ORDER BY` of `AttackRepository.paginate`. -/
def AttackQuery.orderBy (sql : Sql) (q : AttackQuery) (a b : Attack) : Bool :=
  q.order.le sql (q.sort.column a) (q.sort.column b)

/-- The rows `AttackRepository.paginate` counts. -/
def AttackQuery.rows (sql : Sql) (q : AttackQuery) (db : Db) : List Attack :=
  db.attacks.filter (q.applyFilters sql)

/-- `AttackRepository.paginate` -/
def AttackRepository.paginate (sql : Sql) (arrange : List Attack → List Attack) (q : AttackQuery)
    (db : Db) : List Attack × Nat :=
  (Paging.window ((q.page - 1) * q.perPage) q.perPage (arrange (q.rows sql db)), (q.rows sql db).length)

/-- The keys of `_SEARCH_COLUMNS`. -/
inductive SearchField where
  | ip
  | username
  | password
  | country
  | sessionId
  deriving DecidableEq, Repr

/-- `_SEARCH_COLUMNS` -/
def SearchField.column : SearchField → Attack → SqlValue
  | .ip, a => .text (.str a.sourceIp)
  | .username, a => .ofStr a.username
  | .password, a => a.password.elim .null .text
  | .country, a => .ofStr a.country
  | .sessionId, a => .text (.str a.sessionId)

def searchFields : List SearchField :=
  [.ip, .username, .password, .country, .sessionId]

/-- A field name; any other one is treated like no field. -/
def SearchField.ofString : String → Option SearchField
  | "ip" => some .ip
  | "username" => some .username
  | "password" => some .password
  | "country" => some .country
  | "session_id" => some .sessionId
  | _ => none

/-- The rows `AttackRepository.search` counts. -/
def searchRows (sql : Sql) (term : String) (field : Option SearchField) (db : Db) : List Attack :=
  let like := "%" ++ term ++ "%"
  db.attacks.filter fun a =>
    match field with
    | some f => sql.ilike like (f.column a)
    | none => searchFields.any fun f => sql.ilike like (f.column a)

/-- The `ORDER BY` of `AttackRepository.search`. -/
def searchOrder (sql : Sql) (a b : Attack) : Bool :=
  SortOrder.desc.le sql (.datetime a.timestamp) (.datetime b.timestamp)

/-- `AttackRepository.search` -/
def AttackRepository.search (sql : Sql) (arrange : List Attack → List Attack) (term : String)
    (field : Option SearchField) (page perPage : Nat) (db : Db) : List Attack × Nat :=
  (Paging.window ((page - 1) * perPage) perPage (arrange (searchRows sql term field db)),
    (searchRows sql term field db).length)

/-! ## Incidents -/

inductive IncidentSort where
  | lastSeen
  | firstSeen
  | maxRiskScore
  | attemptCount
  deriving DecidableEq, Repr

/-- `_SORT_COLUMNS` of the incidents. -/
def IncidentSort.column : IncidentSort → Incident → SqlValue
  | .lastSeen, i => .datetime i.lastSeen
  | .firstSeen, i => .datetime i.firstSeen
  | .maxRiskScore, i => .int i.maxRiskScore
  | .attemptCount, i => .int i.attemptCount

/-- `IncidentQuery` after its validation. -/
structure IncidentQuery where
  page : Nat := 1
  perPage : Nat := 25
  status : Option IncidentStatus := none
  sourceIp : Option String := none
  minRisk : Option Int := none
  sort : IncidentSort := .lastSeen
  order : SortOrder := .desc
  one_le_page : 1 ≤ page := by decide
  one_le_perPage : 1 ≤ perPage := by decide
  perPage_le : perPage ≤ 100 := by decide
  minRisk_mem : ∀ r ∈ minRisk, 0 ≤ r ∧ r ≤ 100 := by simp

/-- `IncidentRepository._apply_filters` -/
def IncidentQuery.applyFilters (q : IncidentQuery) (i : Incident) : Bool :=
  (q.status.all fun v => i.status = v) && (q.sourceIp.all fun v => v = "" || i.sourceIp = v) &&
    (q.minRisk.all fun v => v ≤ i.maxRiskScore)

/-- The `ORDER BY` of `IncidentRepository.paginate`. -/
def IncidentQuery.orderBy (sql : Sql) (q : IncidentQuery) (i j : Incident) : Bool :=
  q.order.le sql (q.sort.column i) (q.sort.column j)

/-- The rows `IncidentRepository.paginate` counts. -/
def IncidentQuery.rows (q : IncidentQuery) (db : Db) : List Incident :=
  db.incidents.filter q.applyFilters

/-- `IncidentRepository.paginate` -/
def IncidentRepository.paginate (arrange : List Incident → List Incident) (q : IncidentQuery)
    (db : Db) : List Incident × Nat :=
  (Paging.window ((q.page - 1) * q.perPage) q.perPage (arrange (q.rows db)), (q.rows db).length)

end SentinelSsh.Backend

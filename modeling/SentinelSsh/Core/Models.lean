import SentinelSsh.Core.Config

/-!
# `core/models` and the database

The rows of the three tables the pipeline writes, the declared types of their columns, and what an
engine accepts in a column. A row is its ORM attributes plus the keys the database assigns.
-/

namespace SentinelSsh.Core

open Python

/-! ## Columns -/

/-- The column types of the schema. -/
inductive ColumnType where
  | varchar (n : Nat)
  | text
  | integer
  | bigint
  | boolean
  | float
  | timestamptz
  deriving DecidableEq, Repr

/-- A value bound to a column. A float is given by its thousandths. -/
inductive SqlValue where
  | null
  | text (t : Text)
  | int (i : Int)
  | bool (b : Bool)
  | float (thousandths : Nat)
  | datetime (d : Datetime)
  deriving DecidableEq, Repr

/-- A nullable string. -/
def SqlValue.ofStr (s : Option String) : SqlValue :=
  s.elim .null fun s => .text (.str s)

/-- A nullable integer. -/
def SqlValue.ofInt (i : Option Int) : SqlValue :=
  i.elim .null .int

/-- A database engine: which values it accepts in a column of a given type (any other value makes the
statement raise), and what a timestamp column holds. -/
structure Engine where
  accepts : ColumnType → SqlValue → Bool
  /-- A timestamp column holds the instant; otherwise it holds the wall clock, as SQLite's does. -/
  keepsOffset : Bool

/-- What the engine compares timestamps by. -/
def Engine.key (engine : Engine) (d : Datetime) : Int :=
  if engine.keepsOffset then d.instant else d.wall

/-- Timestamps of one offset have one order. -/
theorem Engine.key_lt_iff (engine : Engine) {d e : Datetime} (h : d.utcoffset = e.utcoffset) :
    engine.key d < engine.key e ↔ d.instant < e.instant := by
  rw [Engine.key, Engine.key, Datetime.instant, Datetime.instant, h]
  split <;> omega

/-- The statement with these columns does not raise. -/
def Engine.acceptsAll (engine : Engine) (columns : List (ColumnType × SqlValue)) : Bool :=
  columns.all fun c => engine.accepts c.1 c.2

/-- PostgreSQL: `VARCHAR(n)` rejects longer values, text holds no U+0000 and no byte strings, integers
are bounded. -/
def Engine.postgres : Engine where
  accepts
    | .varchar n, .text (.str s) => s.length ≤ n && !s.toList.contains (Char.ofNat 0)
    | .text, .text (.str s) => !s.toList.contains (Char.ofNat 0)
    | _, .text (.bytes _) => false
    | .integer, .int i => -2147483648 ≤ i && i ≤ 2147483647
    | .bigint, .int i => -9223372036854775808 ≤ i && i ≤ 9223372036854775807
    | _, _ => true
  keepsOffset := true

/-- SQLite: declared lengths and types bind nothing, integers have 64 bits. -/
def Engine.sqlite : Engine where
  accepts
    | _, .int i => -9223372036854775808 ≤ i && i ≤ 9223372036854775807
    | _, _ => true
  keepsOffset := false

/-! ## Rows -/

/-- The attributes of an `Attack` before the database assigns its keys. -/
structure AttackCols where
  timestamp : Datetime
  sourceIp : String
  sourcePort : Option Int
  country : Option String
  asn : Option String
  isp : Option String
  reputation : Option Int
  isMalicious : Bool
  username : Option String
  password : Option Text
  sshVersion : Option String
  sessionId : String
  duration : Nat
  authAttempts : Int
  riskScore : Int
  riskLevel : RiskLevel
  /-- A JSON list. -/
  behaviors : Option String
  /-- A JSON list. -/
  mitreTechniques : Option String
  deriving DecidableEq, Repr

/-- `Attack`: one row per honeypot session. -/
structure Attack extends AttackCols where
  id : Nat
  incidentId : Option Nat
  deriving DecidableEq, Repr

/-- The declared types of the `attacks` columns with the values bound to them. -/
def AttackCols.columns (a : AttackCols) : List (ColumnType × SqlValue) :=
  [(.timestamptz, .datetime a.timestamp),
    (.varchar 45, .text (.str a.sourceIp)),
    (.integer, .ofInt a.sourcePort),
    (.varchar 64, .ofStr a.country),
    (.varchar 32, .ofStr a.asn),
    (.varchar 128, .ofStr a.isp),
    (.integer, .ofInt a.reputation),
    (.boolean, .bool a.isMalicious),
    (.varchar 255, .ofStr a.username),
    (.varchar 255, a.password.elim .null .text),
    (.varchar 128, .ofStr a.sshVersion),
    (.varchar 64, .text (.str a.sessionId)),
    (.float, .float a.duration),
    (.integer, .int a.authAttempts),
    (.integer, .int a.riskScore),
    (.varchar 16, .text (.str a.riskLevel.text)),
    (.text, .ofStr a.behaviors),
    (.text, .ofStr a.mitreTechniques)]

/-- The attributes of a `Command` before the database assigns its keys. -/
structure CommandCols where
  sessionId : Option String
  timestamp : Datetime
  command : String
  commandType : String
  deriving DecidableEq, Repr

/-- `Command`: a command an attacker attempted. -/
structure Command extends CommandCols where
  id : Nat
  attackId : Nat
  deriving DecidableEq, Repr

/-- The declared types of the `commands` columns with the values bound to them. -/
def CommandCols.columns (c : CommandCols) : List (ColumnType × SqlValue) :=
  [(.varchar 64, .ofStr c.sessionId),
    (.timestamptz, .datetime c.timestamp),
    (.text, .text (.str c.command)),
    (.varchar 16, .text (.str c.commandType))]

inductive IncidentStatus where
  | open
  | triaged
  | closed
  deriving DecidableEq, Repr

/-- The text stored for a status. -/
def IncidentStatus.text : IncidentStatus → String
  | .open => "open"
  | .triaged => "triaged"
  | .closed => "closed"

/-- The attributes of an `Incident` before the database assigns its key. -/
structure IncidentCols where
  sourceIp : String
  country : Option String
  title : Option String
  firstSeen : Datetime
  lastSeen : Datetime
  attemptCount : Int
  maxRiskScore : Int
  status : IncidentStatus
  /-- A JSON list. -/
  mitreTechniques : Option String
  deriving DecidableEq, Repr

/-- `Incident`: the related attacks of one source. -/
structure Incident extends IncidentCols where
  id : Nat
  deriving DecidableEq, Repr

/-- The declared types of the `incidents` columns with the values bound to them. -/
def IncidentCols.columns (i : IncidentCols) : List (ColumnType × SqlValue) :=
  [(.varchar 45, .text (.str i.sourceIp)),
    (.varchar 64, .ofStr i.country),
    (.varchar 255, .ofStr i.title),
    (.timestamptz, .datetime i.firstSeen),
    (.timestamptz, .datetime i.lastSeen),
    (.integer, .int i.attemptCount),
    (.integer, .int i.maxRiskScore),
    (.varchar 16, .text (.str i.status.text)),
    (.text, .ofStr i.mitreTechniques)]

/-- The committed tables, rows in the order of their insertion, and the next key of each. -/
structure Db where
  attacks : List Attack := []
  commands : List Command := []
  incidents : List Incident := []
  nextAttack : Nat := 1
  nextCommand : Nat := 1
  nextIncident : Nat := 1
  deriving DecidableEq, Repr

/-- The rows of `incident_id`. -/
def Db.linked (db : Db) (incidentId : Nat) : List Attack :=
  db.attacks.filter (·.incidentId = some incidentId)

/-- The incidents of a source address, in the order of their creation. -/
def Db.incidentsOf (db : Db) (sourceIp : String) : List Incident :=
  db.incidents.filter (·.sourceIp = sourceIp)

/-- The attacks of a source address, in the order of their ingestion. -/
def Db.attacksOf (db : Db) (sourceIp : String) : List Attack :=
  db.attacks.filter (·.sourceIp = sourceIp)

/-- The commands of an attack, in the order of their insertion. -/
def Db.commandsOf (db : Db) (attackId : Nat) : List Command :=
  db.commands.filter (·.attackId = attackId)

end SentinelSsh.Core

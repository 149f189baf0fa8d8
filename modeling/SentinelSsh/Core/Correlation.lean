import SentinelSsh.Core.Pipeline
import SentinelSsh.Lib.Runs
import Mathlib.Algebra.Ring.Int.Defs

/-!
# What incident correlation is for

The abstract model knows no rows and no running totals. The history of a source address is a sequence
of entries: an attack, the triage or the closing of its incident. Cutting the history at the closings
gives pieces, and an incident is what one piece amounts to. `Correlated` relates a database to the
histories of all addresses; the runs of the database (`step`) are the completed `process` calls and
the status changes between them.
-/

namespace SentinelSsh.Core

open Python

/-- `parse_json_list` of the backend: the list a JSON column holds. -/
def parseJsonList (raw : Option String) : List String :=
  if truthy raw then (raw.bind Json.loads).getD [] else []

/-! ## The history of one source address -/

/-- The attacks of one incident; there is at least one. -/
structure Piece where
  first : AttackCols
  later : List AttackCols
  deriving DecidableEq, Repr

namespace Piece

/-- The attacks in the order of their ingestion. -/
def attacks (piece : Piece) : List AttackCols :=
  piece.first :: piece.later

/-- The first non-empty country. -/
def country (piece : Piece) : Option String :=
  ((piece.attacks.map (·.country)).find? truthy).join

/-- The sum of the attempts; a session counts at least once. -/
def attempts (piece : Piece) : Int :=
  (piece.attacks.map fun a => max 1 a.authAttempts).sum

/-- The highest score. -/
def maxRisk (piece : Piece) : Int :=
  piece.later.foldl (fun m a => max m a.riskScore) piece.first.riskScore

/-- The techniques in the order of their first appearance. -/
def techniques (piece : Piece) : List String :=
  fromkeys (piece.attacks.flatMap fun a => parseJsonList a.mitreTechniques)

/-- The country shown while no attack has a non-empty one is the one of the first attack. -/
def shownCountry (piece : Piece) : Option String :=
  if truthy piece.country then piece.country else piece.first.country

/-- The incident a piece amounts to. -/
def incident (piece : Piece) (status : IncidentStatus) : IncidentCols where
  sourceIp := piece.first.sourceIp
  country := piece.shownCountry
  title := some (buildTitle piece.first.sourceIp piece.shownCountry piece.attempts)
  firstSeen := piece.first.timestamp
  lastSeen := (piece.later.getLastD piece.first).timestamp
  attemptCount := piece.attempts
  maxRiskScore := piece.maxRisk
  status := status
  mitreTechniques := some (Json.dumps piece.techniques)

/-- The piece with one more attack. -/
def snoc (piece : Piece) (a : AttackCols) : Piece :=
  { piece with later := piece.later ++ [a] }

end Piece

/-- What happens to a source address. -/
inductive Entry where
  | attack (a : AttackCols)
  /-- The incident that is not closed was triaged. -/
  | triaged
  /-- The incident that is not closed was closed. -/
  | closed
  deriving DecidableEq, Repr

/-- The history of one address, cut at the closings: the pieces that were closed, and the one that
still grows. At most one incident is open by construction. -/
structure Ledger where
  past : List Piece := []
  current : Option Piece := none
  isTriaged : Bool := false
  deriving DecidableEq, Repr

namespace Ledger

/-- The ledger after one more entry. -/
def apply (l : Ledger) : Entry → Ledger
  | .attack a =>
    { l with current := some (l.current.elim ⟨a, []⟩ (·.snoc a)) }
  | .triaged => { l with isTriaged := l.current.isSome }
  | .closed => ⟨l.past ++ l.current.toList, none, false⟩

/-- The status of the piece that still grows. -/
def status (l : Ledger) : IncidentStatus :=
  if l.isTriaged then .triaged else .open

/-- The pieces with the status of their incident, in the order they were begun. -/
def pieces (l : Ledger) : List (Piece × IncidentStatus) :=
  l.past.map (·, .closed) ++ l.current.toList.map (·, l.status)

/-- All attacks of the history. -/
def attacks (l : Ledger) : List AttackCols :=
  l.pieces.flatMap fun p => p.1.attacks

end Ledger

/-- What happened to which address. -/
abbrev Log := List (String × Entry)

/-- The ledger of one address: its part of the log, cut at the closings. -/
def Log.ledger (log : Log) (sourceIp : String) : Ledger :=
  ((log.filter (·.1 = sourceIp)).map (·.2)).foldl Ledger.apply {}

/-! ## Runs of the database -/

/-- A completed call, or a status change made between calls. -/
inductive Event where
  | ingest (capture : Capture)
  /-- open → triaged -/
  | triage (id : Nat)
  /-- open or triaged → closed -/
  | close (id : Nat)

/-- The incident table after a status change. -/
def Db.setStatus (db : Db) (id : Nat) (status : IncidentStatus) : Db :=
  { db with incidents := db.incidents.map fun i => if i.id = id then { i with status := status } else i }

/-- One step of a run: a `process` call that completed, or a status change of an incident that allows
it. -/
def step (p : IngestPipeline) (engine : Engine) (db : Db) : Event → Option Db
  | .ingest capture => (p.process engine db capture).toOption.map (·.1)
  | .triage id =>
    if db.incidents.any fun i => i.id = id && i.status = .open then some (db.setStatus id .triaged)
    else none
  | .close id =>
    if db.incidents.any fun i => i.id = id && i.status ≠ .closed then some (db.setStatus id .closed)
    else none

/-- The log entry of a step from `db` to `db'`: the row it added, or the address of the incident whose
status it changed. -/
def entryOf (db db' : Db) : Event → Option (String × Entry)
  | .ingest _ => db'.attacks.getLast?.map fun a => (a.sourceIp, .attack a.toAttackCols)
  | .triage id => (db.incidents.find? (·.id = id)).map fun i => (i.sourceIp, .triaged)
  | .close id => (db.incidents.find? (·.id = id)).map fun i => (i.sourceIp, .closed)

/-- A database together with the log of what was done to it. -/
structure Logged where
  db : Db := {}
  log : Log := []

/-- A step of the database that is written down. -/
def loggedStep (p : IngestPipeline) (engine : Engine) (s : Logged) (e : Event) : Option Logged :=
  (step p engine s.db e).map fun db' => ⟨db', s.log ++ (entryOf s.db db' e).toList⟩

/-! ## The database and the histories -/

/-- A row holds what its piece amounts to, and the attacks that point to it are those of the piece. -/
structure RowOf (db : Db) (i : Incident) (piece : Piece × IncidentStatus) : Prop where
  cols : i.toIncidentCols = piece.1.incident piece.2
  linked : (db.linked i.id).map Attack.toAttackCols = piece.1.attacks

/-- The database holds exactly the histories `book`. -/
structure Correlated (db : Db) (book : String → Ledger) : Prop where
  /-- Keys are taken from the sequence. -/
  keys_lt : ∀ i ∈ db.incidents, i.id < db.nextIncident
  keys_nodup : (db.incidents.map (·.id)).Nodup
  /-- Every attack points to an incident of its own source address. -/
  owned : ∀ a ∈ db.attacks, ∃ i ∈ db.incidents, a.incidentId = some i.id ∧ i.sourceIp = a.sourceIp
  /-- The incidents of an address are its pieces. -/
  rows : ∀ ip, List.Forall₂ (RowOf db) (db.incidentsOf ip) (book ip).pieces
  /-- A triaged incident exists. -/
  triaged : ∀ ip, (book ip).isTriaged = true → (book ip).current.isSome = true
  /-- The attacks of an address are those of its pieces, in the order of their ingestion. -/
  attacks : ∀ ip, (db.attacksOf ip).map Attack.toAttackCols = (book ip).attacks

/-! ## What the rows promise -/

/-- A country that is set and not empty. -/
def nonEmpty (country : Option String) : Option String :=
  country.filter (· ≠ "")

/-- An incident row sums up the attacks of its piece. -/
structure SummaryOf (db : Db) (i : Incident) (piece : Piece × IncidentStatus) : Prop where
  status : i.status = piece.2
  sourceIp : ∀ a ∈ piece.1.attacks, a.sourceIp = i.sourceIp
  linked : (db.linked i.id).map Attack.toAttackCols = piece.1.attacks
  attemptCount : i.attemptCount = (piece.1.attacks.map fun a => max 1 a.authAttempts).sum
  maxRiskScore : (piece.1.attacks.map (·.riskScore)).max? = some i.maxRiskScore
  country : nonEmpty i.country = (piece.1.attacks.filterMap fun a => nonEmpty a.country).head?
  techniques : parseJsonList i.mitreTechniques =
    fromkeys (piece.1.attacks.flatMap fun a => parseJsonList a.mitreTechniques)
  /-- The title shows the address, the country unless it is empty, and the attempts. -/
  title : i.title = some ("SSH activity from " ++ i.sourceIp ++
    ((nonEmpty i.country).elim "" fun c => " (" ++ c ++ ")") ++ " — " ++ toString i.attemptCount ++ " attempts")

/-- The timestamps of the attacks of an incident, as the engine compares them. -/
def Db.moments (engine : Engine) (db : Db) (i : Incident) : List Int :=
  (db.linked i.id).map (engine.key ·.timestamp)

/-- `first_seen` is the earliest and `last_seen` the latest timestamp of the attacks of every incident, by
what the columns hold: instants on PostgreSQL, wall clocks on SQLite. -/
def Db.Bracketed (engine : Engine) (db : Db) : Prop :=
  ∀ i ∈ db.incidents, (db.moments engine i).min? = some (engine.key i.firstSeen) ∧
    (db.moments engine i).max? = some (engine.key i.lastSeen)

/-- No attack of the incident a session joins is later than the session. -/
def Chronological (p : IngestPipeline) (engine : Engine) (db : Db) : Event → Prop
  | .ingest capture => ∀ i ∈ db.incidents, i.sourceIp = capture.sourceIp → i.status ≠ .closed →
      ∀ a ∈ db.linked i.id, engine.key a.timestamp ≤ engine.key (p.captureTs capture)
  | _ => True

end SentinelSsh.Core

import SentinelSsh.Core.Concurrent

/-!
# `honeypot/pipeline_sink.py`

`PipelineSink.write` with a callback, on a database and with a callback that may fail at any point. A
call runs in `session_scope`: what it has flushed is visible to itself only, a commit makes all of it
visible at once, and a rollback undoes all of it. The snapshot is handed to the callback after the
commit; what the callback raises is swallowed, what `process` raises is not. The calls of different
connections may interleave in any way.
-/

namespace SentinelSsh.Honeypot

open SentinelSsh.Core

/-! ## Transactions -/

/-- The statements of a flush. -/
inductive Statement where
  | putIncident (found : Option Incident) (key : Nat) (cols : IncidentCols)
  | putAttack (attackKey : Nat) (a : AttackCols) (cmds : List CommandCols) (key : Nat)

/-- What a statement does to the tables. -/
def Statement.execute (db : Db) : Statement → Db
  | .putIncident found key cols => db.putIncident found key cols
  | .putAttack attackKey a cmds key => db.putAttack attackKey a cmds key

/-- How far a call of `write` has come. -/
inductive Stage where
  | idle
  /-- `_count_prior_attempts` has returned. -/
  | counted (prior : Int)
  /-- `correlate` has returned. -/
  | selected (w : Pending)
  /-- The first flush is done: the incident has a key. -/
  | flushedIncident (w : Pending) (key : Nat)
  /-- The second flush is done: the attack has a key. -/
  | flushedAttack (w : Pending) (key attackKey : Nat)
  /-- `process` has returned. -/
  | committed (snapshot : Snapshot)
  /-- The callback was called. -/
  | published (snapshot : Snapshot)
  /-- `process` has raised, and the transaction was rolled back. -/
  | failed

/-- The statements that are flushed and neither committed nor rolled back. -/
def Stage.transaction (p : IngestPipeline) (capture : Capture) : Stage → List Statement
  | .flushedIncident w key => [.putIncident w.found key w.incident]
  | .flushedAttack w key attackKey =>
    let d := p.draft capture w.prior
    [.putIncident w.found key w.incident, .putAttack attackKey d.attack d.commands key]
  | _ => []

/-- The key of an incident that is about to be inserted. -/
def Stage.newIncidentKey : Stage → Option Nat
  | .flushedIncident w key | .flushedAttack w key _ => if w.found.isNone then some key else none
  | _ => none

/-- The key of an attack that is about to be inserted. -/
def Stage.newAttackKey : Stage → Option Nat
  | .flushedAttack _ _ attackKey => some attackKey
  | _ => none

/-- The snapshot of a call that is committed. -/
def Stage.snapshot : Stage → Option Snapshot
  | .committed snap | .published snap => some snap
  | _ => none

/-! ## Calls -/

/-- The committed tables, the calls, and what was handed to the callback. -/
structure Sinks where
  db : Db
  calls : Nat → Stage
  published : List Snapshot

/-- All calls are about to begin. -/
def Sinks.start (db : Db) : Sinks where
  db := db
  calls := fun _ => .idle
  published := []

/-- The state after call `i` has moved on. -/
def Sinks.set (s : Sinks) (i : Nat) (stage : Stage) : Sinks :=
  { s with calls := Function.update s.calls i stage }

/-- What the database, or the callback, answers to what a call does next. -/
inductive Reply where
  /-- It succeeds; a flush that inserts has been given this key. -/
  | ok (key : Nat)
  | raises

/-- The key the first flush gives the incident: a new one, or that of the row that was found. -/
def Sinks.acceptsIncidentKey (s : Sinks) (n : Nat) (w : Pending) (key : Nat) : Bool :=
  match w.found with
  | none => s.db.incidents.all (·.id ≠ key) &&
      (List.range n).all fun j => (s.calls j).newIncidentKey ≠ some key
  | some row => key = row.id

/-- The second flush gives the attack a new key. -/
def Sinks.acceptsAttackKey (s : Sinks) (n attackKey : Nat) : Bool :=
  s.db.attacks.all (·.id ≠ attackKey) &&
    (List.range n).all fun j => (s.calls j).newAttackKey ≠ some attackKey

/-- Call `i` goes on. A statement the engine does not accept cannot succeed,
and neither can the subtraction that overflows. -/
def write (p : IngestPipeline) (engine : Engine) (captures : List Capture) (s : Sinks) :
    Nat × Reply → Option Sinks
  | (i, reply) =>
    captures[i]?.bind fun capture =>
      match s.calls i, reply with
      | .published _, _ => none
      | .failed, _ => none
      | .committed snap, _ =>
        some { s.set i (.published snap) with published := s.published ++ [snap] }
      | _, .raises => some (s.set i .failed)
      | .idle, .ok _ =>
        (p.countPriorAttempts engine s.db.attacks capture.sourceIp (p.captureTs capture)).map fun prior =>
          s.set i (.counted prior)
      | .counted prior, .ok _ =>
        let (found, incident) := correlate engine s.db.incidents (p.draft capture prior).correlateArgs
        some (s.set i (.selected ⟨prior, found, incident⟩))
      | .selected w, .ok key =>
        if engine.acceptsAll w.incident.columns && s.acceptsIncidentKey captures.length w key then
          some (s.set i (.flushedIncident w key))
        else none
      | .flushedIncident w key, .ok attackKey =>
        let d := p.draft capture w.prior
        if engine.acceptsAll d.attack.columns && d.commands.all (fun c => engine.acceptsAll c.columns) &&
            s.acceptsAttackKey captures.length attackKey then
          some (s.set i (.flushedAttack w key attackKey))
        else none
      | .flushedAttack w key attackKey, .ok _ =>
        let d := p.draft capture w.prior
        let attack : Attack := { d.attack with id := attackKey, incidentId := some key }
        let snap := snapshot attack d.commands.length d.behavior.behaviors d.behavior.techniques d.risk
        some { s.set i (.committed snap) with
          db := ((s.calls i).transaction p capture).foldl Statement.execute s.db }

/-! ## What is published -/

/-- The snapshot names rows of the tables: its attack, and the incident this attack points to. -/
def Names (db : Db) (snap : Snapshot) : Prop :=
  ∃ a ∈ db.attacks, a.id = snap.id ∧ a.incidentId = snap.incidentId ∧
    ∃ row ∈ db.incidents, snap.incidentId = some row.id

/-- A step that is not a commit leaves the tables alone; a commit writes an attack together with the
incident it points to. -/
def Atomic (s s' : Sinks) : Prop :=
  s'.db = s.db ∨ ∃ found key cols attackKey a cmds,
    s'.db = (s.db.putIncident found key cols).putAttack attackKey a cmds key

/-- A step hands at most one snapshot to the callback, and only one whose rows are committed. -/
def PublishesCommitted (s s' : Sinks) : Prop :=
  s'.published = s.published ∨ ∃ snap, s'.published = s.published ++ [snap] ∧ Names s.db snap

/-- The snapshots that were published and the attacks that were added to `db₀` name each other, apart
from the calls that are between their commit and the callback. -/
structure Corresponds (db₀ : Db) (s : Sinks) : Prop where
  named : ∀ snap ∈ s.published, Names s.db snap
  once : (s.published.map (·.id)).Nodup
  covered : ∀ a ∈ s.db.attacks, a ∈ db₀.attacks ∨ (∃ snap ∈ s.published, snap.id = a.id) ∨
    ∃ i snap, s.calls i = .committed snap ∧ snap.id = a.id
  oneToOne : (∀ i snap, s.calls i ≠ .committed snap) →
    (s.db.attacks.map (·.id)).Perm (db₀.attacks.map (·.id) ++ s.published.map (·.id))

end SentinelSsh.Honeypot

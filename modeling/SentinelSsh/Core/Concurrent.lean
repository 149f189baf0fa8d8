import SentinelSsh.Core.Correlation
import Mathlib.Logic.Function.Basic

/-!
# Concurrent `process` calls

One thread a honeypot connection, each with a transaction of its own. A `SELECT` sees the rows that
are committed at that moment, a flush takes keys from the sequences, and the rows of a call become
visible with its commit; an `UPDATE` waits for the transaction that has updated the row before. No
constraint of the schema makes an insert wait or fail.
-/

namespace SentinelSsh.Core

/-- What a call has read and computed up to its incident. -/
structure Pending where
  prior : Int
  found : Option Incident
  incident : IncidentCols
  deriving DecidableEq

/-- How far a call has come. -/
inductive Progress where
  | idle
  /-- `_count_prior_attempts` has returned. -/
  | counted (prior : Int)
  /-- `correlate` has returned. -/
  | selected (w : Pending)
  /-- The first flush is done: the incident has a key. -/
  | flushedIncident (w : Pending) (key : Nat)
  /-- The second flush is done: the attack has a key. -/
  | flushedAttack (w : Pending) (key attackKey : Nat)
  | committed
  /-- `process` raised, and the transaction was rolled back. -/
  | failed (e : ProcessError)
  deriving DecidableEq

/-- The incident a call works on and the key it has for it. -/
def Progress.written : Progress → Option (Pending × Nat)
  | .flushedIncident w key => some (w, key)
  | .flushedAttack w key _ => some (w, key)
  | _ => none

/-- The committed database, the calls in flight, and the calls in the order of their commits. -/
structure Calls where
  db : Db
  calls : Nat → Progress
  order : List Nat

/-- All calls are about to begin. -/
def Calls.start (db : Db) : Calls where
  db := db
  calls := fun _ => .idle
  order := []

/-- The state after call `i` has moved on. -/
def Calls.set (s : Calls) (i : Nat) (progress : Progress) : Calls :=
  { s with calls := Function.update s.calls i progress }

/-- Another of the first `n` calls has updated the row and has not committed yet. -/
def Calls.isLocked (s : Calls) (n i : Nat) (row : Incident) : Bool :=
  (List.range n).any fun j => j ≠ i && (s.calls j).written.any fun (w, key) =>
    w.found.isSome && key = row.id

/-- The database with the key of a new incident taken from its sequence. -/
def Db.takeIncidentKey (db : Db) (found : Option Incident) : Db :=
  { db with nextIncident := found.elim (db.nextIncident + 1) fun _ => db.nextIncident }

/-- The next database step of call `i`. -/
def advance (p : IngestPipeline) (engine : Engine) (captures : List Capture) (s : Calls) (i : Nat) :
    Option Calls :=
  captures[i]?.bind fun capture =>
    match s.calls i with
    | .idle =>
      some (s.set i (match p.countPriorAttempts engine s.db.attacks capture.sourceIp (p.captureTs capture) with
        | none => .failed .overflow
        | some prior => .counted prior))
    | .counted prior =>
      let (found, incident) := correlate engine s.db.incidents (p.draft capture prior).correlateArgs
      some (s.set i (.selected ⟨prior, found, incident⟩))
    | .selected w =>
      if w.found.any (s.isLocked captures.length i) then none
      else if !engine.acceptsAll w.incident.columns then some (s.set i (.failed .incidents))
      else
        some { s.set i (.flushedIncident w (s.db.incidentKey w.found)) with
          db := s.db.takeIncidentKey w.found }
    | .flushedIncident w key =>
      let d := p.draft capture w.prior
      if !engine.acceptsAll d.attack.columns then some (s.set i (.failed .attacks))
      else if !d.commands.all (fun c => engine.acceptsAll c.columns) then
        some (s.set i (.failed .commands))
      else
        some { s.set i (.flushedAttack w key s.db.nextAttack) with
          db := { s.db with nextAttack := s.db.nextAttack + 1 } }
    | .flushedAttack w key attackKey =>
      let d := p.draft capture w.prior
      some
        { db := (s.db.putIncident w.found key w.incident).putAttack attackKey d.attack d.commands key
          calls := Function.update s.calls i .committed
          order := s.order ++ [i] }
    | .committed => none
    | .failed _ => none

/-! ## What the table should look like -/

/-- No address has two incidents that are not closed, and every incident counts the attempts of the
attacks that point to it. -/
structure Db.Consistent (db : Db) : Prop where
  single : ∀ ip, ((db.incidentsOf ip).filter (·.status ≠ .closed)).length ≤ 1
  attempts : ∀ i ∈ db.incidents,
    i.attemptCount = ((db.linked i.id).map fun a => max 1 a.authAttempts).sum

/-- A call that commits still has the incident of its address that a `SELECT` would return now. -/
def RowCurrent (engine : Engine) (captures : List Capture) (s : Calls) (i : Nat) : Prop :=
  match captures[i]?, s.calls i with
  | some capture, .flushedAttack w _ _ => selectIncident engine s.db.incidents capture.sourceIp = w.found
  | _, _ => True

instance (engine : Engine) (captures : List Capture) (s : Calls) (i : Nat) :
    Decidable (RowCurrent engine captures s i) := by
  unfold RowCurrent
  split <;> infer_instance

/-- A call that commits has counted prior attempts that are on the same side of the two thresholds
(any at all, repeated) as the attempts that are committed now. -/
def CountCurrent (p : IngestPipeline) (engine : Engine) (captures : List Capture) (s : Calls) (i : Nat) :
    Prop :=
  match captures[i]?, s.calls i with
  | some capture, .flushedAttack w _ _ =>
    let now := p.priorAttempts engine s.db.attacks capture.sourceIp (p.captureTs capture)
    (0 < w.prior ↔ 0 < now) ∧
      (p.config.repeatedAttemptsThreshold ≤ capture.authAttempts + w.prior ↔
        p.config.repeatedAttemptsThreshold ≤ capture.authAttempts + now)
  | _, _ => True

instance (p : IngestPipeline) (engine : Engine) (captures : List Capture) (s : Calls) (i : Nat) :
    Decidable (CountCurrent p engine captures s i) := by
  unfold CountCurrent
  split <;> infer_instance

/-- Two databases with the same attacks and the same incidents at every address, keys apart. -/
structure SameTables (db db' : Db) : Prop where
  incidents : ∀ ip, (db.incidentsOf ip).map Incident.toIncidentCols =
    (db'.incidentsOf ip).map Incident.toIncidentCols
  attacks : ∀ ip, (db.attacksOf ip).map Attack.toAttackCols =
    (db'.attacksOf ip).map Attack.toAttackCols
  /-- The incidents of an address hold the same attacks. -/
  linked : ∀ ip, (db.incidentsOf ip).map (fun i => (db.linked i.id).map Attack.toAttackCols) =
    (db'.incidentsOf ip).map fun i => (db'.linked i.id).map Attack.toAttackCols

end SentinelSsh.Core

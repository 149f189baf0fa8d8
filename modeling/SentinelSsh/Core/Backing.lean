import SentinelSsh.Core.Concurrent

/-!
# What an incident row owes to its attacks

Calls that overlap can lose an update, so an incident need not sum up its attacks. What remains true is
that it claims nothing its attacks do not back: every value it holds comes from one of them, and it
counts no attempt twice. `Backed` says so about the columns of one row, and `Db.Sound` about the tables.
-/

namespace SentinelSsh.Core

/-- Every column of an incident is backed by some attacks. -/
structure Backed (i : IncidentCols) (attacks : List AttackCols) : Prop where
  sourceIp : ∀ a ∈ attacks, a.sourceIp = i.sourceIp
  country : ∃ a ∈ attacks, a.country = i.country
  firstSeen : ∃ a ∈ attacks, a.timestamp = i.firstSeen
  lastSeen : ∃ a ∈ attacks, a.timestamp = i.lastSeen
  attemptCount : i.attemptCount ≤ (attacks.map fun a => max 1 a.authAttempts).sum
  maxRiskScore : ∃ a ∈ attacks, a.riskScore = i.maxRiskScore
  techniques : ∀ t ∈ parseJsonList i.mitreTechniques, ∃ a ∈ attacks, t ∈ parseJsonList a.mitreTechniques

/-- The attributes of the attacks that point to an incident. -/
def Db.linkedCols (db : Db) (incidentId : Nat) : List AttackCols :=
  (db.linked incidentId).map Attack.toAttackCols

/-- The tables after any number of calls, whether they overlapped or not. -/
structure Db.Sound (db : Db) : Prop where
  keys_nodup : (db.incidents.map (·.id)).Nodup
  backed : ∀ r ∈ db.incidents, Backed r.toIncidentCols (db.linkedCols r.id)
  owned : ∀ a ∈ db.attacks, ∃ r ∈ db.incidents, a.incidentId = some r.id
  attackKeys_nodup : (db.attacks.map (·.id)).Nodup
  commandsOwned : ∀ c ∈ db.commands, ∃ a ∈ db.attacks, c.attackId = a.id

/-- The session is stored under a key: an attack row with everything that was captured and computed, and
one row for each of its commands. -/
def Recorded (p : IngestPipeline) (db : Db) (capture : Capture) (attackId : Nat) : Prop :=
  ∃ a ∈ db.attacks, a.id = attackId ∧ ∃ prior, a.toAttackCols = (p.draft capture prior).attack ∧
    (db.commandsOf attackId).map Command.toCommandCols = (p.draft capture prior).commands

end SentinelSsh.Core

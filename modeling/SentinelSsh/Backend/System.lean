import SentinelSsh.Backend.Stats

/-!
# `backend/app/services/system_service.py`

The alert cards: an attack of a high score under the name of the most serious thing it did, with the
technique that stands for it.
-/

namespace SentinelSsh.Backend

open SentinelSsh.Core Python

/-- An entry of `_ALERT_TYPES`: a behaviour, the alert type it is shown as, and its representative
technique. -/
structure AlertType where
  behavior : String
  label : String
  techniqueId : Option String
  deriving DecidableEq, Repr

/-- `_ALERT_TYPES`, highest priority first. -/
def alertTypes : List AlertType :=
  [⟨"cryptomining", "Cryptomining", some "T1496"⟩,
    ⟨"tool_transfer", "Malware Download", some "T1105"⟩,
    ⟨"ssh_key_persistence", "Persistence Attempt", some "T1098.004"⟩,
    ⟨"cron_persistence", "Persistence Attempt", some "T1053.003"⟩,
    ⟨"disable_defenses", "Defense Evasion", some "T1562.001"⟩,
    ⟨"account_discovery", "Credential Access", some "T1087"⟩,
    ⟨"known_malicious_source", "Known Malicious IP", none⟩,
    ⟨"brute_force", "Brute Force", some "T1110"⟩]

/-- An alert card. -/
structure Alert where
  id : Nat
  alertType : String
  sourceIp : String
  country : Option String
  riskScore : Int
  riskLevel : RiskLevel
  mitre : Option Technique
  timestamp : String
  incidentId : Option Nat
  deriving DecidableEq, Repr

/-- The technique of an alert: the preferred one among the resolved ones, else the one of the catalogue,
else the first one. -/
def alertTechnique (techniques : List Technique) (preferredId : Option String) : Option Technique :=
  let first := techniques.head?
  match preferredId with
  | none => first
  | some tid => ((techniques.find? (·.id = tid)).or (resolve [tid]).head?).or first

/-- `SystemService._to_alert` -/
def toAlert (dialect : Dialect) (attack : Attack) : Alert :=
  let behaviors := parseJsonList attack.behaviors
  let techniques := resolve (parseJsonList attack.mitreTechniques)
  let entry := alertTypes.find? fun e => behaviors.contains e.behavior
  { id := attack.id
    alertType := entry.elim "Suspicious Login" (·.label)
    sourceIp := attack.sourceIp
    country := attack.country
    riskScore := attack.riskScore
    riskLevel := attack.riskLevel
    mitre := alertTechnique techniques (entry.bind (·.techniqueId))
    timestamp := (dialect.load attack.timestamp).isoformat
    incidentId := attack.incidentId }

/-- `SystemService.alerts` with the query of `AttackRepository.high_risk`, given what the database makes
of its `ORDER BY`. -/
def alerts (dialect : Dialect) (arrange : List Attack → List Attack) (limit : Nat) (minScore : Int)
    (db : Db) : List Alert :=
  ((arrange (db.attacks.filter fun a => a.riskScore ≥ minScore)).take limit).map (toAlert dialect)

/-- What an alert says of a session with these behaviours and these stored techniques. -/
structure AlertOf (behaviors stored : List String) (alert : Alert) : Prop where
  /-- The first alert type whose behaviour the session exhibited gives the name, and the technique if it
  has one; that technique is a stored one. -/
  typed : ∀ before e after, alertTypes = before ++ e :: after → e.behavior ∈ behaviors →
    (∀ e' ∈ before, e'.behavior ∉ behaviors) → alert.alertType = e.label ∧
      (∀ tid, e.techniqueId = some tid → tid ∈ stored ∧ alert.mitre.map (·.id) = some tid) ∧
      (e.techniqueId = none → alert.mitre.map (·.id) = stored.head?)
  /-- Without such a type it is a suspicious login with the first stored technique. -/
  untyped : (∀ e ∈ alertTypes, e.behavior ∉ behaviors) →
    alert.alertType = "Suspicious Login" ∧ alert.mitre.map (·.id) = stored.head?
  /-- A technique is missing only if none is stored. -/
  missing : alert.mitre = none → stored = []

end SentinelSsh.Backend

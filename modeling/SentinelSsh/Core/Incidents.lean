import SentinelSsh.Core.Models
import SentinelSsh.Lib.JsonReader

/-!
# `core/intel/incidents.py`

Find-or-create of the incident of a source address and the update of its running aggregates. The
function works on ORM objects: it returns the row the `SELECT` found, if any, and the attributes the
object has afterwards; writing them is left to the flush.
-/

namespace SentinelSsh.Core

open Python

/-- The keyword arguments of `IncidentEngine.correlate`. -/
structure CorrelateArgs where
  sourceIp : String
  country : Option String
  riskScore : Int
  attempts : Int
  techniques : List String
  timestamp : Datetime

/-- The `SELECT` of `correlate`: the incident of the address that is not closed and was seen last. -/
def selectIncident (engine : Engine) (incidents : List Incident) (sourceIp : String) : Option Incident :=
  (incidents.filter fun i => i.sourceIp = sourceIp && i.status ≠ .closed).maxOn? (engine.key ·.lastSeen)

/-- `IncidentEngine._merge_techniques` -/
def mergeTechniques (existingJson : Option String) (new : List String) : List String :=
  let current := if truthy existingJson then (existingJson.bind Json.loads).getD [] else []
  fromkeys (current ++ new)

/-- `IncidentEngine._build_title` -/
def buildTitle (sourceIp : String) (country : Option String) (attemptCount : Int) : String :=
  let loc := if truthy country then " (" ++ country.getD "" ++ ")" else ""
  "SSH activity from " ++ sourceIp ++ loc ++ " — " ++ toString attemptCount ++ " attempts"

/-- The object `correlate` creates when there is no incident to join. -/
def newIncident (args : CorrelateArgs) : IncidentCols where
  sourceIp := args.sourceIp
  country := args.country
  title := none
  firstSeen := args.timestamp
  lastSeen := args.timestamp
  attemptCount := 0
  maxRiskScore := 0
  status := .open
  mitreTechniques := some (Json.dumps [])

/-- The assignments of `correlate` to the incident, whether found or created. -/
def IncidentCols.absorb (incident : IncidentCols) (args : CorrelateArgs) : IncidentCols :=
  let country := if truthy args.country && !truthy incident.country then args.country
    else incident.country
  let attemptCount := incident.attemptCount + max 1 args.attempts
  { incident with
    lastSeen := args.timestamp
    attemptCount := attemptCount
    maxRiskScore := max incident.maxRiskScore args.riskScore
    country := country
    mitreTechniques := some (Json.dumps (mergeTechniques incident.mitreTechniques args.techniques))
    title := some (buildTitle incident.sourceIp country attemptCount) }

/-- `IncidentEngine.correlate` -/
def correlate (engine : Engine) (incidents : List Incident) (args : CorrelateArgs) :
    Option Incident × IncidentCols :=
  let found := selectIncident engine incidents args.sourceIp
  (found, ((found.map Incident.toIncidentCols).getD (newIncident args)).absorb args)

end SentinelSsh.Core

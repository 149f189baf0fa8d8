import SentinelSsh.Backend.Repositories

/-!
# `backend/app/schemas`

The query parameters of a request as the Pydantic models validate them. How Pydantic reads a number, a
truth value or a datetime from a string is left to it; the fields, their defaults, their bounds and
their validators are those of the models.
-/

namespace SentinelSsh.Backend

open SentinelSsh.Core Python

/-- `request.args`: of several values for one name the first counts. -/
abbrev Args := List (String × String)

/-- What Pydantic reads from a string for a field of the type; the error is its message. -/
structure Pydantic where
  int : String → Except String Int
  bool : String → Except String Bool
  datetime : String → Except String Datetime

/-- An entry of `ValidationError.errors()`. -/
structure FieldError where
  loc : String
  msg : String
  deriving DecidableEq, Repr

/-- The integers of a field with `ge` and `le`. -/
abbrev Bounded (ge : Int) (le : Option Int) :=
  { i : Int // ge ≤ i ∧ ∀ m ∈ le, i ≤ m }

/-- An integer of a field with `ge` and `le`. -/
def Pydantic.bounded (py : Pydantic) (ge : Int) (le : Option Int) (v : String) :
    Except String (Bounded ge le) := do
  let i ← py.int v
  if hge : ge ≤ i then
    if hle : ∀ m ∈ le, i ≤ m then return ⟨i, hge, hle⟩
    else .error ("Input should be less than or equal to " ++ le.elim "" toString)
  else .error ("Input should be greater than or equal to " ++ toString ge)

theorem bounded_map {ge le : Int} (i : Option (Bounded ge (some le))) :
    ∀ r ∈ i.map (·.val), ge ≤ r ∧ r ≤ le := by
  intro r hr
  obtain ⟨i, -, rfl⟩ := Option.map_eq_some_iff.mp hr
  exact ⟨i.property.1, i.property.2 le rfl⟩

/-- A validator that takes the texts of a table. -/
def oneOf {α : Type} (choices : List (String × α)) (msg : String) (v : String) : Except String α :=
  match choices.lookup v with
  | some x => .ok x
  | none => .error ("Value error, " ++ msg)

/-- `_validate_order` -/
def validateOrder (u : UnicodeDb) (v : String) : Except String SortOrder :=
  oneOf [("asc", .asc), ("desc", .desc)] "order must be 'asc' or 'desc'"
    (u.lower (if v = "" then "desc" else v))

/-- A field of a model, given how its values are read. -/
def field {α : Type} (args : Args) (loc : String) (default : α) (read : String → Except String α) :
    Except FieldError α :=
  match args.lookup loc with
  | none => .ok default
  | some v => (read v).mapError (FieldError.mk loc)

/-- A field that may be missing. -/
def optionalField {α : Type} (args : Args) (loc : String) (read : String → Except String α) :
    Except FieldError (Option α) :=
  field args loc none fun v => (read v).map some

/-- What `ValidationError` says about a field. -/
def fieldErrors {α : Type} : Except FieldError α → List FieldError
  | .ok _ => []
  | .error e => [e]

/-! ## Attacks -/

/-- `ALLOWED_SORT_FIELDS` -/
def allowedSortFields : List (String × AttackSort) :=
  [("timestamp", .timestamp), ("risk_score", .riskScore), ("source_ip", .sourceIp),
    ("country", .country), ("username", .username), ("duration", .duration)]

/-- `ALLOWED_RISK_LEVELS` -/
def allowedRiskLevels : List (String × RiskLevel) :=
  [("low", .low), ("medium", .medium), ("high", .high)]

/-- `AttackQuery(**request.args.to_dict())` -/
def AttackQuery.validate (py : Pydantic) (u : UnicodeDb) (args : Args) :
    Except (List FieldError) AttackQuery :=
  let page := field args "page" ⟨1, by simp⟩ (py.bounded 1 none)
  let perPage := field args "per_page" ⟨25, by simp⟩ (py.bounded 1 (some 100))
  let sort := field args "sort" .timestamp (oneOf allowedSortFields
    "sort must be one of ['country', 'duration', 'risk_score', 'source_ip', 'timestamp', 'username']")
  let order := field args "order" .desc (validateOrder u)
  let riskLevel := optionalField args "risk_level" fun v => oneOf allowedRiskLevels
    "risk_level must be one of ['high', 'low', 'medium']" (u.lower v)
  let minRisk := optionalField args "min_risk" (py.bounded 0 (some 100))
  let maxRisk := optionalField args "max_risk" (py.bounded 0 (some 100))
  let isMalicious := optionalField args "is_malicious" py.bool
  let incidentId := optionalField args "incident_id" py.int
  let dateFrom := optionalField args "date_from" py.datetime
  let dateTo := optionalField args "date_to" py.datetime
  let errors := fieldErrors page ++ fieldErrors perPage ++ fieldErrors sort ++ fieldErrors order ++
    fieldErrors riskLevel ++ fieldErrors minRisk ++ fieldErrors maxRisk ++ fieldErrors isMalicious ++
    fieldErrors incidentId ++ fieldErrors dateFrom ++ fieldErrors dateTo
  let query : Except FieldError AttackQuery := do
    let page ← page
    let perPage ← perPage
    let minRisk ← minRisk
    let maxRisk ← maxRisk
    return {
      page := page.val.toNat
      perPage := perPage.val.toNat
      sort := ← sort
      order := ← order
      sourceIp := args.lookup "source_ip"
      country := args.lookup "country"
      username := args.lookup "username"
      riskLevel := ← riskLevel
      minRisk := minRisk.map (·.val)
      maxRisk := maxRisk.map (·.val)
      isMalicious := ← isMalicious
      incidentId := ← incidentId
      dateFrom := ← dateFrom
      dateTo := ← dateTo
      one_le_page := by have := page.property.1; omega
      one_le_perPage := by have := perPage.property.1; omega
      perPage_le := by have := perPage.property.2 100 rfl; omega
      minRisk_mem := bounded_map minRisk
      maxRisk_mem := bounded_map maxRisk }
  query.mapError fun _ => errors

/-! ## Incidents -/

/-- `ALLOWED_STATUS` -/
def allowedStatus : List (String × IncidentStatus) :=
  [("open", .open), ("triaged", .triaged), ("closed", .closed)]

/-- The sort fields of `IncidentQuery`. -/
def allowedIncidentSorts : List (String × IncidentSort) :=
  [("last_seen", .lastSeen), ("first_seen", .firstSeen), ("max_risk_score", .maxRiskScore),
    ("attempt_count", .attemptCount)]

/-- `IncidentQuery(**request.args.to_dict())` -/
def IncidentQuery.validate (py : Pydantic) (u : UnicodeDb) (args : Args) :
    Except (List FieldError) IncidentQuery :=
  let page := field args "page" ⟨1, by simp⟩ (py.bounded 1 none)
  let perPage := field args "per_page" ⟨25, by simp⟩ (py.bounded 1 (some 100))
  let status := optionalField args "status" fun v => oneOf allowedStatus
    "status must be one of ['closed', 'open', 'triaged']" (u.lower v)
  let minRisk := optionalField args "min_risk" (py.bounded 0 (some 100))
  let sort := field args "sort" .lastSeen (oneOf allowedIncidentSorts
    "sort must be one of ['attempt_count', 'first_seen', 'last_seen', 'max_risk_score']")
  let order := field args "order" .desc (validateOrder u)
  let errors := fieldErrors page ++ fieldErrors perPage ++ fieldErrors status ++ fieldErrors minRisk ++
    fieldErrors sort ++ fieldErrors order
  let query : Except FieldError IncidentQuery := do
    let page ← page
    let perPage ← perPage
    let minRisk ← minRisk
    return {
      page := page.val.toNat
      perPage := perPage.val.toNat
      status := ← status
      sourceIp := args.lookup "source_ip"
      minRisk := minRisk.map (·.val)
      sort := ← sort
      order := ← order
      one_le_page := by have := page.property.1; omega
      one_le_perPage := by have := perPage.property.1; omega
      perPage_le := by have := perPage.property.2 100 rfl; omega
      minRisk_mem := bounded_map minRisk }
  query.mapError fun _ => errors

/-! ## Top lists -/

/-- `TopParams` -/
structure TopParams where
  limit : Bounded 1 (some 100)
  hours : Option (Bounded 1 (some (24 * 365)))

/-- `TopParams(**request.args.to_dict())` -/
def TopParams.validate (py : Pydantic) (args : Args) : Except (List FieldError) TopParams :=
  let limit := field args "limit" ⟨10, by simp⟩ (py.bounded 1 (some 100))
  let hours := optionalField args "hours" (py.bounded 1 (some (24 * 365)))
  let params : Except FieldError TopParams := do
    return { limit := ← limit, hours := ← hours }
  params.mapError fun _ => fieldErrors limit ++ fieldErrors hours

end SentinelSsh.Backend

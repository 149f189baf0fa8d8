import SentinelSsh.Backend.App
import SentinelSsh.Backend.Listings
import SentinelSsh.Backend.Schemas
import SentinelSsh.Backend.Stats
import SentinelSsh.Backend.System
import SentinelSsh.Lib.IntLiteral
import SentinelSsh.Lib.Loaded

/-!
# Requests and responses

The view functions of `backend/app/api` and `login` with what they read of a request, and the handlers
of `api/errors.py`, which turn what a view raises into a response. A request names its view; which path
leads to which view is said in `Backend.App`.
-/

namespace SentinelSsh.Backend.Api

open SentinelSsh.Core Python

/-! ## Failures -/

/-- An exception without a handler of its own. -/
inductive Unexpected where
  | valueError
  | typeError
  | attributeError
  | unicodeEncodeError
  | recursionError
  /-- Raised by the database driver. -/
  | driverError
  /-- Raised by `check_password_hash`. -/
  | passwordError
  deriving DecidableEq, Repr

/-- What is raised while a request is served. -/
inductive Failure where
  | apiError (e : ApiError)
  | validationError (errors : List FieldError)
  /-- The path matches no rule. -/
  | notFound
  /-- Raised by a converter, before the views and the guard. -/
  | routing (e : Unexpected)
  | unexpected (e : Unexpected)
  deriving DecidableEq, Repr

/-- The `data` of a successful response, with the `meta` object of a page. -/
inductive Data where
  | attacks (page : Page AttackOut)
  | attack (attack : AttackOut)
  | recent (attacks : List AttackOut)
  | found (page : Page AttackOut) (query : String) (field : Option String)
  | alerts (alerts : List Alert)
  | commands (commands : List RecentCommand)
  | hours (buckets : List HourBucket)
  | counts (counts : List ValueCount)
  | techniques (techniques : List TopTechnique)
  | incidents (page : Page IncidentOut)
  | incident (incident : IncidentDetailOut)
  | user (id : Nat) (username : String)
  deriving DecidableEq, Repr

/-- The envelope of `utils/responses.py`. -/
inductive Envelope where
  | success (data : Data)
  | error (message code : String)
  deriving DecidableEq, Repr

structure Response where
  status : Nat
  envelope : Envelope
  deriving DecidableEq, Repr

/-- `error` -/
def error (message : String) (status : Nat) (code : String) : Response where
  status := status
  envelope := .error message code

/-- `register_error_handlers` -/
def handleError : Failure → Response
  | .apiError e => error e.message e.statusCode e.code
  | .validationError errors =>
    let details := "; ".intercalate (errors.map fun e => e.loc ++ ": " ++ e.msg)
    error ("validation error: " ++ details) 422 "validation_error"
  | .notFound => error ("The requested URL was not found on the server. If you entered the URL manually " ++
      "please check your spelling and try again.") 404 "not_found"
  | .routing _ => error ("The server encountered an internal error and was unable to complete your " ++
      "request. Either the server is overloaded or there is an error in the application.")
      500 "internal_server_error"
  | .unexpected _ => error "internal server error" 500 "internal_error"

/-! ## The deployment -/

/-- What a database driver takes as parameters of a statement. -/
structure Driver where
  takesText : String → Bool
  takesDatetime : Datetime → Bool
  /-- A text as the pattern of an `ILIKE` over the attacks of a database. -/
  takesPattern : Db → String → Bool

/-- SQLite takes every text and every datetime. A pattern of more than 50000 bytes is too complex for it,
which it finds out with the first row. -/
def Driver.sqlite : Driver where
  takesText _ := true
  takesDatetime _ := true
  takesPattern db s := db.attacks.isEmpty || s.utf8ByteSize ≤ 50000

/-- PostgreSQL has no text with U+0000, and reads no offset of 16 hours or more. -/
def Driver.psycopg2 : Driver where
  takesText s := !s.toList.contains (Char.ofNat 0)
  takesDatetime t := t.utcoffset.all fun offset => offset.natAbs < 57600000000
  takesPattern _ s := !s.toList.contains (Char.ofNat 0)

/-- The driver takes the value as a parameter: an integer has to fit into 64 bits with a sign. -/
def Driver.takes (driver : Driver) : SqlValue → Bool
  | .int i => -9223372036854775808 ≤ i && i ≤ 9223372036854775807
  | .text (.str s) => driver.takesText s
  | .datetime t => driver.takesDatetime t
  | _ => true

/-- A statement is executed with these parameters. -/
def Driver.execute (driver : Driver) (params : List SqlValue) : Except Failure Unit :=
  if params.all driver.takes then .ok () else .error (.unexpected .driverError)

/-- A search for these patterns is executed. -/
def Driver.executeLike (driver : Driver) (db : Db) (patterns : List String) : Except Failure Unit :=
  if patterns.all (driver.takesPattern db) then .ok () else .error (.unexpected .driverError)

/-- What Werkzeug's converter makes of more digits than `int` reads: since 3.1 the rule does not match,
before the `ValueError` escapes from it. -/
inductive LongKey where
  | noMatch
  | raises
  deriving DecidableEq, Repr

/-- The outcome of the converter. -/
def LongKey.failure : LongKey → Failure
  | .noMatch => .notFound
  | .raises => .routing .valueError

/-- What a backend is made of, the database aside. -/
structure Deployment where
  config : AppConfig
  users : List User
  unicode : UnicodeDb
  decimals : Decimals
  pydantic : Pydantic
  dialect : Dialect
  sql : Sql
  driver : Driver
  longKey : LongKey
  /-- The stored hash, then the password; it may raise. -/
  checkPasswordHash : String → Json.Loaded → Option Bool
  /-- How deep `json.loads` reads. -/
  recursionLimit : Nat

/-- The database and the clock while a request is served, with the orders the database chooses for the
rows of its statements. -/
structure Store where
  db : Db
  now : Int
  attacks : List Attack → List Attack
  incidents : List Incident → List Incident
  commands : List (Command × String) → List (Command × String)
  texts : List (String × Nat) → List (String × Nat)
  passwords : List (Text × Nat) → List (Text × Nat)

variable (d : Deployment) (s : Store)

/-! ## Parameters -/

/-- `int(request.args.get(name, default))` -/
def intArg (u : Decimals) (args : Args) (name : String) (default : Int) : Except Failure Int :=
  match args.lookup name with
  | none => .ok default
  | some v =>
    match u.int v with
    | none => .error (.unexpected .valueError)
    | some i => .ok i

/-- `min(max(i, lo), hi)` -/
def clamp (lo hi i : Int) : Int :=
  min (max i lo) hi

/-- The value of `<int:...>` in a path: a part of the path that is not made of digits matches no rule. -/
def toPython (part : String) : Except Failure Nat :=
  if part = "" ∨ ¬ part.toList.all fun c => (d.decimals.value c).isSome then .error .notFound
  else
    match d.decimals.int part with
    | none => .error d.longKey.failure
    | some i => .ok i.toNat

/-- A filter that is given and not empty. -/
def filterTexts (v : Option String) : List String :=
  v.toList.filter (· ≠ "")

/-- `(page - 1) * per_page` and `per_page` -/
def pageParams (page perPage : Nat) : List SqlValue :=
  [.int ((page - 1) * perPage : Nat), .int perPage]

/-- The parameters of a statement that are texts. -/
def textParams (texts : List String) : List SqlValue :=
  texts.map fun text => .text (.str text)

/-- The texts `AttackRepository._apply_filters` compares columns with. -/
def attackTexts (q : AttackQuery) : List String :=
  filterTexts q.sourceIp ++ filterTexts q.country ++ filterTexts q.username ++
    q.riskLevel.toList.map (·.text)

/-- The ends of the range of dates. -/
def attackDates (q : AttackQuery) : List Datetime :=
  q.dateFrom.toList ++ q.dateTo.toList

/-- The parameters of the statements of `AttackRepository.paginate`. -/
def attackParams (q : AttackQuery) : List SqlValue :=
  textParams (attackTexts q) ++ q.minRisk.toList.map .int ++ q.maxRisk.toList.map .int ++
    q.isMalicious.toList.map .bool ++ q.incidentId.toList.map .int ++ (attackDates q).map .datetime ++
    pageParams q.page q.perPage

/-- The texts `IncidentRepository._apply_filters` compares columns with. -/
def incidentTexts (q : IncidentQuery) : List String :=
  q.status.toList.map (·.text) ++ filterTexts q.sourceIp

/-- The parameters of the statements of `IncidentRepository.paginate`. -/
def incidentParams (q : IncidentQuery) : List SqlValue :=
  textParams (incidentTexts q) ++ q.minRisk.toList.map .int ++ pageParams q.page q.perPage

/-- The pattern of a search; nothing is searched for a blank term. -/
def searchTexts (term : String) : List String :=
  let stripped := String.ofList (strip term.toList)
  if stripped = "" then [] else ["%" ++ stripped ++ "%"]

/-- The page of `AttackRepository.search`. -/
def searchParams (page perPage : Int) : List SqlValue :=
  pageParams (clamp 1 1000000 page).toNat (clamp 1 100 perPage).toNat

/-! ## Views -/

/-- `list_attacks` -/
def listAttacks (args : Args) : Except Failure Data := do
  let q ← (AttackQuery.validate d.pydantic d.unicode args).mapError .validationError
  d.driver.execute (attackParams q)
  let page ← (Backend.listAttacks d.dialect d.sql s.attacks q s.db).mapError .apiError
  return .attacks page

/-- `get_attack` -/
def getAttack (attackId : Nat) : Except Failure Data := do
  d.driver.execute [.int attackId]
  let attack ← (AttackService.get d.dialect s.db attackId).mapError .apiError
  return .attack attack

/-- `recent` -/
def recent (args : Args) : Except Failure Data := do
  let limit := clamp 1 100 (← intArg d.decimals args "limit" 10)
  d.driver.execute [.int limit]
  let attacks ← (AttackService.recent d.dialect s.attacks limit.toNat s.db).mapError .apiError
  return .recent attacks

/-- `high_risk` -/
def highRisk (args : Args) : Except Failure Data := do
  let minScore := clamp 0 100 (← intArg d.decimals args "min_score" 71)
  let limit := clamp 1 100 (← intArg d.decimals args "limit" 25)
  d.driver.execute [.int minScore, .int limit]
  let attacks ← (AttackService.highRisk d.dialect s.attacks minScore limit.toNat s.db).mapError .apiError
  return .recent attacks

/-- `parse_args(TopParams)` -/
def topArgs (args : Args) : Except Failure TopParams :=
  (TopParams.validate d.pydantic args).mapError .validationError

/-- The counts of a text column. -/
def topTexts (column : Attack → Option String) (args : Args) : Except Failure Data := do
  let p ← topArgs d args
  d.driver.execute [.int p.limit]
  let rows := topColumn s.texts d.dialect s.now column p.limit.val.toNat (p.hours.map (·.val)) s.db
  return .counts (rows.map fun (v, c) => ⟨v, c⟩)

/-- `top_usernames` -/
def topUsernames (args : Args) : Except Failure Data :=
  topTexts d s (·.username) args

/-- `top_countries` -/
def topCountries (args : Args) : Except Failure Data :=
  topTexts d s (·.country) args

/-- The passwords `top_passwords` lists. -/
def listedPasswords (p : TopParams) : List (Text × Nat) :=
  topColumn s.passwords d.dialect s.now (·.password) p.limit.val.toNat (p.hours.map (·.val)) s.db

/-- An entry as JSON: bytes are not serializable. -/
def jsonCount : Text × Nat → Except Failure ValueCount
  | (.str v, c) => .ok ⟨v, c⟩
  | (.bytes _, _) => .error (.unexpected .typeError)

/-- `top_passwords` -/
def topPasswords (args : Args) : Except Failure Data := do
  let p ← topArgs d args
  d.driver.execute [.int p.limit]
  let counts ← (listedPasswords d s p).mapM jsonCount
  return .counts counts

/-- `recent_commands` -/
def recentCommands (args : Args) : Except Failure Data := do
  let limit := clamp 1 200 (← intArg d.decimals args "limit" 20)
  d.driver.execute [.int limit]
  return .commands (Backend.recentCommands d.unicode (recentCommandRows s.commands limit.toNat s.db))

/-- `list_incidents` -/
def listIncidents (args : Args) : Except Failure Data := do
  let q ← (IncidentQuery.validate d.pydantic d.unicode args).mapError .validationError
  d.driver.execute (incidentParams q)
  return .incidents (Backend.listIncidents s.incidents q s.db)

/-- `get_incident` -/
def getIncident (incidentId : Nat) : Except Failure Data := do
  d.driver.execute [.int incidentId]
  let incident ← (IncidentService.get d.dialect s.attacks s.db incidentId).mapError .apiError
  return .incident incident

/-- `search` -/
def search (args : Args) : Except Failure Data := do
  let term := (args.lookup "q").getD ""
  let field := args.lookup "field"
  let page ← intArg d.decimals args "page" 1
  let perPage ← intArg d.decimals args "per_page" 25
  d.driver.executeLike s.db (searchTexts term)
  d.driver.execute (searchParams page perPage)
  let found ← (Backend.search d.dialect d.sql s.attacks term field page perPage s.db).mapError .apiError
  return .found found term (field.filter fun f => f = "" || (SearchField.ofString f).isSome)

/-- `attacks_per_hour` -/
def attacksPerHour (args : Args) : Except Failure Data := do
  let hours := clamp 1 168 (← intArg d.decimals args "hours" 24)
  return .hours (Backend.attacksPerHour d.dialect s.now hours s.db)

/-- `mitre` -/
def mitre (args : Args) : Except Failure Data := do
  let p ← topArgs d args
  return .techniques (topMitre d.dialect s.now p.limit.val.toNat (p.hours.map (·.val)) s.db)

/-- `behaviors` -/
def behaviors (args : Args) : Except Failure Data := do
  let p ← topArgs d args
  return .counts (topBehaviors d.dialect s.now p.limit.val.toNat (p.hours.map (·.val)) s.db)

/-- `alerts` -/
def alerts (args : Args) : Except Failure Data := do
  let limit := clamp 1 100 (← intArg d.decimals args "limit" 10)
  let minScore := clamp 0 100 (← intArg d.decimals args "min_score" 71)
  d.driver.execute [.int minScore, .int limit]
  return .alerts (Backend.alerts d.dialect s.attacks limit.toNat minScore s.db)

/-! ## Login -/

/-- The body of a request: a JSON value, or something else, which the reader leaves at its first error. A
body that is not announced as JSON is not read at all. -/
inductive Body where
  | json (v : Json.Loaded)
  /-- How deep the arrays and objects before the error are nested. -/
  | malformed (depth : Nat)

/-- How deep the reader gets into a body. -/
def Body.depth : Body → Nat
  | .json v => v.depth
  | .malformed depth => depth

/-- The value of a body. -/
def Body.value : Body → Json.Loaded
  | .json v => v
  | .malformed _ => .null

/-- `request.get_json(silent=True)`: a `ValueError` of the reader is caught, the error for too deep a
nesting is not. -/
def getJson (body : Body) : Except Failure Json.Loaded :=
  if d.recursionLimit < body.depth then .error (.unexpected .recursionError) else .ok body.value

/-- `v.get(key)` -/
def get (key : String) : Json.Loaded → Except Failure Json.Loaded
  | .dict items => .ok (Json.Loaded.lookup items key)
  | _ => .error (.unexpected .attributeError)

/-- `v.strip()` -/
def stripValue : Json.Loaded → Except Failure (List CodePoint)
  | .str text => .ok (stripPoints text)
  | _ => .error (.unexpected .attributeError)

/-- The user of a name, if he is active and the password is his. -/
def checkUser (name : String) (password : Json.Loaded) : Except Failure (Option User) :=
  match d.users.find? (·.username = name) with
  | none => .ok none
  | some user =>
    if ¬ user.isActive then .ok none
    else
      match d.checkPasswordHash user.passwordHash password with
      | none => .error (.unexpected .passwordError)
      | some true => .ok (some user)
      | some false => .ok none

/-- `authenticate`: the name is a parameter of a statement. -/
def authenticate (username : List CodePoint) (password : Json.Loaded) : Except Failure (Option User) :=
  match encode username with
  | none => .error (.unexpected .unicodeEncodeError)
  | some name => do
    d.driver.execute [.text (.str name)]
    checkUser d name password

/-- `login` after it has read the body; the errors it returns are like an `ApiError`. -/
def logIn (username : List CodePoint) (password : Json.Loaded) : Except Failure Data :=
  if username = [] ∨ password.truthy = false then
    .error (.apiError
      { message := "username and password are required", statusCode := 422, code := "validation_error" })
  else do
    match ← authenticate d username password with
    | none => .error (.apiError { message := "invalid credentials", statusCode := 401, code := "unauthorized" })
    | some user => return .user user.id user.username

/-- `login` -/
def login (body : Body) : Except Failure Data := do
  let body := (← getJson d body).orElse (.dict [])
  let username ← stripValue ((← get "username" body).orElse (.str []))
  let password := (← get "password" body).orElse (.str [])
  logIn d username password

/-! ## Requests -/

/-- A request to a view with the parameters it reads: query parameters, the last part of the path, or
the body. -/
inductive Request where
  | listAttacks (args : Args)
  | getAttack (part : String)
  | recent (args : Args)
  | highRisk (args : Args)
  | topUsernames (args : Args)
  | topPasswords (args : Args)
  | topCountries (args : Args)
  | recentCommands (args : Args)
  | listIncidents (args : Args)
  | getIncident (part : String)
  | search (args : Args)
  | attacksPerHour (args : Args)
  | mitre (args : Args)
  | behaviors (args : Args)
  | alerts (args : Args)
  | login (body : Body)

/-- The path of a request. -/
def Request.path : Request → String
  | .listAttacks _ => "/api/attacks"
  | .getAttack part => "/api/attacks/" ++ part
  | .recent _ => "/api/recent"
  | .highRisk _ => "/api/high-risk"
  | .topUsernames _ => "/api/top-usernames"
  | .topPasswords _ => "/api/top-passwords"
  | .topCountries _ => "/api/top-countries"
  | .recentCommands _ => "/api/commands"
  | .listIncidents _ => "/api/incidents"
  | .getIncident part => "/api/incidents/" ++ part
  | .search _ => "/api/search"
  | .attacksPerHour _ => "/api/attacks-per-hour"
  | .mitre _ => "/api/mitre"
  | .behaviors _ => "/api/behaviors"
  | .alerts _ => "/api/alerts"
  | .login _ => "/api/auth/login"

/-- What the view of a request returns or raises. -/
def view : Request → Except Failure Data
  | .listAttacks args => listAttacks d s args
  | .getAttack part => do getAttack d s (← toPython d part)
  | .recent args => recent d s args
  | .highRisk args => highRisk d s args
  | .topUsernames args => topUsernames d s args
  | .topPasswords args => topPasswords d s args
  | .topCountries args => topCountries d s args
  | .recentCommands args => recentCommands d s args
  | .listIncidents args => listIncidents d s args
  | .getIncident part => do getIncident d s (← toPython d part)
  | .search args => search d s args
  | .attacksPerHour args => attacksPerHour d s args
  | .mitre args => mitre d s args
  | .behaviors args => behaviors d s args
  | .alerts args => alerts d s args
  | .login body => login d body

/-- The path is matched before the guard is asked. -/
def routed : Request → Except Failure Unit
  | .getAttack part => (toPython d part).map fun _ => ()
  | .getIncident part => (toPython d part).map fun _ => ()
  | _ => .ok ()

/-- The response to a request. -/
def respond (cookies : Cookies) (r : Request) : Response :=
  match routed d r with
  | .error (.routing e) => handleError (.routing e)
  | _ =>
    if requireAuth d.config d.users cookies r.path then error "authentication required" 401 "unauthorized"
    else
      match view d s r with
      | .error failure => handleError failure
      | .ok data => { status := 200, envelope := .success data }

/-! ## Documented responses -/

end SentinelSsh.Backend.Api

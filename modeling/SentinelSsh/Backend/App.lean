import Mathlib.Data.List.Basic

/-!
# The application of `backend/app`

Accounts and sessions (`auth/security.py`, `auth/routes.py`), the routes of the blueprints and the
guard `_register_auth_guard` puts before every request. What a handler computes is left open: an
endpoint either carries attack, stats or incident data or it does not.
-/

namespace SentinelSsh.Backend

/-! ## Accounts -/

/-- The settings the guard and the internal endpoint read. -/
structure AppConfig where
  authRequired : Bool := true
  internalApiToken : Option String := none
  deriving DecidableEq, Repr

structure User where
  id : Nat
  username : String
  passwordHash : String
  isActive : Bool := true
  deriving DecidableEq, Repr

/-- `authenticate`, given `check_password_hash`. -/
def authenticate (checkPasswordHash : String → String → Bool) (users : List User)
    (username password : String) : Option User :=
  (users.find? (·.username = username)).bind fun user =>
    if ¬ user.isActive then none
    else if ¬ checkPasswordHash user.passwordHash password then none
    else some user

def loadUser (users : List User) (userId : Nat) : Option User :=
  (users.find? (·.id = userId)).bind fun user => if ¬ user.isActive then none else some user

/-- The cookies of a client, by the user id they hold. `login_user(remember=True)` sets both. -/
structure Cookies where
  session : Option Nat := none
  remember : Option Nat := none
  deriving DecidableEq, Repr

def currentUser (users : List User) (cookies : Cookies) : Option User :=
  (cookies.session <|> cookies.remember).bind (loadUser users)

/-- `current_user.is_authenticated` -/
def isAuthenticated (users : List User) (cookies : Cookies) : Bool :=
  (currentUser users cookies).isSome

/-! ## Routes -/

inductive Method where
  | get
  | post
  deriving DecidableEq, Repr

/-- The view functions. -/
inductive Endpoint where
  | stats
  | riskDistribution
  | attacksPerHour
  | mitre
  | behaviors
  | listAttacks
  | getAttack
  | recent
  | highRisk
  | topUsernames
  | topPasswords
  | topCountries
  | recentCommands
  | listIncidents
  | getIncident
  | search
  | ingestEvent
  | systemHealth
  | alerts
  | executive
  | threats
  | incidents
  | login
  | logout
  | me
  | health
  | index
  | loginPage
  | assets
  deriving DecidableEq, Repr

/-- The answer of an endpoint carries attack, stats or incident data. -/
def Endpoint.carriesData : Endpoint → Bool
  | .ingestEvent | .login | .logout | .me | .health | .index | .loginPage | .assets => false
  | _ => true

/-- A part of a URL rule. -/
inductive Segment where
  | lit (s : String)
  /-- `<int:...>` -/
  | int
  /-- `<path:...>`, the rest of the path. -/
  | path
  deriving DecidableEq, Repr

structure Route where
  method : Method
  rule : List Segment
  endpoint : Endpoint
  deriving DecidableEq, Repr

/-- A rule under `API_PREFIX`. -/
def api (method : Method) (rule : List Segment) (endpoint : Endpoint) : Route :=
  { method := method, rule := .lit "" :: .lit "api" :: rule, endpoint := endpoint }

/-- The rules `register_blueprints` and the frontend blueprint register. -/
def routes : List Route :=
  [api .get [.lit "stats"] .stats,
    api .get [.lit "risk-distribution"] .riskDistribution,
    api .get [.lit "attacks-per-hour"] .attacksPerHour,
    api .get [.lit "mitre"] .mitre,
    api .get [.lit "behaviors"] .behaviors,
    api .get [.lit "attacks"] .listAttacks,
    api .get [.lit "attacks", .int] .getAttack,
    api .get [.lit "recent"] .recent,
    api .get [.lit "high-risk"] .highRisk,
    api .get [.lit "top-usernames"] .topUsernames,
    api .get [.lit "top-passwords"] .topPasswords,
    api .get [.lit "top-countries"] .topCountries,
    api .get [.lit "commands"] .recentCommands,
    api .get [.lit "incidents"] .listIncidents,
    api .get [.lit "incidents", .int] .getIncident,
    api .get [.lit "search"] .search,
    api .post [.lit "internal", .lit "events"] .ingestEvent,
    api .get [.lit "system-health"] .systemHealth,
    api .get [.lit "alerts"] .alerts,
    api .get [.lit "reports", .lit "executive"] .executive,
    api .get [.lit "reports", .lit "threats"] .threats,
    api .get [.lit "reports", .lit "incidents"] .incidents,
    api .post [.lit "auth", .lit "login"] .login,
    api .post [.lit "auth", .lit "logout"] .logout,
    api .get [.lit "auth", .lit "me"] .me,
    { method := .get, rule := [.lit "", .lit "health"], endpoint := .health },
    { method := .get, rule := [.lit "", .lit ""], endpoint := .index },
    { method := .get, rule := [.lit "", .lit "login"], endpoint := .loginPage },
    { method := .get, rule := [.lit "", .lit "assets", .path], endpoint := .assets }]

/-- A rule matches the parts of a path between its slashes. -/
def matchRule : List Segment → List (List Char) → Bool
  | [], [] => true
  | [.path], _ :: _ => true
  | .lit s :: rule, part :: parts => s.toList = part && matchRule rule parts
  | .int :: rule, part :: parts => part ≠ [] && part.all Char.isDigit && matchRule rule parts
  | _, _ => false

/-- The endpoint of a request. A request without one is answered with an error, or with a redirect
when its path has doubled slashes; neither carries data. -/
def dispatch (method : Method) (path : String) : Option Endpoint :=
  (routes.find? fun r =>
    r.method = method && matchRule r.rule (path.toList.splitOn '/')).map Route.endpoint

/-! ## The guard -/

/-- `_AUTH_EXEMPT_PREFIXES` -/
def authExempt : List String :=
  ["/api/auth", "/api/internal"]

/-- `_require_auth`: the request is answered with 401. -/
def requireAuth (config : AppConfig) (users : List User) (cookies : Cookies) (path : String) : Bool :=
  if ¬ config.authRequired then false
  else if ¬ "/api/".toList <+: path.toList then false
  else if ∃ p ∈ authExempt, p.toList <+: path.toList then false
  else ¬ isAuthenticated users cookies

example : dispatch .get "/api/attacks/12" = some .getAttack ∧ dispatch .get "/api/attacks/x" = none := by
  decide

end SentinelSsh.Backend

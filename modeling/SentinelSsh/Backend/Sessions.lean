import SentinelSsh.Backend.Delivery

/-!
# Who is logged in

What the cookies of the clients are for: a client is logged in to the account of its last login, if it has
not logged out since.
-/

namespace SentinelSsh.Backend

/-! ## Logins -/

/-- The request reaches this handler. -/
def Server.reaches (env : Env) (s : Server) (c : Client) (r : Request) (e : Endpoint) : Bool :=
  !requireAuth env.config s.users (s.cookies c) r.path && dispatch r.method r.path = some e

/-- The account a step logs the client in to. -/
def Server.loginOf (env : Env) (s : Server) (c : Client) : Action → Option User
  | .request d r =>
    let username := String.ofList (Python.strip r.username.toList)
    if d = c ∧ s.reaches env d r .login ∧ username ≠ "" ∧ r.password ≠ "" then
      authenticate env.checkPasswordHash s.users username r.password
    else none
  | _ => none

/-- The step logs the client out. -/
def Server.logsOut (env : Env) (s : Server) (c : Client) : Action → Bool
  | .request d r => d = c && s.reaches env d r .logout && s.isAuthenticated d
  | _ => false

/-! ## Sessions -/

/-- The account a client is logged in to after a step. -/
def sessionAfter (env : Env) (c : Client) (session : Option User) (t : Runs.Transition Server Action) :
    Option User :=
  match t.before.loginOf env c t.action with
  | some user => some user
  | none => if t.before.logsOut env c t.action then none else session

/-- The account of the last login of a client that has not logged out since. -/
def session (env : Env) (c : Client) (h : History) : Option User :=
  h.foldl (sessionAfter env c) none

/-- What does not change of an account. -/
def User.identity (user : User) : Nat × String × String :=
  (user.id, user.username, user.passwordHash)

/-- The cookies hold the account, or none. -/
def Cookies.Hold (cookies : Cookies) : Option User → Prop
  | none => cookies = {}
  | some user => cookies.remember = some user.id ∧ (cookies.session = some user.id ∨ cookies.session = none)

/-- What the accounts and the cookies of a reachable state have to do with the logins before. -/
structure LoggedIn (env : Env) (users : List User) (s : Server) (h : History) : Prop where
  accounts : s.users.map User.identity = users.map User.identity
  cookies : ∀ c, (s.cookies c).Hold (session env c h)
  /-- Only active accounts log in. -/
  active : ∀ c user, session env c h = some user →
    user.isActive = true ∧ user.identity ∈ users.map User.identity

end SentinelSsh.Backend

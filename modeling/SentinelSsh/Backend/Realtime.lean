import Mathlib.Logic.Function.Basic
import SentinelSsh.Backend.App
import SentinelSsh.Lib.Python
import SentinelSsh.Lib.Runs

/-!
# The backend as clients see it

One step is a request that is handled, a Socket.IO client that connects or goes, or one step of a
thread that broadcasts an internal event (`api/realtime.py`, `realtime/events.py`). A request carries
its cookies, so the guard and the answer see the same session. The broadcast of an event takes three
steps, between which anything else can happen.
-/

namespace SentinelSsh.Backend

/-! ## The state -/

/-- A browser or a program with its cookie jar. -/
abbrev Client := Nat

/-- What `ingest_event` reads of a posted snapshot. -/
structure Snapshot where
  incidentId : Option Int
  deriving DecidableEq, Repr

/-- What is sent to a client: an answer, or a Socket.IO event. -/
inductive Message where
  | success (endpoint : Endpoint)
  | error (status : Nat) (code : String)
  | redirect (path : String)
  | connected
  | newAttack (snapshot : Snapshot)
  | statsUpdate
  | incidentUpdate (incidentId : Int)
  deriving DecidableEq, Repr

/-- The message carries attack, stats or incident data. -/
def Message.carriesData : Message → Bool
  | .success e => e.carriesData
  | .newAttack _ | .statsUpdate | .incidentUpdate _ => true
  | _ => false

/-- What a thread in `ingest_event` does next. -/
inductive BroadcastPc where
  | attack
  | stats
  | incident
  deriving DecidableEq, Repr

/-- An internal event that is being broadcast, and who posted it. -/
structure Broadcast where
  poster : Client
  snapshot : Snapshot
  pc : BroadcastPc := .attack
  deriving DecidableEq, Repr

/-- The backend: the accounts, the cookies each client holds, the Socket.IO connections, the events
being broadcast, and what the last step sent. -/
structure Server where
  users : List User
  cookies : Client → Cookies := fun _ => {}
  connected : List Client := []
  broadcasts : List Broadcast := []
  outbox : List (Client × Message) := []

/-- What the backend runs with: its settings and `check_password_hash`. -/
structure Env where
  config : AppConfig
  checkPasswordHash : String → String → Bool

/-- A request: what the handlers read of it, and the error its service ends with, if any. -/
structure Request where
  method : Method
  path : String
  username : String := ""
  password : String := ""
  token : Option String := none
  snapshot : Option Snapshot := none
  failure : Option (Nat × String) := none
  deriving DecidableEq, Repr

inductive Action where
  | request (c : Client) (r : Request)
  | connect (c : Client)
  | disconnect (c : Client)
  /-- The `i`-th thread goes on; `ok` says whether its service finds what it asks for. -/
  | advance (i : Nat) (ok : Bool)
  /-- The session cookie of a client is gone, the remember cookie stays. -/
  | closeBrowser (c : Client)
  /-- An operator sets `is_active`. -/
  | setActive (userId : Nat) (active : Bool)
  deriving DecidableEq, Repr

/-- The client is logged in to an active account. -/
def Server.isAuthenticated (s : Server) (c : Client) : Bool :=
  Backend.isAuthenticated s.users (s.cookies c)

/-! ## Requests -/

def Server.respond (s : Server) (c : Client) (m : Message) : Server :=
  { s with outbox := [(c, m)] }

def Server.setCookies (s : Server) (c : Client) (cookies : Cookies) : Server :=
  { s with cookies := Function.update s.cookies c cookies }

def Server.login (env : Env) (s : Server) (c : Client) (r : Request) : Server :=
  let username := String.ofList (Python.strip r.username.toList)
  if username = "" ∨ r.password = "" then s.respond c (.error 422 "validation_error")
  else
    match authenticate env.checkPasswordHash s.users username r.password with
    | none => s.respond c (.error 401 "unauthorized")
    | some user =>
      (s.setCookies c { session := some user.id, remember := some user.id }).respond c
        (.success .login)

/-- `logout`, behind `login_required`. -/
def Server.logout (s : Server) (c : Client) : Server :=
  if s.isAuthenticated c then (s.setCookies c {}).respond c (.success .logout)
  else s.respond c (.error 401 "unauthorized")

def Server.me (s : Server) (c : Client) : Server :=
  s.respond c (if s.isAuthenticated c then .success .me else .error 401 "unauthorized")

def authorized (config : AppConfig) (token : Option String) : Bool :=
  match config.internalApiToken with
  | none => true
  | some configured => configured = "" || token = some configured

/-- `ingest_event` up to the first emit. -/
def Server.ingestEvent (env : Env) (s : Server) (c : Client) (r : Request) : Server :=
  if ¬ authorized env.config r.token then s.respond c (.error 403 "forbidden")
  else
    match r.snapshot with
    | none => s.respond c (.error 422 "validation_error")
    | some snapshot =>
      { s with
        broadcasts := s.broadcasts ++ [{ poster := c, snapshot := snapshot }]
        outbox := [] }

def Server.index (env : Env) (s : Server) (c : Client) : Server :=
  s.respond c (if env.config.authRequired && !s.isAuthenticated c then .redirect "/login"
    else .success .index)

/-- A view that answers with what its service returns. -/
def Server.view (s : Server) (c : Client) (r : Request) (e : Endpoint) : Server :=
  s.respond c (match r.failure with
    | some (status, code) => .error status code
    | none => .success e)

/-- A request is handled. -/
def Server.handle (env : Env) (s : Server) (c : Client) (r : Request) : Server :=
  if requireAuth env.config s.users (s.cookies c) r.path then
    s.respond c (.error 401 "unauthorized")
  else
    match dispatch r.method r.path with
    | none => s.respond c (.error 404 "not_found")
    | some .login => s.login env c r
    | some .logout => s.logout c
    | some .me => s.me c
    | some .ingestEvent => s.ingestEvent env c r
    | some .index => s.index env c
    | some e => s.view c r e

/-! ## Broadcasts -/

/-- What a thread emits in its next step. -/
def Broadcast.emission (b : Broadcast) (ok : Bool) : Option Message :=
  match b.pc with
  | .attack => some (.newAttack b.snapshot)
  | .stats => if ok then some .statsUpdate else none
  | .incident => (b.snapshot.incidentId.filter fun n => n ≠ 0 && ok).map .incidentUpdate

/-- Where a thread goes on; none after its last step. -/
def BroadcastPc.next : BroadcastPc → Option BroadcastPc
  | .attack => some .stats
  | .stats => some .incident
  | .incident => none

/-- `socketio.emit` without a room. -/
def Server.emit (s : Server) (m : Message) : List (Client × Message) :=
  s.connected.map fun c => (c, m)

/-- A thread takes a step; after the last one its request is answered. -/
def Server.advance (s : Server) (i : Nat) (b : Broadcast) (ok : Bool) : Server :=
  let emitted := (b.emission ok).elim [] s.emit
  match b.pc.next with
  | some pc => { s with broadcasts := s.broadcasts.set i { b with pc := pc }, outbox := emitted }
  | none =>
    { s with
      broadcasts := s.broadcasts.eraseIdx i
      outbox := emitted ++ [(b.poster, .success .ingestEvent)] }

/-- One step of the backend. -/
def serverStep (env : Env) (s : Server) : Action → Option Server
  | .request c r => some (s.handle env c r)
  | .connect c =>
    let s' := { s with connected := s.connected ++ [c] }
    some { s' with outbox := s'.emit .connected }
  | .disconnect c =>
    if c ∈ s.connected then some { s with connected := s.connected.erase c, outbox := [] } else none
  | .advance i ok => s.broadcasts[i]?.map fun b => s.advance i b ok
  | .closeBrowser c =>
    some { s.setCookies c { s.cookies c with session := none } with outbox := [] }
  | .setActive userId active =>
    some { s with
      users := s.users.map fun u => if u.id = userId then { u with isActive := active } else u
      outbox := [] }

/-! ## What is promised -/

/-- What the last step sent with data in it went to authenticated clients only. -/
def Server.Secure (s : Server) : Prop :=
  ∀ m ∈ s.outbox, m.2.carriesData = true → s.isAuthenticated m.1 = true

instance (s : Server) : Decidable s.Secure :=
  inferInstanceAs (Decidable (∀ m ∈ s.outbox, m.2.carriesData = true → s.isAuthenticated m.1 = true))

/-- What a step emits to all connected clients. -/
def Server.emission (s : Server) : Action → Option Message
  | .advance i ok => s.broadcasts[i]?.bind fun b => b.emission ok
  | _ => none

/-- When the step emits, all connected clients are authenticated. -/
def AudienceAuthenticated (s : Server) (a : Action) : Prop :=
  (s.emission a).isSome = true → ∀ c ∈ s.connected, s.isAuthenticated c = true

instance (s : Server) (a : Action) : Decidable (AudienceAuthenticated s a) :=
  inferInstanceAs (Decidable (_ → _))

end SentinelSsh.Backend

import SentinelSsh.Honeypot.Capture
import SentinelSsh.Lib.Utf8

/-!
# `honeypot/ssh_server.py` and `honeypot/config.py`

The server callbacks of one connection. They run in the transport thread and write to the record that
the session handler delivers.
-/

namespace SentinelSsh.Honeypot

open Python SentinelSsh.Core

/-- `HoneypotConfig`, as far as a session depends on it. -/
structure HoneypotConfig where
  fakeHostname : String := "srv01"
  maxAuthAttempts : Int := 6
  maxCommands : Int := 100
  logToStdout : Bool := true
  databaseUrl : String := ""
  deriving Repr

/-- `HoneypotServer`: the record and what the callbacks share with the session handler. -/
structure HoneypotServer where
  record : AttackRecord
  maxAuthAttempts : Int
  /-- Set when an interactive shell is requested. -/
  shellEvent : Bool := false
  /-- The commands of exec requests. -/
  execCommands : List String := []
  deriving DecidableEq, Repr

/-- The answer to an authentication attempt. -/
inductive AuthResult where
  | successful
  | failed
  deriving DecidableEq, Repr

namespace HoneypotServer

variable (server : HoneypotServer)

/-- `check_channel_request`: only session channels are opened. -/
def checkChannelRequest (kind : String) : Bool :=
  kind = "session"

def checkAuthPassword (username : String) (password : Text) : HoneypotServer × AuthResult :=
  let record := { server.record with
    authAttempts := server.record.authAttempts + 1
    username := some username
    password := some password }
  ({ server with record := record },
    if (record.authAttempts : Int) > server.maxAuthAttempts then .failed else .successful)

def checkAuthPublickey (username : String) : HoneypotServer × AuthResult :=
  let record := { server.record with
    authAttempts := server.record.authAttempts + 1
    username := some username }
  ({ server with record := record }, .failed)

def checkChannelShellRequest : HoneypotServer :=
  { server with shellEvent := true }

/-- The command of an exec request as text. -/
def execText : Text → String
  | .bytes b => String.ofList (Utf8.decode b)
  | .str s => s

/-- `check_channel_exec_request`, at the time `now`. -/
def checkChannelExecRequest (now : String) (command : Text) : HoneypotServer :=
  let cmd := execText command
  { server with
    execCommands := server.execCommands ++ [cmd]
    record := { server.record with commands := server.record.commands ++ [⟨now, cmd, .exec⟩] } }

end HoneypotServer

/-! ## Authentication -/

/-- An authentication callback with what the client submits. -/
inductive AuthCallback where
  | password (username : String) (password : Text)
  | publickey (username : String)
  deriving DecidableEq, Repr

/-- The submitted user name. -/
def AuthCallback.username : AuthCallback → String
  | .password username _ => username
  | .publickey username => username

/-- The submitted password. -/
def AuthCallback.password? : AuthCallback → Option Text
  | .password _ pass => some pass
  | .publickey _ => none

/-- The server after a callback, and its answer. -/
def HoneypotServer.checkAuth (server : HoneypotServer) : AuthCallback → HoneypotServer × AuthResult
  | .password username password => server.checkAuthPassword username password
  | .publickey username => server.checkAuthPublickey username

/-- The server after some callbacks. -/
def HoneypotServer.afterAuth (server : HoneypotServer) (callbacks : List AuthCallback) : HoneypotServer :=
  callbacks.foldl (fun server callback => (server.checkAuth callback).1) server

/-- The record counts the callbacks and holds what was submitted last. -/
structure AttackRecord.Submitted (record : AttackRecord) (callbacks : List AuthCallback) : Prop where
  authAttempts : record.authAttempts = callbacks.length
  username : record.username = callbacks.getLast?.map (·.username)
  password : record.password = (callbacks.filterMap (·.password?)).getLast?

/-- After these callbacks a server with the limit `maxAuthAttempts` has recorded them, accepts a password
exactly as long as the limit is not exceeded, and accepts no key. -/
structure HoneypotServer.Answers (server : HoneypotServer) (maxAuthAttempts : Int)
    (callbacks : List AuthCallback) : Prop where
  submitted : server.record.Submitted callbacks
  password : ∀ username password, (server.checkAuth (.password username password)).2 = .successful ↔
    (callbacks.length : Int) + 1 ≤ maxAuthAttempts
  publickey : ∀ username, (server.checkAuth (.publickey username)).2 = .failed

end SentinelSsh.Honeypot

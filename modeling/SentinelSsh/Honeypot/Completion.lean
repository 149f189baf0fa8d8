import SentinelSsh.Honeypot.SessionHandler

/-!
# How far a session is from its end

Which steps need the client, and how many statements the handler still has before it at most when the
client is gone. No timeout is set on the channel, so `recv` waits as long as the connection stands, and
what is sent waits for room in the window of the client. When the connection is gone, `recv` returns no
data, and a statement that sends may raise or not.
-/

namespace SentinelSsh.Honeypot

/-- The step needs a client that is there. -/
def Action.isClient : Action → Bool
  | .authPassword .. | .authPublickey _ | .openChannel _ | .shellRequest | .execRequest .. | .hangUp
  | .negotiated => true
  | .recv data => data ≠ []
  | _ => false

/-- A step of the handler that needs no client, no timeout of `recv` and no exception. -/
def Action.isOwn (a : Action) : Bool :=
  !a.isClient && a ≠ .fail && a ≠ .recvTimeout

/-- The next statement sends on the channel. -/
def Session.sends (config : HoneypotConfig) (s : Session) : Bool :=
  match s.pc with
  | .exec i => (s.server.execCommands[i]?).any fun cmd => execOutput cmd ≠ ""
  | .execExit | .welcome | .closing => true
  | .shellChars buffer (ch :: _) => (shellChar (prompt config.fakeHostname) buffer ch).sent ≠ []
  | _ => false

/-- The handler may wait for the client: for data, or for room to send. -/
def Session.waits (config : HoneypotConfig) (s : Session) : Bool :=
  match s.pc with
  | .shellRecv _ => true
  | _ => s.sends config

/-- A step of the handler without the client, when the statements of the `try` block raise in these
states. -/
def OwnStep (raises : Session → Bool) (s : Session) (a : Action) : Prop :=
  if s.pc.isTry && raises s then a = .fail else a.isOwn = true

/-- The statements before the handler, given the number of sinks and of exec requests. The way from the
head of the shell's loop to `recv` is counted as one down, the way back after a timeout as one up. -/
def Pc.rank (sinks execs : Nat) : Pc → Nat
  | .done => 0
  | .closeTransport => 1
  | .sink k => 2 + (sinks - k)
  | .finalise => sinks + 3
  | .closing => sinks + 4
  | .execExit => sinks + 5
  | .exec i => sinks + 6 + (execs - i)
  | .shellRecv _ => sinks + 6
  | .shellTop _ => sinks + 7
  | .shellChars _ pending => sinks + 8 + pending.length
  | .welcome => sinks + 8
  | .testShell => sinks + 9
  | .waitShell => sinks + 10
  | .check => sinks + execs + 11
  | .accept => sinks + execs + 12
  | .version => sinks + execs + 13
  | .negotiate => sinks + execs + 14

/-- The statements before the handler. -/
def Session.rank (sinks : List SinkName) (s : Session) : Nat :=
  s.pc.rank sinks.length s.server.execCommands.length

/-- Were there a timeout of `recv`, two more statements might follow. -/
def Action.cost (a : Action) : Nat :=
  if a = .recvTimeout then 2 else 0

/-- The handler is done: every sink was handed the record once, and no callback is served any more. -/
structure Session.Complete (sinks : List SinkName) (s : Session) : Prop where
  done : s.pc = .done
  delivered : s.delivered.map (·.1) = sinks
  silent : s.isServing = false

end SentinelSsh.Honeypot

import SentinelSsh.Honeypot.FakeShell
import SentinelSsh.Lib.Runs

/-!
# `honeypot/session_handler.py`: one session as a transition system

Two threads work on a session. The transport thread serves the requests of the client by calling
`HoneypotServer`, from `start_server` until `transport.close`; the handler thread goes through
`SessionHandler.handle`. An action is one step of either, with what the network and the clock
contribute; a run is any interleaving.
-/

namespace SentinelSsh.Honeypot

open Python

/-- The sinks of `_build_sink`. -/
inductive SinkName where
  | jsonl
  | stdout
  | pipeline
  deriving DecidableEq, Repr

/-- `_build_sink`; the pipeline sink is left out when it fails to initialise. -/
def buildSink (config : HoneypotConfig) (pipelineStarts : Bool) : List SinkName :=
  [.jsonl] ++ (if config.logToStdout then [.stdout] else []) ++
    if config.databaseUrl ≠ "" && pipelineStarts then [.pipeline] else []

/-- The sink of a name. -/
def SinkName.sink (p : Core.IngestPipeline) (engine : Core.Engine) (clock : Nat → Datetime) :
    SinkName → CaptureSink
  | .jsonl => jsonlSink
  | .stdout => stdoutSink
  | .pipeline => pipelineSink p engine clock

/-- Where the handler thread is in `handle`. -/
inductive Pc where
  /-- In `start_server`. -/
  | negotiate
  /-- About to read the announced SSH version. -/
  | version
  /-- In `transport.accept`. -/
  | accept
  /-- At `if server.exec_commands`. -/
  | check
  /-- At the head of the loop of `_handle_exec`, after `i` turns. -/
  | exec (i : Nat)
  /-- At `send_exit_status`. -/
  | execExit
  /-- In `shell_event.wait`. -/
  | waitShell
  /-- At `if server.shell_event.is_set()`. -/
  | testShell
  /-- At the start of `_fake_shell`. -/
  | welcome
  /-- At the head of the loop of `_fake_shell`. -/
  | shellTop (buffer : List Char)
  /-- In `channel.recv`. -/
  | shellRecv (buffer : List Char)
  /-- In the character loop, with the characters still to come. -/
  | shellChars (buffer pending : List Char)
  /-- At `channel.close`. -/
  | closing
  /-- At the start of the `finally` block. -/
  | finalise
  /-- At the `k`-th sink of `MultiSink.write`. -/
  | sink (k : Nat)
  /-- At `transport.close`. -/
  | closeTransport
  | done
  deriving DecidableEq, Repr

/-- Something the handler gives to the channel to send. -/
inductive Sent where
  /-- The answer to an exec request, which may be empty. -/
  | exec (cmd output : String)
  | exitStatus (status : Nat)
  /-- Output of the emulated shell. -/
  | shell (text : String)
  deriving DecidableEq, Repr

/-- The state of a session. -/
structure Session where
  server : HoneypotServer
  pc : Pc
  /-- The transport thread serves requests. -/
  isServing : Bool
  /-- The session channels that were opened. -/
  channels : Nat
  sent : List Sent
  /-- The record each sink was handed, as it was at that moment. -/
  delivered : List (SinkName × AttackRecord)
  deriving DecidableEq, Repr

/-- A session that has just been accepted. -/
def Session.start (config : HoneypotConfig) (sessionId timestamp sourceIp : String) (sourcePort : Nat) :
    Session where
  server :=
    { record :=
        { sessionId := sessionId, timestamp := timestamp, sourceIp := sourceIp, sourcePort := sourcePort }
      maxAuthAttempts := config.maxAuthAttempts }
  pc := .negotiate
  isServing := true
  channels := 0
  sent := []
  delivered := []

/-- A step of one of the two threads. -/
inductive Action where
  /-- The transport thread: a password attempt. -/
  | authPassword (username : String) (password : Text)
  | authPublickey (username : String)
  | openChannel (kind : String)
  | shellRequest
  | execRequest (now : String) (command : Text)
  /-- The client is gone. -/
  | hangUp
  /-- The handler thread: `start_server` returns, or raises. -/
  | negotiated
  | negotiationFailed
  | readVersion (remoteVersion : Option String)
  | acceptChannel
  | acceptTimeout
  /-- The next statement, at the time `now`. -/
  | tick (now : String)
  | shellTimeout
  /-- `recv` returns; no data is the end of the stream. -/
  | recv (data : List UInt8)
  | recvTimeout
  /-- The deadline of the shell has passed. -/
  | deadline
  /-- A statement of the `try` block raises, as `sendall` does when the channel is closed. A turn of the
  character loop that raises after it recorded a command is the whole turn and then this step. -/
  | fail
  /-- `record.duration` is set. -/
  | setDuration (duration : Nat)
  deriving DecidableEq, Repr

/-- The handler is still in the `try` block. -/
def Pc.isTry : Pc → Bool
  | .finalise => false
  | .sink _ => false
  | .closeTransport => false
  | .done => false
  | _ => true

/-- The record with one more command of the shell. -/
def HoneypotServer.recordShell (server : HoneypotServer) (now cmd : String) : HoneypotServer :=
  { server with
    record := { server.record with commands := server.record.commands ++ [⟨now, cmd, .shell⟩] } }

/-- One turn of the character loop. -/
def shellTick (config : HoneypotConfig) (s : Session) (now : String) (buffer : List Char) (ch : Char)
    (pending : List Char) : Session :=
  let turn := shellChar (prompt config.fakeHostname) buffer ch
  { s with
    server := turn.command.elim s.server (s.server.recordShell now)
    sent := s.sent ++ turn.sent.map .shell
    pc := if turn.stop then .closing else .shellChars turn.buffer pending }

/-- The next statement of the handler where the outcome depends on the state only. -/
def tick (config : HoneypotConfig) (sinks : List SinkName) (now : String) (s : Session) : Option Session :=
  match s.pc with
  | .check => some { s with pc := if s.server.execCommands ≠ [] then .exec 0 else .waitShell }
  | .exec i =>
    match s.server.execCommands[i]? with
    | some cmd => some { s with pc := .exec (i + 1), sent := s.sent ++ [.exec cmd (execOutput cmd)] }
    | none => some { s with pc := .execExit }
  | .execExit => some { s with pc := .closing, sent := s.sent ++ [.exitStatus 0] }
  | .waitShell => if s.server.shellEvent then some { s with pc := .testShell } else none
  | .testShell => some { s with pc := if s.server.shellEvent then .welcome else .closing }
  | .welcome =>
    some { s with
      pc := .shellTop []
      sent := s.sent ++
        [.shell ("Welcome to Ubuntu 22.04.4 LTS (GNU/Linux 5.15.0-105-generic x86_64)\r\n\r\n"),
          .shell (prompt config.fakeHostname)] }
  | .shellTop buffer =>
    some { s with
      pc := if config.maxCommands ≤ s.server.record.commands.length then .closing else .shellRecv buffer }
  | .shellChars buffer [] => some { s with pc := .shellTop buffer }
  | .shellChars buffer (ch :: pending) => some (shellTick config s now buffer ch pending)
  | .closing => some { s with pc := .finalise }
  | .sink k =>
    match sinks[k]? with
    | some name =>
      some { s with pc := .sink (k + 1), delivered := s.delivered ++ [(name, s.server.record)] }
    | none => some { s with pc := .closeTransport }
  | .closeTransport => some { s with pc := .done, isServing := false }
  | _ => none

/-- One step of a session. -/
def sessionStep (config : HoneypotConfig) (sinks : List SinkName) (s : Session) : Action → Option Session
  | .authPassword username password =>
    if s.isServing then some { s with server := (s.server.checkAuthPassword username password).1 } else none
  | .authPublickey username =>
    if s.isServing then some { s with server := (s.server.checkAuthPublickey username).1 } else none
  | .openChannel kind =>
    if s.isServing then
      some { s with channels := if HoneypotServer.checkChannelRequest kind then s.channels + 1 else s.channels }
    else none
  | .shellRequest =>
    if s.isServing && 0 < s.channels then some { s with server := s.server.checkChannelShellRequest }
    else none
  | .execRequest now command =>
    if s.isServing && 0 < s.channels then
      some { s with server := s.server.checkChannelExecRequest now command }
    else none
  | .hangUp => some { s with isServing := false }
  | .negotiated => if s.pc = .negotiate then some { s with pc := .version } else none
  | .negotiationFailed =>
    if s.pc = .negotiate then some { s with pc := .finalise, isServing := false } else none
  | .readVersion remoteVersion =>
    if s.pc = .version then
      some { s with
        pc := .accept
        server := { s.server with record := { s.server.record with sshVersion := remoteVersion } } }
    else none
  | .acceptChannel => if s.pc = .accept && 0 < s.channels then some { s with pc := .check } else none
  | .acceptTimeout => if s.pc = .accept then some { s with pc := .finalise } else none
  | .tick now => tick config sinks now s
  | .shellTimeout => if s.pc = .waitShell then some { s with pc := .testShell } else none
  | .recv data =>
    match s.pc with
    | .shellRecv buffer =>
      if data.length ≤ 1024 then
        some { s with pc := if data = [] then .closing else .shellChars buffer (Utf8.decode data) }
      else none
    | _ => none
  | .recvTimeout =>
    match s.pc with
    | .shellRecv buffer => some { s with pc := .shellTop buffer }
    | _ => none
  | .deadline =>
    match s.pc with
    | .shellTop _ => some { s with pc := .closing }
    | _ => none
  | .fail => if s.pc.isTry then some { s with pc := .finalise } else none
  | .setDuration duration =>
    if s.pc = .finalise then
      some { s with
        pc := .sink 0
        server := { s.server with record := { s.server.record with duration := duration } } }
    else none

/-- The client logs in and opens a channel, and the handler accepts it. -/
def login : List Action :=
  [.negotiated, .readVersion (some "SSH-2.0-Go"), .authPassword "root" (.str "123456"),
    .openChannel "session", .acceptChannel]

/-- The authentication callback of an action. -/
def Action.auth? : Action → Option AuthCallback
  | .authPassword username password => some (.password username password)
  | .authPublickey username => some (.publickey username)
  | _ => none

/-! ## What a session should do -/

/-- The handler has not looked for exec requests yet, or is going through them. -/
def Pc.answersExec : Pc → Bool
  | .negotiate => true
  | .version => true
  | .accept => true
  | .check => true
  | .exec _ => true
  | _ => false

/-- The answers of `_handle_exec` to some commands. -/
def answers (cmds : List String) : List Sent :=
  cmds.map fun cmd => .exec cmd (execOutput cmd)

/-- Every exec request accepted so far was answered by `_handle_exec`, ending with the exit status. -/
def Session.Answered (s : Session) : Prop :=
  s.server.execCommands ≠ [] →
    s.sent = answers s.server.execCommands ++ [.exitStatus 0]

/-- An exec request is accepted before the handler has looked, or while it answers others. -/
def ExecInTime (s : Session) : Action → Prop
  | .execRequest .. => s.pc.answersExec = true
  | _ => True

instance (s : Session) (a : Action) : Decidable (ExecInTime s a) := by
  unfold ExecInTime
  split <;> infer_instance

/-- Every sink was handed the record as it is now. -/
def Session.AllDelivered (sinks : List SinkName) (s : Session) : Prop :=
  s.delivered = sinks.map (·, s.server.record)

/-- What the sinks have stored of the deliveries of a session. -/
def Session.stores (sink : SinkName → CaptureSink) (st : Stores) (s : Session) : Stores :=
  s.delivered.foldl (fun st d => (sink d.1 st d.2).toOption.getD st) st

/-- A callback that records an attempt or a command runs before the first sink is written. -/
def RecordedInTime (s : Session) : Action → Prop
  | .authPassword .. => s.delivered = []
  | .authPublickey .. => s.delivered = []
  | .execRequest .. => s.delivered = []
  | _ => True

instance (s : Session) (a : Action) : Decidable (RecordedInTime s a) := by
  unfold RecordedInTime
  split <;> infer_instance

/-- The record holds no more commands than configured. -/
def Session.Bounded (config : HoneypotConfig) (s : Session) : Prop :=
  s.server.record.commands.length ≤ config.maxCommands

/-- The commands the characters still to come will complete. -/
def Pc.pendingCommands (config : HoneypotConfig) : Pc → Nat
  | .shellChars buffer pending => (lineCommands (prompt config.fakeHostname) buffer pending).length
  | _ => 0

/-- There is room for the commands an action brings: an exec request brings one, on top of those still
to come; the data of a `recv` bring the lines they complete. -/
def HasRoom (config : HoneypotConfig) (s : Session) : Action → Prop
  | .execRequest .. =>
    s.server.record.commands.length + s.pc.pendingCommands config < config.maxCommands
  | .recv data =>
    match s.pc with
    | .shellRecv buffer =>
      s.server.record.commands.length +
        (lineCommands (prompt config.fakeHostname) buffer (Utf8.decode data)).length ≤ config.maxCommands
    | _ => True
  | _ => True

instance (config : HoneypotConfig) (s : Session) (a : Action) : Decidable (HasRoom config s a) := by
  unfold HasRoom
  split
  · infer_instance
  · split <;> infer_instance
  · infer_instance

/-- The handler is in the middle of a chunk. -/
def Pc.inChunk : Pc → Bool
  | .shellChars _ _ => true
  | _ => false

/-- The handler is in the loop of `_fake_shell`. -/
def Pc.inShell : Pc → Bool
  | .shellTop _ => true
  | .shellRecv _ => true
  | .shellChars _ _ => true
  | _ => false

/-- The shell goes on undisturbed: no exec request, timeout, deadline or exception. -/
def Undisturbed (s : Session) : Action → Prop
  | .execRequest .. => False
  | .recvTimeout => False
  | .deadline => False
  | .fail => False
  | _ => s.pc.inShell = true

/-- What the shell received, up to the end of the stream. -/
def received : List Action → List (List UInt8)
  | [] => []
  | .recv data :: as => if data = [] then [] else data :: received as
  | _ :: as => received as

end SentinelSsh.Honeypot

import SentinelSsh.Core.Pipeline

/-!
# `honeypot/capture.py` and `honeypot/pipeline_sink.py`

The record of one session and the sinks it is handed to. A sink is a function on what is stored; the
fan-out goes on after a sink that raised.
-/

namespace SentinelSsh.Honeypot

open Python SentinelSsh.Core

inductive CommandType where
  | shell
  | exec
  deriving DecidableEq, Repr

/-- The text of a command type. -/
def CommandType.text : CommandType → String
  | .shell => "shell"
  | .exec => "exec"

/-- `CommandRecord`: a single command an attacker attempted. -/
structure CommandRecord where
  timestamp : String
  command : String
  commandType : CommandType
  deriving DecidableEq, Repr

/-- `AttackRecord`: full record of one honeypot session. The duration is in milliseconds. -/
structure AttackRecord where
  sessionId : String
  timestamp : String
  sourceIp : String
  sourcePort : Nat
  username : Option String := none
  password : Option Text := none
  sshVersion : Option String := none
  duration : Nat := 0
  authAttempts : Nat := 0
  commands : List CommandRecord := []
  deriving DecidableEq, Repr

/-- A nullable string as a JSON value. -/
def jsonStr (s : Option String) : Json.Value :=
  s.elim .none fun s => .text (.str s)

/-- `asdict` of a command. -/
def CommandRecord.toDict (c : CommandRecord) : Json.Value :=
  .dict [("timestamp", .text (.str c.timestamp)), ("command", .text (.str c.command)),
    ("command_type", .text (.str c.commandType.text))]

def AttackRecord.toDict (r : AttackRecord) : Json.Value :=
  .dict [("session_id", .text (.str r.sessionId)), ("timestamp", .text (.str r.timestamp)),
    ("source_ip", .text (.str r.sourceIp)), ("source_port", .int r.sourcePort),
    ("username", jsonStr r.username), ("password", r.password.elim .none .text),
    ("ssh_version", jsonStr r.sshVersion), ("duration", .float r.duration),
    ("auth_attempts", .int r.authAttempts), ("commands", .list (r.commands.map CommandRecord.toDict))]

/-! ## Sinks -/

/-- Everything the sinks store. -/
structure Stores where
  /-- The lines of the JSONL file. -/
  jsonl : List (List Char) := []
  /-- The structured lines of the application log. -/
  stdout : List (List Char) := []
  db : Db := {}

/-- What a sink raised. -/
inductive SinkError where
  | json (message : String)
  | db (e : ProcessError)
  deriving DecidableEq, Repr

abbrev CaptureSink := Stores → AttackRecord → Except SinkError Stores

/-- `json.dumps(record.to_dict(), ensure_ascii=False)` -/
def AttackRecord.line (r : AttackRecord) : Except SinkError (List Char) :=
  (r.toDict.render false).mapError .json

/-- `StdoutSink.write` -/
def stdoutSink : CaptureSink := fun st record =>
  record.line.map fun line => { st with stdout := st.stdout ++ ["attack_captured ".toList ++ line] }

/-- `JSONLSink.write` -/
def jsonlSink : CaptureSink := fun st record =>
  record.line.map fun line => { st with jsonl := st.jsonl ++ [line] }

/-- `MultiSink.write` -/
def multiSink (sinks : List CaptureSink) (st : Stores) (record : AttackRecord) : Stores :=
  sinks.foldl (fun st sink => (sink st record).toOption.getD st) st

/-- The `CapturedSession` that `PipelineSink.write` builds, with the clock `process` reads. -/
def AttackRecord.toCapture (record : AttackRecord) (clock : Nat → Datetime) : Capture where
  sessionId := record.sessionId
  timestamp := record.timestamp
  sourceIp := record.sourceIp
  sourcePort := some record.sourcePort
  username := record.username
  password := record.password
  sshVersion := record.sshVersion
  duration := record.duration
  authAttempts := record.authAttempts
  commands := record.commands.map fun c =>
    { timestamp := c.timestamp, command := c.command, commandType := c.commandType.text }
  clock := clock

/-- `PipelineSink.write`; the callback that publishes the snapshot never fails the sink. -/
def pipelineSink (p : IngestPipeline) (engine : Engine) (clock : Nat → Datetime) : CaptureSink :=
  fun st record =>
    match p.process engine st.db (record.toCapture clock) with
    | .ok (db, _) => .ok { st with db := db }
    | .error e => .error (.db e)

/-! ## What is kept of a session -/

/-- What the honeypot knows of a connection before the client says anything: a token of 32 hexadecimal
digits and the peer address of an IPv4 socket. -/
structure Accepted (record : AttackRecord) : Prop where
  sessionId : record.sessionId.length = 32 ∧ ∀ c ∈ record.sessionId.toList, c.isAlphanum
  sourceIp : record.sourceIp.length ≤ 15 ∧ ∀ c ∈ record.sourceIp.toList, c.isDigit ∨ c = '.'
  sourcePort : record.sourcePort ≤ 65535

/-- The session is stored: both sinks succeed, and the database gains exactly one attack, with the
captured credentials, and one command a captured command. -/
def Stored (p : IngestPipeline) (clock : Nat → Datetime) (st : Stores) (record : AttackRecord) : Prop :=
  (∃ st', jsonlSink st record = .ok st') ∧
    ∃ st' a cs, pipelineSink p .postgres clock st record = .ok st' ∧
      st'.db.attacks = st.db.attacks ++ [a] ∧ st'.db.commands = st.db.commands ++ cs ∧
      (a.username = record.username ∧ a.password = record.password ∧ a.sshVersion = record.sshVersion) ∧
      cs.map (·.command) = record.commands.map (·.command) ∧ ∀ c ∈ cs, c.attackId = a.id

/-- The value of a `VARCHAR(n)` column. -/
def FitsVarchar (n : Nat) (s : String) : Prop :=
  s.length ≤ n ∧ Char.ofNat 0 ∉ s.toList

/-- A record the schema has room for, given what the address is enriched with, how many attempts its
incident has counted, and when the session began. -/
structure Storable (p : IngestPipeline) (clock : Nat → Datetime) (db : Db) (record : AttackRecord) : Prop where
  /-- The password was valid UTF-8. -/
  password_str : ∀ b, record.password ≠ some (.bytes b)
  username : ∀ s, record.username = some s → FitsVarchar 255 s
  password : ∀ s, record.password = some (.str s) → FitsVarchar 255 s
  sshVersion : ∀ s, record.sshVersion = some s → FitsVarchar 128 s
  commands : ∀ c ∈ record.commands, Char.ofNat 0 ∉ c.command.toList
  country : ∀ s, (p.enrichment.enrich p.lib record.sourceIp).storedCountry = some s → FitsVarchar 64 s
  asn : ∀ s, (p.enrichment.enrich p.lib record.sourceIp).asn = some s → FitsVarchar 32 s
  isp : ∀ s, (p.enrichment.enrich p.lib record.sourceIp).isp = some s → FitsVarchar 128 s
  attempts : (selectIncident .postgres db.incidents record.sourceIp).elim 0 (·.attemptCount) +
    max 1 (record.authAttempts : Int) ≤ 2147483647
  /-- The start of the history window lies in the years 1 to 9999. -/
  window : (p.windowStart (p.captureTs (record.toCapture clock))).isSome = true

end SentinelSsh.Honeypot

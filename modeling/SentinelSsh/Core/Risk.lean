import SentinelSsh.Core.Behavior
import SentinelSsh.Core.Enrichment

/-!
# `core/intel/risk.py`

The weighted score of a session with the reasons that contribute to it. The score is clamped to
0..100 before it is banded.
-/

namespace SentinelSsh.Core

open Python

structure RiskContext where
  enrichment : EnrichmentResult
  isMaliciousIp : Bool
  username : Option String
  authAttempts : Int
  priorAttempts : Int
  behavior : BehaviorResult

structure RiskResult where
  score : Int
  level : RiskLevel
  reasons : List (String × Int)
  deriving DecidableEq, Repr

/-- `RiskEngine._is_foreign` -/
def isForeign (db : UnicodeDb) (cfg : IntelConfig) (e : EnrichmentResult) : Bool :=
  if e.isPrivate || !truthy e.country then false
  else if cfg.homeCountries = [] then true
  else !(e.country.map db.lower).any (cfg.homeCountries.contains ·)

/-- The local function `add` of `RiskEngine.score`: zero points give no reason. -/
def addReason (acc : Int × List (String × Int)) (reason : String) (points : Int) :
    Int × List (String × Int) :=
  if points ≠ 0 then (acc.1 + points, acc.2 ++ [(reason, points)]) else acc

/-- `RiskEngine.score` -/
def riskScore (db : UnicodeDb) (cfg : IntelConfig) (ctx : RiskContext) : RiskResult :=
  let has (tag : String) : Bool := ctx.behavior.behaviors.contains tag
  let a0 : Int × List (String × Int) := (0, [])
  let a1 := if ctx.priorAttempts > 0 ∨
      ctx.authAttempts + ctx.priorAttempts ≥ cfg.repeatedAttemptsThreshold then
    addReason a0 "repeated_attempts" cfg.weightRepeatedAttempts else a0
  let a2 := if isCommonUsername db cfg ctx.username then
    addReason a1 "common_brute_force_username" cfg.weightCommonUsername else a1
  let a3 := if ctx.isMaliciousIp then
    addReason a2 "known_malicious_ip" cfg.weightMaliciousIp else a2
  let a4 := if isForeign db cfg ctx.enrichment then
    addReason a3 "foreign_asn" cfg.weightForeignAsn else a3
  -- Behaviour-derived escalations.
  let a5 := if has "tool_transfer" || has "cryptomining" then
    addReason a4 "malware_download" cfg.weightMalwareDownload else a4
  let a6 := if has "ssh_key_persistence" || has "cron_persistence" then
    addReason a5 "persistence_attempt" cfg.weightPersistence else a5
  let a7 := if has "system_discovery" || has "user_discovery" || has "account_discovery" ||
      has "remote_discovery" then
    addReason a6 "reconnaissance" cfg.weightRecon else a6
  let score := max 0 (min 100 a7.1)
  { score := score, level := cfg.levelFor score, reasons := a7.2 }

/-- Every score is in 0..100, whatever the weights are. -/
theorem riskScore_bounds (db : UnicodeDb) (cfg : IntelConfig) (ctx : RiskContext) :
    0 ≤ (riskScore db cfg ctx).score ∧ (riskScore db cfg ctx).score ≤ 100 := by
  have hclamp : ∀ x : Int, 0 ≤ max 0 (min 100 x) ∧ max 0 (min 100 x) ≤ 100 := fun x => by omega
  exact hclamp _

end SentinelSsh.Core

import SentinelSsh.Lib.Python

/-!
# `core/intel/config.py`

The weights, thresholds and reference data of the intelligence layer. The environment variables only
supply the values; a configuration is any value of `IntelConfig`.
-/

namespace SentinelSsh.Core

/-- The risk band of an attack. -/
inductive RiskLevel where
  | low
  | medium
  | high
  deriving DecidableEq, Repr

/-- The text stored for a band. -/
def RiskLevel.text : RiskLevel → String
  | .low => "low"
  | .medium => "medium"
  | .high => "high"

/-- Usernames commonly hammered by SSH brute-force botnets. -/
def defaultBruteForceUsernames : List String :=
  ["root", "admin", "administrator", "user", "test", "guest", "oracle", "postgres", "ubuntu", "pi",
    "ftpuser", "git", "deploy", "mysql", "support", "manager", "tomcat", "nagios", "www-data", "service"]

/-- `IntelConfig`: risk weights, thresholds and reference data. -/
structure IntelConfig where
  weightRepeatedAttempts : Int := 20
  weightCommonUsername : Int := 15
  weightMaliciousIp : Int := 40
  weightForeignAsn : Int := 10
  weightMalwareDownload : Int := 20
  weightPersistence : Int := 15
  weightRecon : Int := 5
  repeatedAttemptsThreshold : Int := 3
  historyWindowHours : Int := 24
  /-- Inclusive upper bound of the low band. -/
  lowMax : Int := 30
  /-- Inclusive upper bound of the medium band. -/
  mediumMax : Int := 70
  /-- Country codes considered home, in lower case. -/
  homeCountries : List String := []
  bruteForceUsernames : List String := defaultBruteForceUsernames
  deriving Repr

def IntelConfig.levelFor (cfg : IntelConfig) (score : Int) : RiskLevel :=
  if score ≤ cfg.lowMax then .low
  else if score ≤ cfg.mediumMax then .medium
  else .high

end SentinelSsh.Core

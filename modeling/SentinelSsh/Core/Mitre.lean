import SentinelSsh.Lib.Python

/-!
# `core/intel/mitre.py`

The MITRE ATT&CK catalogue and the lookup that turns technique ids into full entries.
-/

namespace SentinelSsh.Core

structure Technique where
  id : String
  name : String
  tactic : String
  url : String
  deriving DecidableEq, Repr

/-- `_t`: the link is derived from the id. -/
def technique (tid name tactic : String) : Technique where
  id := tid
  name := name
  tactic := tactic
  url := "https://attack.mitre.org/techniques/" ++
    String.ofList (tid.toList.map fun c => if c = '.' then '/' else c) ++ "/"

def catalogue : List Technique :=
  [technique "T1110" "Brute Force" "Credential Access",
    technique "T1110.001" "Password Guessing" "Credential Access",
    technique "T1078" "Valid Accounts" "Defense Evasion",
    technique "T1021.004" "Remote Services: SSH" "Lateral Movement",
    technique "T1105" "Ingress Tool Transfer" "Command and Control",
    technique "T1059" "Command and Scripting Interpreter" "Execution",
    technique "T1082" "System Information Discovery" "Discovery",
    technique "T1033" "System Owner/User Discovery" "Discovery",
    technique "T1087" "Account Discovery" "Discovery",
    technique "T1018" "Remote System Discovery" "Discovery",
    technique "T1098.004" "Account Manipulation: SSH Authorized Keys" "Persistence",
    technique "T1053.003" "Scheduled Task/Job: Cron" "Persistence",
    technique "T1496" "Resource Hijacking" "Impact",
    technique "T1562.001" "Impair Defenses: Disable or Modify Tools" "Defense Evasion"]

def catalogueGet (tid : String) : Option Technique :=
  catalogue.find? (·.id = tid)

/-- `resolve`: unknown ids are skipped, repeated ones resolved once. -/
def resolve (techniqueIds : List String) : List Technique :=
  (Python.fromkeys techniqueIds).filterMap catalogueGet

end SentinelSsh.Core

import SentinelSsh.Backend.Proofs.ListingProofs
import SentinelSsh.Backend.Requests
import SentinelSsh.Core.Ingestion
import SentinelSsh.Lib.Escapes
import SentinelSsh.Lib.Proofs.IntLiteralProofs

/-!
# Which requests are answered as documented

A view is a sequence of steps that may raise. What escapes from it is what escapes from its steps, so
that the condition of a request is read off its view, step by step: the integers it reads with `int`,
the parameters of its statements, the values it makes JSON of, and the fields of a login.
-/

namespace SentinelSsh.Backend.Api

open SentinelSsh.Core Python Escapes

variable {d : Deployment} {s : Store} {args : Args}

/-! ## Handled failures -/

theorem execute_eq_ok {driver : Driver} {params : List SqlValue} {u : Unit} :
    driver.execute params = .ok u ↔ ∀ v ∈ params, driver.takes v = true := by
  unfold Driver.execute
  rw [← List.all_eq_true]
  split
  · exact iff_of_true rfl ‹_›
  · exact iff_of_false (fun h => nomatch h) ‹_›

/-- The statement has one parameter, a text. -/
theorem execute_text {driver : Driver} {text : String} {u : Unit} :
    driver.execute [.text (.str text)] = .ok u ↔ driver.takesText text = true := by
  rw [execute_eq_ok, List.forall_mem_singleton]
  exact Iff.rfl

section Parameters

variable {driver : Driver}

end Parameters

/-! ## Views -/

/-- Pydantic for plain decimal numbers. -/
def plainPydantic : Pydantic where
  int v := (Decimals.ascii.int v).elim
    (.error "Input should be a valid integer, unable to parse string as an integer") .ok
  bool v := if v = "true" then .ok true else if v = "false" then .ok false
    else .error "Input should be a valid boolean, unable to interpret input"
  datetime _ := .error "Input should be a valid datetime or date, invalid character in year"

/-- One account, the hash of whose password is the password. -/
def Deployment.oneUser : Deployment where
  config := {}
  users := [{ id := 1, username := "analyst", passwordHash := "s3cret" }]
  unicode := .ascii
  decimals := .ascii
  pydantic := plainPydantic
  dialect := .sqlite
  sql := .plain
  driver := .sqlite
  longKey := .noMatch
  checkPasswordHash hash password :=
    match password with
    | .str text => (encode text).map fun password => password = hash
    | _ => none
  recursionLimit := 1000

def Store.oneAttack : Store where
  db := .oneAttack
  now := 1767225620000000
  attacks := id
  incidents := id
  commands := id
  texts := id
  passwords := id

-- An offset outside 64 bits, a body that is no object, one of brackets only, and U+0000 on PostgreSQL.
example : (respond .oneUser .oneAttack { session := some 1 }
    (.listAttacks [("page", "1000000000000000000")])).status = 500 := by
  decide

example : (respond .oneUser .oneAttack {} (.login (.json (.list [.number true])))).status = 500 := by
  decide

example : (respond .oneUser .oneAttack {} (.login (.malformed 100000))).status = 500 := by
  decide

example : (respond { Deployment.oneUser with driver := .psycopg2 } .oneAttack { session := some 1 }
    (.search [("q", String.ofList [Char.ofNat 0])])).status = 500 := by
  decide

end SentinelSsh.Backend.Api

import SentinelSsh.Core.Correlation

/-!
# Incidents up to their sightings

`first_seen` and `last_seen` of an incident depend on who writes it, the rest of its row does not. The tables
of `Summarized` hold the histories of all addresses as those of `Correlated` do, but for the sightings.
-/

namespace SentinelSsh.Core

open Python

/-- The incident with other sightings. -/
def showing (seen : Nat → Datetime × Datetime) (i : Incident) : Incident :=
  { i with firstSeen := (seen i.id).1, lastSeen := (seen i.id).2 }

/-- The tables with other sightings. -/
def withSeen (seen : Nat → Datetime × Datetime) (db : Db) : Db :=
  { db with incidents := db.incidents.map (showing seen) }

/-- The database holds the histories `book`, but for `first_seen` and `last_seen` of the incidents. -/
def Summarized (db : Db) (book : String → Ledger) : Prop :=
  ∃ seen ref, Correlated ref book ∧ db = withSeen seen ref

/-- The key a write goes to is that of the row it found, or in use nowhere. -/
structure KeyOf (db : Db) (found : Option Incident) (key : Nat) : Prop where
  of_some : ∀ r, found = some r → r ∈ db.incidents ∧ key = r.id
  of_none : found = none → ∀ r ∈ db.incidents, r.id ≠ key

end SentinelSsh.Core

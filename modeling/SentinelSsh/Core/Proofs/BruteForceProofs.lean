import SentinelSsh.Core.Proofs.OrderProofs

/-!
# Brute force, measured in attempts

The history of a session is the number of the rows in its window. A row is a session, and a session may
have made any number of attempts, so the tag for brute force tells the attempts of a source only as long
as the threshold does not lie between the two.
-/

namespace SentinelSsh.Core

open Python

section Attempts

variable {p : IngestPipeline} {engine : Engine} {db : Db} {es : List Event}

/-- The tag of a stored session compares the threshold with the number of the earlier sessions. -/
theorem bruteForce_row (hr : Runs.run (step p engine) {} es = some db) {i : Nat} {c : Capture}
    (hc : (ingested es)[i]? = some c) : ∃ a, db.attacks[i]? = some a ∧ a.sessionId = c.sessionId ∧
      ("brute_force" ∈ parseJsonList a.behaviors ↔
        p.config.repeatedAttemptsThreshold ≤ c.authAttempts + p.historyAt engine (ingested es) i c) := by
  obtain ⟨a, ha, hcols⟩ := row_of_run hr hc
  have hsession : a.sessionId = c.sessionId := congrArg AttackCols.sessionId hcols
  have hbehaviors : a.behaviors = (p.draft c (p.historyAt engine (ingested es) i c)).attack.behaviors :=
    congrArg AttackCols.behaviors hcols
  rw [← hsession]
  refine ⟨a, ha, rfl, ?_⟩
  rw [hbehaviors, bruteForce_draft]

/-- Every session of every run is tagged by its attempts and those of its history, if and only if the
threshold does not lie between the number of the sessions in its history and their attempts. -/
theorem measuredInAttempts_iff (hr : Runs.run (step p engine) {} es = some db) {i : Nat} {c : Capture}
    (hc : (ingested es)[i]? = some c) : ∃ a, db.attacks[i]? = some a ∧ a.sessionId = c.sessionId ∧
      (MeasuredInAttempts p (ingested es) i c a ↔ ¬ p.ThresholdBetween engine (ingested es) i c) := by
  obtain ⟨a, ha, hsession, htag⟩ := bruteForce_row hr hc
  refine ⟨a, ha, hsession, ?_⟩
  rw [MeasuredInAttempts, htag, IngestPipeline.ThresholdBetween]
  omega

/-- Two sessions of two attempts each. -/
theorem measuredInAttempts_iff_guesses :
    ∃ db a, Runs.run (step .twoInstants .postgres) {}
        [.ingest (.guess "2026-01-01T00:00:10+00:00" "8.8.8.8"),
          .ingest (.guess "2026-01-01T00:00:20+00:00" "8.8.8.8")] = some db ∧ db.attacks[1]? = some a ∧
      MeasuredInAttempts .twoInstants
        [.guess "2026-01-01T00:00:10+00:00" "8.8.8.8", .guess "2026-01-01T00:00:20+00:00" "8.8.8.8"] 1
        (.guess "2026-01-01T00:00:20+00:00" "8.8.8.8") a := by
  have hsome : (Runs.run (step .twoInstants .postgres) {}
      [.ingest (.guess "2026-01-01T00:00:10+00:00" "8.8.8.8"),
        .ingest (.guess "2026-01-01T00:00:20+00:00" "8.8.8.8")]).isSome = true := by
    with_unfolding_all decide
  obtain ⟨db, hr⟩ := Option.isSome_iff_exists.mp hsome
  obtain ⟨a, ha, -, hiff⟩ := measuredInAttempts_iff hr (i := 1) rfl
  refine ⟨db, a, hr, ha, hiff.mpr ?_⟩
  unfold IngestPipeline.ThresholdBetween
  with_unfolding_all decide

/-- After a session of two attempts, a session with the third one is not tagged. -/
theorem not_measuredInAttempts_third :
    ¬ ∀ (p : IngestPipeline) (engine : Engine) (es : List Event) (db : Db),
        Runs.run (step p engine) {} es = some db → ∀ (i : Nat) (c : Capture) (a : Attack),
          (ingested es)[i]? = some c → db.attacks[i]? = some a → MeasuredInAttempts p (ingested es) i c a := by
  intro h
  let c₁ : Capture := .guess "2026-01-01T00:00:10+00:00" "8.8.8.8"
  let c₂ : Capture := { Capture.guess "2026-01-01T00:00:20+00:00" "8.8.8.8" with authAttempts := 1 }
  have hrow : ((Runs.run (step .twoInstants .postgres) {} [.ingest c₁, .ingest c₂]).bind
      fun db => db.attacks[1]?.map fun a => (parseJsonList a.behaviors).contains "brute_force") = some false := by
    with_unfolding_all decide
  obtain ⟨db, hr, ha⟩ := Option.bind_eq_some_iff.mp hrow
  obtain ⟨a, ha, hnot⟩ := Option.map_eq_some_iff.mp ha
  have hmeasured := h .twoInstants .postgres [.ingest c₁, .ingest c₂] db hr 1 c₂ a rfl ha
  have hreached : (3 : Int) ≤ c₂.authAttempts +
      IngestPipeline.twoInstants.attemptsAt (ingested [.ingest c₁, .ingest c₂]) 1 c₂ := by
    with_unfolding_all decide
  have htag := List.contains_iff_mem.mpr (hmeasured.mpr hreached)
  rw [hnot] at htag
  exact absurd htag (by decide)

end Attempts

end SentinelSsh.Core

import SentinelSsh.Core.Ingestion
import SentinelSsh.Core.Proofs.AssessmentProofs
import SentinelSsh.Core.Proofs.ConcurrentProofs
import SentinelSsh.Core.Proofs.DraftProofs

/-!
# Scores and the order of ingestion

The history of a session is counted among the rows that are stored when it is ingested. So its score
depends on which of the sessions in its window came before it, and only through the two thresholds.
-/

namespace SentinelSsh.Core

open Python

section Order

variable {p : IngestPipeline} {engine : Engine} {db db' : Db}

/-- The history of a session among stored sessions is its history among the sessions. -/
theorem priorAttempts_drafts {captures : List Capture} {n : Capture → Nat → Int} {c : Capture}
    (h : db.attacks.map Attack.toAttackCols = captures.mapIdx fun i c => (p.draft c (n c i)).attack) :
    p.priorAttempts engine db.attacks c.sourceIp (p.captureTs c) = (captures.countP (p.precedes engine c) : Nat) := by
  have hkeys : db.attacks.map (fun a => (a.sourceIp, a.timestamp)) =
      captures.map fun c' => (c'.sourceIp, p.captureTs c') := by
    rw [← map_mapIdx_of_forall (f := fun i c => (p.draft c (n c i)).attack)
      (g := fun a => (a.sourceIp, a.timestamp)) (fun _ _ => rfl), ← h, List.map_map]
    rfl
  let inWindow : String × Datetime → Bool := fun x =>
    x.1 = c.sourceIp && p.inWindow engine (p.captureTs c) x.2
  have hattacks : db.attacks.countP (fun a => p.inHistory engine c.sourceIp (p.captureTs c) a.toAttackCols) =
      (db.attacks.map fun a => (a.sourceIp, a.timestamp)).countP inWindow := by
    rw [List.countP_map]
    rfl
  have hcaptures : captures.countP (p.precedes engine c) =
      (captures.map fun c' => (c'.sourceIp, p.captureTs c')).countP inWindow := by
    rw [List.countP_map]
    rfl
  rw [IngestPipeline.priorAttempts, hattacks, hcaptures, hkeys]

@[simp] theorem ingested_map (captures : List Capture) : ingested (captures.map .ingest) = captures := by
  rw [ingested, List.filterMap_map]
  exact List.filterMap_some

/-- An event is a completed call, or a status change that leaves the attacks alone. -/
theorem attacks_step {e : Event} (hs : step p engine db e = some db') :
    (∃ c snap, e = .ingest c ∧ p.process engine db c = .ok (db', snap)) ∨
      (e.capture? = none ∧ db'.attacks = db.attacks) := by
  cases e with
  | ingest c =>
    obtain ⟨snap, hok⟩ := process_of_toOption hs
    exact Or.inl ⟨c, snap, rfl, hok⟩
  | triage id =>
    simp only [step, Option.ite_none_right_eq_some, Option.some.injEq] at hs
    exact Or.inr ⟨rfl, hs.2 ▸ rfl⟩
  | close id =>
    simp only [step, Option.ite_none_right_eq_some, Option.some.injEq] at hs
    exact Or.inr ⟨rfl, hs.2 ▸ rfl⟩

/-- The drafts of some sessions do not change when another one comes after them. -/
theorem mapIdx_draft_concat (captures : List Capture) (c : Capture) :
    captures.mapIdx (fun i c' => (p.draft c' (p.historyAt engine captures i c')).attack) =
      captures.mapIdx fun i c' => (p.draft c' (p.historyAt engine (captures ++ [c]) i c')).attack := by
  refine List.ext_getElem (by simp) fun i h₁ h₂ => ?_
  have hi : i ≤ captures.length := by
    rw [List.length_mapIdx] at h₁
    exact h₁.le
  simp only [List.getElem_mapIdx, IngestPipeline.historyAt, List.take_append_of_le_length hi]

/-- The sessions of a completed run are stored in their order, each scored by the sessions before it. -/
theorem attacks_run {es : List Event} (hr : Runs.run (step p engine) {} es = some db) :
    db.attacks.map Attack.toAttackCols =
      (ingested es).mapIdx fun i c => (p.draft c (p.historyAt engine (ingested es) i c)).attack := by
  induction es using List.reverseRecOn generalizing db with
  | nil =>
    cases hr
    rfl
  | append_singleton es e ih =>
    obtain ⟨u, hu, hstep⟩ := Runs.run_append.mp hr
    obtain ⟨u', hs, hnil⟩ := Runs.run_cons.mp hstep
    cases hnil
    have hrows := ih hu
    rcases attacks_step hs with ⟨c, snap, rfl, hok⟩ | ⟨hnone, hattacks⟩
    · have hes : ingested (es ++ [.ingest c]) = ingested es ++ [c] := List.filterMap_append
      obtain ⟨d, key, rfl, -, rfl, -⟩ := process_ok_snapshot hok
      have hcount : p.priorAttempts engine u.attacks c.sourceIp (p.captureTs c) =
          p.historyAt engine (ingested es ++ [c]) (ingested es).length c := by
        rw [priorAttempts_drafts hrows, IngestPipeline.historyAt, List.take_left]
      rw [hes, Db.putAttack, attacks_putIncident, List.map_append, hrows, mapIdx_draft_concat _ c,
        List.mapIdx_concat, List.map_singleton, hcount]
    · have hes : ingested (es ++ [e]) = ingested es := by
        rw [ingested, List.filterMap_append, List.filterMap_cons_none hnone]
        exact List.append_nil _
      rw [hes, hattacks]
      exact hrows

/-- A draft has the tag of repeated attempts exactly if the attempts of the session and the count reach
the threshold. -/
theorem bruteForce_draft (c : Capture) (n : Int) :
    "brute_force" ∈ parseJsonList (p.draft c n).attack.behaviors ↔
      p.config.repeatedAttemptsThreshold ≤ c.authAttempts + n := by
  obtain ⟨ctx, rfl, -, hbehaviors, -, -⟩ := draft_assessment p c n
  rw [hbehaviors, ← List.contains_iff_mem]
  exact contains_behaviors p.unicode p.config _ _ (by simp [authTags]) (by decide) (by decide)

/-- A draft has the tag of a repeated offender exactly if the count is positive. -/
theorem repeatOffender_draft (c : Capture) (n : Int) :
    "repeat_offender" ∈ parseJsonList (p.draft c n).attack.behaviors ↔ 0 < n := by
  obtain ⟨ctx, rfl, -, hbehaviors, -, -⟩ := draft_assessment p c n
  rw [hbehaviors, ← List.contains_iff_mem]
  exact contains_behaviors p.unicode p.config _ _ (by simp [authTags]) (by decide) (by decide)

/-- Two drafts of a session hold the same score exactly when their counts are on the same side of the
thresholds. -/
theorem sameScore_iff (c : Capture) (m n : Int) :
    SameScore (p.draft c m).attack (p.draft c n).attack ↔ p.SameSide c m n := by
  constructor
  · rintro ⟨-, -, hbehaviors, -⟩
    have hoffender := repeatOffender_draft (p := p) c m
    have hforce := bruteForce_draft (p := p) c m
    rw [hbehaviors, repeatOffender_draft] at hoffender
    rw [hbehaviors, bruteForce_draft] at hforce
    exact ⟨hoffender.symm, hforce.symm⟩
  · rintro ⟨hpos, hrep⟩
    rw [draft_congr c hpos hrep]
    exact ⟨rfl, rfl, rfl, rfl⟩

theorem row_of_run {es : List Event} (hr : Runs.run (step p engine) {} es = some db) {i : Nat} {c : Capture}
    (hc : (ingested es)[i]? = some c) : ∃ a, db.attacks[i]? = some a ∧
      a.toAttackCols = (p.draft c (p.historyAt engine (ingested es) i c)).attack := by
  have hrow := congrArg (fun rows => rows[i]?) (attacks_run hr)
  simp only [List.getElem?_map, List.getElem?_mapIdx, hc, Option.map_some] at hrow
  exact Option.map_eq_some_iff.mp hrow

/-- The same for a run that does nothing but ingest. -/
theorem row_of_ingests {captures : List Capture}
    (hr : Runs.run (step p engine) {} (captures.map .ingest) = some db) {i : Nat} {c : Capture}
    (hc : captures[i]? = some c) : ∃ a, db.attacks[i]? = some a ∧
      a.toAttackCols = (p.draft c (p.historyAt engine captures i c)).attack := by
  have hrow := row_of_run hr (i := i) (c := c)
  rw [ingested_map] at hrow
  exact hrow hc

/-- When the sessions in its window all come first, the history of a session is complete. -/
theorem historyAt_complete {captures : List Capture} (h : HistoryFirst p engine captures) {i : Nat} {c : Capture}
    (hc : captures[i]? = some c) :
    p.historyAt engine captures i c = (captures.countP (p.precedes engine c) : Nat) := by
  have hlater : ∀ c' ∈ captures.drop i, p.precedes engine c c' = false := by
    have hdrop := h.drop (i := i)
    rw [List.drop_eq_getElem?_toList_append, hc, Option.toList_some, List.singleton_append] at hdrop ⊢
    intro c' hc'
    rcases List.mem_cons.mp hc' with rfl | hmem
    · simp [IngestPipeline.precedes, IngestPipeline.inWindow]
    · exact (List.pairwise_cons.mp hdrop).1 c' hmem
  have hrest : (captures.drop i).countP (p.precedes engine c) = 0 :=
    List.countP_eq_zero.mpr fun c' hc' => by simp [hlater c' hc']
  rw [IngestPipeline.historyAt]
  congr 1
  conv_rhs => rw [← List.take_append_drop i captures, List.countP_append, hrest, Nat.add_zero]

/-- Two orders of ingestion give a session the same score if and only if the parts of its history that
came before it are on the same side of the two thresholds; so all orders that ingest the history of
every session first give the same scores. -/
theorem sameScores_iff {xs ys : List Capture}
    (hx : Runs.run (step p engine) {} (xs.map .ingest) = some db)
    (hy : Runs.run (step p engine) {} (ys.map .ingest) = some db') :
    (SameScores xs ys db db' ↔
        ∀ (i j : Nat) (c : Capture), xs[i]? = some c → ys[j]? = some c →
          p.SameSide c (p.historyAt engine xs i c) (p.historyAt engine ys j c)) ∧
      (xs.Perm ys → HistoryFirst p engine xs → HistoryFirst p engine ys → SameScores xs ys db db') := by
  have hiff : SameScores xs ys db db' ↔
      ∀ (i j : Nat) (c : Capture), xs[i]? = some c → ys[j]? = some c →
        p.SameSide c (p.historyAt engine xs i c) (p.historyAt engine ys j c) := by
    constructor
    · intro h i j c hi hj
      obtain ⟨a, ha, hacols⟩ := row_of_ingests hx hi
      obtain ⟨b, hb, hbcols⟩ := row_of_ingests hy hj
      have hsame := h i j c hi hj a b ha hb
      rw [hacols, hbcols] at hsame
      exact (sameScore_iff c _ _).mp hsame
    · intro h i j c hi hj a b ha hb
      obtain ⟨a', ha', hacols⟩ := row_of_ingests hx hi
      obtain ⟨b', hb', hbcols⟩ := row_of_ingests hy hj
      obtain rfl := Option.some.inj (ha.symm.trans ha')
      obtain rfl := Option.some.inj (hb.symm.trans hb')
      rw [hacols, hbcols]
      exact (sameScore_iff c _ _).mpr (h i j c hi hj)
  refine ⟨hiff, fun hperm hfx hfy => hiff.mpr fun i j c hi hj => ?_⟩
  rw [historyAt_complete hfx hi, historyAt_complete hfy hj, hperm.countP_eq]
  exact ⟨Iff.rfl, Iff.rfl⟩

/-- Two sessions of one source in the order of their beginning, twice. -/
theorem sameScores_iff_chronological :
    ∃ db, Runs.run (step .twoInstants .postgres) {}
        ([.guess "2026-01-01T00:00:10+00:00" "8.8.8.8",
          .guess "2026-01-01T00:00:20+00:00" "8.8.8.8"].map .ingest) = some db ∧
      SameScores
        [.guess "2026-01-01T00:00:10+00:00" "8.8.8.8", .guess "2026-01-01T00:00:20+00:00" "8.8.8.8"]
        [.guess "2026-01-01T00:00:10+00:00" "8.8.8.8", .guess "2026-01-01T00:00:20+00:00" "8.8.8.8"]
        db db := by
  have hsome : (Runs.run (step .twoInstants .postgres) {}
      ([.guess "2026-01-01T00:00:10+00:00" "8.8.8.8",
        .guess "2026-01-01T00:00:20+00:00" "8.8.8.8"].map .ingest)).isSome = true := by
    with_unfolding_all decide
  obtain ⟨db, hr⟩ := Option.isSome_iff_exists.mp hsome
  have hfirst : HistoryFirst .twoInstants .postgres [.guess "2026-01-01T00:00:10+00:00" "8.8.8.8",
      .guess "2026-01-01T00:00:20+00:00" "8.8.8.8"] :=
    List.pairwise_pair.mpr (by with_unfolding_all decide)
  exact ⟨db, hr, (sameScores_iff hr hr).2 (List.Perm.refl _) hfirst hfirst⟩

/-- A session that began later and was ingested first is scored without its predecessor. -/
theorem not_sameScores_reversed :
    ¬ ∀ (p : IngestPipeline) (engine : Engine) (xs ys : List Capture) (db db' : Db), xs.Perm ys →
        (xs.map fun c => (p.captureTs c).instant).Nodup →
        Runs.run (step p engine) {} (xs.map .ingest) = some db →
        Runs.run (step p engine) {} (ys.map .ingest) = some db' → SameScores xs ys db db' := by
  intro h
  let c₁ : Capture := .guess "2026-01-01T00:00:10+00:00" "8.8.8.8"
  let c₂ : Capture := .guess "2026-01-01T00:00:20+00:00" "8.8.8.8"
  have hx : ((Runs.run (step .twoInstants .postgres) {} ([c₁, c₂].map .ingest)).bind
      fun db => db.attacks[1]?.map (·.riskScore)) = some 35 := by with_unfolding_all decide
  have hy : ((Runs.run (step .twoInstants .postgres) {} ([c₂, c₁].map .ingest)).bind
      fun db => db.attacks[0]?.map (·.riskScore)) = some 15 := by with_unfolding_all decide
  obtain ⟨db, hrx, ha⟩ := Option.bind_eq_some_iff.mp hx
  obtain ⟨db', hry, hb⟩ := Option.bind_eq_some_iff.mp hy
  obtain ⟨a, ha, has⟩ := Option.map_eq_some_iff.mp ha
  obtain ⟨b, hb, hbs⟩ := Option.map_eq_some_iff.mp hb
  have hsame := h .twoInstants .postgres [c₁, c₂] [c₂, c₁] db db' (List.Perm.swap _ _ _)
    (by with_unfolding_all decide) hrx hry 1 0 c₂ rfl rfl a b ha hb
  have hscore : a.riskScore = b.riskScore := hsame.1
  rw [has, hbs] at hscore
  exact absurd hscore (by decide)

end Order

end SentinelSsh.Core

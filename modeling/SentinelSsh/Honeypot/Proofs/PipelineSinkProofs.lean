import SentinelSsh.Honeypot.PipelineSink
import SentinelSsh.Core.Proofs.DraftProofs

/-!
# Published snapshots and committed attacks

Everything a call does before its commit is in its transaction, and a commit executes the transaction
as a whole, so a call that fails has left no trace (`write_effect`). A call has a snapshot from its
commit on; the invariant `SinksOk` ties these snapshots to the rows that were added, whether the
callback has been called for them or not.
-/

namespace SentinelSsh.Honeypot

open SentinelSsh.Core

section Sink

variable {p : IngestPipeline} {engine : Engine} {captures : List Capture} {s s' : Sinks} {i : Nat}

/-! ## What a step does -/

/-- The row a commit adds. -/
def newRow (p : IngestPipeline) (capture : Capture) (w : Pending) (key attackKey : Nat) : Attack :=
  { (p.draft capture w.prior).attack with id := attackKey, incidentId := some key }

/-- The tables after a commit. -/
def commitDb (p : IngestPipeline) (db : Db) (capture : Capture) (w : Pending) (key attackKey : Nat) : Db :=
  (db.putIncident w.found key w.incident).putAttack attackKey (p.draft capture w.prior).attack
    (p.draft capture w.prior).commands key

/-- The snapshot of a commit. -/
def commitSnapshot (p : IngestPipeline) (capture : Capture) (w : Pending) (key attackKey : Nat) :
    Snapshot :=
  snapshot (newRow p capture w key attackKey) (p.draft capture w.prior).commands.length
    (p.draft capture w.prior).behavior.behaviors (p.draft capture w.prior).behavior.techniques
    (p.draft capture w.prior).risk

/-- What call `i` can do next. -/
inductive Wrote (p : IngestPipeline) (engine : Engine) (n : Nat) (s : Sinks) (i : Nat)
    (capture : Capture) : Sinks → Prop
  | failed (h : (s.calls i).snapshot = none) : Wrote p engine n s i capture (s.set i .failed)
  | counted (h : s.calls i = .idle) : Wrote p engine n s i capture (s.set i (.counted
      (p.priorAttempts engine s.db.attacks capture.sourceIp (p.captureTs capture))))
  | selected {prior : Int} (h : s.calls i = .counted prior) :
      Wrote p engine n s i capture (s.set i (.selected
        ⟨prior, (correlate engine s.db.incidents (p.draft capture prior).correlateArgs).1,
          (correlate engine s.db.incidents (p.draft capture prior).correlateArgs).2⟩))
  | flushedIncident {w : Pending} {key : Nat} (h : s.calls i = .selected w)
      (hacc : engine.acceptsAll w.incident.columns = true) (hkey : s.acceptsIncidentKey n w key = true) :
      Wrote p engine n s i capture (s.set i (.flushedIncident w key))
  | flushedAttack {w : Pending} {key attackKey : Nat} (h : s.calls i = .flushedIncident w key)
      (hkey : s.acceptsAttackKey n attackKey = true) :
      Wrote p engine n s i capture (s.set i (.flushedAttack w key attackKey))
  | committed {w : Pending} {key attackKey : Nat} (h : s.calls i = .flushedAttack w key attackKey) :
      Wrote p engine n s i capture { s.set i (.committed (commitSnapshot p capture w key attackKey)) with
        db := commitDb p s.db capture w key attackKey }
  | published {snap : Snapshot} (h : s.calls i = .committed snap) :
      Wrote p engine n s i capture
        { s.set i (.published snap) with published := s.published ++ [snap] }

theorem write_wrote {reply : Reply} (h : write p engine captures s (i, reply) = some s') :
    ∃ capture, captures[i]? = some capture ∧ Wrote p engine captures.length s i capture s' := by
  obtain ⟨capture, hcap, h⟩ := Option.bind_eq_some_iff.mp h
  refine ⟨capture, hcap, ?_⟩
  cases hi : s.calls i with
  | published snap => simp [hi] at h
  | failed => simp [hi] at h
  | committed snap =>
    simp only [hi, Option.some.injEq] at h
    exact h ▸ .published hi
  | idle =>
    cases reply with
    | raises =>
      simp only [hi, Option.some.injEq] at h
      exact h ▸ .failed (by rw [hi]; rfl)
    | ok key =>
      simp only [hi] at h
      obtain ⟨prior, hprior, rfl⟩ := Option.map_eq_some_iff.mp h
      obtain ⟨-, rfl⟩ := countPriorAttempts_eq_some.mp hprior
      exact .counted hi
  | counted prior =>
    cases reply with
    | raises =>
      simp only [hi, Option.some.injEq] at h
      exact h ▸ .failed (by rw [hi]; rfl)
    | ok key =>
      simp only [hi, Option.some.injEq] at h
      exact h ▸ .selected hi
  | selected w =>
    cases reply with
    | raises =>
      simp only [hi, Option.some.injEq] at h
      exact h ▸ .failed (by rw [hi]; rfl)
    | ok key =>
      simp only [hi, Option.ite_none_right_eq_some, Option.some.injEq, Bool.and_eq_true] at h
      exact h.2 ▸ .flushedIncident hi h.1.1 h.1.2
  | flushedIncident w key =>
    cases reply with
    | raises =>
      simp only [hi, Option.some.injEq] at h
      exact h ▸ .failed (by rw [hi]; rfl)
    | ok attackKey =>
      simp only [hi, Option.ite_none_right_eq_some, Option.some.injEq, Bool.and_eq_true] at h
      exact h.2 ▸ .flushedAttack hi h.1.2
  | flushedAttack w key attackKey =>
    cases reply with
    | raises =>
      simp only [hi, Option.some.injEq] at h
      exact h ▸ .failed (by rw [hi]; rfl)
    | ok _ =>
      simp only [hi, Option.some.injEq] at h
      exact h ▸ .committed hi

/-- A step that changes the tables is a commit, and a step that publishes is the one after it. -/
theorem write_effect {reply : Reply} (h : write p engine captures s (i, reply) = some s') :
    Atomic s s' ∧ (s'.calls i = .failed → s'.db = s.db ∧ s'.published = s.published) ∧
      ((s'.calls i).snapshot = none → s'.db = s.db ∧ s'.published = s.published) ∧
      (∀ snap, (s.calls i).snapshot = some snap → (s'.calls i).snapshot = some snap) ∧
      ∀ j, j ≠ i → s'.calls j = s.calls j := by
  obtain ⟨capture, -, hw⟩ := write_wrote h
  have hset : ∀ stage j, j ≠ i → (s.set i stage).calls j = s.calls j := fun stage j hj =>
    Function.update_of_ne hj _ _
  have hself : ∀ stage, (s.set i stage).calls i = stage := fun stage => Function.update_self _ _ _
  cases hw with
  | failed hi => exact ⟨Or.inl rfl, fun _ => ⟨rfl, rfl⟩, fun _ => ⟨rfl, rfl⟩, by simp [hi], hset _⟩
  | counted hi =>
    exact ⟨Or.inl rfl, fun _ => ⟨rfl, rfl⟩, fun _ => ⟨rfl, rfl⟩, by simp [hi, Stage.snapshot], hset _⟩
  | selected hi =>
    exact ⟨Or.inl rfl, fun _ => ⟨rfl, rfl⟩, fun _ => ⟨rfl, rfl⟩, by simp [hi, Stage.snapshot], hset _⟩
  | flushedIncident hi =>
    exact ⟨Or.inl rfl, fun _ => ⟨rfl, rfl⟩, fun _ => ⟨rfl, rfl⟩, by simp [hi, Stage.snapshot], hset _⟩
  | flushedAttack hi =>
    exact ⟨Or.inl rfl, fun _ => ⟨rfl, rfl⟩, fun _ => ⟨rfl, rfl⟩, by simp [hi, Stage.snapshot], hset _⟩
  | committed hi =>
    refine ⟨Or.inr ⟨_, _, _, _, _, _, rfl⟩, fun hf => ?_, fun hf => ?_, by simp [hi, Stage.snapshot],
      hset _⟩
    · exact absurd ((hself _).symm.trans hf) (by simp)
    · exact absurd ((congrArg Stage.snapshot (hself _)).symm.trans hf) (by simp [Stage.snapshot])
  | published hi =>
    refine ⟨Or.inl rfl, fun hf => ?_, fun hf => ?_, fun x hx => ?_, hset _⟩
    · exact absurd ((hself _).symm.trans hf) (by simp)
    · exact absurd ((congrArg Stage.snapshot (hself _)).symm.trans hf) (by simp [Stage.snapshot])
    · rw [hi] at hx
      exact (congrArg Stage.snapshot (hself _)).trans hx

/-- From its commit on a call has its snapshot. -/
theorem snapshot_run {as : List (Nat × Reply)} (hr : Runs.run (write p engine captures) s as = some s')
    {snap : Snapshot} (hi : (s.calls i).snapshot = some snap) : (s'.calls i).snapshot = some snap := by
  refine Runs.run_invariant (I := fun s => (s.calls i).snapshot = some snap) ?_ hi hr
  rintro s ⟨j, reply⟩ s' hs hstep
  obtain ⟨-, -, -, hkeep, hother⟩ := write_effect hstep
  by_cases hj : i = j
  · subst hj
    exact hkeep snap hs
  · rw [hother i hj]
    exact hs

/-! ## The invariant -/

/-- What a call has read for its incident. -/
def Stage.pending : Stage → Option Pending
  | .selected w | .flushedIncident w _ | .flushedAttack w _ _ => some w
  | _ => none

/-- The incident a call works on with its key. -/
def Stage.written : Stage → Option (Pending × Nat)
  | .flushedIncident w key | .flushedAttack w key _ => some (w, key)
  | _ => none

/-- What a step that commits nothing leaves a call with. -/
structure StageOk (db : Db) (stage : Stage) : Prop where
  found : ∀ w, stage.pending = some w → ∀ row, w.found = some row → ∃ r ∈ db.incidents, r.id = row.id
  keyed : ∀ w key, stage.written = some (w, key) → ∀ row, w.found = some row → key = row.id
  fresh : ∀ key, stage.newAttackKey = some key → ∀ a ∈ db.attacks, a.id ≠ key

/-- The snapshots of the committed calls and the attacks added to `db₀` name each other. -/
structure SinksOk (n : Nat) (db₀ : Db) (s : Sinks) : Prop where
  outside : ∀ i, n ≤ i → s.calls i = .idle
  keys_nodup : (s.db.attacks.map (·.id)).Nodup
  grown : ∀ a ∈ db₀.attacks, a ∈ s.db.attacks
  stages : ∀ i, StageOk s.db (s.calls i)
  apart : ∀ i j key, (s.calls i).newAttackKey = some key → (s.calls j).newAttackKey = some key → i = j
  names : ∀ i snap, (s.calls i).snapshot = some snap →
    Names s.db snap ∧ ∀ a ∈ db₀.attacks, a.id ≠ snap.id
  distinct : ∀ i j x y, (s.calls i).snapshot = some x → (s.calls j).snapshot = some y → x.id = y.id → i = j
  origin : ∀ a ∈ s.db.attacks, a ∈ db₀.attacks ∨
    ∃ i snap, (s.calls i).snapshot = some snap ∧ snap.id = a.id
  handed : ∀ snap, snap ∈ s.published ↔ ∃ i, s.calls i = .published snap
  once : (s.published.map (·.id)).Nodup

theorem SinksOk.start {n : Nat} {db : Db} (h : (db.attacks.map (·.id)).Nodup) :
    SinksOk n db (.start db) where
  outside _ _ := rfl
  keys_nodup := h
  grown _ ha := ha
  stages _ :=
    { found := by simp [Sinks.start, Stage.pending]
      keyed := by simp [Sinks.start, Stage.written]
      fresh := by simp [Sinks.start, Stage.newAttackKey] }
  apart := by simp [Sinks.start, Stage.newAttackKey]
  names := by simp [Sinks.start, Stage.snapshot]
  distinct := by simp [Sinks.start, Stage.snapshot]
  origin _ ha := Or.inl ha
  handed := by simp [Sinks.start]
  once := List.nodup_nil

/-- A step before the commit. -/
theorem SinksOk.move {n : Nat} {db₀ : Db} (h : SinksOk n db₀ s) (hi : i < n) {stage : Stage}
    (hold : (s.calls i).snapshot = none) (hnew : stage.snapshot = none) (hok : StageOk s.db stage)
    (hapart : ∀ key, stage.newAttackKey = some key → ∀ j, j ≠ i → (s.calls j).newAttackKey ≠ some key) :
    SinksOk n db₀ (s.set i stage) := by
  have hself : (s.set i stage).calls i = stage := Function.update_self _ _ _
  have hother : ∀ j, j ≠ i → (s.set i stage).calls j = s.calls j := fun j hj => Function.update_of_ne hj _ _
  have hsnap : ∀ j, ((s.set i stage).calls j).snapshot = (s.calls j).snapshot := by
    intro j
    by_cases hj : j = i
    · rw [hj, hself, hnew, hold]
    · rw [hother j hj]
  refine
    { outside := fun j hj => by rw [hother j (by omega)]; exact h.outside j hj
      keys_nodup := h.keys_nodup
      grown := h.grown
      stages := fun j => ?_
      apart := fun j k key hj hk => ?_
      names := fun j snap hj => h.names j snap (hsnap j ▸ hj)
      distinct := fun j k x y hj hk => h.distinct j k x y (hsnap j ▸ hj) (hsnap k ▸ hk)
      origin := fun a ha => ?_
      handed := fun snap => ?_
      once := h.once }
  · by_cases hj : j = i
    · rw [hj, hself]
      exact hok
    · rw [hother j hj]
      exact h.stages j
  · by_cases hji : j = i
    · by_cases hki : k = i
      · rw [hji, hki]
      · rw [hji, hself] at hj
        rw [hother k hki] at hk
        exact absurd hk (hapart key hj k hki)
    · by_cases hki : k = i
      · rw [hki, hself] at hk
        rw [hother j hji] at hj
        exact absurd hj (hapart key hk j hji)
      · rw [hother j hji] at hj
        rw [hother k hki] at hk
        exact h.apart j k key hj hk
  · rcases h.origin a ha with hin | ⟨j, snap, hj, hid⟩
    · exact Or.inl hin
    · exact Or.inr ⟨j, snap, (hsnap j).trans hj, hid⟩
  · show snap ∈ s.published ↔ _
    rw [h.handed]
    constructor
    · rintro ⟨j, hj⟩
      refine ⟨j, ?_⟩
      rw [hother j fun hji => ?_, hj]
      rw [hji] at hj
      rw [hj] at hold
      exact absurd hold (by simp [Stage.snapshot])
    · rintro ⟨j, hj⟩
      refine ⟨j, ?_⟩
      rw [hother j fun hji => ?_] at hj
      · exact hj
      · rw [hji, hself] at hj
        rw [hj] at hnew
        exact absurd hnew (by simp [Stage.snapshot])

/-! ## The commit -/

section Commit

variable {db : Db} {capture : Capture} {w : Pending} {key attackKey : Nat}

theorem attacks_commitDb : (commitDb p db capture w key attackKey).attacks =
    db.attacks ++ [newRow p capture w key attackKey] := by
  rw [commitDb, Db.putAttack, attacks_putIncident]
  rfl

/-- An update keeps the key of its row. -/
theorem exists_incident_commitDb (p : IngestPipeline) (capture : Capture) (w : Pending)
    (key attackKey : Nat) {r : Incident} (hr : r ∈ db.incidents) :
    ∃ r' ∈ (commitDb p db capture w key attackKey).incidents, r'.id = r.id := by
  show ∃ r' ∈ (db.putIncident w.found key w.incident).incidents, r'.id = r.id
  cases hf : w.found with
  | none => exact ⟨r, List.mem_append_left _ hr, rfl⟩
  | some loaded =>
    refine ⟨_, List.mem_map.mpr ⟨r, hr, rfl⟩, ?_⟩
    split <;> rfl

/-- The incident of the call is in the table, inserted or updated. -/
theorem exists_key_commitDb (p : IngestPipeline) (capture : Capture) (attackKey : Nat)
    (hfound : ∀ row, w.found = some row → ∃ r ∈ db.incidents, r.id = row.id)
    (hkeyed : ∀ row, w.found = some row → key = row.id) :
    ∃ r ∈ (commitDb p db capture w key attackKey).incidents, r.id = key := by
  cases hf : w.found with
  | none =>
    refine ⟨{ w.incident with id := key }, ?_, rfl⟩
    show _ ∈ (db.putIncident w.found key w.incident).incidents
    rw [hf]
    exact List.mem_append_right _ (List.mem_singleton_self _)
  | some row =>
    obtain ⟨r, hr, hid⟩ := hfound row hf
    obtain ⟨r', hr', hid'⟩ := exists_incident_commitDb p capture w key attackKey hr
    exact ⟨r', hr', by rw [hid', hid, hkeyed row hf]⟩

theorem Names.commit {snap : Snapshot} (h : Names db snap) :
    Names (commitDb p db capture w key attackKey) snap := by
  obtain ⟨a, ha, hid, hinc, row, hrow, hlink⟩ := h
  obtain ⟨row', hrow', hid'⟩ := exists_incident_commitDb p capture w key attackKey hrow
  refine ⟨a, ?_, hid, hinc, row', hrow', by rw [hlink, hid']⟩
  rw [attacks_commitDb]
  exact List.mem_append_left _ ha

theorem StageOk.commit {stage : Stage} (h : StageOk db stage) (hne : stage.newAttackKey ≠ some attackKey) :
    StageOk (commitDb p db capture w key attackKey) stage where
  found v hv row hrow := by
    obtain ⟨r, hr, hid⟩ := h.found v hv row hrow
    obtain ⟨r', hr', hid'⟩ := exists_incident_commitDb p capture w key attackKey hr
    exact ⟨r', hr', hid'.trans hid⟩
  keyed := h.keyed
  fresh k hk a ha := by
    rw [attacks_commitDb, List.mem_append, List.mem_singleton] at ha
    rcases ha with ha | rfl
    · exact h.fresh k hk a ha
    · rintro rfl
      exact hne hk

/-- The commit of a call adds its row, and its snapshot names that row. -/
theorem SinksOk.commit {n : Nat} {db₀ : Db} (h : SinksOk n db₀ s) (hi : i < n)
    (hstage : s.calls i = .flushedAttack w key attackKey) :
    SinksOk n db₀ { s.set i (.committed (commitSnapshot p capture w key attackKey)) with
      db := commitDb p s.db capture w key attackKey } := by
  have hnew : (s.calls i).newAttackKey = some attackKey := by rw [hstage]; rfl
  have hself : (s.set i (.committed (commitSnapshot p capture w key attackKey))).calls i =
      .committed (commitSnapshot p capture w key attackKey) := Function.update_self _ _ _
  have hother : ∀ j, j ≠ i →
      (s.set i (.committed (commitSnapshot p capture w key attackKey))).calls j = s.calls j :=
    fun j hj => Function.update_of_ne hj _ _
  have hold : (s.calls i).snapshot = none := by rw [hstage]; rfl
  have hfresh : ∀ a ∈ s.db.attacks, a.id ≠ attackKey := (h.stages i).fresh attackKey hnew
  have hlater : ∀ j snap, (s.calls j).snapshot = some snap → snap.id ≠ attackKey := by
    intro j snap hj
    obtain ⟨a, ha, hid, -⟩ := (h.names j snap hj).1
    exact hid ▸ hfresh a ha
  -- A call has a snapshot after the commit if it had one before, or if it is the one that commits.
  have hsnap : ∀ j snap, ((s.set i (.committed (commitSnapshot p capture w key attackKey))).calls j).snapshot
      = some snap ↔ (j = i ∧ commitSnapshot p capture w key attackKey = snap) ∨
        (s.calls j).snapshot = some snap := by
    intro j snap
    by_cases hj : j = i
    · rw [hj, hself, hold]
      simp [Stage.snapshot]
    · rw [hother j hj]
      simp [hj]
  refine
    { outside := fun j hj => by
        rw [show _ = s.calls j from hother j (by omega)]
        exact h.outside j hj
      keys_nodup := ?_
      grown := fun a ha => ?_
      stages := fun j => ?_
      apart := fun j k key' hj hk => ?_
      names := fun j snap hj => ?_
      distinct := fun j k x y hj hk hxy => ?_
      origin := fun a ha => ?_
      handed := fun snap => ?_
      once := h.once }
  · show ((commitDb p s.db capture w key attackKey).attacks.map (·.id)).Nodup
    rw [attacks_commitDb, List.map_append, List.map_singleton, List.nodup_append]
    refine ⟨h.keys_nodup, List.nodup_singleton _, fun k hk k' hk' => ?_⟩
    obtain ⟨a, ha, rfl⟩ := List.mem_map.mp hk
    rw [List.mem_singleton.mp hk']
    exact hfresh a ha
  · show a ∈ (commitDb p s.db capture w key attackKey).attacks
    rw [attacks_commitDb]
    exact List.mem_append_left _ (h.grown a ha)
  · by_cases hj : j = i
    · rw [hj, show _ = Stage.committed _ from hself]
      exact
        { found := by simp [Stage.pending]
          keyed := by simp [Stage.written]
          fresh := by simp [Stage.newAttackKey] }
    · rw [show _ = s.calls j from hother j hj]
      exact (h.stages j).commit fun hk => hj (h.apart j i attackKey hk hnew)
  · by_cases hji : j = i
    · rw [hji, show _ = Stage.committed _ from hself] at hj
      simp [Stage.newAttackKey] at hj
    · by_cases hki : k = i
      · rw [hki, show _ = Stage.committed _ from hself] at hk
        simp [Stage.newAttackKey] at hk
      · rw [show _ = s.calls j from hother j hji] at hj
        rw [show _ = s.calls k from hother k hki] at hk
        exact h.apart j k key' hj hk
  · rcases (hsnap j snap).mp hj with ⟨rfl, rfl⟩ | hj
    · refine ⟨⟨newRow p capture w key attackKey, ?_, rfl, rfl, ?_⟩, fun a ha => ?_⟩
      · rw [attacks_commitDb]
        exact List.mem_append_right _ (List.mem_singleton_self _)
      · have hpending : (s.calls j).pending = some w := by rw [hstage]; rfl
        have hwritten : (s.calls j).written = some (w, key) := by rw [hstage]; rfl
        obtain ⟨r, hr, hid⟩ := exists_key_commitDb p capture attackKey
          ((h.stages j).found w hpending) ((h.stages j).keyed w key hwritten)
        exact ⟨r, hr, congrArg some hid.symm⟩
      · exact hfresh a (h.grown a ha)
    · exact ⟨(h.names j snap hj).1.commit, (h.names j snap hj).2⟩
  · rcases (hsnap j x).mp hj with ⟨hji, rfl⟩ | hj'
    · rcases (hsnap k y).mp hk with ⟨hki, rfl⟩ | hk'
      · rw [hji, hki]
      · exact absurd hxy.symm (hlater k y hk')
    · rcases (hsnap k y).mp hk with ⟨hki, rfl⟩ | hk'
      · exact absurd hxy (hlater j x hj')
      · exact h.distinct j k x y hj' hk' hxy
  · rw [attacks_commitDb, List.mem_append, List.mem_singleton] at ha
    rcases ha with ha | rfl
    · rcases h.origin a ha with hin | ⟨j, snap, hj, hid⟩
      · exact Or.inl hin
      · exact Or.inr ⟨j, snap, (hsnap j snap).mpr (Or.inr hj), hid⟩
    · exact Or.inr ⟨i, _, (hsnap i _).mpr (Or.inl ⟨rfl, rfl⟩), rfl⟩
  · show snap ∈ s.published ↔ _
    rw [h.handed]
    refine exists_congr fun j => ?_
    by_cases hj : j = i
    · rw [hj, show _ = Stage.committed _ from hself, hstage]
      simp
    · rw [show _ = s.calls j from hother j hj]

end Commit

/-- The callback is called with the snapshot of a call that is committed. -/
theorem SinksOk.publish {n : Nat} {db₀ : Db} (h : SinksOk n db₀ s) (hi : i < n) {snap : Snapshot}
    (hstage : s.calls i = .committed snap) :
    SinksOk n db₀ { s.set i (.published snap) with published := s.published ++ [snap] } := by
  have hself : (s.set i (.published snap)).calls i = .published snap := Function.update_self _ _ _
  have hother : ∀ j, j ≠ i → (s.set i (.published snap)).calls j = s.calls j := fun j hj =>
    Function.update_of_ne hj _ _
  have hmine : (s.calls i).snapshot = some snap := by rw [hstage]; rfl
  have hsnap : ∀ j, ((s.set i (.published snap)).calls j).snapshot = (s.calls j).snapshot := by
    intro j
    by_cases hj : j = i
    · rw [hj, hself, hmine]
      rfl
    · rw [hother j hj]
  refine
    { outside := fun j hj => by
        rw [show _ = s.calls j from hother j (by omega)]
        exact h.outside j hj
      keys_nodup := h.keys_nodup
      grown := h.grown
      stages := fun j => ?_
      apart := fun j k key hj hk => ?_
      names := fun j x hj => h.names j x ((hsnap j).symm.trans hj)
      distinct := fun j k x y hj hk => h.distinct j k x y ((hsnap j).symm.trans hj) ((hsnap k).symm.trans hk)
      origin := fun a ha => ?_
      handed := fun x => ?_
      once := ?_ }
  · by_cases hj : j = i
    · rw [hj, show _ = Stage.published _ from hself]
      exact
        { found := by simp [Stage.pending]
          keyed := by simp [Stage.written]
          fresh := by simp [Stage.newAttackKey] }
    · rw [show _ = s.calls j from hother j hj]
      exact h.stages j
  · by_cases hji : j = i
    · rw [hji, show _ = Stage.published _ from hself] at hj
      simp [Stage.newAttackKey] at hj
    · by_cases hki : k = i
      · rw [hki, show _ = Stage.published _ from hself] at hk
        simp [Stage.newAttackKey] at hk
      · rw [show _ = s.calls j from hother j hji] at hj
        rw [show _ = s.calls k from hother k hki] at hk
        exact h.apart j k key hj hk
  · rcases h.origin a ha with hin | ⟨j, x, hj, hid⟩
    · exact Or.inl hin
    · exact Or.inr ⟨j, x, (hsnap j).trans hj, hid⟩
  · rw [List.mem_append, List.mem_singleton, h.handed]
    constructor
    · rintro (⟨j, hj⟩ | rfl)
      · refine ⟨j, (hother j fun hji => ?_).trans hj⟩
        rw [hji, hstage] at hj
        simp at hj
      · exact ⟨i, hself⟩
    · rintro ⟨j, hj⟩
      by_cases hji : j = i
      · rw [hji, show _ = Stage.published _ from hself] at hj
        exact Or.inr (Stage.published.inj hj).symm
      · exact Or.inl ⟨j, (hother j hji).symm.trans hj⟩
  · rw [List.map_append, List.map_singleton, List.nodup_append]
    refine ⟨h.once, List.nodup_singleton _, fun k hk k' hk' => ?_⟩
    obtain ⟨x, hx, rfl⟩ := List.mem_map.mp hk
    obtain ⟨j, hj⟩ := (h.handed x).mp hx
    rw [List.mem_singleton.mp hk']
    intro hid
    have hji := h.distinct j i x snap (by rw [hj]; rfl) hmine hid
    rw [hji, hstage] at hj
    simp at hj

theorem acceptsIncidentKey_found {n key : Nat} {w : Pending} (h : s.acceptsIncidentKey n w key = true)
    {row : Incident} (hrow : w.found = some row) : key = row.id := by
  simpa [Sinks.acceptsIncidentKey, hrow] using h

theorem selectIncident_mem {incidents : List Incident} {sourceIp : String} {row : Incident}
    (h : selectIncident engine incidents sourceIp = some row) : row ∈ incidents :=
  (List.mem_filter.mp (List.maxOn?_mem h)).1

theorem SinksOk.step {n : Nat} {db₀ : Db} (h : SinksOk n db₀ s) (hi : i < n) {capture : Capture}
    (hw : Wrote p engine n s i capture s') : SinksOk n db₀ s' := by
  cases hw with
  | failed hold =>
    exact h.move hi hold rfl
      { found := by simp [Stage.pending]
        keyed := by simp [Stage.written]
        fresh := by simp [Stage.newAttackKey] } (by simp [Stage.newAttackKey])
  | counted hold =>
    exact h.move hi (by rw [hold]; rfl) rfl
      { found := by simp [Stage.pending]
        keyed := by simp [Stage.written]
        fresh := by simp [Stage.newAttackKey] } (by simp [Stage.newAttackKey])
  | selected hold =>
    refine h.move hi (by rw [hold]; rfl) rfl
      { found := fun w hw row hrow => ?_
        keyed := by simp [Stage.written]
        fresh := by simp [Stage.newAttackKey] } (by simp [Stage.newAttackKey])
    obtain rfl := Option.some.inj hw
    exact ⟨row, selectIncident_mem hrow, rfl⟩
  | @flushedIncident w key hold hacc hkey =>
    refine h.move hi (by rw [hold]; rfl) rfl
      { found := fun w' hw row hrow => ?_
        keyed := fun w' key' hw row hrow => ?_
        fresh := by simp [Stage.newAttackKey] } (by simp [Stage.newAttackKey])
    · obtain rfl := Option.some.inj hw
      exact (h.stages i).found w (by rw [hold]; rfl) row hrow
    · obtain ⟨rfl, rfl⟩ := Prod.mk.inj (Option.some.inj hw)
      exact acceptsIncidentKey_found hkey hrow
  | @flushedAttack w key attackKey hold hkey =>
    rw [Sinks.acceptsAttackKey, Bool.and_eq_true, List.all_eq_true, List.all_eq_true] at hkey
    refine h.move hi (by rw [hold]; rfl) rfl
      { found := fun w' hw row hrow => ?_
        keyed := fun w' key' hw row hrow => ?_
        fresh := fun k hk a ha => ?_ } fun k hk j hj hjk => ?_
    · obtain rfl := Option.some.inj hw
      exact (h.stages i).found w (by rw [hold]; rfl) row hrow
    · obtain ⟨rfl, rfl⟩ := Prod.mk.inj (Option.some.inj hw)
      exact (h.stages i).keyed w key (by rw [hold]; rfl) row hrow
    · obtain rfl := Option.some.inj hk
      simpa using hkey.1 a ha
    · obtain rfl := Option.some.inj hk
      by_cases hjn : j < n
      · exact absurd hjk (by simpa using hkey.2 j (List.mem_range.mpr hjn))
      · rw [h.outside j (by omega)] at hjk
        simp [Stage.newAttackKey] at hjk
  | committed hold => exact h.commit hi hold
  | published hold => exact h.publish hi hold

theorem sinksOk_run {db₀ : Db} (h₀ : (db₀.attacks.map (·.id)).Nodup) {as : List (Nat × Reply)}
    (hr : Runs.run (write p engine captures) (.start db₀) as = some s) :
    SinksOk captures.length db₀ s := by
  refine Runs.run_invariant (I := SinksOk captures.length db₀) ?_ (.start h₀) hr
  rintro t ⟨j, reply⟩ t' ht hstep
  obtain ⟨capture, hcap, hw⟩ := write_wrote hstep
  exact ht.step (List.getElem?_eq_some_iff.mp hcap).1 hw

/-! ## Main results -/

theorem SinksOk.corresponds {n : Nat} {db₀ : Db} (h : SinksOk n db₀ s)
    (h₀ : (db₀.attacks.map (·.id)).Nodup) : Corresponds db₀ s := by
  have hsnap : ∀ snap ∈ s.published, ∃ i, (s.calls i).snapshot = some snap := by
    intro snap hmem
    obtain ⟨i, hi⟩ := (h.handed snap).mp hmem
    exact ⟨i, by rw [hi]; rfl⟩
  have hcovered : ∀ a ∈ s.db.attacks, a ∈ db₀.attacks ∨ (∃ snap ∈ s.published, snap.id = a.id) ∨
      ∃ i snap, s.calls i = .committed snap ∧ snap.id = a.id := by
    intro a ha
    rcases h.origin a ha with hin | ⟨i, snap, hi, hid⟩
    · exact Or.inl hin
    · cases hstage : s.calls i with
      | committed x =>
        rw [hstage] at hi
        obtain rfl := Option.some.inj hi
        exact Or.inr (Or.inr ⟨i, x, hstage, hid⟩)
      | published x =>
        rw [hstage] at hi
        obtain rfl := Option.some.inj hi
        exact Or.inr (Or.inl ⟨x, (h.handed x).mpr ⟨i, hstage⟩, hid⟩)
      | _ =>
        rw [hstage] at hi
        exact absurd hi (by simp [Stage.snapshot])
  refine
    { named := fun snap hmem => ?_
      once := h.once
      covered := hcovered
      oneToOne := fun hquiet => ?_ }
  · obtain ⟨i, hi⟩ := hsnap snap hmem
    exact (h.names i snap hi).1
  · have hnodup : (db₀.attacks.map (·.id) ++ s.published.map (·.id)).Nodup := by
      refine List.nodup_append.mpr ⟨h₀, h.once, fun k hk k' hk' => ?_⟩
      obtain ⟨a, ha, rfl⟩ := List.mem_map.mp hk
      obtain ⟨snap, hmem, rfl⟩ := List.mem_map.mp hk'
      obtain ⟨i, hi⟩ := hsnap snap hmem
      exact (h.names i snap hi).2 a ha
    refine (List.perm_ext_iff_of_nodup h.keys_nodup hnodup).mpr fun k => ?_
    simp only [List.mem_append, List.mem_map]
    constructor
    · rintro ⟨a, ha, rfl⟩
      rcases hcovered a ha with hin | hpub | ⟨i, snap, hi, -⟩
      · exact Or.inl ⟨a, hin, rfl⟩
      · exact Or.inr hpub
      · exact absurd hi (hquiet i snap)
    · rintro (⟨a, ha, rfl⟩ | ⟨snap, hmem, rfl⟩)
      · exact ⟨a, h.grown a ha, rfl⟩
      · obtain ⟨i, hi⟩ := hsnap snap hmem
        obtain ⟨a, ha, hid, -⟩ := (h.names i snap hi).1
        exact ⟨a, ha, hid⟩

theorem SinksOk.publishesCommitted {n : Nat} {db₀ : Db} (h : SinksOk n db₀ s) {capture : Capture}
    (hw : Wrote p engine n s i capture s') : PublishesCommitted s s' := by
  cases hw with
  | published hold => exact Or.inr ⟨_, rfl, (h.names i _ (by rw [hold]; rfl)).1⟩
  | _ => exact Or.inl rfl

/-- Calls of `write` on a database and with a callback that fail wherever they like. A step changes the
tables by a whole commit or not at all, and publishes what is committed; the steps of a call that has
no snapshot, because it failed or is still in its transaction, change and publish nothing; and the
snapshots that were published and the attacks that were added correspond. -/
theorem published_correspond {db₀ : Db} (h₀ : (db₀.attacks.map (·.id)).Nodup)
    {as : List (Nat × Reply)} (hr : Runs.run (write p engine captures) (.start db₀) as = some s) :
    (∀ as₁ j reply as₂ t t', as = as₁ ++ (j, reply) :: as₂ →
        Runs.run (write p engine captures) (.start db₀) as₁ = some t →
        write p engine captures t (j, reply) = some t' →
        Atomic t t' ∧ PublishesCommitted t t' ∧
          ((s.calls j).snapshot = none → t'.db = t.db ∧ t'.published = t.published)) ∧
      Corresponds db₀ s := by
  refine ⟨fun as₁ j reply as₂ t t' has ht hstep => ?_, (sinksOk_run h₀ hr).corresponds h₀⟩
  obtain ⟨hatomic, -, hsilent, -, -⟩ := write_effect hstep
  obtain ⟨capture, -, hw⟩ := write_wrote hstep
  refine ⟨hatomic, (sinksOk_run h₀ ht).publishesCommitted hw, fun hnone => hsilent ?_⟩
  have hrest : Runs.run (write p engine captures) t' as₂ = some s := by
    rw [has] at hr
    obtain ⟨u, hu, hr⟩ := Runs.run_append.mp hr
    obtain rfl := Option.some.inj (ht.symm.trans hu)
    obtain ⟨u', hu', hr⟩ := Runs.run_cons.mp hr
    obtain rfl := Option.some.inj (hstep.symm.trans hu')
    exact hr
  cases hsnap : (t'.calls j).snapshot with
  | none => rfl
  | some snap => exact absurd (hnone.symm.trans (snapshot_run hrest hsnap)) (by simp)

/-- Two sessions of one address: the first has flushed its incident and then fails, the second goes on
and its callback raises. -/
theorem published_correspond_failing :
    ∃ s, Runs.run (write .twoInstants .postgres
        [.guess "2026-01-01T00:00:10+00:00" "8.8.8.8", .guess "2026-01-01T00:00:20+00:00" "8.8.8.8"])
        (.start {}) [(0, .ok 0), (1, .ok 0), (0, .ok 0), (0, .ok 1), (1, .ok 0), (0, .raises), (1, .ok 2),
          (1, .ok 1), (1, .ok 0), (1, .raises)] = some s ∧
      (s.calls 0).snapshot = none ∧ (s.calls 1).snapshot.isSome = true ∧ Corresponds {} s := by
  have hrun : ((Runs.run (write .twoInstants .postgres
      [.guess "2026-01-01T00:00:10+00:00" "8.8.8.8", .guess "2026-01-01T00:00:20+00:00" "8.8.8.8"])
      (.start {}) [(0, .ok 0), (1, .ok 0), (0, .ok 0), (0, .ok 1), (1, .ok 0), (0, .raises), (1, .ok 2),
        (1, .ok 1), (1, .ok 0), (1, .raises)]).any fun s =>
      (s.calls 0).snapshot.isNone && (s.calls 1).snapshot.isSome) = true := by
    with_unfolding_all decide
  obtain ⟨s, hs, h⟩ := (Option.any_eq_true _ _).mp hrun
  rw [Bool.and_eq_true, Option.isNone_iff_eq_none] at h
  exact ⟨s, hs, h.1, h.2, (published_correspond (by simp) hs).2⟩

/-! ## A call on its own -/

@[simp] theorem calls_set_self (s : Sinks) (i : Nat) (stage : Stage) : (s.set i stage).calls i = stage :=
  Function.update_self _ _ _

@[simp] theorem db_set (s : Sinks) (i : Nat) (stage : Stage) : (s.set i stage).db = s.db := rfl

@[simp] theorem set_set (s : Sinks) (i : Nat) (stage stage' : Stage) :
    (s.set i stage).set i stage' = s.set i stage' := by
  simp [Sinks.set]

theorem calls_start_set {db : Db} {β : Type*} {f : Stage → Option β} (hidle : f .idle = none) {stage : Stage}
    (hstage : f stage = none) (i j : Nat) : f (((Sinks.start db).set i stage).calls j) = none := by
  by_cases hj : j = i
  · rw [hj, calls_set_self, hstage]
  · rw [show ((Sinks.start db).set i stage).calls j = .idle from Function.update_of_ne hj _ _, hidle]

/-- A call that nothing disturbs does what `process` does, and publishes its snapshot. -/
theorem write_alone {db db' : Db} {capture : Capture} {snap : Snapshot}
    (hincidents : ∀ r ∈ db.incidents, r.id < db.nextIncident)
    (hattacks : ∀ a ∈ db.attacks, a.id < db.nextAttack) (hcap : captures[i]? = some capture)
    (hp : p.process engine db capture = .ok (db', snap)) :
    ∃ as s, Runs.run (write p engine captures) (.start db) as = some s ∧ s.db = db' ∧
      s.published = [snap] := by
  obtain ⟨d, key, hd, hkey, hdb, hsnap, hacc, hacca, haccc⟩ := process_ok_snapshot hp
  set prior := p.priorAttempts engine db.attacks capture.sourceIp (p.captureTs capture) with hprior
  set w : Pending := ⟨prior, (correlate engine db.incidents d.correlateArgs).1,
    (correlate engine db.incidents d.correlateArgs).2⟩ with hw
  have hwkey : key = db.incidentKey w.found := hkey
  have hincidentKey : ((Sinks.start db).set i (.selected w)).acceptsIncidentKey captures.length w key
      = true := by
    rw [Sinks.acceptsIncidentKey]
    cases hfound : w.found with
    | none =>
      have hkey' : key = db.nextIncident := by rw [hwkey, hfound]; rfl
      simp only [Bool.and_eq_true, List.all_eq_true, decide_eq_true_eq]
      refine ⟨fun r hr => ?_, fun j _ => ?_⟩
      · rw [hkey']
        exact (hincidents r hr).ne
      · rw [calls_start_set (f := Stage.newIncidentKey) rfl rfl]
        simp
    | some row =>
      simp only [decide_eq_true_eq]
      rw [hwkey, hfound]
      rfl
  have hattackKey : ((Sinks.start db).set i (.flushedIncident w key)).acceptsAttackKey captures.length
      db.nextAttack = true := by
    simp only [Sinks.acceptsAttackKey, Bool.and_eq_true, List.all_eq_true, decide_eq_true_eq]
    refine ⟨fun a ha => (hattacks a ha).ne, fun j _ => ?_⟩
    rw [calls_start_set (f := Stage.newAttackKey) rfl rfl]
    simp
  refine ⟨[(i, .ok 0), (i, .ok 0), (i, .ok key), (i, .ok db.nextAttack), (i, .ok 0), (i, .ok 0)],
    { (Sinks.start db).set i (.published snap) with db := db', published := [snap] }, ?_, rfl, rfl⟩
  have h₁ : write p engine captures (.start db) (i, .ok 0) =
      some ((Sinks.start db).set i (.counted prior)) := by
    have hcount : p.countPriorAttempts engine db.attacks capture.sourceIp (p.captureTs capture) = some prior :=
      countPriorAttempts_eq_some.mpr ⟨windowStart_of_process hp, hprior.symm⟩
    simp [write, hcap, Sinks.start, hcount]
  have h₂ : write p engine captures ((Sinks.start db).set i (.counted prior)) (i, .ok 0) =
      some ((Sinks.start db).set i (.selected w)) := by
    simp [write, hcap, hw, hd, Sinks.start]
  have h₃ : write p engine captures ((Sinks.start db).set i (.selected w)) (i, .ok key) =
      some ((Sinks.start db).set i (.flushedIncident w key)) := by
    simp [write, hcap, hincidentKey, show engine.acceptsAll w.incident.columns = true from hacc]
  have h₄ : write p engine captures ((Sinks.start db).set i (.flushedIncident w key))
      (i, .ok db.nextAttack) = some ((Sinks.start db).set i (.flushedAttack w key db.nextAttack)) := by
    have hdraft : p.draft capture w.prior = d := hd.symm
    simp only [write, hcap, Option.bind_some, calls_set_self, hdraft, hacca, haccc, hattackKey, Bool.and_self,
      if_true, set_set]
  have h₅ : write p engine captures ((Sinks.start db).set i (.flushedAttack w key db.nextAttack))
      (i, .ok 0) = some { (Sinks.start db).set i (.committed snap) with db := db' } := by
    have hdraft : p.draft capture w.prior = d := hd.symm
    simp only [write, hcap, Option.bind_some, calls_set_self, hdraft, Stage.transaction, List.foldl_cons,
      List.foldl_nil, Statement.execute, set_set, db_set, hdb, hsnap]
    rfl
  have h₆ : write p engine captures { (Sinks.start db).set i (.committed snap) with db := db' }
      (i, .ok 0) = some { (Sinks.start db).set i (.published snap) with db := db', published := [snap] } := by
    simp [write, hcap, Sinks.set, Sinks.start]
  simp only [Runs.run, h₁, h₂, h₃, h₄, h₅, h₆, Option.bind_some]

end Sink

end SentinelSsh.Honeypot

import SentinelSsh.Core.Proofs.CorrelationProofs

/-!
# The first and the last sighting of an incident

`correlate` assigns `last_seen` the timestamp of the session at hand, and leaves `first_seen` at the
one of the first session. Over the history of an address this brackets the attacks of a piece exactly
as long as they arrive in the order of their timestamps (`snoc_bracketed`), and over runs of the
database exactly as long as no session is older than what its incident already holds
(`bracketed_iff_chronological`).
-/

namespace SentinelSsh.Core

namespace Piece

/-- The timestamps of the attacks of a piece, as the engine compares them. -/
def moments (engine : Engine) (piece : Piece) : List Int :=
  piece.attacks.map (engine.key ·.timestamp)

/-- The sightings the incident of a piece shows bracket its attacks. -/
def Bracketed (engine : Engine) (piece : Piece) : Prop :=
  (piece.moments engine).min? = some (engine.key piece.first.timestamp) ∧
    (piece.moments engine).max? = some (engine.key (piece.later.getLastD piece.first).timestamp)

variable {engine : Engine}

theorem moments_snoc (piece : Piece) (a : AttackCols) :
    (piece.snoc a).moments engine = piece.moments engine ++ [engine.key a.timestamp] := by
  simp [moments]

theorem bracketed_singleton (a : AttackCols) : (Piece.mk a []).Bracketed engine := ⟨rfl, rfl⟩

/-- One more attack keeps the bracket exactly when it is not older than the others. -/
theorem snoc_bracketed {piece : Piece} (h : piece.Bracketed engine) (a : AttackCols) :
    (piece.snoc a).Bracketed engine ↔ ∀ b ∈ piece.attacks, engine.key b.timestamp ≤ engine.key a.timestamp := by
  obtain ⟨hmin, hmax⟩ := h
  rw [List.min?_eq_some_iff] at hmin
  simp only [Bracketed, moments_snoc, lastSeen_snoc, first_snoc, List.min?_eq_some_iff,
    List.max?_eq_some_iff, List.mem_append, List.mem_singleton]
  constructor
  · rintro ⟨-, -, hle⟩ b hb
    exact hle _ (Or.inl (List.mem_map_of_mem hb))
  · intro hle
    have hfirst : piece.first ∈ piece.attacks := List.mem_cons_self
    refine ⟨⟨Or.inl hmin.1, fun t ht => ?_⟩, Or.inr trivial, fun t ht => ?_⟩
    · rcases ht with ht | rfl
      · exact hmin.2 t ht
      · exact hle _ hfirst
    · rcases ht with ht | rfl
      · obtain ⟨b, hb, rfl⟩ := List.mem_map.mp ht
        exact hle b hb
      · exact le_refl _

end Piece

namespace Ledger

variable {l : Ledger} {engine : Engine}

/-- A session keeps the brackets of a history exactly when no attack of the growing piece is later. -/
theorem attack_bracketed (h : ∀ q ∈ l.pieces, q.1.Bracketed engine) (a : AttackCols) :
    (∀ q ∈ (l.apply (.attack a)).pieces, q.1.Bracketed engine) ↔
      ∀ piece, l.current = some piece → ∀ b ∈ piece.attacks, engine.key b.timestamp ≤ engine.key a.timestamp := by
  have hpast : ∀ q ∈ l.past.map (·, IncidentStatus.closed), q.1.Bracketed engine := fun q hq =>
    h q (List.mem_append_left _ hq)
  rw [pieces_attack]
  constructor
  · intro hall piece hcur
    have hsnoc := hall (l.current.elim ⟨a, []⟩ (·.snoc a), l.status) (by simp)
    rw [hcur, Option.elim_some] at hsnoc
    exact (Piece.snoc_bracketed (h (piece, l.status) (by simp [pieces, hcur])) a).mp hsnoc
  · intro hle q hq
    rw [List.mem_append, List.mem_singleton] at hq
    rcases hq with hq | rfl
    · exact hpast q hq
    · cases hcur : l.current with
      | none => exact Piece.bracketed_singleton a
      | some piece =>
        exact (Piece.snoc_bracketed (h (piece, l.status) (by simp [pieces, hcur])) a).mpr (hle piece hcur)

end Ledger

section

variable {db db' : Db} {book : String → Ledger} {p : IngestPipeline} {engine : Engine}

theorem Correlated.bracketed_iff (h : Correlated db book) :
    db.Bracketed engine ↔ ∀ ip, ∀ piece ∈ (book ip).pieces, piece.1.Bracketed engine := by
  have hrow : ∀ i piece, RowOf db i piece →
      ((db.moments engine i).min? = some (engine.key i.firstSeen) ∧
        (db.moments engine i).max? = some (engine.key i.lastSeen) ↔ piece.1.Bracketed engine) := by
    intro i piece hr
    have hinst : db.moments engine i = piece.1.moments engine := by
      rw [Piece.moments, ← hr.linked, List.map_map]
      rfl
    rw [hinst, hr.cols]
    rfl
  constructor
  · intro hb ip piece hpiece
    obtain ⟨n, hn, rfl⟩ := List.getElem_of_mem hpiece
    have hlen := (h.rows ip).length_eq
    have hr := (h.rows ip).get (by omega) hn
    exact (hrow _ _ hr).mp (hb _ (mem_incidentsOf.mp (List.getElem_mem _)).1)
  · intro hb i hi
    obtain ⟨q, hq, hr⟩ := h.row_of_mem hi
    exact (hrow i q hr).mpr (hb i.sourceIp q hq)

theorem bracketed_setStatus (h : db.Bracketed engine) (id : Nat) (st : IncidentStatus) :
    (db.setStatus id st).Bracketed engine := by
  intro i hi
  obtain ⟨j, hj, rfl⟩ := List.mem_map.mp hi
  have hb := h j hj
  split
  · exact hb
  · exact hb

/-- The sessions an open incident of an address holds are those of the growing piece. -/
theorem Correlated.chronological_iff (h : Correlated db book) (capture : Capture) :
    Chronological p engine db (.ingest capture) ↔ ∀ piece, (book capture.sourceIp).current = some piece →
      ∀ b ∈ piece.attacks, engine.key b.timestamp ≤ engine.key (p.captureTs capture) := by
  constructor
  · intro hc piece hcur b hb
    obtain ⟨pre, -, ⟨hnone, -⟩ | ⟨piece', i, hsome, hl, hrow⟩⟩ := h.rows_split capture.sourceIp
    · rw [hcur] at hnone
      exact absurd hnone (by simp)
    · obtain rfl : piece = piece' := by simpa [hcur] using hsome
      have hst : i.status ≠ .closed := by
        rw [congrArg IncidentCols.status hrow.cols]
        exact status_ne_closed _
      obtain ⟨hi, hip⟩ := mem_incidentsOf.mp (show i ∈ db.incidentsOf capture.sourceIp by rw [hl]; simp)
      rw [← hrow.linked] at hb
      obtain ⟨c, hcmem, rfl⟩ := List.mem_map.mp hb
      exact hc i hi hip hst c hcmem
  · intro hle i hi hip hst c hcmem
    obtain ⟨piece, pre, hcur, -, hrow, -⟩ := h.current_of_open hi hst
    refine hle piece (hip ▸ hcur) c.toAttackCols ?_
    rw [← hrow.linked]
    exact List.mem_map_of_mem hcmem

/-- A step keeps the brackets exactly when it is chronological. -/
theorem Correlated.bracketed_step (h : Correlated db book) (hb : db.Bracketed engine) {e : Event}
    (hs : step p engine db e = some db') : db'.Bracketed engine ↔ Chronological p engine db e := by
  cases e with
  | ingest capture =>
    obtain ⟨snap, hok⟩ := process_of_toOption hs
    obtain ⟨a, ha, -, hcor⟩ := h.process hok
    have hip : a.sourceIp = capture.sourceIp := by rw [ha]; rfl
    have hts : a.timestamp = p.captureTs capture := by rw [ha]; rfl
    have hpieces := h.bracketed_iff.mp hb
    rw [hcor.bracketed_iff, h.chronological_iff, ← hip, ← hts,
      ← Ledger.attack_bracketed (hpieces a.sourceIp) a]
    constructor
    · intro hall q hq
      exact hall a.sourceIp q (by rw [Function.update_self]; exact hq)
    · intro hall ip q hq
      by_cases hipa : ip = a.sourceIp
      · subst hipa
        rw [Function.update_self] at hq
        exact hall q hq
      · rw [Function.update_of_ne hipa] at hq
        exact hpieces ip q hq
  | triage id =>
    simp only [step, Option.ite_none_right_eq_some, Option.some.injEq] at hs
    obtain ⟨-, rfl⟩ := hs
    exact iff_of_true (bracketed_setStatus hb _ _) trivial
  | close id =>
    simp only [step, Option.ite_none_right_eq_some, Option.some.injEq] at hs
    obtain ⟨-, rfl⟩ := hs
    exact iff_of_true (bracketed_setStatus hb _ _) trivial

/-- In every run from the empty database, `first_seen` and `last_seen` are the earliest and the latest
timestamp of the attacks of every incident all along if and only if no session is older than an
attack of the incident it joins. -/
theorem bracketed_iff_chronological (p : IngestPipeline) (engine : Engine) (es : List Event) :
    Runs.Always (step p engine) (Db.Bracketed engine) {} es ↔
      Runs.Guarded (step p engine) (Chronological p engine) {} es := by
  refine Runs.always_iff_guarded (I := fun db => (∃ book, Correlated db book) ∧ db.Bracketed engine) ?_
    (fun db h => h.2) ?_ ⟨⟨_, correlated_empty⟩, by simp [Db.Bracketed]⟩
  · rintro db e db' ⟨⟨book, h⟩, hb⟩ hg hs
    obtain ⟨ip, en, -, hcor⟩ := h.after_step hs
    exact ⟨⟨_, hcor⟩, (h.bracketed_step hb hs).mpr hg⟩
  · rintro db e db' ⟨⟨book, h⟩, hb⟩ hs hb'
    exact (h.bracketed_step hb hs).mp hb'

/-- Two sessions of one address that end in the reverse order of their beginning. -/
theorem not_bracketed_reversed :
    ¬ ∀ (p : IngestPipeline) (engine : Engine) (es : List Event) (db : Db),
        Runs.run (step p engine) {} es = some db → db.Bracketed engine := by
  intro h
  have hrun : ((Runs.run (step .twoInstants .postgres) {}
      [.ingest (.guess "2026-01-01T00:00:20+00:00" "8.8.8.8"),
        .ingest (.guess "2026-01-01T00:00:10+00:00" "8.8.8.8")]).any fun db =>
      db.incidents.any fun i => (db.moments .postgres i).max? ≠ some (Engine.postgres.key i.lastSeen)) = true := by
    with_unfolding_all decide
  obtain ⟨db, hr, hany⟩ := (Option.any_eq_true _ _).mp hrun
  obtain ⟨i, hi, hne⟩ := List.any_eq_true.mp hany
  exact of_decide_eq_true hne (h _ _ _ db hr i hi).2

end

end SentinelSsh.Core

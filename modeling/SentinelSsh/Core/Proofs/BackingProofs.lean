import SentinelSsh.Core.Backing
import SentinelSsh.Core.Proofs.DraftProofs

/-!
# Updates that lose nothing but updates

An object `correlate` has worked on is backed by the attacks of the row it read and the new one
(`Backed.absorb`), and an `UPDATE` takes each column from that object or leaves the current one, so the
row stays backed whatever was committed in between (`Backed.patch`).
-/

namespace SentinelSsh.Core

open Python

variable {i j : IncidentCols} {attacks : List AttackCols} {a : AttackCols} {args : CorrelateArgs}

/-! ## Columns -/

/-- Another attack of the same address takes no backing away. -/
theorem Backed.mono (h : Backed i attacks) (ha : a.sourceIp = i.sourceIp) : Backed i (attacks ++ [a]) := by
  have hkeep : ∀ {q : AttackCols → Prop}, (∃ b ∈ attacks, q b) → ∃ b ∈ attacks ++ [a], q b := by
    rintro q ⟨b, hb, hq⟩
    exact ⟨b, List.mem_append_left _ hb, hq⟩
  refine
    { sourceIp := fun b hb => ?_
      country := hkeep h.country
      firstSeen := hkeep h.firstSeen
      lastSeen := hkeep h.lastSeen
      attemptCount := ?_
      maxRiskScore := hkeep h.maxRiskScore
      techniques := fun t ht => hkeep (h.techniques t ht) }
  · rcases List.mem_append.mp hb with hb | hb
    · exact h.sourceIp b hb
    · rwa [List.mem_singleton.mp hb]
  · have hsum := h.attemptCount
    rw [List.map_append, List.sum_append, List.map_singleton, List.sum_singleton]
    omega

theorem mem_mergeTechniques {json : Option String} {new : List String} {t : String} :
    t ∈ mergeTechniques json new ↔ t ∈ parseJsonList json ∨ t ∈ new := by
  show t ∈ fromkeys (parseJsonList json ++ new) ↔ _
  rw [mem_fromkeys, List.mem_append]

/-- What `correlate` makes of an incident is backed by the attacks it had and the new one. -/
theorem Backed.absorb (h : Backed i attacks) (hd : Describes args a) (ha : a.sourceIp = i.sourceIp) :
    Backed (i.absorb args) (attacks ++ [a]) := by
  have hmono := h.mono ha
  have hself : a ∈ attacks ++ [a] := List.mem_append_right _ (List.mem_singleton_self a)
  refine
    { sourceIp := hmono.sourceIp
      country := ?_
      firstSeen := hmono.firstSeen
      lastSeen := ⟨a, hself, hd.timestamp.symm⟩
      attemptCount := ?_
      maxRiskScore := ?_
      techniques := fun t ht => ?_ }
  · show ∃ b ∈ attacks ++ [a], b.country =
      if truthy args.country && !truthy i.country then args.country else i.country
    split_ifs
    · exact ⟨a, hself, hd.country.symm⟩
    · exact hmono.country
  · have hsum := h.attemptCount
    have hattempts := hd.attempts
    show i.attemptCount + max 1 args.attempts ≤ _
    rw [List.map_append, List.sum_append, List.map_singleton, List.sum_singleton]
    omega
  · show ∃ b ∈ attacks ++ [a], b.riskScore = max i.maxRiskScore args.riskScore
    rcases max_choice i.maxRiskScore args.riskScore with hmax | hmax
    · rw [hmax]
      exact hmono.maxRiskScore
    · rw [hmax]
      exact ⟨a, hself, hd.riskScore.symm⟩
  · rw [show (i.absorb args).mitreTechniques =
      some (Json.dumps (mergeTechniques i.mitreTechniques args.techniques)) from rfl,
      parseJsonList_dumps, mem_mergeTechniques] at ht
    rcases ht with ht | ht
    · exact hmono.techniques t ht
    · exact ⟨a, hself, hd.techniques ▸ ht⟩

/-- A new incident is backed by its first attack. -/
theorem Backed.new (hd : Describes args a) : Backed ((newIncident args).absorb args) [a] := by
  rw [absorb_newIncident hd]
  have hshown : (Piece.mk a []).shownCountry = a.country := by
    by_cases ha : truthy a.country = true
    · simp [Piece.shownCountry, Piece.country_singleton, ha]
    · simp [Piece.shownCountry, Piece.country_singleton, ha]
  refine
    { sourceIp := by simp [Piece.incident]
      country := ⟨a, List.mem_singleton_self a, hshown.symm⟩
      firstSeen := ⟨a, List.mem_singleton_self a, rfl⟩
      lastSeen := ⟨a, List.mem_singleton_self a, rfl⟩
      attemptCount := le_of_eq (by simp [Piece.incident, Piece.attempts, Piece.attacks])
      maxRiskScore := ⟨a, List.mem_singleton_self a, rfl⟩
      techniques := fun t ht => ?_ }
  have htechniques : t ∈ fromkeys (parseJsonList a.mitreTechniques) := by
    simpa [Piece.incident, Piece.techniques, Piece.attacks] using ht
  exact ⟨a, List.mem_singleton_self a, mem_fromkeys.mp htechniques⟩

/-- An `UPDATE` leaves each column as it is or takes it from the object. -/
theorem Backed.patch {loaded new current : IncidentCols} (hnew : Backed new attacks)
    (hcurrent : Backed current attacks) : Backed (loaded.patch new current) attacks := by
  refine
    { sourceIp := fun b hb => ?_
      country := ?_
      firstSeen := ?_
      lastSeen := ?_
      attemptCount := ?_
      maxRiskScore := ?_
      techniques := ?_ }
  all_goals
    unfold IncidentCols.patch
    dsimp only
    split
  · exact hcurrent.sourceIp b hb
  · exact hnew.sourceIp b hb
  · exact hcurrent.country
  · exact hnew.country
  · exact hcurrent.firstSeen
  · exact hnew.firstSeen
  · exact hcurrent.lastSeen
  · exact hnew.lastSeen
  · exact hcurrent.attemptCount
  · exact hnew.attemptCount
  · exact hcurrent.maxRiskScore
  · exact hnew.maxRiskScore
  · exact hcurrent.techniques
  · exact hnew.techniques

/-! ## Tables -/

section Tables

variable {p : IngestPipeline} {db : Db} {book : String → Ledger}

theorem Piece.mem_shownCountry (piece : Piece) : ∃ a ∈ piece.attacks, a.country = piece.shownCountry := by
  have hfirst : piece.first ∈ piece.attacks := List.mem_cons_self ..
  by_cases hc : truthy piece.country = true
  · rw [shownCountry, if_pos hc]
    cases hfind : (piece.attacks.map (·.country)).find? truthy with
    | none =>
      rw [country, hfind] at hc
      simp at hc
    | some c =>
      obtain ⟨a, ha, hac⟩ := List.mem_map.mp (List.mem_of_find?_eq_some hfind)
      rw [country, hfind]
      exact ⟨a, ha, hac⟩
  · rw [shownCountry, if_neg hc]
    exact ⟨piece.first, hfirst, rfl⟩

theorem Piece.getLastD_mem (piece : Piece) : piece.later.getLastD piece.first ∈ piece.attacks := by
  rcases List.eq_nil_or_concat piece.later with h | ⟨l, b, h⟩
  · rw [h]
    exact List.mem_cons_self ..
  · rw [h, List.concat_eq_append, List.getLastD_concat, attacks, h, List.concat_eq_append]
    exact List.mem_cons_of_mem _ (List.mem_append_right _ (List.mem_singleton_self b))

/-- A row that sums up its piece is backed by it. -/
theorem Correlated.backed (h : Correlated db book) {r : Incident} (hr : r ∈ db.incidents) :
    Backed r.toIncidentCols (db.linkedCols r.id) := by
  obtain ⟨⟨piece, status⟩, -, hrow⟩ := h.row_of_mem hr
  have hsum := h.summaryOf hr hrow
  have hlinked : db.linkedCols r.id = piece.attacks := hrow.linked
  rw [hlinked]
  refine
    { sourceIp := hsum.sourceIp
      country := ?_
      firstSeen := ?_
      lastSeen := ?_
      attemptCount := hsum.attemptCount.le
      maxRiskScore := ?_
      techniques := fun t ht => ?_ }
  · rw [hrow.cols]
    exact piece.mem_shownCountry
  · rw [hrow.cols]
    exact ⟨piece.first, List.mem_cons_self .., rfl⟩
  · rw [hrow.cols]
    exact ⟨_, piece.getLastD_mem, rfl⟩
  · obtain ⟨a, ha, hscore⟩ := List.mem_map.mp (List.max?_mem hsum.maxRiskScore)
    exact ⟨a, ha, hscore⟩
  · rw [hsum.techniques, mem_fromkeys, List.mem_flatMap] at ht
    exact ht

/-- Every command belongs to an attack. -/
def Db.CommandsOwned (db : Db) : Prop :=
  ∀ c ∈ db.commands, ∃ a ∈ db.attacks, c.attackId = a.id

theorem Db.CommandsOwned.put (h : db.CommandsOwned) (found : Option Incident) (cols : IncidentCols)
    (attackKey : Nat) (a : AttackCols) (cmds : List CommandCols) (key : Nat) :
    ((db.putIncident found key cols).putAttack attackKey a cmds key).CommandsOwned := by
  intro c hc
  rw [Db.putAttack, List.mem_append, commands_putIncident] at hc
  rw [Db.putAttack, attacks_putIncident]
  rcases hc with hc | hc
  · obtain ⟨b, hb, hid⟩ := h c hc
    exact ⟨b, List.mem_append_left _ hb, hid⟩
  · obtain ⟨n, hn, rfl⟩ := List.mem_mapIdx.mp hc
    exact ⟨_, List.mem_append_right _ (List.mem_singleton_self _), rfl⟩

theorem Db.CommandsOwned.step {engine : Engine} {db' : Db} (h : db.CommandsOwned) {e : Event}
    (hs : Core.step p engine db e = some db') : db'.CommandsOwned := by
  cases e with
  | ingest capture =>
    obtain ⟨snap, hp⟩ := process_of_toOption hs
    obtain ⟨d, key, -, -, rfl, -⟩ := process_ok_snapshot hp
    exact h.put _ _ _ _ _ _
  | triage id =>
    simp only [Core.step, Option.ite_none_right_eq_some, Option.some.injEq] at hs
    exact hs.2 ▸ h
  | close id =>
    simp only [Core.step, Option.ite_none_right_eq_some, Option.some.injEq] at hs
    exact hs.2 ▸ h

/-- The tables any completed calls and status changes lead to are sound. -/
theorem sound_run {engine : Engine} {es : List Event} (hr : Runs.run (Core.step p engine) {} es = some db) :
    db.Sound := by
  obtain ⟨hd, book, h⟩ := drafted_correlated_run hr
  have hcommands : db.CommandsOwned :=
    Runs.run_invariant (I := Db.CommandsOwned) (fun _ _ _ h hs => h.step hs) (by intro c hc; cases hc) hr
  refine
    { keys_nodup := h.keys_nodup
      backed := fun r hr => h.backed hr
      owned := fun a ha => ?_
      attackKeys_nodup := hd.keys_nodup
      commandsOwned := hcommands }
  obtain ⟨r, hr, hid, -⟩ := h.owned a ha
  exact ⟨r, hr, hid⟩

end Tables

end SentinelSsh.Core

import SentinelSsh.Core.Proofs.BackingProofs
import SentinelSsh.Honeypot.Proofs.PipelineSinkProofs

/-!
# Overlapping sessions

Calls of `write` that overlap in any way, and fail wherever they like, can lose updates of an incident,
but they keep the tables sound: no session that was committed is missing, doubled or given to another
address, and no incident claims more than its attacks back (`overlapping_sound`).
-/

namespace SentinelSsh.Honeypot

open SentinelSsh.Core

variable {p : IngestPipeline} {engine : Engine} {captures : List Capture} {s s' : Sinks} {i : Nat}

/-! ## What a call has read -/

/-- The object of a call comes from a row that was backed when it was read, and still is, or is new. -/
structure Held (p : IngestPipeline) (db : Db) (capture : Capture) (w : Pending) : Prop where
  new : w.found = none → w.incident = (newIncident (p.draft capture w.prior).correlateArgs).absorb
    (p.draft capture w.prior).correlateArgs
  loaded : ∀ row, w.found = some row →
    Backed row.toIncidentCols (db.linkedCols row.id) ∧ row.sourceIp = capture.sourceIp ∧
      (∃ r ∈ db.incidents, r.id = row.id ∧ r.sourceIp = row.sourceIp) ∧
      w.incident = row.toIncidentCols.absorb (p.draft capture w.prior).correlateArgs

theorem held_correlate {db : Db} (h : db.Sound) (capture : Capture) (prior : Int) :
    Held p db capture ⟨prior, (correlate engine db.incidents (p.draft capture prior).correlateArgs).1,
      (correlate engine db.incidents (p.draft capture prior).correlateArgs).2⟩ where
  new hnone := by
    have hselect : selectIncident engine db.incidents (p.draft capture prior).correlateArgs.sourceIp = none := hnone
    simp only [correlate, hselect, Option.map_none, Option.getD_none]
  loaded row hrow := by
    have hselect : selectIncident engine db.incidents (p.draft capture prior).correlateArgs.sourceIp = some row := hrow
    have hmem := selectIncident_mem hselect
    have hip : row.sourceIp = capture.sourceIp := by
      have hfilter := (List.mem_filter.mp (List.maxOn?_mem hselect)).2
      rw [Bool.and_eq_true, decide_eq_true_eq] at hfilter
      exact hfilter.1
    refine ⟨h.backed row hmem, hip, ⟨row, hmem, rfl, rfl⟩, ?_⟩
    simp only [correlate, hselect, Option.map_some, Option.getD_some]

/-! ## The commit -/

section Commit

variable {db : Db} {capture : Capture} {w : Pending} {key attackKey : Nat}

theorem linkedCols_commitDb (k : Nat) : (commitDb p db capture w key attackKey).linkedCols k =
    db.linkedCols k ++ if k = key then [(p.draft capture w.prior).attack] else [] := by
  unfold Db.linkedCols commitDb
  by_cases hk : k = key
  · rw [if_pos hk, hk, linked_putAttack_self, linked_putIncident, List.map_append]
    rfl
  · rw [if_neg hk, linked_putAttack_of_ne hk, linked_putIncident, List.append_nil]

theorem linkedCols_fresh (h : db.Sound) (hkey : ∀ r ∈ db.incidents, r.id ≠ key) : db.linkedCols key = [] := by
  have hnone : db.linked key = [] := by
    refine List.filter_eq_nil_iff.mpr fun a ha hlink => ?_
    obtain ⟨r, hr, hid⟩ := h.owned a ha
    rw [decide_eq_true_eq, hid] at hlink
    exact hkey r hr (Option.some.inj hlink)
  rw [Db.linkedCols, hnone]
  rfl

/-- What a call knows of its incident when it commits. -/
structure Ready (p : IngestPipeline) (db : Db) (capture : Capture) (w : Pending) (key attackKey : Nat) :
    Prop where
  held : Held p db capture w
  keyed : ∀ row, w.found = some row → key = row.id
  fresh : w.found = none → ∀ r ∈ db.incidents, r.id ≠ key
  attackFresh : ∀ a ∈ db.attacks, a.id ≠ attackKey

/-- The rows after a commit: those of other incidents, and that of the call. -/
theorem mem_incidents_commitDb {r : Incident} (hr : r ∈ (commitDb p db capture w key attackKey).incidents) :
    (r ∈ db.incidents ∧ r.id ≠ key) ∨
      (w.found = none ∧ (r ∈ db.incidents ∨ r = { w.incident with id := key })) ∨
      ∃ row, w.found = some row ∧ r.id = key ∧ ∃ old ∈ db.incidents, old.id = key ∧
        r.toIncidentCols = row.toIncidentCols.patch w.incident old.toIncidentCols := by
  have hput : r ∈ (db.putIncident w.found key w.incident).incidents := hr
  cases hfound : w.found with
  | none =>
    rw [hfound] at hput
    rcases List.mem_append.mp hput with hold | hnew
    · exact Or.inr (Or.inl ⟨rfl, Or.inl hold⟩)
    · exact Or.inr (Or.inl ⟨rfl, Or.inr (List.mem_singleton.mp hnew)⟩)
  | some row =>
    rw [hfound] at hput
    obtain ⟨old, hold, rfl⟩ := List.mem_map.mp hput
    by_cases hid : old.id = key
    · rw [if_pos hid]
      exact Or.inr (Or.inr ⟨row, rfl, hid, old, hold, hid, rfl⟩)
    · rw [if_neg hid]
      exact Or.inl ⟨hold, hid⟩

theorem Ready.backed (h : Ready p db capture w key attackKey) (hs : db.Sound) {r : Incident}
    (hr : r ∈ (commitDb p db capture w key attackKey).incidents) :
    Backed r.toIncidentCols ((commitDb p db capture w key attackKey).linkedCols r.id) := by
  have hd := draft_describes p capture w.prior
  have hother : r ∈ db.incidents → r.id ≠ key →
      Backed r.toIncidentCols ((commitDb p db capture w key attackKey).linkedCols r.id) := by
    intro hmem hid
    rw [linkedCols_commitDb, if_neg hid, List.append_nil]
    exact hs.backed r hmem
  rcases mem_incidents_commitDb hr with ⟨hmem, hid⟩ | ⟨hnone, hmem | rfl⟩ | ⟨row, hrow, hid, old, hold, holdid, hcols⟩
  · exact hother hmem hid
  · exact hother hmem (h.fresh hnone r hmem)
  · show Backed w.incident ((commitDb p db capture w key attackKey).linkedCols key)
    rw [linkedCols_commitDb, if_pos rfl, linkedCols_fresh hs (h.fresh hnone), h.held.new hnone]
    exact Backed.new hd
  · obtain ⟨hbacked, hip, ⟨r', hr', hid', hip'⟩, hincident⟩ := h.held.loaded row hrow
    have hsame : old = r' := by
      refine List.inj_on_of_nodup_map hs.keys_nodup hold hr' ?_
      rw [holdid, hid', h.keyed row hrow]
    rw [hid, hcols, linkedCols_commitDb, if_pos rfl, hincident]
    have hkey := h.keyed row hrow
    refine Backed.patch ?_ ?_
    · rw [hkey]
      exact hbacked.absorb hd hip.symm
    · have hcurrent := hs.backed old hold
      rw [holdid] at hcurrent
      refine hcurrent.mono ?_
      rw [hsame, hip', hip]
      rfl

/-- The row a call updates has the address of its session. -/
theorem Ready.sourceIp (h : Ready p db capture w key attackKey) (hs : db.Sound) {r : Incident}
    (hr : r ∈ db.incidents) (hid : r.id = key) : r.sourceIp = capture.sourceIp := by
  cases hfound : w.found with
  | none => exact absurd hid (h.fresh hfound r hr)
  | some row =>
    obtain ⟨-, hip, ⟨r', hr', hid', hip'⟩, -⟩ := h.held.loaded row hfound
    have hsame : r = r' := by
      refine List.inj_on_of_nodup_map hs.keys_nodup hr hr' ?_
      rw [hid, hid', h.keyed row hfound]
    rw [hsame, hip', hip]

/-- The row of an incident has the same address after the commit. -/
theorem Ready.exists_incident (h : Ready p db capture w key attackKey) {r : Incident} (hr : r ∈ db.incidents) :
    ∃ r' ∈ (commitDb p db capture w key attackKey).incidents, r'.id = r.id ∧ r'.sourceIp = r.sourceIp := by
  show ∃ r' ∈ (db.putIncident w.found key w.incident).incidents, _
  cases hfound : w.found with
  | none => exact ⟨r, List.mem_append_left _ hr, rfl, rfl⟩
  | some row =>
    refine ⟨_, List.mem_map.mpr ⟨r, hr, rfl⟩, ?_⟩
    by_cases hid : r.id = key
    · rw [if_pos hid]
      refine ⟨rfl, ?_⟩
      obtain ⟨-, -, -, hincident⟩ := h.held.loaded row hfound
      show (if w.incident.sourceIp = row.sourceIp then r.sourceIp else w.incident.sourceIp) = r.sourceIp
      rw [if_pos (by rw [hincident]; rfl)]
    · rw [if_neg hid]
      exact ⟨rfl, rfl⟩

theorem Ready.keys_nodup (h : Ready p db capture w key attackKey) (hs : db.Sound) :
    ((commitDb p db capture w key attackKey).incidents.map (·.id)).Nodup := by
  show ((db.putIncident w.found key w.incident).incidents.map (·.id)).Nodup
  cases hfound : w.found with
  | none =>
    show ((db.incidents ++ [({ w.incident with id := key } : Incident)]).map (·.id)).Nodup
    rw [List.map_append, List.map_singleton, List.nodup_append]
    refine ⟨hs.keys_nodup, List.nodup_singleton _, fun k hk k' hk' => ?_⟩
    obtain ⟨r, hr, rfl⟩ := List.mem_map.mp hk
    rw [List.mem_singleton.mp hk']
    exact h.fresh hfound r hr
  | some row =>
    have hids : (db.putIncident (some row) key w.incident).incidents.map (·.id) = db.incidents.map (·.id) := by
      rw [Db.putIncident, List.map_map]
      refine List.map_congr_left fun r _ => ?_
      show (if r.id = key then _ else r : Incident).id = r.id
      split_ifs <;> rfl
    rw [hids]
    exact hs.keys_nodup

/-- A commit keeps the tables sound. -/
theorem Ready.sound (h : Ready p db capture w key attackKey) (hs : db.Sound) :
    (commitDb p db capture w key attackKey).Sound where
  keys_nodup := h.keys_nodup hs
  backed _ hr := h.backed hs hr
  owned a ha := by
    rw [attacks_commitDb, List.mem_append, List.mem_singleton] at ha
    rcases ha with ha | rfl
    · obtain ⟨r, hr, hid⟩ := hs.owned a ha
      obtain ⟨r', hr', hid', -⟩ := h.exists_incident hr
      exact ⟨r', hr', by rw [hid, hid']⟩
    · have hfound : ∀ row, w.found = some row → ∃ r ∈ db.incidents, r.id = row.id := by
        intro row hrow
        obtain ⟨-, -, ⟨r, hr, hid, -⟩, -⟩ := h.held.loaded row hrow
        exact ⟨r, hr, hid⟩
      obtain ⟨r, hr, hid⟩ := exists_key_commitDb p capture attackKey hfound h.keyed
      exact ⟨r, hr, congrArg some hid.symm⟩
  attackKeys_nodup := by
    rw [attacks_commitDb, List.map_append, List.map_singleton, List.nodup_append]
    refine ⟨hs.attackKeys_nodup, List.nodup_singleton _, fun k hk k' hk' => ?_⟩
    obtain ⟨a, ha, rfl⟩ := List.mem_map.mp hk
    rw [List.mem_singleton.mp hk']
    exact h.attackFresh a ha
  commandsOwned := Db.CommandsOwned.put hs.commandsOwned _ _ _ _ _ _

/-- The commit of another call leaves what a call has read backed. -/
theorem Held.commit {capture' : Capture} {v : Pending} (hv : Held p db capture' v)
    (h : Ready p db capture w key attackKey) (hs : db.Sound) :
    Held p (commitDb p db capture w key attackKey) capture' v where
  new := hv.new
  loaded row hrow := by
    obtain ⟨hbacked, hip, ⟨r, hr, hid, hrip⟩, hincident⟩ := hv.loaded row hrow
    obtain ⟨r', hr', hid', hip'⟩ := h.exists_incident hr
    refine ⟨?_, hip, ⟨r', hr', hid'.trans hid, hip'.trans hrip⟩, hincident⟩
    rw [linkedCols_commitDb]
    by_cases hkey : row.id = key
    · rw [if_pos hkey]
      refine hbacked.mono ?_
      rw [← hrip, h.sourceIp hs hr (hid.trans hkey)]
      rfl
    · rw [if_neg hkey, List.append_nil]
      exact hbacked

/-- The session of the call is recorded by its commit. -/
theorem Ready.recorded (h : Ready p db capture w key attackKey) (hs : db.Sound) :
    Recorded p (commitDb p db capture w key attackKey) capture attackKey := by
  refine ⟨newRow p capture w key attackKey, ?_, rfl, w.prior, rfl, ?_⟩
  · rw [attacks_commitDb]
    exact List.mem_append_right _ (List.mem_singleton_self _)
  · refine commandsOf_putAttack_self (fun c hc => ?_) _ _ _
    rw [commands_putIncident] at hc
    obtain ⟨a, ha, hid⟩ := hs.commandsOwned c hc
    rw [hid]
    exact h.attackFresh a ha

/-- The sessions recorded before stay as they are. -/
theorem Ready.keeps (h : Ready p db capture w key attackKey) {capture' : Capture} {id : Nat}
    (hrec : Recorded p db capture' id) : Recorded p (commitDb p db capture w key attackKey) capture' id := by
  obtain ⟨a, ha, rfl, prior, hcols, hcommands⟩ := hrec
  refine ⟨a, ?_, rfl, prior, hcols, ?_⟩
  · rw [attacks_commitDb]
    exact List.mem_append_left _ ha
  · rw [commitDb, commandsOf_putAttack_of_ne (h.attackFresh a ha), Db.commandsOf, commands_putIncident]
    exact hcommands

end Commit

/-! ## The invariant -/

/-- The tables are sound, every call is ready for its commit, and every committed session is recorded. -/
structure OverlapOk (p : IngestPipeline) (captures : List Capture) (db₀ : Db) (s : Sinks) : Prop where
  sinks : SinksOk captures.length db₀ s
  sound : s.db.Sound
  held : ∀ i capture w, captures[i]? = some capture → (s.calls i).pending = some w → Held p s.db capture w
  fresh : ∀ i key, (s.calls i).newIncidentKey = some key → ∀ r ∈ s.db.incidents, r.id ≠ key
  apart : ∀ i j key, (s.calls i).newIncidentKey = some key → (s.calls j).newIncidentKey = some key → i = j
  recorded : ∀ i capture snap, captures[i]? = some capture → (s.calls i).snapshot = some snap →
    Recorded p s.db capture snap.id

theorem OverlapOk.start {db : Db} (h : db.Sound) : OverlapOk p captures db (.start db) where
  sinks := .start h.attackKeys_nodup
  sound := h
  held := by simp [Sinks.start, Stage.pending]
  fresh := by simp [Sinks.start, Stage.newIncidentKey]
  apart := by simp [Sinks.start, Stage.newIncidentKey]
  recorded := by simp [Sinks.start, Stage.snapshot]

section Step

variable {db₀ : Db} {capture : Capture}

/-- A step that commits nothing. -/
theorem OverlapOk.move (h : OverlapOk p captures db₀ s) (hcap : captures[i]? = some capture) {stage : Stage}
    (hsinks : SinksOk captures.length db₀ s') (hdb : s'.db = s.db) (hself : s'.calls i = stage)
    (hother : ∀ j, j ≠ i → s'.calls j = s.calls j)
    (hpending : ∀ w, stage.pending = some w → Held p s.db capture w)
    (hkey : ∀ key, stage.newIncidentKey = some key →
      (∀ r ∈ s.db.incidents, r.id ≠ key) ∧ ∀ j, j ≠ i → (s.calls j).newIncidentKey ≠ some key)
    (hsnap : ∀ snap, stage.snapshot = some snap → (s.calls i).snapshot = some snap) :
    OverlapOk p captures db₀ s' := by
  refine
    { sinks := hsinks
      sound := hdb ▸ h.sound
      held := fun j c w hc hw => ?_
      fresh := fun j key hj => ?_
      apart := fun j k key hj hk => ?_
      recorded := fun j c snap hc hj => ?_ }
  · rw [hdb]
    by_cases hji : j = i
    · subst hji
      rw [hcap] at hc
      cases hc
      exact hpending w (hself ▸ hw)
    · exact h.held j c w hc (hother j hji ▸ hw)
  · rw [hdb]
    by_cases hji : j = i
    · subst hji
      exact (hkey key (hself ▸ hj)).1
    · exact h.fresh j key (hother j hji ▸ hj)
  · by_cases hji : j = i
    · by_cases hki : k = i
      · rw [hji, hki]
      · rw [hji, hself] at hj
        rw [hother k hki] at hk
        exact absurd hk ((hkey key hj).2 k hki)
    · by_cases hki : k = i
      · rw [hki, hself] at hk
        rw [hother j hji] at hj
        exact absurd hj ((hkey key hk).2 j hji)
      · rw [hother j hji] at hj
        rw [hother k hki] at hk
        exact h.apart j k key hj hk
  · rw [hdb]
    by_cases hji : j = i
    · subst hji
      exact h.recorded j c snap hc (hsnap snap (hself ▸ hj))
    · exact h.recorded j c snap hc (hother j hji ▸ hj)

theorem acceptsIncidentKey_new {n key : Nat} {w : Pending} (h : s.acceptsIncidentKey n w key = true)
    (hnone : w.found = none) :
    (∀ r ∈ s.db.incidents, r.id ≠ key) ∧ ∀ j < n, (s.calls j).newIncidentKey ≠ some key := by
  simpa [Sinks.acceptsIncidentKey, hnone] using h

theorem newIncidentKey_of_written {stage : Stage} {w : Pending} {key : Nat} (h : stage.written = some (w, key))
    (hnone : w.found = none) : stage.newIncidentKey = some key := by
  cases stage <;> simp_all [Stage.written, Stage.newIncidentKey]

theorem written_of_newIncidentKey {stage : Stage} {key : Nat} (h : stage.newIncidentKey = some key) :
    ∃ w, stage.written = some (w, key) ∧ w.found = none := by
  cases stage <;> simp_all [Stage.written, Stage.newIncidentKey]

theorem OverlapOk.ready (h : OverlapOk p captures db₀ s) (hcap : captures[i]? = some capture) {w : Pending}
    {key attackKey : Nat} (hstage : s.calls i = .flushedAttack w key attackKey) :
    Ready p s.db capture w key attackKey where
  held := h.held i capture w hcap (by rw [hstage]; rfl)
  keyed := (h.sinks.stages i).keyed w key (by rw [hstage]; rfl)
  fresh hnone := h.fresh i key (newIncidentKey_of_written (by rw [hstage]; rfl) hnone)
  attackFresh := (h.sinks.stages i).fresh attackKey (by rw [hstage]; rfl)

/-- The commit of a call. -/
theorem OverlapOk.commit (h : OverlapOk p captures db₀ s) (hcap : captures[i]? = some capture) {w : Pending}
    {key attackKey : Nat} (hstage : s.calls i = .flushedAttack w key attackKey) :
    OverlapOk p captures db₀ { s.set i (.committed (commitSnapshot p capture w key attackKey)) with
      db := commitDb p s.db capture w key attackKey } := by
  have hready := h.ready hcap hstage
  have hi : i < captures.length := (List.getElem?_eq_some_iff.mp hcap).1
  have hself : (s.set i (.committed (commitSnapshot p capture w key attackKey))).calls i =
      .committed (commitSnapshot p capture w key attackKey) := Function.update_self _ _ _
  have hother : ∀ j, j ≠ i →
      (s.set i (.committed (commitSnapshot p capture w key attackKey))).calls j = s.calls j :=
    fun j hj => Function.update_of_ne hj _ _
  -- The keys of two calls that insert an incident differ, so the key of the commit is no other call's.
  have hapart : ∀ j, j ≠ i → ∀ k, (s.calls j).newIncidentKey = some k →
      ∀ r ∈ (commitDb p s.db capture w key attackKey).incidents, r.id ≠ k := by
    intro j hj k hk r hr hid
    rcases mem_incidents_commitDb hr with ⟨hmem, -⟩ | ⟨hnone, hmem | rfl⟩ | ⟨row, hrow, hrid, old, hold, holdid, -⟩
    · exact h.fresh j k hk r hmem hid
    · exact h.fresh j k hk r hmem hid
    · have hmine : (s.calls i).newIncidentKey = some k := by
        rw [← hid]
        exact newIncidentKey_of_written (by rw [hstage]; rfl) hnone
      exact hj (h.apart j i k hk hmine)
    · exact h.fresh j k hk old hold (holdid.trans (hrid.symm.trans hid))
  refine
    { sinks := h.sinks.commit hi hstage
      sound := hready.sound h.sound
      held := fun j c v hc hv => ?_
      fresh := fun j k hk => ?_
      apart := fun j l k hj hl => ?_
      recorded := fun j c snap hc hj => ?_ }
  · by_cases hji : j = i
    · rw [hji, show _ = Stage.committed _ from hself] at hv
      cases hv
    · rw [show _ = s.calls j from hother j hji] at hv
      exact (h.held j c v hc hv).commit hready h.sound
  · by_cases hji : j = i
    · rw [hji, show _ = Stage.committed _ from hself] at hk
      cases hk
    · rw [show _ = s.calls j from hother j hji] at hk
      exact hapart j hji k hk
  · by_cases hji : j = i
    · rw [hji, show _ = Stage.committed _ from hself] at hj
      cases hj
    · by_cases hli : l = i
      · rw [hli, show _ = Stage.committed _ from hself] at hl
        cases hl
      · rw [show _ = s.calls j from hother j hji] at hj
        rw [show _ = s.calls l from hother l hli] at hl
        exact h.apart j l k hj hl
  · by_cases hji : j = i
    · subst hji
      rw [hcap] at hc
      cases hc
      rw [show _ = Stage.committed _ from hself] at hj
      cases hj
      exact hready.recorded h.sound
    · rw [show _ = s.calls j from hother j hji] at hj
      exact hready.keeps (h.recorded j c snap hc hj)

theorem OverlapOk.step (h : OverlapOk p captures db₀ s) (hcap : captures[i]? = some capture)
    (hw : Wrote p engine captures.length s i capture s') : OverlapOk p captures db₀ s' := by
  have hi : i < captures.length := (List.getElem?_eq_some_iff.mp hcap).1
  have hsinks := h.sinks.step hi hw
  have hself : ∀ stage, (s.set i stage).calls i = stage := fun stage => Function.update_self _ _ _
  have hother : ∀ stage j, j ≠ i → (s.set i stage).calls j = s.calls j := fun stage j hj =>
    Function.update_of_ne hj _ _
  cases hw with
  | failed hold =>
    exact h.move hcap hsinks rfl (hself _) (hother _) (fun w hw => nomatch hw) (fun key hk => nomatch hk)
      fun snap hs => nomatch hs
  | counted hold =>
    exact h.move hcap hsinks rfl (hself _) (hother _) (fun w hw => nomatch hw) (fun key hk => nomatch hk)
      fun snap hs => nomatch hs
  | selected hold =>
    refine h.move hcap hsinks rfl (hself _) (hother _) (fun w hw => ?_) (fun key hk => nomatch hk)
      fun snap hs => nomatch hs
    cases hw
    exact held_correlate h.sound capture _
  | @flushedIncident w key hold hacc hkey =>
    refine h.move hcap hsinks rfl (hself _) (hother _) (fun v hv => ?_) (fun k hk => ?_)
      fun snap hs => nomatch hs
    · cases hv
      exact h.held i capture w hcap (by rw [hold]; rfl)
    · obtain ⟨v, hv, hnone⟩ := written_of_newIncidentKey hk
      cases hv
      obtain ⟨hrows, hcalls⟩ := acceptsIncidentKey_new hkey hnone
      refine ⟨hrows, fun j hj hjk => ?_⟩
      by_cases hjn : j < captures.length
      · exact hcalls j hjn hjk
      · rw [h.sinks.outside j (by omega)] at hjk
        cases hjk
  | @flushedAttack w key attackKey hold hkey =>
    refine h.move hcap hsinks rfl (hself _) (hother _) (fun v hv => ?_) (fun k hk => ?_)
      fun snap hs => nomatch hs
    · cases hv
      exact h.held i capture w hcap (by rw [hold]; rfl)
    · have hmine : (s.calls i).newIncidentKey = some k := by
        rw [hold]
        exact hk
      exact ⟨h.fresh i k hmine, fun j hj hjk => hj (h.apart j i k hjk hmine)⟩
  | committed hold => exact h.commit hcap hold
  | published hold =>
    refine h.move hcap hsinks rfl (hself _) (hother _) (fun w hw => nomatch hw) (fun key hk => nomatch hk)
      fun snap hs => ?_
    rw [hold]
    exact hs

end Step

/-! ## Runs -/

theorem overlapOk_run {db₀ : Db} (h₀ : db₀.Sound) {as : List (Nat × Reply)}
    (hr : Runs.run (write p engine captures) (.start db₀) as = some s) : OverlapOk p captures db₀ s := by
  refine Runs.run_invariant (I := OverlapOk p captures db₀) ?_ (.start h₀) hr
  rintro t ⟨j, reply⟩ t' ht hstep
  obtain ⟨capture, hcap, hw⟩ := write_wrote hstep
  exact ht.step hcap hw

/-- Any calls of `write`, in any interleaving and with any failures, after any completed ones: every
committed session is stored once, with its commands, and linked to an incident of its address; and every
incident is backed by the attacks linked to it. -/
theorem overlapping_sound {es : List Event} {db₀ : Db} (h₀ : Runs.run (Core.step p engine) {} es = some db₀)
    {as : List (Nat × Reply)} (hr : Runs.run (write p engine captures) (.start db₀) as = some s) :
    (∀ i capture snap, captures[i]? = some capture → (s.calls i).snapshot = some snap →
        Recorded p s.db capture snap.id) ∧
      (∀ i j x y, (s.calls i).snapshot = some x → (s.calls j).snapshot = some y → x.id = y.id → i = j) ∧
      (s.db.attacks.map (·.id)).Nodup ∧
      (∀ a ∈ s.db.attacks, ∃ r ∈ s.db.incidents, a.incidentId = some r.id ∧ r.sourceIp = a.sourceIp) ∧
      ∀ r ∈ s.db.incidents, Backed r.toIncidentCols (s.db.linkedCols r.id) := by
  have h := overlapOk_run (sound_run h₀) hr
  refine ⟨h.recorded, h.sinks.distinct, h.sound.attackKeys_nodup, fun a ha => ?_, h.sound.backed⟩
  obtain ⟨r, hrow, hid⟩ := h.sound.owned a ha
  refine ⟨r, hrow, hid, ((h.sound.backed r hrow).sourceIp a.toAttackCols ?_).symm⟩
  exact List.mem_map_of_mem (List.mem_filter.mpr ⟨ha, decide_eq_true hid⟩)

/-- Three sessions of one address, of which the last two overlap: one of their updates is lost, and two
attempts of six are not counted. -/
theorem overlapping_sound_lost :
    ∃ db₀ s, Runs.run (Core.step .twoInstants .postgres) {}
        [.ingest (.guess "2026-01-01T00:00:10+00:00" "8.8.8.8")] = some db₀ ∧
      Runs.run (write .twoInstants .postgres
          [.guess "2026-01-01T00:00:20+00:00" "8.8.8.8", .guess "2026-01-01T00:00:20+00:00" "8.8.8.8"])
        (.start db₀) [(0, .ok 0), (1, .ok 0), (0, .ok 0), (1, .ok 0), (0, .ok 1), (0, .ok 2), (0, .ok 0),
          (1, .ok 1), (1, .ok 3), (1, .ok 0)] = some s ∧
      s.db.attacks.length = 3 ∧ (∀ r ∈ s.db.incidents, r.attemptCount = 4) ∧
        ∀ r ∈ s.db.incidents, Backed r.toIncidentCols (s.db.linkedCols r.id) := by
  have hrun : ((Runs.run (Core.step .twoInstants .postgres) {}
      [.ingest (.guess "2026-01-01T00:00:10+00:00" "8.8.8.8")]).any fun db₀ =>
    (Runs.run (write .twoInstants .postgres
        [.guess "2026-01-01T00:00:20+00:00" "8.8.8.8", .guess "2026-01-01T00:00:20+00:00" "8.8.8.8"])
      (.start db₀) [(0, .ok 0), (1, .ok 0), (0, .ok 0), (1, .ok 0), (0, .ok 1), (0, .ok 2), (0, .ok 0),
        (1, .ok 1), (1, .ok 3), (1, .ok 0)]).any fun s =>
      s.db.attacks.length = 3 && s.db.incidents.all fun r => r.attemptCount = 4) = true := by
    with_unfolding_all decide
  obtain ⟨db₀, h₀, hrest⟩ := (Option.any_eq_true _ _).mp hrun
  obtain ⟨s, hs, hend⟩ := (Option.any_eq_true _ _).mp hrest
  obtain ⟨hlength, hcount⟩ : s.db.attacks.length = 3 ∧ ∀ r ∈ s.db.incidents, r.attemptCount = 4 := by
    simpa using hend
  exact ⟨db₀, s, h₀, hs, hlength, hcount, (overlapping_sound h₀ hs).2.2.2.2⟩

end SentinelSsh.Honeypot

import SentinelSsh.Core.Ingestion
import SentinelSsh.Core.Proofs.DraftProofs

/-!
# Sources do not influence each other

A call reads and writes rows of its own source only: the history it counts, the incident it joins and
the keys it takes all belong to one address. So the records of a source are those a pipeline would
have made that serves this source alone, whatever is ingested in between.
-/

namespace SentinelSsh.Core

open Python

section Records

variable {p : IngestPipeline} {engine : Engine} {db db' : Db} {book : String → Ledger}

/-! ## Reading the records off the tables -/

theorem priorAttempts_recordsOf (capture : Capture) :
    (db.recordsOf capture.sourceIp).priorAttempts p engine capture =
      p.priorAttempts engine db.attacks capture.sourceIp (p.captureTs capture) := by
  rw [priorAttempts_attacksOf, SourceRecords.priorAttempts, Db.recordsOf, List.countP_map]
  rfl

/-- The incident that is not closed, with its records. -/
theorem Correlated.openIncident_recordsOf (h : Correlated db book) (engine : Engine) (ip : String) :
    (db.recordsOf ip).openIncident = (selectIncident engine db.incidents ip).map fun i =>
      (i.toIncidentCols, (db.linked i.id).map db.attackRecords) := by
  rw [SourceRecords.openIncident, Db.recordsOf]
  rcases h.select engine ip with ⟨hnone, hsel⟩ | ⟨piece, i, pre, -, hsel, hpre, hrow⟩
  · rw [hsel, Option.map_none, Option.filter_eq_none_iff]
    intro x hx
    obtain ⟨i, hi, rfl⟩ := List.mem_map.mp (List.mem_of_getLast? hx)
    have hmem := mem_incidentsOf.mp hi
    by_contra hst
    have hsome : selectIncident engine db.incidents i.sourceIp = some i :=
      h.select_of_open hmem.1 (by simpa using hst)
    rw [hmem.2, hsel] at hsome
    exact absurd hsome (by simp)
  · have hst := (h.open_of_select hsel).2.2
    rw [hsel, hpre, List.map_append, List.map_singleton, List.getLast?_concat]
    simp [hst]

theorem Correlated.correlated_recordsOf (h : Correlated db book) (engine : Engine) (d : IngestPipeline.Draft) :
    (db.recordsOf d.attack.sourceIp).correlated d = (correlate engine db.incidents d.correlateArgs).2 := by
  rw [SourceRecords.correlated, h.openIncident_recordsOf engine, Option.map_map]
  rfl

/-! ## What a written draft changes -/

variable {found : Option Incident} {key : Nat} {cols : IncidentCols} {d : IngestPipeline.Draft}

/-- The database after a draft was written. -/
def Db.putDraft (db : Db) (found : Option Incident) (key : Nat) (cols : IncidentCols)
    (d : IngestPipeline.Draft) : Db :=
  (db.putIncident found key cols).putAttack db.nextAttack d.attack d.commands key

theorem Drafted.attackRecords_old (h : Drafted p db) {a : Attack} (ha : a ∈ db.attacks) :
    (db.putDraft found key cols d).attackRecords a = db.attackRecords a := by
  rw [Db.attackRecords, Db.putDraft, commandsOf_putAttack_of_ne (h.keys_lt a ha).ne, Db.commandsOf,
    commands_putIncident]
  rfl

theorem Drafted.attackRecords_new (h : Drafted p db) :
    (db.putDraft found key cols d).attackRecords (putRow db.nextAttack d.attack key) =
      (d.attack, d.commands) := by
  rw [Db.attackRecords, Db.putDraft]
  refine Prod.ext rfl (commandsOf_putAttack_self (fun c hc => ?_) _ _ _)
  rw [commands_putIncident] at hc
  exact (h.commands_lt c hc).ne

/-- The records of attacks that were there before stay. -/
theorem Drafted.map_attackRecords (h : Drafted p db) {as : List Attack} (has : ∀ a ∈ as, a ∈ db.attacks) :
    as.map (db.putDraft found key cols d).attackRecords = as.map db.attackRecords :=
  List.map_congr_left fun a ha => h.attackRecords_old (has a ha)

theorem mem_attacks_of_linked {k : Nat} : ∀ a ∈ db.linked k, a ∈ db.attacks := fun _ =>
  List.mem_of_mem_filter

/-- The records of an incident no attack was added to. -/
theorem Drafted.linked_other (h : Drafted p db) {k : Nat} (hk : k ≠ key) :
    ((db.putDraft found key cols d).linked k).map (db.putDraft found key cols d).attackRecords =
      (db.linked k).map db.attackRecords := by
  rw [Db.putDraft, linked_putAttack_of_ne hk, linked_putIncident]
  exact h.map_attackRecords mem_attacks_of_linked

/-- The records of the incident the attack was added to. -/
theorem Drafted.linked_self (h : Drafted p db) :
    ((db.putDraft found key cols d).linked key).map (db.putDraft found key cols d).attackRecords =
      (db.linked key).map db.attackRecords ++ [(d.attack, d.commands)] := by
  have hold : (db.linked key).map (db.putDraft found key cols d).attackRecords =
      (db.linked key).map db.attackRecords := h.map_attackRecords mem_attacks_of_linked
  have hnew : (db.putDraft found key cols d).attackRecords (putRow db.nextAttack d.attack key) =
      (d.attack, d.commands) := h.attackRecords_new
  rw [Db.putDraft] at hold hnew ⊢
  rw [linked_putAttack_self, linked_putIncident, List.map_append, hold, List.map_singleton, hnew]

theorem mem_attacks_of_attacksOf {ip : String} : ∀ a ∈ db.attacksOf ip, a ∈ db.attacks := fun _ =>
  List.mem_of_mem_filter

theorem attacksOf_putIncident (ip : String) :
    (db.putIncident found key cols).attacksOf ip = db.attacksOf ip := by
  rw [Db.attacksOf, attacks_putIncident, Db.attacksOf]

/-- The incidents of another address after a draft was written. -/
theorem Correlated.incidentsOf_other (h : Correlated db book) {ip : String}
    (hfound : ∀ i, found = some i → i ∈ db.incidents ∧ i.sourceIp = cols.sourceIp ∧ key = i.id)
    (hip : ip ≠ cols.sourceIp) : (db.putDraft found key cols d).incidentsOf ip = db.incidentsOf ip := by
  rw [Db.putDraft, incidentsOf_putAttack]
  cases found with
  | none => exact incidentsOf_putNew_of_ne hip
  | some loaded =>
    obtain ⟨hmem, hsrc, rfl⟩ := hfound loaded rfl
    rw [Db.incidentsOf, h.incidents_putFound hmem, filter_replace hsrc.symm]
    exact map_replace_of_notMem fun hin => hip ((mem_incidentsOf.mp hin).2.symm.trans hsrc)

/-- Writing a draft of another address leaves the records of an address alone. -/
theorem recordsOf_other (h : Correlated db book) (hd : Drafted p db) {ip : String}
    (hcols : cols.sourceIp = d.attack.sourceIp)
    (hfound : ∀ i, found = some i → i ∈ db.incidents ∧ i.sourceIp = cols.sourceIp ∧ key = i.id)
    (hfresh : found = none → ∀ i ∈ db.incidents, i.id ≠ key) (hip : ip ≠ d.attack.sourceIp) :
    (db.putDraft found key cols d).recordsOf ip = db.recordsOf ip := by
  have hattacks : (db.putDraft found key cols d).attacksOf ip = db.attacksOf ip := by
    rw [Db.putDraft, attacksOf_putAttack_of_ne hip, attacksOf_putIncident]
  have hkey : ∀ i ∈ db.incidentsOf ip, i.id ≠ key := by
    intro i hi
    obtain ⟨hmem, hsrc⟩ := mem_incidentsOf.mp hi
    cases hf : found with
    | none => exact hfresh hf i hmem
    | some loaded =>
      obtain ⟨hl, hls, hk⟩ := hfound loaded hf
      intro hid
      rw [h.eq_of_id hmem hl (hid.trans hk), hls, hcols] at hsrc
      exact hip hsrc.symm
  rw [Db.recordsOf, Db.recordsOf, hattacks, hd.map_attackRecords mem_attacks_of_attacksOf,
    h.incidentsOf_other hfound (by rw [hcols]; exact hip)]
  congr 1
  exact List.map_congr_left fun i hi => by rw [hd.linked_other (hkey i hi)]

/-- Writing a draft is what a pipeline for its source alone does. -/
theorem recordsOf_put (h : Correlated db book) (hd : Drafted p db)
    (hfound : found = selectIncident engine db.incidents d.attack.sourceIp) (hkey : key = db.incidentKey found)
    (hcols : cols = (db.recordsOf d.attack.sourceIp).correlated d)
    (hsrc : cols.sourceIp = d.attack.sourceIp) :
    (db.putDraft found key cols d).recordsOf d.attack.sourceIp =
      (db.recordsOf d.attack.sourceIp).put d := by
  have hopen := h.openIncident_recordsOf engine d.attack.sourceIp
  have hattacks : ((db.putDraft found key cols d).attacksOf d.attack.sourceIp).map
      (db.putDraft found key cols d).attackRecords =
        (db.attacksOf d.attack.sourceIp).map db.attackRecords ++ [(d.attack, d.commands)] := by
    have hrows : (db.putDraft found key cols d).attacksOf d.attack.sourceIp =
        db.attacksOf d.attack.sourceIp ++ [putRow db.nextAttack d.attack key] := by
      rw [Db.putDraft, attacksOf_putAttack_self, attacksOf_putIncident]
    rw [hrows, List.map_append, hd.map_attackRecords mem_attacks_of_attacksOf, List.map_singleton,
      hd.attackRecords_new]
  rw [SourceRecords.put, hopen, ← hcols, Db.recordsOf, hattacks]
  rcases h.select engine d.attack.sourceIp with ⟨-, hsel⟩ | ⟨piece, i, pre, -, hsel, hpre, -⟩
  · rw [hsel] at hfound
    subst hfound
    rw [Db.incidentKey, Option.elim_none] at hkey
    have hfresh : ∀ i ∈ db.incidents, i.id ≠ key := fun i hi => by
      rw [hkey]
      exact (h.keys_lt i hi).ne
    have hrows : (db.putDraft none key cols d).incidentsOf d.attack.sourceIp =
        db.incidentsOf d.attack.sourceIp ++ [{ cols with id := key }] := by
      rw [Db.putDraft, incidentsOf_putAttack, incidentsOf_putNew_self hsrc]
    rw [hsel, hrows, List.map_append, List.map_singleton, hd.linked_self, h.linked_fresh hfresh]
    congr 2
    exact List.map_congr_left fun i hi => by rw [hd.linked_other (hfresh i (mem_incidentsOf.mp hi).1)]
  · rw [hsel] at hfound
    subst hfound
    rw [Db.incidentKey, Option.elim_some] at hkey
    subst hkey
    obtain ⟨hmem, hip, -⟩ := h.open_of_select hsel
    have hnodup : (pre ++ [i]).Nodup := hpre ▸ (List.Nodup.of_map _ h.keys_nodup).filter _
    have hnotin : i ∉ pre := fun hi => (List.nodup_append.mp hnodup).2.2 i hi i (by simp) rfl
    have hin : ∀ j ∈ pre, j ∈ db.incidents := fun j hj =>
      (mem_incidentsOf.mp (by rw [hpre]; exact List.mem_append_left _ hj)).1
    have hrows : (db.putDraft (some i) i.id cols d).incidentsOf d.attack.sourceIp =
        pre ++ [{ cols with id := i.id }] := by
      rw [Db.putDraft, incidentsOf_putAttack, Db.incidentsOf, h.incidents_putFound hmem,
        filter_replace (hsrc.trans hip.symm), hpre, List.map_append, map_replace_of_notMem hnotin,
        List.map_singleton, if_pos rfl]
    have hold : (db.recordsOf d.attack.sourceIp).incidents = pre.map (fun j =>
        (j.toIncidentCols, (db.linked j.id).map db.attackRecords)) ++
          [(i.toIncidentCols, (db.linked i.id).map db.attackRecords)] := by
      rw [Db.recordsOf, hpre, List.map_append, List.map_singleton]
    rw [hsel, hrows, hold, List.dropLast_concat, List.map_append, List.map_singleton, hd.linked_self]
    congr 2
    refine List.map_congr_left fun j hj => ?_
    rw [hd.linked_other fun hid => hnotin (h.eq_of_id (hin j hj) hmem hid ▸ hj)]

/-! ## One call -/

/-- A call writes its draft, or nothing. -/
theorem ingest_eq (p : IngestPipeline) (engine : Engine) (db : Db) (capture : Capture) :
    ∃ d, d = p.draft capture (p.priorAttempts engine db.attacks capture.sourceIp (p.captureTs capture)) ∧
      ingest p engine db capture =
        if (p.windowStart (p.captureTs capture)).isSome &&
            engine.acceptsAll (correlate engine db.incidents d.correlateArgs).2.columns &&
            engine.acceptsAll d.attack.columns &&
            d.commands.all (fun c => engine.acceptsAll c.columns) then
          db.putDraft (selectIncident engine db.incidents d.attack.sourceIp)
            (db.incidentKey (selectIncident engine db.incidents d.attack.sourceIp))
            (correlate engine db.incidents d.correlateArgs).2 d
        else db := by
  refine ⟨_, rfl, ?_⟩
  rw [ingest]
  split
  · next db' snap hok =>
    obtain ⟨d, key, rfl, rfl, rfl, -, h1, h2, h3⟩ := process_ok_snapshot hok
    rw [windowStart_of_process hok, h1, h2, h3]
    rfl
  · next e herr =>
    rw [if_neg]
    intro hacc
    rw [Bool.and_eq_true, Bool.and_eq_true, Bool.and_eq_true] at hacc
    obtain ⟨⟨⟨hwindow, hinc⟩, hatt⟩, hcmd⟩ := hacc
    obtain ⟨db', snap, hok⟩ := process_of_accepts db hwindow rfl hinc hatt hcmd
    rw [hok] at herr
    exact absurd herr (by simp)

theorem Correlated.sourceIp_correlate (h : Correlated db book) (d : IngestPipeline.Draft) :
    (correlate engine db.incidents d.correlateArgs).2.sourceIp = d.attack.sourceIp := by
  have hargs : d.correlateArgs.sourceIp = d.attack.sourceIp := rfl
  rw [correlate, hargs]
  cases hsel : selectIncident engine db.incidents d.attack.sourceIp with
  | none => rfl
  | some i => exact (h.open_of_select hsel).2.1

/-- What is kept by every call. -/
def Sound (p : IngestPipeline) (db : Db) : Prop :=
  Drafted p db ∧ ∃ book, Correlated db book

theorem sound_empty : Sound p {} :=
  ⟨drafted_empty, _, correlated_empty⟩

theorem Sound.after_ingest (h : Sound p db) (capture : Capture) : Sound p (ingest p engine db capture) := by
  obtain ⟨hd, book, hc⟩ := h
  rw [ingest]
  split
  · next db' snap hok =>
    obtain ⟨a, -, -, hcor⟩ := hc.process hok
    exact ⟨hd.process hok, _, hcor⟩
  · exact ⟨hd, book, hc⟩

/-- For the records of its own source, a call is a call of a pipeline that serves this source alone. -/
theorem Sound.recordsOf_self (h : Sound p db) (capture : Capture) :
    (ingest p engine db capture).recordsOf capture.sourceIp =
      (db.recordsOf capture.sourceIp).ingest p engine capture := by
  obtain ⟨hd, book, hc⟩ := h
  obtain ⟨d, hdraft, heq⟩ := ingest_eq p engine db capture
  have hip : d.attack.sourceIp = capture.sourceIp := by rw [hdraft]; rfl
  rw [heq, SourceRecords.ingest, priorAttempts_recordsOf, ← hdraft, ← hip,
    hc.correlated_recordsOf engine]
  split
  · exact recordsOf_put hc hd rfl rfl (hc.correlated_recordsOf engine d).symm (hc.sourceIp_correlate d)
  · rfl

/-- The records of other sources stay. -/
theorem Sound.recordsOf_other (h : Sound p db) (capture : Capture) {ip : String}
    (hip : capture.sourceIp ≠ ip) : (ingest p engine db capture).recordsOf ip = db.recordsOf ip := by
  obtain ⟨hd, book, hc⟩ := h
  obtain ⟨d, hdraft, heq⟩ := ingest_eq p engine db capture
  have hsrc : d.attack.sourceIp = capture.sourceIp := by rw [hdraft]; rfl
  rw [heq]
  split
  · refine Core.recordsOf_other hc hd (hc.sourceIp_correlate d) (fun i hi => ?_) (fun hi i hmem => ?_)
      (hsrc ▸ hip.symm)
    · obtain ⟨hmem, hi', -⟩ := hc.open_of_select hi
      refine ⟨hmem, hi'.trans (hc.sourceIp_correlate d).symm, ?_⟩
      rw [hi, Db.incidentKey, Option.elim_some]
    · rw [hi, Db.incidentKey, Option.elim_none]
      exact (hc.keys_lt i hmem).ne
  · rfl

/-! ## Runs -/

/-- The records of a source after a run are those made of its own sessions. -/
theorem recordsOf_ingestAll (captures : List Capture) (ip : String) :
    (ingestAll p engine {} captures).recordsOf ip =
      (captures.filter (·.sourceIp = ip)).foldl (SourceRecords.ingest p engine) {} := by
  refine Runs.foldl_project (I := Sound p) (fun db => Db.recordsOf db ip)
    (fun c : Capture => decide (c.sourceIp = ip))
    (fun db c h => h.after_ingest c) (fun db c h hc => ?_) (fun db c h hc => ?_) sound_empty captures
  · obtain rfl := of_decide_eq_true hc
    exact h.recordsOf_self c
  · exact h.recordsOf_other c (of_decide_eq_false hc)

/-- The clock is only read where a timestamp cannot be read. -/
theorem ingest_congr_session {c c' : Capture} (h : c.toCapturedSession = c'.toCapturedSession)
    (hts : p.ReadsTimestamps c.toCapturedSession) (r : SourceRecords) :
    r.ingest p engine c = r.ingest p engine c' := by
  obtain ⟨session, clock⟩ := c
  obtain ⟨session', clock'⟩ := c'
  obtain rfl : session = session' := h
  have hparse : ∀ value now now', (p.fromisoformat value).isSome = true →
      p.parseTs value now = p.parseTs value now' := by
    intro value now now' hsome
    obtain ⟨t, ht⟩ := Option.isSome_iff_exists.mp hsome
    rw [IngestPipeline.parseTs, IngestPipeline.parseTs, ht]
    rfl
  have hcapture : p.captureTs ⟨session, clock⟩ = p.captureTs ⟨session, clock'⟩ := hparse _ _ _ hts.1
  have hprior : r.priorAttempts p engine ⟨session, clock⟩ = r.priorAttempts p engine ⟨session, clock'⟩ := by
    rw [SourceRecords.priorAttempts, SourceRecords.priorAttempts, hcapture]
  have hcmds : (session.commands.mapIdx fun i cmd => ({
        sessionId := some session.sessionId
        timestamp := p.parseTs cmd.timestamp (clock (i + 1))
        command := cmd.command
        commandType := cmd.commandType } : CommandCols)) =
      session.commands.mapIdx fun i cmd => {
        sessionId := some session.sessionId
        timestamp := p.parseTs cmd.timestamp (clock' (i + 1))
        command := cmd.command
        commandType := cmd.commandType } := by
    refine List.ext_getElem (by simp) fun i h₁ h₂ => ?_
    simp only [List.getElem_mapIdx]
    rw [hparse _ _ (clock' (i + 1)) (hts.2 _ (List.getElem_mem _))]
  have hdraft : ∀ prior, p.draft ⟨session, clock⟩ prior = p.draft ⟨session, clock'⟩ prior := by
    intro prior
    simp only [IngestPipeline.draft, hcapture, hcmds]
  rw [SourceRecords.ingest, SourceRecords.ingest, hprior, hdraft, hcapture]

/-- Sources do not influence each other: two runs that ingest the same sessions of a source, in the same
order, leave the same records of it, keys apart. -/
theorem sources_isolated (ip : String) {xs ys : List Capture}
    (hts : ∀ c ∈ xs, c.sourceIp = ip → p.ReadsTimestamps c.toCapturedSession)
    (h : (xs.filter (·.sourceIp = ip)).map Capture.toCapturedSession =
      (ys.filter (·.sourceIp = ip)).map Capture.toCapturedSession) :
    (ingestAll p engine {} xs).recordsOf ip = (ingestAll p engine {} ys).recordsOf ip := by
  have hfold : ∀ (cs cs' : List Capture) (r : SourceRecords),
      (∀ c ∈ cs, p.ReadsTimestamps c.toCapturedSession) →
      cs.map Capture.toCapturedSession = cs'.map Capture.toCapturedSession →
      cs.foldl (SourceRecords.ingest p engine) r = cs'.foldl (SourceRecords.ingest p engine) r := by
    intro cs
    induction cs with
    | nil =>
      intro cs' r _ heq
      rw [List.map_nil] at heq
      rw [List.map_eq_nil_iff.mp heq.symm]
    | cons c cs ih =>
      intro cs' r hread heq
      obtain ⟨c', cs'', rfl, hc, hcs⟩ := List.map_eq_cons_iff.mp heq.symm
      rw [List.foldl_cons, List.foldl_cons,
        ingest_congr_session hc.symm (hread c List.mem_cons_self)]
      exact ih cs'' _ (fun x hx => hread x (List.mem_cons_of_mem _ hx)) hcs.symm
  rw [recordsOf_ingestAll, recordsOf_ingestAll]
  refine hfold _ _ _ (fun c hc => ?_) h
  obtain ⟨hmem, hip⟩ := List.mem_filter.mp hc
  exact hts c hmem (of_decide_eq_true hip)

/-- A session of another source before and after. -/
theorem sources_isolated_twoSources :
    (ingestAll .twoInstants .postgres {}
        [.guess "2026-01-01T00:00:10+00:00" "9.9.9.9", .guess "2026-01-01T00:00:10+00:00" "8.8.8.8",
          .guess "2026-01-01T00:00:20+00:00" "9.9.9.9"]).recordsOf "8.8.8.8" =
      (ingestAll .twoInstants .postgres {}
        [.guess "2026-01-01T00:00:10+00:00" "8.8.8.8"]).recordsOf "8.8.8.8" := by
  refine sources_isolated "8.8.8.8" (fun c hc hip => ?_) rfl
  simp only [List.mem_cons, List.not_mem_nil, or_false] at hc
  rcases hc with rfl | rfl | rfl
  · exact absurd hip (by decide)
  · exact ⟨by decide, by simp [Capture.guess]⟩
  · exact absurd hip (by decide)

end Records

end SentinelSsh.Core

import SentinelSsh.Backend.DemoData
import SentinelSsh.Core.Proofs.SummarizedProofs

/-!
# Demo data and the pipeline share their tables

A row `seed_if_empty` writes is the one `correlate` would write (`absorb_eq`), but for its sightings: the loop
takes the earliest and the latest time where `correlate` takes the first and the last. So a start leaves
tables the pipeline goes on from as from its own (`seeded_table_correlated`).
-/

namespace SentinelSsh.Backend.Demo

open Python SentinelSsh.Core

/-! ## A round of the loop -/

section Rounds

variable {engine : Engine} {now : Datetime} {s s' : Seeding} {draw : Draw} {i : Nat}
  {book : String → Ledger}

/-- A source has one country. -/
theorem country_of_ip : ∀ source ∈ sources, ∀ other ∈ sources,
    source.ip = other.ip → source.country = other.country := by
  decide

theorem country_ne_empty : ∀ source ∈ sources, source.country ≠ "" := by
  decide

theorem chosen_mem (draw : Draw) : draw.chosen ∈ sources :=
  List.get_mem sources draw.source

/-- What `correlate` is asked for by a session with these attributes. -/
def Draw.correlateArgs (draw : Draw) (now : Datetime) (i : Nat) : CorrelateArgs where
  sourceIp := draw.chosen.ip
  country := some draw.chosen.country
  riskScore := draw.risk i
  attempts := max 1 draw.attempts.1
  techniques := (profileAt i).mitre
  timestamp := draw.timestamp now

theorem attack_describes (draw : Draw) (now : Datetime) (i : Nat) :
    Describes (draw.correlateArgs now i) (draw.attack now i) where
  sourceIp := rfl
  country := rfl
  riskScore := rfl
  attempts := rfl
  techniques := (parseJsonList_dumps _).symm
  timestamp := rfl
  nonneg := le_max_left 0 _

/-- The attributes of an incident of the source the round has drawn. -/
structure Drawn (draw : Draw) (incident : IncidentCols) : Prop where
  sourceIp : incident.sourceIp = draw.chosen.ip
  country : incident.country = some draw.chosen.country
  techniques : ∃ ts, incident.mitreTechniques = some (Json.dumps ts)

theorem newIncident_drawn : Drawn draw (draw.newIncident now) :=
  ⟨rfl, rfl, [], rfl⟩

theorem buildTitle_located (ip : String) {country : String} (h : truthy (some country) = true) (n : Int) :
    buildTitle ip (some country) n =
      "SSH activity from " ++ ip ++ (" (" ++ country ++ ")") ++ " — " ++ toString n ++ " attempts" := by
  unfold buildTitle
  rw [if_pos h]
  dsimp only [Option.getD_some]

theorem current_dumps (ts : List String) :
    (Json.loads ((Python.or (some (Json.dumps ts)) (some "[]")).getD "")).getD [] = ts := by
  have hdumps : truthy (some (Json.dumps ts)) = true := by
    simpa [truthy] using dumps_ne_empty ts
  rw [Python.or, if_pos hdumps, Option.getD_some, Json.loads_dumps, Option.getD_some]

/-- The assignments of a round are those of `correlate`, but for the sightings. -/
theorem absorb_eq {incident : IncidentCols} (h : Drawn draw incident) :
    draw.absorb now i incident =
      { incident.absorb (draw.correlateArgs now i) with
        firstSeen := (draw.absorb now i incident).firstSeen
        lastSeen := (draw.absorb now i incident).lastSeen } := by
  obtain ⟨ts, hts⟩ := h.techniques
  have hattempts : max 1 (max 1 draw.attempts.1) = draw.attempts.1 := by
    have := draw.attempts.2.1
    omega
  have hshown : truthy (some draw.chosen.country) = true := by
    simpa [truthy] using country_ne_empty _ (chosen_mem draw)
  have hcountry : (if truthy (some draw.chosen.country) && !truthy (some draw.chosen.country) then
      some draw.chosen.country else some draw.chosen.country) = some draw.chosen.country := ite_self _
  simp only [Draw.absorb, IncidentCols.absorb, Draw.correlateArgs, h.country, h.sourceIp, hts, hattempts,
    hcountry, buildTitle_located _ hshown, mergeTechniques_dumps, current_dumps]

/-- What the loop has written of the incidents. -/
structure Kept (s : Seeding) : Prop where
  entered : ∀ r ∈ s.db.incidents, s.incidents.lookup r.sourceIp = some r.id
  stored : ∀ ip key, s.incidents.lookup ip = some key → ∃ r ∈ s.db.incidents, r.id = key ∧ r.sourceIp = ip
  opened : ∀ r ∈ s.db.incidents, r.status = .open
  located : ∀ r ∈ s.db.incidents, ∀ source ∈ sources, source.ip = r.sourceIp →
    r.country = some source.country
  listed : ∀ r ∈ s.db.incidents, ∃ ts, r.mitreTechniques = some (Json.dumps ts)

/-- The sightings of an incident, at the offset of the clock. -/
def Zoned (now : Datetime) (incident : IncidentCols) : Prop :=
  incident.firstSeen.utcoffset = now.utcoffset ∧ incident.lastSeen.utcoffset = now.utcoffset

theorem absorb_zoned {incident : IncidentCols} (h : Zoned now incident) :
    Zoned now (draw.absorb now i incident) := by
  constructor
  · simp only [Draw.absorb]
    split
    · rfl
    · exact h.1
  · simp only [Draw.absorb]
    split
    · rfl
    · exact h.2

theorem Kept.drawn (h : Kept s) {r : Incident} (hr : r ∈ s.db.incidents)
    (hip : r.sourceIp = draw.chosen.ip) : Drawn draw r.toIncidentCols :=
  ⟨hip, h.located r hr _ (chosen_mem draw) hip.symm, h.listed r hr⟩

end Rounds

section Loop

variable {engine : Engine} {now : Datetime} {s s' : Seeding} {draw : Draw} {i : Nat}
  {book : String → Ledger}

theorem selectIncident_none {incidents : List Incident} {ip : String}
    (h : ∀ r ∈ incidents, r.sourceIp ≠ ip) : selectIncident engine incidents ip = none := by
  have hfilter : incidents.filter (fun i => i.sourceIp = ip && i.status ≠ .closed) = [] := by
    rw [List.filter_eq_nil_iff]
    intro r hr
    simp [h r hr]
  rw [selectIncident, hfilter, List.maxOn?_nil]

/-- The assignments to the object of a row are the `UPDATE` of the row. -/
theorem updateIncident_eq {db : Db} (h : (db.incidents.map (·.id)).Nodup) {r : Incident}
    (hr : r ∈ db.incidents) (f : IncidentCols → IncidentCols) :
    updateIncident db r.id f = db.putIncident (some r) r.id (f r.toIncidentCols) := by
  rw [updateIncident, Db.putIncident]
  congr 1
  refine List.map_congr_left fun j hj => ?_
  by_cases hid : j.id = r.id
  · obtain rfl := List.inj_on_of_nodup_map h hj hr hid
    rw [if_pos rfl, if_pos rfl, IncidentCols.patch_self]
  · rw [if_neg hid, if_neg hid]

/-- The assignments to an object that was just inserted are part of its `INSERT`. -/
theorem updateIncident_new {db : Db} {key : Nat} (h : ∀ r ∈ db.incidents, r.id ≠ key)
    (cols : IncidentCols) (f : IncidentCols → IncidentCols) :
    updateIncident (db.putIncident none key cols) key f = db.putIncident none key (f cols) := by
  have hold : db.incidents.map (fun r => if r.id = key then { f r.toIncidentCols with id := r.id } else r) =
      db.incidents := by
    rw [List.map_congr_left fun r hr => if_neg (h r hr), List.map_id']
  simp only [updateIncident, Db.putIncident, List.map_append, List.map_singleton, hold, if_true]

/-- What a round does: it writes what `correlate` would write, with its own sightings. -/
structure Round (engine : Engine) (draw : Draw) (now : Datetime) (i : Nat) (s s' : Seeding) (found : Option Incident)
    (key : Nat) (cols : IncidentCols) : Prop where
  found_eq : found = (correlate engine s.db.incidents (draw.correlateArgs now i)).1
  absorbed : cols = draw.absorb now i (found.elim (draw.newIncident now) (·.toIncidentCols))
  cols_eq : cols = { (correlate engine s.db.incidents (draw.correlateArgs now i)).2 with
    firstSeen := cols.firstSeen, lastSeen := cols.lastSeen }
  drawn : Drawn draw cols
  status : cols.status = .open
  db_eq : s'.db = (s.db.putIncident found key cols).putAttack s.db.nextAttack (draw.attack now i)
    (draw.commands now i) key
  keyOf : KeyOf s.db found key
  met : ∀ r, found = some r → r.sourceIp = draw.chosen.ip ∧ s'.incidents = s.incidents
  fresh : found = none → s.incidents.lookup draw.chosen.ip = none ∧
    s'.incidents = s.incidents ++ [(draw.chosen.ip, key)]

theorem absorb_drawn {incident : IncidentCols} (h : Drawn draw incident) :
    Drawn draw (draw.absorb now i incident) :=
  ⟨h.sourceIp, h.country, _, rfl⟩

theorem round_of_seedRound (hk : Kept s) (h : Summarized s.db book)
    (hs : seedRound engine now s (draw, i) = some s') :
    ∃ found key cols, Round engine draw now i s s' found key cols := by
  rw [seedRound, Option.bind_eq_some_iff] at hs
  obtain ⟨⟨t, key⟩, hfor, hs⟩ := hs
  simp only [Option.ite_none_right_eq_some, Option.some.injEq] at hs
  obtain ⟨-, rfl⟩ := hs
  rw [Seeding.incidentFor] at hfor
  cases hlook : s.incidents.lookup (draw.newIncident now).sourceIp with
  | some k =>
    rw [hlook] at hfor
    obtain ⟨rfl, rfl⟩ : s = t ∧ k = key := by simpa using hfor
    obtain ⟨r, hr, rfl, hip⟩ := hk.stored _ _ hlook
    have hdrawn := hk.drawn hr hip
    have hsel : selectIncident engine s.db.incidents draw.chosen.ip = some r := by
      have hst : r.status ≠ .closed := by
        rw [hk.opened r hr]
        decide
      have : selectIncident engine s.db.incidents r.sourceIp = some r := h.select_of_open hr hst
      rwa [hip] at this
    refine ⟨some r, r.id, draw.absorb now i r.toIncidentCols, ?_, rfl, ?_, absorb_drawn hdrawn,
      hk.opened r hr, ?_, ⟨?_, nofun⟩, ?_, nofun⟩
    · rw [correlate]
      exact hsel.symm
    · rw [correlate, show (draw.correlateArgs now i).sourceIp = draw.chosen.ip from rfl, hsel]
      exact absorb_eq hdrawn
    · rw [updateIncident_eq h.ids_nodup hr]
      rfl
    · rintro r' hr'
      obtain rfl : r = r' := by simpa using hr'
      exact ⟨hr, rfl⟩
    · rintro r' hr'
      obtain rfl : r = r' := by simpa using hr'
      exact ⟨hip, rfl⟩
  | none =>
    rw [hlook] at hfor
    simp only [Option.ite_none_right_eq_some, Option.some.injEq, Prod.mk.injEq] at hfor
    obtain ⟨-, rfl, rfl⟩ := hfor
    have hsel : selectIncident engine s.db.incidents draw.chosen.ip = none := by
      refine selectIncident_none fun r hr hip => ?_
      have hentered := hk.entered r hr
      rw [hip, show draw.chosen.ip = (draw.newIncident now).sourceIp from rfl, hlook] at hentered
      exact absurd hentered (by simp)
    refine ⟨none, s.db.nextIncident, draw.absorb now i (draw.newIncident now), ?_, rfl, ?_,
      absorb_drawn newIncident_drawn, rfl, ?_, ⟨?_, fun _ r hr => (h.ids_lt r hr).ne⟩, ?_,
      fun _ => ⟨hlook, rfl⟩⟩
    · rw [correlate]
      exact hsel.symm
    · rw [correlate, show (draw.correlateArgs now i).sourceIp = draw.chosen.ip from rfl, hsel]
      exact absorb_eq newIncident_drawn
    · rw [updateIncident_new fun r hr => (h.ids_lt r hr).ne]
      rfl
    · intro r hr
      cases hr
    · intro r hr
      cases hr

theorem Round.summarized {found : Option Incident} {key : Nat} {cols : IncidentCols}
    (hr : Round engine draw now i s s' found key cols) (h : Summarized s.db book) :
    Summarized s'.db (Function.update book draw.chosen.ip
      ((book draw.chosen.ip).apply (.attack (draw.attack now i)))) := by
  rw [hr.db_eq]
  exact h.put (attack_describes draw now i) _ _ hr.found_eq hr.cols_eq hr.keyOf

theorem Round.mem {found : Option Incident} {key : Nat} {cols : IncidentCols}
    (hr : Round engine draw now i s s' found key cols) (h : Summarized s.db book) (r : Incident) :
    r ∈ s'.db.incidents ↔ r = { cols with id := key } ∨ r ∈ s.db.incidents ∧ r.id ≠ key := by
  rw [hr.db_eq]
  exact mem_putIncident h.ids_nodup hr.keyOf cols r

/-- The dictionary after a round has the entry of its address, and the others it had. -/
theorem Round.lookup {found : Option Incident} {key : Nat} {cols : IncidentCols}
    (hr : Round engine draw now i s s' found key cols) (hk : Kept s) (ip : String) (k : Nat) :
    s'.incidents.lookup ip = some k ↔
      ip = draw.chosen.ip ∧ k = key ∨ ip ≠ draw.chosen.ip ∧ s.incidents.lookup ip = some k := by
  cases found with
  | none =>
    obtain ⟨hlook, hdict⟩ := hr.fresh rfl
    by_cases hip : ip = draw.chosen.ip
    · subst hip
      simp [hdict, List.lookup_append, hlook, eq_comm]
    · have hne : (ip == draw.chosen.ip) = false := by simpa using hip
      simp [hdict, List.lookup_append, List.lookup_cons, hne, hip]
  | some loaded =>
    obtain ⟨hloaded, rfl⟩ := hr.keyOf.of_some loaded rfl
    obtain ⟨hsrc, hdict⟩ := hr.met loaded rfl
    have hentry := hk.entered loaded hloaded
    rw [hsrc] at hentry
    rw [hdict]
    by_cases hip : ip = draw.chosen.ip
    · subst hip
      simp [hentry, eq_comm]
    · simp [hip]

/-- The row a round writes is the only one of its address. -/
theorem Round.id_eq_iff {found : Option Incident} {key : Nat} {cols : IncidentCols}
    (hr : Round engine draw now i s s' found key cols) (hk : Kept s) (h : Summarized s.db book) {r : Incident}
    (hmem : r ∈ s.db.incidents) : r.id = key ↔ r.sourceIp = draw.chosen.ip := by
  have hentered := hk.entered r hmem
  cases found with
  | none =>
    obtain ⟨hlook, -⟩ := hr.fresh rfl
    refine iff_of_false (hr.keyOf.of_none rfl r hmem) fun hip => ?_
    rw [hip, hlook] at hentered
    exact absurd hentered (by simp)
  | some loaded =>
    obtain ⟨hloaded, rfl⟩ := hr.keyOf.of_some loaded rfl
    obtain ⟨hsrc, -⟩ := hr.met loaded rfl
    constructor
    · intro hid
      rw [List.inj_on_of_nodup_map h.ids_nodup hmem hloaded hid, hsrc]
    · intro hip
      rw [hip, ← hsrc, hk.entered loaded hloaded] at hentered
      exact (Option.some.inj hentered).symm

theorem Round.kept {found : Option Incident} {key : Nat} {cols : IncidentCols}
    (hr : Round engine draw now i s s' found key cols) (hk : Kept s) (h : Summarized s.db book) : Kept s' := by
  refine ⟨fun r hmem => ?_, fun ip k hlook => ?_, fun r hmem => ?_, fun r hmem => ?_, fun r hmem => ?_⟩
  · rw [hr.lookup hk]
    rcases (hr.mem h r).mp hmem with rfl | ⟨hold, hid⟩
    · exact Or.inl ⟨hr.drawn.sourceIp, rfl⟩
    · exact Or.inr ⟨fun hip => hid ((hr.id_eq_iff hk h hold).mpr hip), hk.entered r hold⟩
  · rcases (hr.lookup hk ip k).mp hlook with ⟨rfl, rfl⟩ | ⟨hip, hold⟩
    · exact ⟨_, (hr.mem h _).mpr (Or.inl rfl), rfl, hr.drawn.sourceIp⟩
    · obtain ⟨r, hmem, rfl, rfl⟩ := hk.stored ip k hold
      exact ⟨r, (hr.mem h r).mpr (Or.inr ⟨hmem, fun hid => hip ((hr.id_eq_iff hk h hmem).mp hid)⟩), rfl, rfl⟩
  · rcases (hr.mem h r).mp hmem with rfl | ⟨hold, -⟩
    · exact hr.status
    · exact hk.opened r hold
  · rcases (hr.mem h r).mp hmem with rfl | ⟨hold, -⟩
    · intro source hsource hip
      rw [country_of_ip source hsource _ (chosen_mem draw) (hip.trans hr.drawn.sourceIp)]
      exact hr.drawn.country
    · exact hk.located r hold
  · rcases (hr.mem h r).mp hmem with rfl | ⟨hold, -⟩
    · exact hr.drawn.techniques
    · exact hk.listed r hold

/-- The sightings stay at the offset of the clock. -/
theorem Round.zoned {found : Option Incident} {key : Nat} {cols : IncidentCols}
    (hr : Round engine draw now i s s' found key cols) (h : Summarized s.db book)
    (hz : ∀ r ∈ s.db.incidents, Zoned now r.toIncidentCols) : ∀ r ∈ s'.db.incidents, Zoned now r.toIncidentCols := by
  intro r hmem
  rcases (hr.mem h r).mp hmem with rfl | ⟨hold, -⟩
  · show Zoned now cols
    rw [hr.absorbed]
    cases found with
    | none => exact absorb_zoned ⟨rfl, rfl⟩
    | some loaded => exact absorb_zoned (hz loaded (hr.keyOf.of_some loaded rfl).1)
  · exact hz r hold

/-- A round keeps the brackets, whatever time it has drawn. -/
theorem Round.bracketed {found : Option Incident} {key : Nat} {cols : IncidentCols}
    (hr : Round engine draw now i s s' found key cols) (h : Summarized s.db book)
    (hz : ∀ r ∈ s.db.incidents, Zoned now r.toIncidentCols) (hb : s.db.Bracketed engine) :
    s'.db.Bracketed engine := by
  rw [hr.db_eq, bracketed_put h.ids_nodup hb hr.keyOf, hr.absorbed]
  show (_ ++ [engine.key (draw.timestamp now)]).min? = _ ∧ (_ ++ [engine.key (draw.timestamp now)]).max? = _
  cases found with
  | none =>
    rw [h.linked_fresh (hr.keyOf.of_none rfl)]
    simp [Draw.absorb, Draw.newIncident]
  | some loaded =>
    obtain ⟨hloaded, rfl⟩ := hr.keyOf.of_some loaded rfl
    obtain ⟨hmin, hmax⟩ := hb loaded hloaded
    obtain ⟨hfirst, hlast⟩ := hz loaded hloaded
    rw [Db.moments] at hmin hmax
    rw [min?_concat hmin, max?_concat hmax, Option.elim_some]
    simp only [Draw.absorb, Option.some.injEq]
    have hoffset : (draw.timestamp now).utcoffset = now.utcoffset := rfl
    have hearlier := engine.key_lt_iff (hoffset.trans hfirst.symm)
    have hlater := engine.key_lt_iff (hlast.trans hoffset.symm)
    constructor
    · split <;> omega
    · split <;> omega

end Loop

/-! ## A start, and the runs of the system -/

section System

variable {p : IngestPipeline} {engine : Engine} {now : Datetime} {draws : List Draw} {db db' : Db}
  {book : String → Ledger} {log : Log}

/-- The log entry of an attack that was stored. -/
def attackEntry (a : Attack) : String × Entry :=
  (a.sourceIp, .attack a.toAttackCols)

/-- What holds of the loop after each round: it has added rows, and the tables hold the histories with
these rows. -/
structure Seeded (engine : Engine) (now : Datetime) (db : Db) (log : Log) (s : Seeding) : Prop where
  kept : Kept s
  zoned : ∀ r ∈ s.db.incidents, Zoned now r.toIncidentCols
  bracketed : s.db.Bracketed engine
  added : ∃ rows, s.db.attacks = db.attacks ++ rows ∧
    Summarized s.db (log ++ rows.map attackEntry).ledger

theorem seeded_step {s s' : Seeding} {round : Draw × Nat} (h : Seeded engine now db log s)
    (hs : seedRound engine now s round = some s') : Seeded engine now db log s' := by
  obtain ⟨draw, i⟩ := round
  obtain ⟨rows, hrows, hsum⟩ := h.added
  obtain ⟨found, key, cols, hr⟩ := round_of_seedRound h.kept hsum hs
  refine ⟨hr.kept h.kept hsum, hr.zoned hsum h.zoned, hr.bracketed hsum h.zoned h.bracketed,
    rows ++ [putRow s.db.nextAttack (draw.attack now i) key], ?_, ?_⟩
  · rw [hr.db_eq, Db.putAttack, ← List.append_assoc, ← hrows, attacks_putIncident]
    rfl
  · rw [List.map_append, List.map_singleton, ← List.append_assoc]
    have hentry : attackEntry (putRow s.db.nextAttack (draw.attack now i) key) =
        (draw.chosen.ip, .attack (draw.attack now i)) := rfl
    rw [hentry, ledger_concat]
    exact hr.summarized hsum

theorem kept_empty (h : db.incidents = []) : Kept { db := db } := by
  constructor <;> simp [h]

/-- A start leaves the tables alone, or fills empty ones. -/
theorem maybeSeedDemo_cases (demoMode : Bool) :
    maybeSeedDemo engine demoMode now draws db = db ∨ db.attacks = [] ∧ ∃ s,
      Runs.run (seedRound engine now) { db := db } draws.zipIdx = some s ∧
        maybeSeedDemo engine demoMode now draws db = s.db := by
  unfold maybeSeedDemo
  cases demoMode with
  | false => exact Or.inl rfl
  | true =>
    rw [if_pos rfl, seedIfEmpty]
    split
    · exact Or.inl rfl
    · next hempty =>
      cases hr : Runs.run (seedRound engine now) { db := db } draws.zipIdx with
      | none => exact Or.inl rfl
      | some s =>
        rw [Option.bind_some]
        split
        · exact Or.inr ⟨by simpa using hempty, s, rfl, rfl⟩
        · exact Or.inl rfl

/-- Tables that a start has filled are those of a finished loop. -/
theorem seeded_run {s : Seeding} (h : Summarized db log.ledger) (hempty : db.attacks = [])
    (hr : Runs.run (seedRound engine now) { db := db } draws.zipIdx = some s) : Seeded engine now db log s := by
  have hincidents := h.incidents_nil hempty
  refine Runs.run_invariant (fun _ _ _ => seeded_step) ⟨kept_empty hincidents, ?_, ?_, [], ?_, ?_⟩ hr
  · intro r hmem
    rw [hincidents] at hmem
    cases hmem
  · intro r hmem
    rw [hincidents] at hmem
    cases hmem
  · exact (List.append_nil _).symm
  · rw [List.map_nil, List.append_nil]
    exact h

/-- A start keeps the tables what their histories amount to. -/
theorem summarized_start (h : Summarized db log.ledger) (demoMode : Bool) :
    Summarized (maybeSeedDemo engine demoMode now draws db) (log ++
      entriesOf db (maybeSeedDemo engine demoMode now draws db) (.start demoMode now draws)).ledger := by
  rcases @maybeSeedDemo_cases engine now draws db demoMode with hsame | ⟨hempty, s, hr, hdb⟩
  · rw [hsame, entriesOf, List.drop_length, List.map_nil, List.append_nil]
    exact h
  · obtain ⟨rows, hrows, hsum⟩ := (seeded_run h hempty hr).added
    rw [hdb, entriesOf, hrows, List.drop_left]
    exact hsum

/-- A start keeps the brackets. -/
theorem bracketed_start (h : Summarized db log.ledger) (hb : db.Bracketed engine) (demoMode : Bool) :
    (maybeSeedDemo engine demoMode now draws db).Bracketed engine := by
  rcases @maybeSeedDemo_cases engine now draws db demoMode with hsame | ⟨hempty, s, hr, hdb⟩
  · rw [hsame]
    exact hb
  · rw [hdb]
    exact (seeded_run h hempty hr).bracketed

theorem summarized_step {s s' : Logged} {e : SystemEvent} (h : Summarized s.db s.log.ledger)
    (hs : loggedSystemStep p engine s e = some s') : Summarized s'.db s'.log.ledger := by
  obtain ⟨db', hstep, rfl⟩ := Option.map_eq_some_iff.mp hs
  cases e with
  | start demoMode now draws =>
    obtain rfl : maybeSeedDemo engine demoMode now draws s.db = db' := Option.some.inj hstep
    exact summarized_start h demoMode
  | pipeline e => exact h.after_step hstep

/-- In every run of the whole system from the empty database, starts of the backend with demo mode
included, the incident table is the reference correlation of the attack table. -/
theorem seeded_table_correlated {es : List SystemEvent} {s : Logged}
    (hr : Runs.run (loggedSystemStep p engine) {} es = some s) :
    (∀ ip, List.Forall₂ (SummaryOf s.db) (s.db.incidentsOf ip) (s.log.ledger ip).pieces) ∧
      (∀ ip, (s.db.attacksOf ip).map Attack.toAttackCols = (s.log.ledger ip).attacks) ∧
      (∀ a ∈ s.db.attacks, ∃ i ∈ s.db.incidents,
        a.incidentId = some i.id ∧ i.sourceIp = a.sourceIp) ∧
      (s.db.incidents.map (·.id)).Nodup ∧
      ∀ ip, ((s.db.incidentsOf ip).filter (·.status ≠ .closed)).length ≤ 1 := by
  have h : Summarized s.db s.log.ledger :=
    Runs.run_invariant (I := fun s => Summarized s.db s.log.ledger) (fun _ _ _ => summarized_step)
      summarized_empty hr
  refine ⟨h.summaries, ?_⟩
  obtain ⟨seen, ref, hcor, hdb⟩ := h
  rw [hdb]
  refine ⟨hcor.attacks, fun a ha => ?_, ?_, fun ip => ?_⟩
  · obtain ⟨i, hi, hid, hip⟩ := hcor.owned a ha
    exact ⟨showing seen i, List.mem_map_of_mem hi, hid, hip⟩
  · rw [withSeen_ids]
    exact hcor.keys_nodup
  · rw [withSeen_incidentsOf, List.filter_map, List.length_map]
    exact hcor.open_length ip

/-- A start writes a session of an address, a real one comes from it, and the incident is closed. -/
theorem seeded_table_correlated_twoWriters : ∃ s, Runs.run (loggedSystemStep .twoInstants .postgres) {}
      [.start true (.utc 1767225600000000) [.google ⟨10, by decide⟩],
        .pipeline (.ingest (.guess "2026-01-01T00:00:10+00:00" "8.8.8.8")), .pipeline (.close 1)] = some s ∧
    ∀ ip, List.Forall₂ (SummaryOf s.db) (s.db.incidentsOf ip) (s.log.ledger ip).pieces := by
  have hsome : (Runs.run (loggedSystemStep .twoInstants .postgres) {}
      [.start true (.utc 1767225600000000) [.google ⟨10, by decide⟩],
        .pipeline (.ingest (.guess "2026-01-01T00:00:10+00:00" "8.8.8.8")),
        .pipeline (.close 1)]).isSome = true := by
    set_option maxRecDepth 4000 in
    with_unfolding_all decide
  obtain ⟨s, hs⟩ := Option.isSome_iff_exists.mp hsome
  exact ⟨s, hs, (seeded_table_correlated hs).1⟩

/-- Demo mode never costs the brackets: in every run of the whole system, `first_seen` and `last_seen`
are the earliest and the latest timestamp of the attacks of every incident all along if and only if no
session is older than an attack of the incident it joins. -/
theorem seeded_bracketed_iff (p : IngestPipeline) (engine : Engine) (es : List SystemEvent) :
    Runs.Always (systemStep p engine) (Db.Bracketed engine) {} es ↔
      Runs.Guarded (systemStep p engine) (SystemChronological p engine) {} es := by
  have hstep : ∀ db e db', ((∃ log : Log, Summarized db log.ledger) ∧ db.Bracketed engine) →
      systemStep p engine db e = some db' →
        (∃ log : Log, Summarized db' log.ledger) ∧ (db'.Bracketed engine ↔ SystemChronological p engine db e) := by
    rintro db e db' ⟨⟨log, h⟩, hb⟩ hs
    cases e with
    | start demoMode now draws =>
      obtain rfl : maybeSeedDemo engine demoMode now draws db = db' := Option.some.inj hs
      exact ⟨⟨_, summarized_start h demoMode⟩, iff_of_true (bracketed_start h hb demoMode) trivial⟩
    | pipeline e =>
      refine ⟨⟨_, h.after_step hs⟩, ?_⟩
      cases e with
      | ingest capture =>
        obtain ⟨snap, hok⟩ := process_of_toOption hs
        exact h.bracketed_process hb hok
      | triage id =>
        simp only [systemStep, step, Option.ite_none_right_eq_some, Option.some.injEq] at hs
        obtain ⟨-, rfl⟩ := hs
        exact iff_of_true (bracketed_setStatus hb _ _) trivial
      | close id =>
        simp only [systemStep, step, Option.ite_none_right_eq_some, Option.some.injEq] at hs
        obtain ⟨-, rfl⟩ := hs
        exact iff_of_true (bracketed_setStatus hb _ _) trivial
  refine Runs.always_iff_guarded (I := fun db => (∃ log : Log, Summarized db log.ledger) ∧ db.Bracketed engine)
    ?_ (fun db h => h.2) ?_ ⟨⟨[], summarized_empty⟩, by simp [Db.Bracketed]⟩
  · intro db e db' h hg hs
    obtain ⟨hsum, hiff⟩ := hstep db e db' h hs
    exact ⟨hsum, hiff.mpr hg⟩
  · intro db e db' h hs hb'
    exact (hstep db e db' h hs).2.mp hb'

end System

end SentinelSsh.Backend.Demo

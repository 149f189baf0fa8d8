import SentinelSsh.Core.Summarized
import SentinelSsh.Core.Proofs.SeenProofs

/-!
# Writers that agree but for the sightings

The sightings do not matter to the correlation, since `correlate` finds at most one row
(`selectIncident_withSeen`). So whoever writes what `correlate` computes, with whatever sightings, leaves the
tables what their histories amount to (`Summarized.put`), and keeps the brackets exactly when the row it
writes has its own (`bracketed_put`).
-/

namespace SentinelSsh.Core

open Python

variable {ref db db' : Db} {book : String → Ledger} {seen : Nat → Datetime × Datetime}
  {p : IngestPipeline} {engine : Engine} {log : Log}

@[simp] theorem showing_id (i : Incident) : (showing seen i).id = i.id := rfl

@[simp] theorem showing_sourceIp (i : Incident) : (showing seen i).sourceIp = i.sourceIp := rfl

@[simp] theorem showing_status (i : Incident) : (showing seen i).status = i.status := rfl

@[simp] theorem withSeen_attacks (db : Db) : (withSeen seen db).attacks = db.attacks := rfl

@[simp] theorem withSeen_linked (db : Db) (k : Nat) : (withSeen seen db).linked k = db.linked k := rfl

@[simp] theorem withSeen_ids (db : Db) :
    (withSeen seen db).incidents.map (·.id) = db.incidents.map (·.id) := by
  rw [withSeen, List.map_map]
  rfl

theorem withSeen_incidentsOf (ip : String) :
    (withSeen seen db).incidentsOf ip = (db.incidentsOf ip).map (showing seen) := by
  rw [Db.incidentsOf, withSeen, List.filter_map, Db.incidentsOf]
  rfl

theorem mem_withSeen {i : Incident} :
    i ∈ (withSeen seen db).incidents ↔ ∃ j ∈ db.incidents, showing seen j = i := List.mem_map

theorem showing_of_ne {i : Incident} {key : Nat} {sightings : Datetime × Datetime} (h : i.id ≠ key) :
    showing (Function.update seen key sightings) i = showing seen i := by
  rw [showing, Function.update_of_ne h]
  rfl

/-- The `SELECT` of `correlate` finds the same row whatever the sightings are: there is at most one. -/
theorem selectIncident_withSeen (h : Correlated ref book) (ip : String) :
    selectIncident engine (withSeen seen ref).incidents ip =
      (selectIncident engine ref.incidents ip).map (showing seen) := by
  have hlen := h.open_length ip
  have hfilter : ((withSeen seen ref).incidentsOf ip).filter (·.status ≠ .closed) =
      ((ref.incidentsOf ip).filter (·.status ≠ .closed)).map (showing seen) := by
    rw [withSeen_incidentsOf, List.filter_map]
    rfl
  rw [selectIncident_eq, selectIncident_eq, hfilter]
  cases hrows : (ref.incidentsOf ip).filter (·.status ≠ .closed) with
  | nil => simp
  | cons i rest =>
    rw [hrows] at hlen
    have hrest : rest = [] := List.length_eq_zero_iff.mp (by simpa using hlen)
    subst hrest
    simp

/-- `correlate` computes the same attributes, up to the sightings. -/
theorem correlate_withSeen (h : Correlated ref book) (args : CorrelateArgs) (u v : Datetime) :
    (correlate engine (withSeen seen ref).incidents args).1 =
        (correlate engine ref.incidents args).1.map (showing seen) ∧
      { (correlate engine (withSeen seen ref).incidents args).2 with firstSeen := u, lastSeen := v } =
        { (correlate engine ref.incidents args).2 with firstSeen := u, lastSeen := v } := by
  rw [correlate, correlate, selectIncident_withSeen h]
  refine ⟨rfl, ?_⟩
  cases selectIncident engine ref.incidents args.sourceIp <;> rfl

/-- Writing a row with other sightings is writing the row and showing others. -/
theorem put_withSeen (h : Correlated ref book) {found : Option Incident} {key : Nat} (cols : IncidentCols)
    (u v : Datetime) (hkey : ∀ i, found = some i → i ∈ ref.incidents ∧ key = i.id)
    (hfresh : found = none → ∀ i ∈ ref.incidents, i.id ≠ key) :
    (withSeen seen ref).putIncident (found.map (showing seen)) key
        { cols with firstSeen := u, lastSeen := v } =
      withSeen (Function.update seen key (u, v)) (ref.putIncident found key cols) := by
  cases found with
  | none =>
    have hold : ref.incidents.map (showing (Function.update seen key (u, v))) =
        ref.incidents.map (showing seen) :=
      List.map_congr_left fun i hi => showing_of_ne (hfresh rfl i hi)
    simp only [Option.map_none, Db.putIncident, withSeen, List.map_append, List.map_singleton, hold]
    simp [showing]
  | some loaded =>
    obtain ⟨hmem, rfl⟩ := hkey loaded rfl
    simp only [Option.map_some, Db.putIncident, withSeen, List.map_map]
    congr 1
    refine List.map_congr_left fun i hi => ?_
    simp only [Function.comp_apply]
    by_cases hid : i.id = loaded.id
    · obtain rfl := h.eq_of_id hi hmem hid
      rw [if_pos (showing_id i), if_pos rfl, IncidentCols.patch_self, IncidentCols.patch_self]
      simp [showing]
    · have hid' : (showing seen i).id ≠ loaded.id := hid
      rw [if_neg hid', if_neg hid, showing_of_ne hid]

theorem Summarized.ids_nodup (h : Summarized db book) : (db.incidents.map (·.id)).Nodup := by
  obtain ⟨seen, ref, hcor, rfl⟩ := h
  rw [withSeen_ids]
  exact hcor.keys_nodup

theorem Summarized.ids_lt (h : Summarized db book) : ∀ r ∈ db.incidents, r.id < db.nextIncident := by
  obtain ⟨seen, ref, hcor, rfl⟩ := h
  intro r hr
  obtain ⟨j, hj, rfl⟩ := mem_withSeen.mp hr
  exact hcor.keys_lt j hj

theorem Summarized.linked_fresh (h : Summarized db book) {key : Nat}
    (hkey : ∀ r ∈ db.incidents, r.id ≠ key) : db.linked key = [] := by
  obtain ⟨seen, ref, hcor, rfl⟩ := h
  rw [withSeen_linked]
  exact hcor.linked_fresh fun j hj => hkey (showing seen j) (List.mem_map_of_mem hj)

theorem Summarized.select_of_open (h : Summarized db book) {r : Incident} (hr : r ∈ db.incidents)
    (hst : r.status ≠ .closed) : selectIncident engine db.incidents r.sourceIp = some r := by
  obtain ⟨seen, ref, hcor, rfl⟩ := h
  obtain ⟨j, hj, rfl⟩ := mem_withSeen.mp hr
  have hsel : selectIncident engine ref.incidents j.sourceIp = some j := hcor.select_of_open hj hst
  rw [selectIncident_withSeen hcor, showing_sourceIp, hsel, Option.map_some]

theorem Summarized.open_of_select (h : Summarized db book) {ip : String} {r : Incident}
    (hsel : selectIncident engine db.incidents ip = some r) :
    r ∈ db.incidents ∧ r.sourceIp = ip ∧ r.status ≠ .closed := by
  obtain ⟨seen, ref, hcor, rfl⟩ := h
  rw [selectIncident_withSeen hcor] at hsel
  obtain ⟨j, hj, rfl⟩ := Option.map_eq_some_iff.mp hsel
  obtain ⟨hmem, hip, hst⟩ := hcor.open_of_select hj
  exact ⟨List.mem_map_of_mem hmem, hip, hst⟩

/-- Writing what `correlate` computes appends the attack to the history of its address, whatever
sightings the row shows. -/
theorem Summarized.put (h : Summarized db book) {args : CorrelateArgs} {a : AttackCols}
    (hd : Describes args a) {found : Option Incident} {cols : IncidentCols} {key : Nat} (attackKey : Nat)
    (cmds : List CommandCols) (hfound : found = (correlate engine db.incidents args).1)
    (hcols : cols = { (correlate engine db.incidents args).2 with
      firstSeen := cols.firstSeen, lastSeen := cols.lastSeen })
    (hkey : KeyOf db found key) :
    Summarized ((db.putIncident found key cols).putAttack attackKey a cmds key)
      (Function.update book a.sourceIp ((book a.sourceIp).apply (.attack a))) := by
  obtain ⟨seen, ref, hcor, rfl⟩ := h
  obtain ⟨hf, hc⟩ := @correlate_withSeen ref book seen engine hcor args cols.firstSeen cols.lastSeen
  have hsel := (hcor.correlate_cols engine hd).1
  rw [hf] at hfound
  rw [hc] at hcols
  have hkey' : ∀ i, (correlate engine ref.incidents args).1 = some i → i ∈ ref.incidents ∧ key = i.id := by
    intro i hi
    rw [hsel] at hi
    refine ⟨(hcor.open_of_select hi).1, ?_⟩
    rw [← hsel] at hi
    exact (hkey.of_some (showing seen i) (by rw [hfound, hi, Option.map_some])).2
  have hfresh' : (correlate engine ref.incidents args).1 = none → ∀ i ∈ ref.incidents, i.id ≠ key := by
    intro hnone i hi
    exact hkey.of_none (by rw [hfound, hnone, Option.map_none]) (showing seen i) (List.mem_map_of_mem hi)
  refine ⟨Function.update seen key (cols.firstSeen, cols.lastSeen), _,
    hcor.put hd key attackKey cmds (fun i hi => (hkey' i (hsel.trans hi)).2)
      fun hnone => hfresh' (hsel.trans hnone), ?_⟩
  rw [hfound, hcols, put_withSeen hcor _ _ _ hkey' hfresh']
  rfl

/-- The key a call writes to. -/
theorem Summarized.keyOf (h : Summarized db book) (engine : Engine) (args : CorrelateArgs) :
    KeyOf db (correlate engine db.incidents args).1 (db.incidentKey (correlate engine db.incidents args).1) := by
  constructor
  · intro r hr
    rw [correlate] at hr
    rw [correlate, hr]
    exact ⟨(h.open_of_select hr).1, rfl⟩
  · intro hnone r hmem
    rw [hnone]
    exact (h.ids_lt r hmem).ne

/-- A completed call appends its attack to the history of its address. -/
theorem Summarized.process (h : Summarized db book) {capture : Capture} {snap : Snapshot}
    (hp : p.process engine db capture = .ok (db', snap)) :
    ∃ a : AttackCols, db'.attacks.getLast?.map Attack.toAttackCols = some a ∧
      Summarized db' (Function.update book a.sourceIp ((book a.sourceIp).apply (.attack a))) := by
  obtain ⟨d, rfl, rfl, -⟩ := process_ok hp
  exact ⟨_, by simp [Db.putAttack], h.put (draft_describes p capture _) _ _ rfl rfl (h.keyOf _ _)⟩

theorem mem_putIncident (hnodup : (db.incidents.map (·.id)).Nodup) {found : Option Incident} {key : Nat}
    (hkey : KeyOf db found key) (cols : IncidentCols) (r : Incident) :
    r ∈ (db.putIncident found key cols).incidents ↔
      r = { cols with id := key } ∨ r ∈ db.incidents ∧ r.id ≠ key := by
  cases found with
  | none =>
    simp only [Db.putIncident, List.mem_append, List.mem_singleton]
    constructor
    · rintro (hmem | rfl)
      · exact Or.inr ⟨hmem, hkey.of_none rfl r hmem⟩
      · exact Or.inl rfl
    · rintro (rfl | ⟨hmem, -⟩)
      · exact Or.inr rfl
      · exact Or.inl hmem
  | some loaded =>
    obtain ⟨hloaded, rfl⟩ := hkey.of_some loaded rfl
    simp only [Db.putIncident, List.mem_map]
    constructor
    · rintro ⟨j, hj, rfl⟩
      by_cases hid : j.id = loaded.id
      · obtain rfl := List.inj_on_of_nodup_map hnodup hj hloaded hid
        rw [if_pos rfl, IncidentCols.patch_self]
        exact Or.inl rfl
      · rw [if_neg hid]
        exact Or.inr ⟨hj, hid⟩
    · rintro (rfl | ⟨hmem, hid⟩)
      · refine ⟨loaded, hloaded, ?_⟩
        rw [if_pos rfl, IncidentCols.patch_self]
      · exact ⟨r, hmem, if_neg hid⟩

/-- A write keeps the brackets exactly when the row it writes has its own. -/
theorem bracketed_put (hnodup : (db.incidents.map (·.id)).Nodup) (hb : db.Bracketed engine)
    {found : Option Incident} {key : Nat} (hkey : KeyOf db found key) (cols : IncidentCols)
    (attackKey : Nat) (a : AttackCols) (cmds : List CommandCols) :
    ((db.putIncident found key cols).putAttack attackKey a cmds key).Bracketed engine ↔
      ((db.linked key).map (engine.key ·.timestamp) ++ [engine.key a.timestamp]).min? =
          some (engine.key cols.firstSeen) ∧
        ((db.linked key).map (engine.key ·.timestamp) ++ [engine.key a.timestamp]).max? =
          some (engine.key cols.lastSeen) := by
  have hrow : ((db.putIncident found key cols).putAttack attackKey a cmds key).moments engine
      { cols with id := key } = (db.linked key).map (engine.key ·.timestamp) ++ [engine.key a.timestamp] := by
    rw [Db.moments, linked_putAttack_self, linked_putIncident, List.map_append]
    rfl
  constructor
  · intro hall
    have hnew := hall { cols with id := key } ((mem_putIncident hnodup hkey cols _).mpr (Or.inl rfl))
    rwa [hrow] at hnew
  · intro hnew r hr
    rcases (mem_putIncident hnodup hkey cols r).mp hr with rfl | ⟨hold, hid⟩
    · rw [hrow]
      exact hnew
    · have hsame : ((db.putIncident found key cols).putAttack attackKey a cmds key).moments engine r =
          db.moments engine r := by
        rw [Db.moments, linked_putAttack_of_ne hid, linked_putIncident]
        rfl
      rw [hsame]
      exact hb r hold

/-- Every incident has an attack. -/
theorem Summarized.incidents_nil (h : Summarized db book) (hattacks : db.attacks = []) :
    db.incidents = [] := by
  obtain ⟨seen, ref, hcor, rfl⟩ := h
  have hnone : ref.incidents = [] := by
    rw [List.eq_nil_iff_forall_not_mem]
    intro r hr
    obtain ⟨q, -, hrow⟩ := hcor.row_of_mem hr
    have hlinked := hrow.linked
    rw [Db.linked, show ref.attacks = [] from hattacks] at hlinked
    simp [Piece.attacks] at hlinked
  rw [withSeen, hnone]
  rfl

theorem min?_concat {xs : List Int} {m : Int} (h : xs.min? = some m) (t : Int) :
    (xs ++ [t]).min? = some (min m t) := by
  cases xs with
  | nil => cases h
  | cons x rest =>
    rw [List.min?_cons', Option.some.injEq] at h
    rw [List.cons_append, List.min?_cons', List.foldl_append, h]
    rfl

theorem max?_concat {xs : List Int} {m : Int} (h : xs.max? = some m) (t : Int) :
    (xs ++ [t]).max? = some (max m t) := by
  cases xs with
  | nil => cases h
  | cons x rest =>
    rw [List.max?_cons', Option.some.injEq] at h
    rw [List.cons_append, List.max?_cons', List.foldl_append, h]
    rfl

/-- A call keeps the brackets exactly when no attack of the incident it joins is later. -/
theorem Summarized.bracketed_process (h : Summarized db book) (hb : db.Bracketed engine) {capture : Capture}
    {snap : Snapshot} (hp : p.process engine db capture = .ok (db', snap)) :
    db'.Bracketed engine ↔ Chronological p engine db (.ingest capture) := by
  obtain ⟨d, hd, rfl, -⟩ := process_ok hp
  have hip : d.correlateArgs.sourceIp = capture.sourceIp := by rw [hd]; rfl
  have hts : d.attack.timestamp = p.captureTs capture := by rw [hd]; rfl
  have harg : d.correlateArgs.timestamp = d.attack.timestamp := rfl
  have hkey := h.keyOf engine d.correlateArgs
  have hother : ∀ r ∈ db.incidents, r.sourceIp = capture.sourceIp → r.status ≠ .closed →
      (correlate engine db.incidents d.correlateArgs).1 = some r := by
    intro r hr hsrc hst
    rw [correlate, hip, ← hsrc]
    exact h.select_of_open hr hst
  rw [bracketed_put h.ids_nodup hb hkey, Chronological, ← hts]
  cases hsel : selectIncident engine db.incidents d.correlateArgs.sourceIp with
  | none =>
    have hnone : (correlate engine db.incidents d.correlateArgs).1 = none := by rw [correlate, hsel]
    refine iff_of_true ?_ fun r hr hsrc hst => ?_
    · rw [h.linked_fresh (hkey.of_none hnone), correlate, hsel]
      simp [newIncident, IncidentCols.absorb, harg]
    · rw [hother r hr hsrc hst] at hnone
      cases hnone
  | some loaded =>
    have hsome : (correlate engine db.incidents d.correlateArgs).1 = some loaded := by rw [correlate, hsel]
    obtain ⟨hloaded, hid⟩ := hkey.of_some loaded hsome
    obtain ⟨hmin, hmax⟩ := hb loaded hloaded
    rw [Db.moments] at hmin hmax
    rw [hid, min?_concat hmin, max?_concat hmax, correlate, hsel]
    simp only [IncidentCols.absorb, Option.map_some, Option.getD_some, Option.some.injEq, harg]
    rw [List.min?_eq_some_iff] at hmin
    rw [List.max?_eq_some_iff] at hmax
    obtain ⟨-, hloadedip, hst⟩ := h.open_of_select hsel
    constructor
    · rintro ⟨-, hlast⟩ r hr hsrc hrst a ha
      have hrow := hother r hr hsrc hrst
      rw [hsome, Option.some.injEq] at hrow
      subst hrow
      have := hmax.2 _ (List.mem_map_of_mem ha)
      omega
    · intro hle
      have hlast : engine.key loaded.lastSeen ≤ engine.key d.attack.timestamp := by
        obtain ⟨a, ha, hat⟩ := List.mem_map.mp hmax.1
        rw [← hat]
        exact hle loaded hloaded (hloadedip.trans hip) hst a ha
      have hfirst : engine.key loaded.firstSeen ≤ engine.key loaded.lastSeen := hmin.2 _ hmax.1
      constructor <;> omega

/-! ## Steps -/

theorem any_withSeen {seen : Nat → Datetime × Datetime} (db : Db) (q : Nat → IncidentStatus → Bool) :
    ((withSeen seen db).incidents.any fun i => q i.id i.status) = db.incidents.any fun i => q i.id i.status := by
  rw [withSeen, List.any_map]
  rfl

theorem find_withSeen {seen : Nat → Datetime × Datetime} (db : Db) (id : Nat) (en : Entry) :
    ((withSeen seen db).incidents.find? (·.id = id)).map (fun i => (i.sourceIp, en)) =
      (db.incidents.find? (·.id = id)).map fun i => (i.sourceIp, en) := by
  rw [withSeen, List.find?_map, Option.map_map]
  rfl

theorem setStatus_withSeen {seen : Nat → Datetime × Datetime} (db : Db) (id : Nat) (st : IncidentStatus) :
    (withSeen seen db).setStatus id st = withSeen seen (db.setStatus id st) := by
  simp only [Db.setStatus, withSeen, List.map_map]
  congr 1
  refine List.map_congr_left fun i _ => ?_
  simp only [Function.comp_apply]
  by_cases hid : i.id = id
  · rw [if_pos (show (showing seen i).id = id from hid), if_pos hid]
    rfl
  · rw [if_neg (show ¬ (showing seen i).id = id from hid), if_neg hid]

/-- Every step of the pipeline's runs appends the entry it is written down as. -/
theorem Summarized.after_step (h : Summarized db log.ledger) {e : Core.Event}
    (hs : step p engine db e = some db') : Summarized db' (log ++ (entryOf db db' e).toList).ledger := by
  cases e with
  | ingest capture =>
    obtain ⟨snap, hok⟩ := process_of_toOption hs
    obtain ⟨a, hlast, hsum⟩ := h.process hok
    obtain ⟨b, hb, rfl⟩ := Option.map_eq_some_iff.mp hlast
    rw [entryOf, hb, Option.map_some, Option.toList_some, ledger_concat]
    exact hsum
  | triage id =>
    obtain ⟨seen, ref, hcor, rfl⟩ := h
    simp only [step, Option.ite_none_right_eq_some, Option.some.injEq] at hs
    obtain ⟨hany, rfl⟩ := hs
    rw [any_withSeen ref fun k st => k = id && st = .open] at hany
    have hstep : step p engine ref (.triage id) = some (ref.setStatus id .triaged) := if_pos hany
    obtain ⟨ip, en, hentry, hcor'⟩ := hcor.after_step hstep
    rw [entryOf] at hentry
    rw [entryOf, find_withSeen, hentry, Option.toList_some, ledger_concat, setStatus_withSeen]
    exact ⟨seen, _, hcor', rfl⟩
  | close id =>
    obtain ⟨seen, ref, hcor, rfl⟩ := h
    simp only [step, Option.ite_none_right_eq_some, Option.some.injEq] at hs
    obtain ⟨hany, rfl⟩ := hs
    rw [any_withSeen ref fun k st => k = id && st ≠ .closed] at hany
    have hstep : step p engine ref (.close id) = some (ref.setStatus id .closed) := if_pos hany
    obtain ⟨ip, en, hentry, hcor'⟩ := hcor.after_step hstep
    rw [entryOf] at hentry
    rw [entryOf, find_withSeen, hentry, Option.toList_some, ledger_concat, setStatus_withSeen]
    exact ⟨seen, _, hcor', rfl⟩

theorem summarized_empty : Summarized {} (Log.ledger []) :=
  ⟨fun _ => (.utc 0, .utc 0), {}, correlated_empty, rfl⟩

/-- A row of the tables sums up its piece, whatever sightings it shows. -/
theorem Summarized.summaries (h : Summarized db book) (ip : String) :
    List.Forall₂ (SummaryOf db) (db.incidentsOf ip) (book ip).pieces := by
  obtain ⟨seen, ref, hcor, rfl⟩ := h
  rw [withSeen_incidentsOf, List.forall₂_map_left_iff]
  refine forall₂_imp_of_mem (hcor.rows ip) fun i hi piece hrow => ?_
  obtain ⟨hst, hip, hlinked, hattempts, hmax, hcountry, htech, htitle⟩ :=
    hcor.summaryOf (mem_incidentsOf.mp hi).1 hrow
  exact ⟨hst, hip, hlinked, hattempts, hmax, hcountry, htech, htitle⟩

end SentinelSsh.Core

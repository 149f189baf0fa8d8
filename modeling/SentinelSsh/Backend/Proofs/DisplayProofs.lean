import SentinelSsh.Backend.Proofs.ListingProofs
import SentinelSsh.Backend.System
import SentinelSsh.Core.Proofs.DetectionProofs

/-!
# Detected techniques on display

What is stored of a session is resolved each time it is shown. Stored lists have no repetitions and only
known ids, so resolving them drops nothing, and the technique an alert prefers is always among them.
-/

namespace SentinelSsh.Backend

open SentinelSsh.Core Python

variable {p : IngestPipeline} {engine : Engine} {es : List Event} {db : Db} {dialect : Dialect} {a : Attack}
  {i : Incident} {arrange : List Attack → List Attack}

/-! ## Attacks -/

theorem get_attack (hdrafted : Drafted p db) (ha : a ∈ db.attacks) :
    AttackService.get dialect db a.id = serialize dialect db a true := by
  rw [AttackService.get, find?_key hdrafted.keys_nodup ha]

/-! ## Incidents -/

/-- The attacks of an incident in the order they are shown. -/
def shownRelated (dialect : Dialect) (attacks : List Attack) : List Attack :=
  attacks.mergeSort fun a b => (dialect.load b.timestamp).instant ≤ (dialect.load a.timestamp).instant

theorem isOk_relatedAttack (a : Attack) : (relatedAttack dialect a).isOk = (validateStr a.password).isOk := by
  unfold relatedAttack
  cases validateStr a.password with
  | error e => rfl
  | ok password => rfl

section

variable {incidentId : Nat} (hfind : db.incidents.find? (·.id = incidentId) = some i)
include hfind

theorem get_incident :
    IncidentService.get dialect arrange db incidentId =
      ((shownRelated dialect (arrange (db.linked i.id))).mapM (relatedAttack dialect)).map fun related =>
        { summary i with
          behaviors := fromkeys ((shownRelated dialect (arrange (db.linked i.id))).flatMap fun a =>
            parseJsonList a.behaviors)
          relatedAttacks := related } := by
  have hbehaviors : ∀ attacks : List Attack,
      attacks.foldl (fun behaviors atk => (parseJsonList atk.behaviors).foldl addKey behaviors) [] =
        fromkeys (attacks.flatMap fun a => parseJsonList a.behaviors) := by
    intro attacks
    rw [fromkeys, List.foldl_flatMap]
  rw [IncidentService.get, hfind]
  dsimp only
  rw [hbehaviors]
  unfold shownRelated
  cases List.mapM (relatedAttack dialect) _ with
  | error e => rfl
  | ok related => rfl

/-- An incident is shown as its summary and with the behaviours of its attacks. -/
theorem get_incident_eq_ok (hperm : (arrange (db.linked i.id)).Perm (db.linked i.id)) {out : IncidentDetailOut}
    (hout : IncidentService.get dialect arrange db incidentId = .ok out) :
    out.toIncidentOut = summary i ∧ out.behaviors.Nodup ∧
      ∀ tag, tag ∈ out.behaviors ↔ ∃ a ∈ db.linked i.id, tag ∈ parseJsonList a.behaviors := by
  rw [get_incident hfind] at hout
  cases hrelated : (shownRelated dialect (arrange (db.linked i.id))).mapM (relatedAttack dialect) with
  | error e =>
    rw [hrelated] at hout
    exact absurd hout (by simp [Except.map])
  | ok related =>
    rw [hrelated] at hout
    obtain rfl := Except.ok.inj hout
    have hshown : (shownRelated dialect (arrange (db.linked i.id))).Perm (db.linked i.id) :=
      (List.mergeSort_perm _ _).trans hperm
    refine ⟨rfl, nodup_fromkeys _, fun tag => ?_⟩
    show tag ∈ fromkeys _ ↔ _
    rw [mem_fromkeys, List.mem_flatMap]
    simp only [hshown.mem_iff]

/-- An incident is shown unless the password of one of its attacks is no text. -/
theorem isOk_get_incident (hperm : (arrange (db.linked i.id)).Perm (db.linked i.id)) :
    (IncidentService.get dialect arrange db incidentId).isOk =
      (db.linked i.id).all fun a => (validateStr a.password).isOk := by
  have hshown : (shownRelated dialect (arrange (db.linked i.id))).Perm (db.linked i.id) :=
    (List.mergeSort_perm _ _).trans hperm
  rw [get_incident hfind, Escapes.isOk_map, Escapes.isOk_mapM, hshown.all_eq]
  simp only [isOk_relatedAttack]

end

/-- The techniques stored with an incident are those stored with its attacks, each once. -/
theorem techniques_incident {book : String → Ledger} (hcor : Correlated db book) (hi : i ∈ db.incidents) :
    parseJsonList i.mitreTechniques =
      fromkeys ((db.linked i.id).flatMap fun a => parseJsonList a.mitreTechniques) := by
  obtain ⟨piece, -, hrow⟩ := hcor.row_of_mem hi
  have hsum := hcor.summaryOf hi hrow
  rw [hsum.techniques, ← hsum.linked, List.flatMap_map]

theorem displaysStored (hdrafted : Drafted p db) {book : String → Ledger} (hcor : Correlated db book)
    (dialect : Dialect) : DisplaysStored dialect db := by
  have hunion : ∀ i ∈ db.incidents, ∀ tid, tid ∈ parseJsonList i.mitreTechniques ↔
      ∃ a ∈ db.linked i.id, tid ∈ parseJsonList a.mitreTechniques := by
    intro i hi tid
    rw [techniques_incident hcor hi, mem_fromkeys, List.mem_flatMap]
  refine
    { attack := fun a ha => ⟨(hdrafted.nodup_lists ha).2, fun out hout => ?_⟩
      attackShown := fun a ha => ?_
      incident := fun i hi => ⟨?_, fun arrange hperm out hout => ?_⟩
      incidentShown := fun i hi arrange hperm => ?_
      union := hunion }
  · rw [get_attack hdrafted ha] at hout
    rw [(serialize_spec dialect db hout).2, hdrafted.ids_resolve ha]
  · rw [get_attack hdrafted ha, isOk_serialize]
  · rw [techniques_incident hcor hi]
    exact nodup_fromkeys _
  · obtain ⟨hsummary, hbehaviors⟩ := get_incident_eq_ok (find?_key hcor.keys_nodup hi) hperm hout
    refine ⟨?_, hbehaviors⟩
    rw [hsummary]
    show (resolve (parseJsonList i.mitreTechniques)).map (·.id) = _
    refine ids_resolve ?_ fun tid htid => ?_
    · rw [techniques_incident hcor hi]
      exact nodup_fromkeys _
    · obtain ⟨a, ha, htid⟩ := (hunion i hi tid).mp htid
      exact hdrafted.catalogueGet (List.mem_of_mem_filter ha) htid
  · exact isOk_get_incident (find?_key hcor.keys_nodup hi) hperm

/-- What is stored in a column of JSON lists. -/
theorem mem_stored_iff {column : Option String} {xs : List String} (h : column = some (Json.dumps xs))
    (x : String) : x ∈ parseJsonList column ↔ ∃ ys, column = some (Json.dumps ys) ∧ x ∈ ys := by
  rw [h, parseJsonList_dumps]
  constructor
  · exact fun hx => ⟨xs, rfl, hx⟩
  · rintro ⟨ys, hys, hx⟩
    have hsame := congrArg parseJsonList hys
    rw [parseJsonList_dumps, parseJsonList_dumps] at hsame
    rwa [hsame]

/-- Nothing is shown of a row whose password is no text. -/
theorem allDisplayed_iff (hdrafted : Drafted p db) {book : String → Ledger} (hcor : Correlated db book)
    (dialect : Dialect) : AllDisplayed dialect db ↔ ∀ a ∈ db.attacks, Serializable a := by
  have h := displaysStored hdrafted hcor dialect
  constructor
  · intro hall a ha
    obtain ⟨techniques, out, -, -, hout, -⟩ := hall.attack a ha
    rw [Serializable, ← h.attackShown a ha, hout]
    rfl
  · intro hser
    refine { attack := fun a ha => ?_, incident := fun i hi arrange hperm => ?_ }
    · obtain ⟨found, hfound⟩ := hdrafted.exists_detectedIn ha
      obtain ⟨out, hout⟩ := Escapes.isOk_iff.mp ((h.attackShown a ha).trans (hser a ha))
      obtain ⟨hnodup, hmitre⟩ := h.attack a ha
      rw [hfound.parseJsonList.1] at hnodup hmitre
      exact ⟨found.techniques, out, hfound.mitreTechniques, hnodup, hout, hmitre out hout⟩
    · have hall : (db.linked i.id).all (fun a => (validateStr a.password).isOk) = true :=
        List.all_eq_true.mpr fun a ha => hser a (List.mem_of_mem_filter ha)
      obtain ⟨out, hout⟩ := Escapes.isOk_iff.mp ((h.incidentShown i hi arrange hperm).trans hall)
      obtain ⟨piece, -, hrow⟩ := hcor.row_of_mem hi
      have hcolumn : i.mitreTechniques = some (Json.dumps piece.1.techniques) := by
        rw [hrow.cols]
        rfl
      obtain ⟨hnodup, hshown⟩ := h.incident i hi
      obtain ⟨hmitre, hbehaviors, htags⟩ := hshown arrange hperm out hout
      have hparse : parseJsonList i.mitreTechniques = piece.1.techniques := by
        rw [hcolumn, parseJsonList_dumps]
      rw [hparse] at hnodup hmitre
      refine ⟨piece.1.techniques, out, hcolumn, hnodup, hout, hmitre, hbehaviors, fun tid => ?_, fun tag => ?_⟩
      · rw [← hparse, h.union i hi]
        refine exists_congr fun a => and_congr_right fun ha => ?_
        obtain ⟨found, hfound⟩ := hdrafted.exists_detectedIn (List.mem_of_mem_filter ha)
        exact mem_stored_iff hfound.mitreTechniques tid
      · rw [htags]
        refine exists_congr fun a => and_congr_right fun ha => ?_
        obtain ⟨found, hfound⟩ := hdrafted.exists_detectedIn (List.mem_of_mem_filter ha)
        exact mem_stored_iff hfound.behaviors tag

/-- What is shown of a session: its techniques in its snapshot, with its attack and with its incident,
whose lists are the union of those of its attacks. Every stored row is on display exactly if every stored
password is a text. -/
theorem techniques_displayed (hr : Runs.run (step p engine) {} es = some db) (dialect : Dialect) :
    (AllDisplayed dialect db ↔ ∀ a ∈ db.attacks, Serializable a) ∧ DisplaysStored dialect db ∧
      (∀ a ∈ db.attacks, ∃ found, DetectedIn p a found) ∧
      ∀ capture db' snap, p.process engine db capture = .ok (db', snap) → ∃ a ∈ db'.attacks, a.id = snap.id ∧
        ∃ found, DetectedIn p a found ∧ found.techniques.Nodup ∧ snap.mitre.map (·.id) = found.techniques := by
  obtain ⟨hdrafted, book, hcor⟩ := drafted_correlated_run hr
  refine ⟨allDisplayed_iff hdrafted hcor dialect, displaysStored hdrafted hcor dialect,
    fun a ha => hdrafted.exists_detectedIn ha, fun capture db' snap hok => ?_⟩
  obtain ⟨d, a, ⟨prior, rfl⟩, ha, hcols, -, rfl⟩ := hdrafted.process_row hok
  have hdrafted' := hdrafted.process hok
  have hfound : DetectedIn p a (p.draft capture prior).behavior :=
    ⟨⟨capture, prior, hcols, rfl⟩, by rw [hcols]; rfl, by rw [hcols]; rfl⟩
  have hnodup := (hdrafted'.nodup_lists ha).2
  rw [hfound.parseJsonList.1] at hnodup
  refine ⟨a, ha, rfl, _, hfound, hnodup, ?_⟩
  show (resolve (p.draft capture prior).behavior.techniques).map (·.id) = _
  rw [← hfound.parseJsonList.1, hdrafted'.ids_resolve ha]

/-- The three sessions and the two incidents. -/
theorem techniques_displayed_threeAttacks : AllDisplayed .sqlite .threeAttacks :=
  (techniques_displayed run_threeAttacks .sqlite).1.mpr (by decide)

/-- SQLite stores a password that is no UTF-8, and then the attack is not shown. -/
theorem not_allDisplayed_bytes : ¬ ∀ (p : IngestPipeline) (engine : Engine) (es : List Event) (db : Db),
    Runs.run (step p engine) {} es = some db → ∀ dialect, AllDisplayed dialect db := by
  intro h
  have hrun : ((Runs.run (step .twoInstants .sqlite) {}
      [.ingest { Capture.guess "2026-01-01T00:00:10+00:00" "8.8.8.8" with
        password := some (.bytes [0xff, 0xfe]) }]).any fun db =>
      db.attacks.any fun a => !(AttackService.get .sqlite db a.id).isOk) = true := by
    with_unfolding_all decide
  obtain ⟨db, hr, hany⟩ := (Option.any_eq_true _ _).mp hrun
  obtain ⟨a, ha, hfails⟩ := List.any_eq_true.mp hany
  obtain ⟨-, out, -, -, hout, -⟩ := (h _ _ _ db hr .sqlite).attack a ha
  rw [hout] at hfails
  exact absurd hfails Bool.false_ne_true

/-! ## Alerts -/

/-- The technique of an alert type is one its behaviour is added with. -/
theorem detection_of_alertType : ∀ e ∈ alertTypes, ∀ tid ∈ e.techniqueId,
    ∃ d ∈ detections, d.1 = e.behavior ∧ tid ∈ d.2 := by
  decide

theorem Drafted.technique_of_alertType (hdrafted : Drafted p db) (ha : a ∈ db.attacks) {e : AlertType}
    (he : e ∈ alertTypes) (hbehavior : e.behavior ∈ parseJsonList a.behaviors) {tid : String}
    (htid : e.techniqueId = some tid) : tid ∈ parseJsonList a.mitreTechniques := by
  obtain ⟨⟨tag, ids⟩, hpair, rfl, hids⟩ := detection_of_alertType e he tid htid
  obtain ⟨ctx, hbehaviors, htechniques⟩ := hdrafted.detected ha
  rw [hbehaviors] at hbehavior
  rw [htechniques]
  exact techniques_of_tag hpair hbehavior hids

/-- A preferred technique that is among the resolved ones is taken from there. -/
theorem alertTechnique_of_mem {techniques : List Technique} {tid : String}
    (h : tid ∈ techniques.map (·.id)) : (alertTechnique techniques (some tid)).map (·.id) = some tid := by
  obtain ⟨t, ht, rfl⟩ := List.mem_map.mp h
  have hsome : (techniques.find? (·.id = t.id)).isSome = true := List.find?_isSome.mpr ⟨t, ht, by simp⟩
  obtain ⟨u, hu⟩ := Option.isSome_iff_exists.mp hsome
  have hid : u.id = t.id := by simpa using List.find?_some hu
  rw [alertTechnique, hu, Option.some_or, Option.some_or, Option.map_some, hid]

theorem nil_of_alertTechnique {techniques : List Technique} {preferredId : Option String}
    (h : alertTechnique techniques preferredId = none) : techniques = [] := by
  unfold alertTechnique at h
  cases preferredId with
  | none => exact List.head?_eq_none_iff.mp h
  | some tid => exact List.head?_eq_none_iff.mp (Option.or_eq_none_iff.mp h).2

theorem alertOf_toAlert (hdrafted : Drafted p db) (ha : a ∈ db.attacks) (dialect : Dialect) :
    AlertOf (parseJsonList a.behaviors) (parseJsonList a.mitreTechniques) (toAlert dialect a) := by
  have hids := hdrafted.ids_resolve ha
  have hfirst : (resolve (parseJsonList a.mitreTechniques)).head?.map (·.id) =
      (parseJsonList a.mitreTechniques).head? := by
    rw [← List.head?_map, hids]
  refine { typed := ?_, untyped := ?_, missing := ?_ }
  · intro before e after hsplit hbehavior hbefore
    have hfind : (alertTypes.find? fun e => (parseJsonList a.behaviors).contains e.behavior) = some e := by
      refine List.find?_eq_some_iff_append.mpr ⟨?_, before, after, hsplit, fun e' he' => ?_⟩
      · exact List.contains_iff_mem.mpr hbehavior
      · have hnot := hbefore e' he'
        rwa [Bool.not_eq_true', ← Bool.not_eq_true, List.contains_iff_mem]
    have he : e ∈ alertTypes := hsplit ▸ List.mem_append_right before List.mem_cons_self
    unfold toAlert
    dsimp only
    rw [hfind, Option.bind_some]
    refine ⟨rfl, fun tid htid => ?_, fun hnone => ?_⟩
    · have hstored := Drafted.technique_of_alertType hdrafted ha he hbehavior htid
      refine ⟨hstored, ?_⟩
      rw [htid]
      exact alertTechnique_of_mem (by rwa [hids])
    · rw [hnone]
      exact hfirst
  · intro hnone
    have hfind : (alertTypes.find? fun e => (parseJsonList a.behaviors).contains e.behavior) = none := by
      refine List.find?_eq_none.mpr fun e he => ?_
      rw [List.contains_iff_mem]
      exact hnone e he
    unfold toAlert
    dsimp only
    rw [hfind]
    exact ⟨rfl, hfirst⟩
  · intro hmissing
    have hnil := nil_of_alertTechnique hmissing
    rw [hnil] at hids
    exact hids.symm

theorem alertOf_draft (hdrafted : Drafted p db) (ha : a ∈ db.attacks) (dialect : Dialect) {capture : Capture}
    {prior : Int} (hcols : a.toAttackCols = (p.draft capture prior).attack) :
    AlertOf (p.draft capture prior).behavior.behaviors (parseJsonList a.mitreTechniques)
      (toAlert dialect a) := by
  have hbehaviors : parseJsonList a.behaviors = (p.draft capture prior).behavior.behaviors := by
    rw [hcols]
    exact parseJsonList_dumps _
  rw [← hbehaviors]
  exact alertOf_toAlert hdrafted ha dialect

/-- The alert card of every session that was ingested names the first alert type the session exhibited,
and its technique, if it has one, is a stored one: for the row of a session when it is ingested, and for
each row that is stored after a run. -/
theorem alert_exact (hr : Runs.run (step p engine) {} es = some db) (dialect : Dialect) :
    (∀ a ∈ db.attacks, ∃ capture prior, a.toAttackCols = (p.draft capture prior).attack ∧
      AlertOf (p.draft capture prior).behavior.behaviors (parseJsonList a.mitreTechniques)
        (toAlert dialect a)) ∧
      ∀ capture db' snap, p.process engine db capture = .ok (db', snap) → ∃ a ∈ db'.attacks, a.id = snap.id ∧
        ∃ prior, a.toAttackCols = (p.draft capture prior).attack ∧
          AlertOf (p.draft capture prior).behavior.behaviors (parseJsonList a.mitreTechniques)
            (toAlert dialect a) := by
  obtain ⟨hdrafted, -⟩ := drafted_correlated_run hr
  refine ⟨fun a ha => ?_, fun capture db' snap hok => ?_⟩
  · obtain ⟨capture, prior, hcols, -⟩ := hdrafted.drafted a ha
    have halert := alertOf_draft hdrafted ha dialect hcols
    exact ⟨capture, prior, hcols, halert⟩
  · obtain ⟨d, a, ⟨prior, rfl⟩, ha, hcols, -, rfl⟩ := hdrafted.process_row hok
    have halert := alertOf_draft (hdrafted.process hok) ha dialect hcols
    exact ⟨a, ha, rfl, prior, hcols, halert⟩

set_option maxRecDepth 4000 in
/-- A login with a common password, a session that fetched a file, and one of a source that came back. -/
theorem alert_exact_threeAttacks :
    (∀ a ∈ Db.threeAttacks.attacks, ∃ behaviors,
      AlertOf behaviors (parseJsonList a.mitreTechniques) (toAlert .sqlite a)) ∧
      (Db.threeAttacks.attacks.map fun a => (toAlert .sqlite a).alertType) =
        ["Suspicious Login", "Malware Download", "Brute Force"] := by
  refine ⟨fun a ha => ?_, by with_unfolding_all decide⟩
  obtain ⟨capture, prior, -, halert⟩ := (alert_exact run_threeAttacks .sqlite).1 a ha
  exact ⟨_, halert⟩

end SentinelSsh.Backend

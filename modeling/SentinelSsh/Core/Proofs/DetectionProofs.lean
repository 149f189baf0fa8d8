import SentinelSsh.Core.Ingestion
import SentinelSsh.Core.Proofs.AssessmentProofs
import SentinelSsh.Core.Proofs.DraftProofs

/-!
# What a stored row says was detected

The lists of an attack row are those `detect` returned for its session. So no list has a repeated entry,
every technique is in the catalogue, and a tag never comes without the techniques it is added with.
-/

namespace SentinelSsh.Core

open Python

/-! ## The catalogue -/

section Catalogue

/-- The catalogue has every technique of the command rules. -/
theorem catalogueGet_rules : ∀ rule ∈ commandRules, ∀ tid ∈ rule.techniques,
    (catalogueGet tid).map (·.id) = some tid := by
  decide

/-- The techniques that are not those of a command rule. -/
theorem catalogueGet_others : ∀ tid ∈ ["T1078", "T1110", "T1110.001", "T1021.004"],
    (catalogueGet tid).map (·.id) = some tid := by
  decide

theorem map_filterMap_catalogueGet {tids : List String}
    (h : ∀ tid ∈ tids, (catalogueGet tid).map (·.id) = some tid) :
    (tids.filterMap catalogueGet).map (·.id) = tids := by
  induction tids with
  | nil => rfl
  | cons tid tids ih =>
    obtain ⟨t, ht, hid⟩ := Option.map_eq_some_iff.mp (h tid List.mem_cons_self)
    rw [List.filterMap_cons_some ht, List.map_cons, hid, ih fun x hx => h x (List.mem_cons_of_mem _ hx)]

/-- A list of known ids without repetitions is resolved entry by entry. -/
theorem ids_resolve {tids : List String} (hnodup : tids.Nodup)
    (h : ∀ tid ∈ tids, (catalogueGet tid).map (·.id) = some tid) : (resolve tids).map (·.id) = tids := by
  rw [resolve, fromkeys_of_nodup hnodup, map_filterMap_catalogueGet h]

end Catalogue

/-! ## The detector -/

section Detector

variable {unicode : UnicodeDb} {cfg : IntelConfig} {ctx : BehaviorContext}

theorem mem_authTechniques {tid : String} (h : tid ∈ authTechniques unicode cfg ctx) :
    tid ∈ ["T1078", "T1110", "T1110.001", "T1021.004"] := by
  unfold authTechniques at h
  simp only [List.mem_append, List.mem_ite_nil_right] at h
  rcases h with (⟨-, h⟩ | ⟨-, h⟩) | ⟨-, h⟩
  all_goals
    revert h
    revert tid
    decide

theorem mem_activityTechniques {commands : List String} {tid : String}
    (h : tid ∈ activityTechniques commands) : tid = "T1021.004" := by
  unfold activityTechniques at h
  rw [List.mem_ite_nil_right, List.mem_singleton] at h
  exact h.2

/-- Every technique that is detected is in the catalogue. -/
theorem catalogueGet_detect {tid : String} (h : tid ∈ (detect unicode cfg ctx).techniques) :
    (catalogueGet tid).map (·.id) = some tid := by
  rw [detect_eq, mem_fromkeys, namedTechniques, List.mem_append, List.mem_append] at h
  rcases h with (hauth | hcmds) | hactivity
  · exact catalogueGet_others tid (mem_authTechniques hauth)
  · obtain ⟨cmd, -, hcmd⟩ := List.mem_flatMap.mp hcmds
    obtain ⟨rule, hrule, htid⟩ := mem_classifyCommand hcmd
    exact catalogueGet_rules rule hrule tid htid
  · exact catalogueGet_others tid (by rw [mem_activityTechniques hactivity]; decide)

theorem nodup_detect :
    (detect unicode cfg ctx).behaviors.Nodup ∧ (detect unicode cfg ctx).techniques.Nodup := by
  rw [detect_eq]
  exact ⟨nodup_fromkeys _, nodup_fromkeys _⟩

/-- The tags with the techniques they are added with. -/
def detections : List (String × List String) :=
  commandRules.map (fun rule => (rule.label, rule.techniques)) ++
    [("common_credential_use", ["T1078"]), ("brute_force", ["T1110", "T1110.001"]),
      ("repeat_offender", ["T1110"]), ("known_malicious_source", []), ("post_auth_activity", ["T1021.004"])]

theorem detections_functional : ∀ d ∈ detections, ∀ d' ∈ detections, d.1 = d'.1 → d.2 = d'.2 := by
  decide

theorem mem_namedTechniques_of_rule {cmd : String} {rule : CommandRule} (hcmd : cmd ∈ ctx.commands)
    (hrule : rule ∈ commandRules) (hsearch : Regex.search unicode rule.pattern cmd) :
    rule.techniques ⊆ namedTechniques unicode cfg ctx := by
  intro tid htid
  refine List.mem_append_left _ (List.mem_append_right _ (List.mem_flatMap.mpr ⟨cmd, hcmd, ?_⟩))
  rw [classifyCommand_eq, mem_fromkeys]
  exact List.mem_flatMap.mpr ⟨rule, hrule, by rwa [if_pos hsearch]⟩

/-- A tag was added together with its techniques. -/
theorem exists_detection {tag : String} (h : tag ∈ tags unicode cfg ctx) :
    ∃ ids, (tag, ids) ∈ detections ∧ ids ⊆ namedTechniques unicode cfg ctx := by
  have hauth : ∀ {tid}, tid ∈ authTechniques unicode cfg ctx → tid ∈ namedTechniques unicode cfg ctx :=
    fun hmem => List.mem_append_left _ (List.mem_append_left _ hmem)
  rw [tags, List.mem_append, List.mem_append] at h
  rcases h with (h | h) | h
  · simp only [authTags, List.mem_append, List.mem_ite_nil_right, List.mem_singleton] at h
    rcases h with ((⟨huser, rfl⟩ | ⟨hforce, rfl⟩) | ⟨hprior, rfl⟩) | ⟨-, rfl⟩
    · refine ⟨["T1078"], by decide, fun tid htid => hauth ?_⟩
      simp only [authTechniques, if_pos huser, List.mem_append]
      exact Or.inl (Or.inl htid)
    · refine ⟨["T1110", "T1110.001"], by decide, fun tid htid => hauth ?_⟩
      simp only [authTechniques, if_pos hforce, List.mem_append]
      exact Or.inl (Or.inr htid)
    · refine ⟨["T1110"], by decide, fun tid htid => hauth ?_⟩
      simp only [authTechniques, if_pos hprior, List.mem_append]
      exact Or.inr htid
    · exact ⟨[], by decide, List.nil_subset _⟩
  · obtain ⟨cmd, hcmd, hlabel⟩ := List.mem_flatMap.mp h
    obtain ⟨rule, hrule, hlabel⟩ := List.mem_flatMap.mp hlabel
    rw [List.mem_ite_nil_right, List.mem_singleton] at hlabel
    obtain ⟨hsearch, rfl⟩ := hlabel
    refine ⟨rule.techniques, ?_, mem_namedTechniques_of_rule hcmd hrule hsearch⟩
    exact List.mem_append_left _ (List.mem_map.mpr ⟨rule, hrule, rfl⟩)
  · rw [List.mem_ite_nil_right, List.mem_singleton] at h
    obtain ⟨hcmds, rfl⟩ := h
    refine ⟨["T1021.004"], by decide, fun tid htid => List.mem_append_right _ ?_⟩
    rwa [activityTechniques, if_pos hcmds]

/-- A tag never comes without the techniques it is added with. -/
theorem techniques_of_tag {tag : String} {ids : List String} (hpair : (tag, ids) ∈ detections)
    (h : tag ∈ (detect unicode cfg ctx).behaviors) : ids ⊆ (detect unicode cfg ctx).techniques := by
  rw [detect_eq] at h ⊢
  obtain ⟨ids', hpair', hsubset⟩ := exists_detection (mem_fromkeys.mp h)
  have hids : ids = ids' := detections_functional _ hpair _ hpair' rfl
  intro tid htid
  exact mem_fromkeys.mpr (hsubset (hids ▸ htid))

end Detector

/-! ## Stored rows -/

section Stored

variable {p : IngestPipeline} {db : Db} {a : Attack}

/-- The lists of a row are those of an assessment. -/
theorem Drafted.detected (h : Drafted p db) (ha : a ∈ db.attacks) : ∃ ctx,
    parseJsonList a.behaviors = (detect p.unicode p.config ctx).behaviors ∧
      parseJsonList a.mitreTechniques = (detect p.unicode p.config ctx).techniques := by
  obtain ⟨capture, prior, hcols, -⟩ := h.drafted a ha
  obtain ⟨ctx, -, -, hbehaviors, htechniques, -⟩ := draft_assessment p capture prior
  rw [← hcols] at hbehaviors htechniques
  exact ⟨ctx, hbehaviors, htechniques⟩

theorem Drafted.exists_detectedIn (h : Drafted p db) (ha : a ∈ db.attacks) : ∃ found, DetectedIn p a found := by
  obtain ⟨capture, prior, hcols, -⟩ := h.drafted a ha
  exact ⟨_, ⟨capture, prior, hcols, rfl⟩, by rw [hcols]; rfl, by rw [hcols]; rfl⟩

theorem DetectedIn.parseJsonList {found : BehaviorResult} (h : DetectedIn p a found) :
    parseJsonList a.mitreTechniques = found.techniques ∧ parseJsonList a.behaviors = found.behaviors := by
  rw [h.mitreTechniques, h.behaviors, parseJsonList_dumps, parseJsonList_dumps]
  exact ⟨rfl, rfl⟩

theorem Drafted.nodup_lists (h : Drafted p db) (ha : a ∈ db.attacks) :
    (parseJsonList a.behaviors).Nodup ∧ (parseJsonList a.mitreTechniques).Nodup := by
  obtain ⟨ctx, hbehaviors, htechniques⟩ := h.detected ha
  rw [hbehaviors, htechniques]
  exact nodup_detect

theorem Drafted.catalogueGet (h : Drafted p db) (ha : a ∈ db.attacks) {tid : String}
    (htid : tid ∈ parseJsonList a.mitreTechniques) : (catalogueGet tid).map (·.id) = some tid := by
  obtain ⟨ctx, -, htechniques⟩ := h.detected ha
  rw [htechniques] at htid
  exact catalogueGet_detect htid

/-- The score of a row is clamped. -/
theorem Drafted.riskScore_bounds (h : Drafted p db) (ha : a ∈ db.attacks) :
    0 ≤ a.riskScore ∧ a.riskScore ≤ 100 := by
  obtain ⟨capture, prior, hcols, -⟩ := h.drafted a ha
  rw [hcols]
  exact Core.riskScore_bounds _ _ _

theorem Drafted.ids_resolve (h : Drafted p db) (ha : a ∈ db.attacks) :
    (resolve (parseJsonList a.mitreTechniques)).map (·.id) = parseJsonList a.mitreTechniques :=
  Core.ids_resolve (h.nodup_lists ha).2 fun _ htid => h.catalogueGet ha htid

set_option maxRecDepth 4000 in
theorem run_threeAttacks :
    Runs.run (step .twoInstants .postgres) {} (threeCaptures.map .ingest) = some .threeAttacks := by
  with_unfolding_all decide

end Stored

end SentinelSsh.Core

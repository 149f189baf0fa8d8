import SentinelSsh.Backend.Services
import SentinelSsh.Core.Proofs.DetectionProofs

/-!
# What the services say about the stored rows

The techniques shown with a command are those stored with its session, and the severity of an incident
is the highest risk level of its attacks as long as the two sets of thresholds agree on its score.
-/

namespace SentinelSsh.Backend

open SentinelSsh.Core Python

/-! ## Techniques -/

section Techniques

/-- Nothing is lost between the classification of a command and the techniques shown with it. -/
theorem ids_recentCommand (db : UnicodeDb) (cmd : String) :
    (resolve (classifyCommand db cmd)).map (·.id) = classifyCommand db cmd := by
  have hnodup : (classifyCommand db cmd).Nodup := by
    rw [classifyCommand_eq]
    exact nodup_fromkeys _
  refine ids_resolve hnodup fun tid htid => ?_
  obtain ⟨rule, hrule, htid⟩ := mem_classifyCommand htid
  exact catalogueGet_rules rule hrule tid htid

/-- The techniques of a session are those of its authentication, those its commands are classified as,
and that of any activity, each once and in this order; so in every reachable database those stored with
an attack are put together from the same two and the ones shown with its commands. -/
theorem techniques_agree :
    (∀ (unicode : UnicodeDb) (cfg : IntelConfig) (ctx : BehaviorContext),
      (detect unicode cfg ctx).techniques =
        fromkeys (authTechniques unicode cfg ctx ++ ctx.commands.flatMap (classifyCommand unicode) ++
          activityTechniques ctx.commands)) ∧
      ∀ (p : IngestPipeline) (engine : Engine) (es : List Event) (db : Db),
        Runs.run (step p engine) {} es = some db →
        ∀ a ∈ db.attacks, ∃ ctx : BehaviorContext,
          (ctx.username = a.username ∧ ctx.authAttempts = a.authAttempts ∧
            ctx.isMaliciousIp = a.isMalicious ∧
            ctx.commands = (db.commandsOf a.id).map (·.command)) ∧
          parseJsonList a.mitreTechniques =
            fromkeys (authTechniques p.unicode p.config ctx ++
              (recentCommands p.unicode ((db.commandsOf a.id).map (·, a.sourceIp))).flatMap
                (fun shown => shown.mitre.map (·.id)) ++
              activityTechniques ctx.commands) := by
  have hdetect : ∀ (unicode : UnicodeDb) (cfg : IntelConfig) (ctx : BehaviorContext),
      (detect unicode cfg ctx).techniques =
        fromkeys (authTechniques unicode cfg ctx ++ ctx.commands.flatMap (classifyCommand unicode) ++
          activityTechniques ctx.commands) := fun unicode cfg ctx => by
    rw [detect_eq]
    rfl
  refine ⟨hdetect, fun p engine es db hr a ha => ?_⟩
  obtain ⟨capture, prior, hcols, hcmds⟩ := (drafted_correlated_run hr).1.drafted a ha
  obtain ⟨ctx, hctx, -, -, htechniques, -⟩ := draft_assessment p capture prior
  have hcommands : ctx.commands = (db.commandsOf a.id).map (·.command) := by
    rw [hctx, ← draft_commands (p := p) capture prior, ← hcmds, List.map_map]
    rfl
  have hshown : (recentCommands p.unicode ((db.commandsOf a.id).map (·, a.sourceIp))).flatMap
      (fun shown => shown.mitre.map (·.id)) = ctx.commands.flatMap (classifyCommand p.unicode) := by
    rw [hcommands, recentCommands, List.map_map, List.flatMap_map, List.flatMap_map]
    exact List.flatMap_congr fun c _ => ids_recentCommand p.unicode c.command
  refine ⟨ctx, ⟨by rw [hctx, hcols]; rfl, by rw [hctx, hcols]; rfl, by rw [hctx, hcols]; rfl, hcommands⟩, ?_⟩
  rw [hshown, hcols, htechniques, hdetect]

/-- A session with two commands. -/
theorem techniques_agree_typing :
    ∃ db, Runs.run (step .twoInstants .postgres) {}
        [.ingest (.typing "2026-01-01T00:00:10+00:00" "8.8.8.8" ["uname -a", "crontab -e"])] = some db ∧
      ∀ a ∈ db.attacks, ∃ ctx : BehaviorContext, ctx.username = a.username ∧
        parseJsonList a.mitreTechniques =
          fromkeys (authTechniques .ascii {} ctx ++
            (recentCommands .ascii ((db.commandsOf a.id).map (·, a.sourceIp))).flatMap
              (fun shown => shown.mitre.map (·.id)) ++ activityTechniques ctx.commands) := by
  have hsome : (Runs.run (step .twoInstants .postgres) {}
      [.ingest (.typing "2026-01-01T00:00:10+00:00" "8.8.8.8" ["uname -a", "crontab -e"])]).isSome =
        true := by
    with_unfolding_all decide
  obtain ⟨db, hr⟩ := Option.isSome_iff_exists.mp hsome
  refine ⟨db, hr, fun a ha => ?_⟩
  obtain ⟨ctx, ⟨huser, -⟩, htechniques⟩ := techniques_agree.2 _ _ _ db hr a ha
  exact ⟨ctx, huser, htechniques⟩

end Techniques

/-! ## Severity -/

section Severity

variable {p : IngestPipeline} {engine : Engine} {db : Db} {book : String → Ledger} {cfg : IntelConfig}

theorem max?_linked (h : Correlated db book) {i : Incident} (hi : i ∈ db.incidents) :
    ((db.linked i.id).map (·.riskScore)).max? = some i.maxRiskScore := by
  obtain ⟨q, -, hrow⟩ := h.row_of_mem hi
  have hsum := h.summaryOf hi hrow
  rw [← hsum.maxRiskScore, ← hsum.linked, List.map_map]
  rfl

/-- The level of the highest score is the highest level. -/
theorem isHighest_levelFor {attacks : List Attack} {m : Int}
    (hlevel : ∀ a ∈ attacks, a.riskLevel = cfg.levelFor a.riskScore)
    (hmax : (attacks.map (·.riskScore)).max? = some m) (level : RiskLevel) :
    IsHighest level attacks ↔ level = cfg.levelFor m := by
  obtain ⟨hmem, hle⟩ := List.max?_eq_some_iff.mp hmax
  obtain ⟨b, hb, rfl⟩ := List.mem_map.mp hmem
  have hrank : ∀ a ∈ attacks, a.riskLevel.rank ≤ (cfg.levelFor b.riskScore).rank := fun a ha => by
    rw [hlevel a ha]
    exact levelFor_mono cfg (hle _ (List.mem_map_of_mem ha))
  constructor
  · rintro ⟨hin, hall⟩
    obtain ⟨a, ha, rfl⟩ := List.mem_map.mp hin
    have h1 := hrank a ha
    have h2 := hall b hb
    rw [hlevel b hb] at h2
    revert h1 h2
    generalize cfg.levelFor b.riskScore = y
    cases a.riskLevel <;> cases y <;> simp [RiskLevel.rank]
  · rintro rfl
    exact ⟨List.mem_map.mpr ⟨b, hb, hlevel b hb⟩, hrank⟩

theorem any_high_iff {attacks : List Attack} {m : Int}
    (hlevel : ∀ a ∈ attacks, a.riskLevel = cfg.levelFor a.riskScore)
    (hmax : (attacks.map (·.riskScore)).max? = some m) :
    (attacks.any fun a => a.riskLevel = .high) = true ↔ cfg.levelFor m = .high := by
  obtain ⟨hmem, hall⟩ := (isHighest_levelFor hlevel hmax _).mpr rfl
  rw [List.any_eq_true]
  constructor
  · rintro ⟨a, ha, hhigh⟩
    have hle := hall a ha
    rw [of_decide_eq_true hhigh] at hle
    revert hle
    cases cfg.levelFor m <;> simp [RiskLevel.rank]
  · intro hhigh
    obtain ⟨a, ha, hal⟩ := List.mem_map.mp hmem
    exact ⟨a, ha, by simp [hal, hhigh]⟩

theorem levelFor_high_iff (hcfg : cfg.lowMax ≤ cfg.mediumMax) (score : Int) :
    cfg.levelFor score = .high ↔ ¬ score ≤ cfg.mediumMax := by
  unfold IntelConfig.levelFor
  split_ifs <;> simp <;> omega

/-- The two banding functions agree on a score when it is on the same side of each pair of
thresholds. -/
theorem severityFor_eq_iff (hcfg : cfg.lowMax ≤ cfg.mediumMax) (score : Int) :
    severityFor score = cfg.levelFor score ↔ BandsAgree cfg score := by
  unfold severityFor IntelConfig.levelFor BandsAgree
  split_ifs <;> simp <;> omega

/-- In every reachable database the severities and the count of high-risk incidents are those of the
stored risk levels if and only if no score of an incident is between a fixed threshold and the
configured one. -/
theorem severityAgrees_iff (hcfg : p.config.lowMax ≤ p.config.mediumMax) {es : List Event}
    (hr : Runs.run (step p engine) {} es = some db) :
    SeverityAgrees db ↔ ∀ i ∈ db.incidents, BandsAgree p.config i.maxRiskScore := by
  obtain ⟨hdrafted, book, hcor⟩ := drafted_correlated_run hr
  have hlevel : ∀ i ∈ db.incidents, ∀ a ∈ db.linked i.id,
      a.riskLevel = p.config.levelFor a.riskScore := by
    intro i _ a ha
    obtain ⟨capture, prior, hcols, -⟩ := hdrafted.drafted a (List.mem_of_mem_filter ha)
    rw [hcols]
    rfl
  have hsev : ∀ i ∈ db.incidents, (IsHighest (summary i).severity (db.linked i.id) ↔
      BandsAgree p.config i.maxRiskScore) := fun i hi => by
    rw [isHighest_levelFor (hlevel i hi) (max?_linked hcor hi)]
    exact severityFor_eq_iff hcfg _
  constructor
  · intro h i hi
    exact (hsev i hi).mp (h.severity i hi)
  · intro h
    refine { severity := fun i hi => (hsev i hi).mpr (h i hi), highRisk := ?_ }
    refine List.filter_congr fun i hi => ?_
    rw [Bool.eq_iff_iff, any_high_iff (hlevel i hi) (max?_linked hcor hi), levelFor_high_iff hcfg,
      decide_eq_true_iff, ← (h i hi).2]
    omega

/-- The bands agree on every score exactly when the thresholds are the default ones. -/
theorem bandsAgree_all_iff (hlow : 0 ≤ cfg.lowMax)
    (hmax : cfg.mediumMax ≤ 100) :
    (∀ score, 0 ≤ score → score ≤ 100 → BandsAgree cfg score) ↔
      cfg.lowMax = 30 ∧ cfg.mediumMax = 70 := by
  unfold BandsAgree
  constructor
  · intro h
    have h30 := h 30 (by decide) (by decide)
    have h31 := h 31 (by decide) (by decide)
    have h70 := h 70 (by decide) (by decide)
    have h71 := h 71 (by decide) (by decide)
    omega
  · rintro ⟨hl, hm⟩ score - -
    rw [hl, hm]
    exact ⟨Iff.rfl, Iff.rfl⟩

/-- A deployment whose medium band ends at 10. -/
def lowThresholds : IngestPipeline :=
  { IngestPipeline.twoInstants with config := { lowMax := 5, mediumMax := 10 } }

/-- One session for `root` under the default thresholds. -/
theorem severityAgrees_iff_guess :
    ∃ db, Runs.run (step .twoInstants .postgres) {}
        [.ingest (.guess "2026-01-01T00:00:10+00:00" "8.8.8.8")] = some db ∧
      (SeverityAgrees db ↔ ∀ i ∈ db.incidents, BandsAgree {} i.maxRiskScore) := by
  have hsome : (Runs.run (step .twoInstants .postgres) {}
      [.ingest (.guess "2026-01-01T00:00:10+00:00" "8.8.8.8")]).isSome = true := by
    with_unfolding_all decide
  obtain ⟨db, hr⟩ := Option.isSome_iff_exists.mp hsome
  exact ⟨db, hr, severityAgrees_iff (p := .twoInstants) (by decide) hr⟩

/-- A session that is stored as high is reported with the severity low. -/
theorem not_severityAgrees_lowThresholds :
    ¬ ∀ (p : IngestPipeline) (engine : Engine) (es : List Event) (db : Db), 0 ≤ p.config.lowMax →
        p.config.lowMax ≤ p.config.mediumMax → p.config.mediumMax ≤ 100 →
        Runs.run (step p engine) {} es = some db → SeverityAgrees db := by
  intro h
  have hrun : ((Runs.run (step lowThresholds .postgres) {}
      [.ingest (.guess "2026-01-01T00:00:10+00:00" "8.8.8.8")]).any fun db =>
      db.incidents.any fun i => (summary i).severity ∉ (db.linked i.id).map (·.riskLevel)) = true := by
    with_unfolding_all decide
  obtain ⟨db, hr, hany⟩ := (Option.any_eq_true _ _).mp hrun
  obtain ⟨i, hi, hne⟩ := List.any_eq_true.mp hany
  have hagrees := h lowThresholds .postgres _ db (by decide) (by decide) (by decide) hr
  exact of_decide_eq_true hne (hagrees.severity i hi).1

end Severity

end SentinelSsh.Backend

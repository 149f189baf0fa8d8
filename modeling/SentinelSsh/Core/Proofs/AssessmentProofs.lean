import SentinelSsh.Core.Assessment
import SentinelSsh.Core.Proofs.CorrelationProofs

/-!
# Assessments against their reference

`detect` only appends what is new, so its two lists are `fromkeys` of what the rules that apply name, in
their order. The score follows from the tags alone, because every condition `riskScore` evaluates again
is the condition of a tag.
-/

namespace SentinelSsh.Core

open Python Regex

/-! ## The detector without its accumulators -/

section Detector

variable (db : UnicodeDb)

/-- The techniques of the rules that match a command. -/
def matchedTechniques (rules : List CommandRule) (cmd : String) : List String :=
  rules.flatMap fun rule => if search db rule.pattern cmd then rule.techniques else []

/-- The labels of the rules that match a command. -/
def matchedLabels (rules : List CommandRule) (cmd : String) : List String :=
  rules.flatMap fun rule => if search db rule.pattern cmd then [rule.label] else []

@[simp] theorem matchedTechniques_cons (rule : CommandRule) (rules : List CommandRule) (cmd : String) :
    matchedTechniques db (rule :: rules) cmd =
      (if search db rule.pattern cmd then rule.techniques else []) ++ matchedTechniques db rules cmd :=
  rfl

@[simp] theorem matchedLabels_cons (rule : CommandRule) (rules : List CommandRule) (cmd : String) :
    matchedLabels db (rule :: rules) cmd =
      (if search db rule.pattern cmd then [rule.label] else []) ++ matchedLabels db rules cmd :=
  rfl

theorem foldl_techniques (rules : List CommandRule) (cmd : String) (techniques : List String) :
    rules.foldl (fun techniques rule =>
        if search db rule.pattern cmd then rule.techniques.foldl addKey techniques else techniques)
      techniques = (matchedTechniques db rules cmd).foldl addKey techniques := by
  induction rules generalizing techniques with
  | nil => rfl
  | cons rule rules ih =>
    rw [List.foldl_cons, ih, matchedTechniques_cons, List.foldl_append]
    split <;> rfl

theorem classifyCommand_eq (cmd : String) :
    classifyCommand db cmd = fromkeys (matchedTechniques db commandRules cmd) :=
  foldl_techniques db commandRules cmd []

theorem mem_classifyCommand {db : UnicodeDb} {cmd tid : String} (h : tid ∈ classifyCommand db cmd) :
    ∃ rule ∈ commandRules, tid ∈ rule.techniques := by
  rw [classifyCommand_eq, mem_fromkeys] at h
  obtain ⟨rule, hrule, htid⟩ := List.mem_flatMap.mp h
  split at htid
  · exact ⟨rule, hrule, htid⟩
  · simp at htid

/-- The rule loop adds the labels and the techniques of the rules that match. -/
theorem foldl_addRule (rules : List CommandRule) (cmd : String) (r : BehaviorResult) :
    rules.foldl (BehaviorResult.addRule db cmd) r =
      { behaviors := (matchedLabels db rules cmd).foldl addKey r.behaviors
        techniques := (matchedTechniques db rules cmd).foldl addKey r.techniques } := by
  induction rules generalizing r with
  | nil => rfl
  | cons rule rules ih =>
    rw [List.foldl_cons, ih, matchedLabels_cons, matchedTechniques_cons, List.foldl_append,
      List.foldl_append, BehaviorResult.addRule]
    split <;> rfl

/-- The command loop adds what the commands are classified as, command by command. -/
theorem foldl_commands (cmds : List String) (r : BehaviorResult) :
    cmds.foldl (fun r cmd => commandRules.foldl (BehaviorResult.addRule db cmd) r) r =
      { behaviors := (cmds.flatMap (matchedLabels db commandRules)).foldl addKey r.behaviors
        techniques := (cmds.flatMap (classifyCommand db)).foldl addKey r.techniques } := by
  induction cmds generalizing r with
  | nil => rfl
  | cons cmd cmds ih =>
    rw [List.foldl_cons, foldl_addRule, ih, List.flatMap_cons, List.flatMap_cons, List.foldl_append,
      List.foldl_append, classifyCommand_eq, foldl_addKey_fromkeys]

variable (cfg : IntelConfig) (ctx : BehaviorContext)

/-- The tags of the authentication rules that apply to a session. -/
def authTags : List String :=
  (if isCommonUsername db cfg ctx.username then ["common_credential_use"] else []) ++
    (if ctx.authAttempts + ctx.priorAttempts ≥ cfg.repeatedAttemptsThreshold then ["brute_force"]
      else []) ++
    (if ctx.priorAttempts > 0 then ["repeat_offender"] else []) ++
    (if ctx.isMaliciousIp then ["known_malicious_source"] else [])

/-- The tags in the order the rules name them, with repetitions. -/
def tags : List String :=
  authTags db cfg ctx ++ ctx.commands.flatMap (matchedLabels db commandRules) ++
    (if ctx.commands ≠ [] then ["post_auth_activity"] else [])

/-- The techniques in the order the rules name them, with repetitions. -/
def namedTechniques : List String :=
  authTechniques db cfg ctx ++ ctx.commands.flatMap (classifyCommand db) ++
    activityTechniques ctx.commands

theorem ite_add {c : Prop} [Decidable c] (r : BehaviorResult) (tag : String) (ids : List String) :
    (if c then r.add tag ids else r) =
      { behaviors := (if c then [tag] else []).foldl addKey r.behaviors
        techniques := (if c then ids else []).foldl addKey r.techniques } := by
  split <;> rfl

/-- The detector collects what the rules name. -/
theorem detect_eq : detect db cfg ctx =
    { behaviors := fromkeys (tags db cfg ctx), techniques := fromkeys (namedTechniques db cfg ctx) } := by
  simp only [detect, ite_add, foldl_commands, tags, authTags, namedTechniques, authTechniques,
    activityTechniques, fromkeys, List.foldl_append, ite_self, List.foldl_nil]

end Detector

/-! ## The score without its accumulator -/

section Score

variable (db : UnicodeDb) (cfg : IntelConfig)

/-- The accumulator after one more term. -/
def addTerm (acc : Int × List (String × Int)) (term : String × Int) : Int × List (String × Int) :=
  (acc.1 + term.2, acc.2 ++ [term].filter (·.2 ≠ 0))

theorem foldl_addTerm (terms : List (String × Int)) (acc : Int × List (String × Int)) :
    terms.foldl addTerm acc =
      (acc.1 + (terms.map (·.2)).sum, acc.2 ++ terms.filter (·.2 ≠ 0)) := by
  induction terms generalizing acc with
  | nil => simp
  | cons term terms ih =>
    rw [List.foldl_cons, ih, addTerm, List.map_cons, List.sum_cons, Int.add_assoc, List.append_assoc,
      ← List.filter_append, List.singleton_append]

/-- A reason that does not apply is a term of weight 0. -/
theorem ite_addReason {c : Prop} [Decidable c] (acc : Int × List (String × Int)) (reason : String)
    (points : Int) : (if c then addReason acc reason points else acc) =
      addTerm acc (reason, if c then points else 0) := by
  unfold addReason addTerm
  by_cases hc : c
  · by_cases hp : points = 0 <;> simp [hc, hp]
  · simp [hc]

/-- A tag of a command rule is none of the tags of the authentication rules. -/
theorem mem_flatMap_labels {cmds : List String} {tag : String}
    (h : tag ∈ cmds.flatMap (matchedLabels db commandRules)) : tag ∈ commandRules.map (·.label) := by
  obtain ⟨cmd, -, hcmd⟩ := List.mem_flatMap.mp h
  obtain ⟨rule, hrule, htag⟩ := List.mem_flatMap.mp hcmd
  split at htag
  · exact List.mem_map.mpr ⟨rule, hrule, (List.mem_singleton.mp htag).symm⟩
  · simp at htag

/-- The tag of an authentication rule is only there when the rule applies. -/
theorem contains_behaviors (ctx : BehaviorContext) (tag : String) {c : Prop}
    (hauth : tag ∈ authTags db cfg ctx ↔ c) (hrules : tag ∉ commandRules.map (·.label))
    (hactivity : tag ≠ "post_auth_activity") : (detect db cfg ctx).behaviors.contains tag = true ↔ c := by
  rw [List.contains_iff_mem, detect_eq, mem_fromkeys, tags, List.mem_append, List.mem_append, hauth]
  refine ⟨?_, fun h => Or.inl (Or.inl h)⟩
  rintro ((h | h) | h)
  · exact h
  · exact absurd (mem_flatMap_labels db h) hrules
  · split at h
    · exact absurd (List.mem_singleton.mp h) hactivity
    · simp at h

theorem repeated_iff (ctx : BehaviorContext) :
    (["brute_force", "repeat_offender"].any ((detect db cfg ctx).behaviors.contains ·)) = true ↔
      ctx.priorAttempts > 0 ∨ ctx.authAttempts + ctx.priorAttempts ≥ cfg.repeatedAttemptsThreshold := by
  have hforce := contains_behaviors db cfg ctx "brute_force"
    (c := ctx.authAttempts + ctx.priorAttempts ≥ cfg.repeatedAttemptsThreshold)
    (by simp [authTags]) (by decide) (by decide)
  have hoffender := contains_behaviors db cfg ctx "repeat_offender"
    (c := ctx.priorAttempts > 0) (by simp [authTags]) (by decide) (by decide)
  simp only [List.any_cons, List.any_nil, Bool.or_false, Bool.or_eq_true, hforce, hoffender]
  exact or_comm

theorem commonUsername_iff (ctx : BehaviorContext) :
    (["common_credential_use"].any ((detect db cfg ctx).behaviors.contains ·)) = true ↔
      isCommonUsername db cfg ctx.username = true := by
  have hname := contains_behaviors db cfg ctx "common_credential_use"
    (c := isCommonUsername db cfg ctx.username = true) (by simp [authTags]) (by decide) (by decide)
  simpa only [List.any_cons, List.any_nil, Bool.or_false] using hname

theorem maliciousIp_iff (ctx : BehaviorContext) :
    (["known_malicious_source"].any ((detect db cfg ctx).behaviors.contains ·)) = true ↔
      ctx.isMaliciousIp = true := by
  have hmalicious := contains_behaviors db cfg ctx "known_malicious_source"
    (c := ctx.isMaliciousIp = true) (by simp [authTags]) (by decide) (by decide)
  simpa only [List.any_cons, List.any_nil, Bool.or_false] using hmalicious

/-- The score of a session from its tags and the foreign flag. -/
def explained (behaviors : List String) (foreign : Bool) : RiskResult where
  score := max 0 (min 100 (riskSum cfg behaviors foreign))
  level := cfg.levelFor (max 0 (min 100 (riskSum cfg behaviors foreign)))
  reasons := (riskTerms cfg behaviors foreign).filter (·.2 ≠ 0)

theorem explained_eq (behaviors : List String) (foreign : Bool) :
    explained cfg behaviors foreign =
      { score := max 0 (min 100 ((riskTerms cfg behaviors foreign).foldl addTerm (0, [])).1)
        level := cfg.levelFor
          (max 0 (min 100 ((riskTerms cfg behaviors foreign).foldl addTerm (0, [])).1))
        reasons := ((riskTerms cfg behaviors foreign).foldl addTerm (0, [])).2 } := by
  rw [foldl_addTerm, Int.zero_add, List.nil_append]
  rfl

/-- The conditions the risk engine evaluates again are those of the tags. -/
theorem riskScore_eq (ctx : BehaviorContext) (e : EnrichmentResult) :
    riskScore db cfg
        { enrichment := e
          isMaliciousIp := ctx.isMaliciousIp
          username := ctx.username
          authAttempts := ctx.authAttempts
          priorAttempts := ctx.priorAttempts
          behavior := detect db cfg ctx } =
      explained cfg (detect db cfg ctx).behaviors (isForeign db cfg e) := by
  rw [explained_eq]
  simp only [riskTerms, repeated_iff, commonUsername_iff, maliciousIp_iff]
  simp only [riskScore, ite_addReason, List.foldl_cons, List.foldl_nil, List.any_cons, List.any_nil,
    Bool.or_false, Bool.or_assoc]

/-- Only the set of tags matters. -/
theorem riskTerms_congr {b b' : List String} (h : ∀ t, t ∈ b ↔ t ∈ b') (foreign : Bool) :
    riskTerms cfg b foreign = riskTerms cfg b' foreign := by
  have hcontains : ∀ t, b.contains t = b'.contains t := fun t => by
    rw [Bool.eq_iff_iff, List.contains_iff_mem, List.contains_iff_mem, h]
  simp only [riskTerms, hcontains]

theorem nodup_reasons (b : List String) (foreign : Bool) :
    ((riskTerms cfg b foreign).map (·.1)).Nodup := by
  simp only [riskTerms, List.map_cons, List.map_nil]
  decide

theorem sum_filter_ne_zero (terms : List (String × Int)) :
    ((terms.filter (·.2 ≠ 0)).map (·.2)).sum = (terms.map (·.2)).sum := by
  induction terms with
  | nil => rfl
  | cons term terms ih =>
    rw [List.filter_cons]
    by_cases h : term.2 = 0 <;> simp_all

/-- The weight of a term that applies more often is no smaller. -/
theorem ite_mono {x y : Bool} {w : Int} (hw : 0 ≤ w) (h : x = true → y = true) :
    (if x then w else 0) ≤ (if y then w else 0) := by
  cases x with
  | false => cases y <;> simp [hw]
  | true => simp [h rfl]

theorem riskSum_mono (hcfg : cfg.NonNegative) {b b' : List String} (h : b ⊆ b') (foreign : Bool) :
    riskSum cfg b foreign ≤ riskSum cfg b' foreign := by
  have hany : ∀ tags : List String, tags.any (b.contains ·) = true → tags.any (b'.contains ·) = true := by
    intro tags hb
    obtain ⟨t, ht, htb⟩ := List.any_eq_true.mp hb
    exact List.any_eq_true.mpr ⟨t, ht, List.contains_iff_mem.mpr (h (List.contains_iff_mem.mp htb))⟩
  have h1 := ite_mono hcfg.repeatedAttempts (hany ["brute_force", "repeat_offender"])
  have h2 := ite_mono hcfg.commonUsername (hany ["common_credential_use"])
  have h3 := ite_mono hcfg.maliciousIp (hany ["known_malicious_source"])
  have h4 := ite_mono hcfg.malwareDownload (hany ["tool_transfer", "cryptomining"])
  have h5 := ite_mono hcfg.persistence (hany ["ssh_key_persistence", "cron_persistence"])
  have h6 := ite_mono hcfg.recon
    (hany ["system_discovery", "user_discovery", "account_discovery", "remote_discovery"])
  simp only [riskSum, riskTerms, List.map_cons, List.map_nil, List.sum_cons, List.sum_nil]
  omega

theorem levelFor_mono {m n : Int} (h : m ≤ n) : (cfg.levelFor m).rank ≤ (cfg.levelFor n).rank := by
  unfold IntelConfig.levelFor
  split_ifs <;> first | decide | omega

end Score

/-! ## The stored assessment -/

section Stored

variable (p : IngestPipeline)

/-- The columns of an attack hold the assessment of its session. -/
theorem draft_assessment (capture : Capture) (prior : Int) :
    ∃ ctx : BehaviorContext,
      ctx = ⟨capture.username, capture.commands.map (·.command), capture.authAttempts, prior,
        (checkReputation p.lib p.networks capture.sourceIp).isMalicious⟩ ∧
      (p.draft capture prior).behavior = detect p.unicode p.config ctx ∧
      parseJsonList (p.draft capture prior).attack.behaviors = (detect p.unicode p.config ctx).behaviors ∧
      parseJsonList (p.draft capture prior).attack.mitreTechniques =
        (detect p.unicode p.config ctx).techniques ∧
      (p.draft capture prior).risk =
        explained p.config (detect p.unicode p.config ctx).behaviors (p.isForeign capture.sourceIp) := by
  refine ⟨_, rfl, rfl, parseJsonList_dumps _, parseJsonList_dumps _, ?_⟩
  exact riskScore_eq p.unicode p.config _ _

theorem draft_scored (capture : Capture) (prior : Int) :
    Scored p (p.draft capture prior).attack (p.draft capture prior).risk.reasons := by
  obtain ⟨ctx, -, -, hb, -, hrisk⟩ := draft_assessment p capture prior
  have hreasons : (p.draft capture prior).risk.reasons =
      (riskTerms p.config (detect p.unicode p.config ctx).behaviors
        (p.isForeign capture.sourceIp)).filter (·.2 ≠ 0) := by
    rw [hrisk]
    rfl
  refine
    { score := ?_
      level := rfl
      nonzero := ?_
      once := ?_
      sum := ?_ }
  · rw [hb]
    exact congrArg RiskResult.score hrisk
  · rw [hb]
    exact hreasons
  · rw [hreasons]
    exact (List.filter_sublist.map _).nodup (nodup_reasons p.config _ _)
  · rw [hb, hreasons]
    exact sum_filter_ne_zero _

/-- Rows with the same tags and the same foreign flag have the same score and level. -/
theorem Scored.congr {p : IngestPipeline} {a a' : AttackCols} {rs rs' : List (String × Int)}
    (h : Scored p a rs) (h' : Scored p a' rs')
    (hb : ∀ t, t ∈ parseJsonList a.behaviors ↔ t ∈ parseJsonList a'.behaviors)
    (hf : p.isForeign a.sourceIp = p.isForeign a'.sourceIp) :
    a.riskScore = a'.riskScore ∧ a.riskLevel = a'.riskLevel := by
  have hscore : a.riskScore = a'.riskScore := by
    rw [h.score, h'.score, riskSum, riskSum, hf, riskTerms_congr p.config hb]
  exact ⟨hscore, by rw [h.level, h'.level, hscore]⟩

/-- A completed call scores its session by the terms of the stored behaviours and of the foreign flag,
and gives the terms that are not zero as the reasons; so sessions with the same behaviours and the same
flag have the same score and level. -/
theorem process_scored (engine : Engine) :
    (∀ db capture db' snap, p.process engine db capture = .ok (db', snap) →
      ∃ a, db'.attacks = db.attacks ++ [a] ∧ a.sourceIp = capture.sourceIp ∧
        Scored p a.toAttackCols snap.riskReasons) ∧
      ∀ db₁ c₁ db₁' snap₁ a₁ db₂ c₂ db₂' snap₂ a₂,
        p.process engine db₁ c₁ = .ok (db₁', snap₁) → db₁'.attacks.getLast? = some a₁ →
        p.process engine db₂ c₂ = .ok (db₂', snap₂) → db₂'.attacks.getLast? = some a₂ →
        (∀ t, t ∈ parseJsonList a₁.behaviors ↔ t ∈ parseJsonList a₂.behaviors) →
        p.isForeign c₁.sourceIp = p.isForeign c₂.sourceIp →
        a₁.riskScore = a₂.riskScore ∧ a₁.riskLevel = a₂.riskLevel := by
  have hrow : ∀ db capture db' snap, p.process engine db capture = .ok (db', snap) →
      ∃ a, db'.attacks = db.attacks ++ [a] ∧ a.sourceIp = capture.sourceIp ∧
        Scored p a.toAttackCols snap.riskReasons := by
    intro db capture db' snap h
    obtain ⟨d, key, rfl, -, rfl, rfl, -⟩ := process_ok_snapshot h
    have hscored := draft_scored p capture
      (p.priorAttempts engine db.attacks capture.sourceIp (p.captureTs capture))
    refine ⟨{ (p.draft capture _).attack with id := db.nextAttack, incidentId := some key }, ?_, rfl, hscored⟩
    rw [Db.putAttack, attacks_putIncident]
  refine ⟨hrow, ?_⟩
  intro db₁ c₁ db₁' snap₁ a₁ db₂ c₂ db₂' snap₂ a₂ h₁ hl₁ h₂ hl₂ hb hf
  obtain ⟨b₁, hb₁, hip₁, hs₁⟩ := hrow _ _ _ _ h₁
  obtain ⟨b₂, hb₂, hip₂, hs₂⟩ := hrow _ _ _ _ h₂
  rw [hb₁, List.getLast?_concat, Option.some.injEq] at hl₁
  rw [hb₂, List.getLast?_concat, Option.some.injEq] at hl₂
  subst hl₁ hl₂
  refine hs₁.congr hs₂ hb ?_
  rw [hip₁, hip₂]
  exact hf

/-- A session that guesses passwords for `root`. -/
theorem process_scored_guess :
    ∃ db' snap a,
      IngestPipeline.twoInstants.process .postgres {} (.guess "2026-01-01T00:00:10+00:00" "8.8.8.8") =
          .ok (db', snap) ∧ db'.attacks = [a] ∧
        snap.riskReasons = [("common_brute_force_username", 15)] ∧
        Scored .twoInstants a.toAttackCols snap.riskReasons := by
  have hsome : (IngestPipeline.twoInstants.process .postgres {}
      (.guess "2026-01-01T00:00:10+00:00" "8.8.8.8")).toOption.map (·.2.riskReasons) =
        some [("common_brute_force_username", 15)] := by with_unfolding_all decide
  obtain ⟨⟨db', snap⟩, hok, hreasons⟩ := Option.map_eq_some_iff.mp hsome
  have hproc := Escapes.toOption_eq_some hok
  obtain ⟨a, ha, -, hscored⟩ := (process_scored .twoInstants .postgres).1 _ _ _ _ hproc
  exact ⟨db', _, a, hproc, ha, hreasons, hscored⟩

/-! ## More activity -/

variable {p}

theorem append_subset_append {xs xs' ys ys' : List String} (hx : xs ⊆ xs') (hy : ys ⊆ ys') :
    xs ++ ys ⊆ xs' ++ ys' :=
  List.append_subset.mpr ⟨List.Subset.trans hx (List.subset_append_left _ _),
    List.Subset.trans hy (List.subset_append_right _ _)⟩

theorem ite_subset {c c' : Prop} [Decidable c] [Decidable c'] (h : c → c') (xs : List String) :
    (if c then xs else []) ⊆ (if c' then xs else []) := by
  by_cases hc : c
  · simp [hc, h hc]
  · simp [hc]

theorem flatMap_subset {f : String → List String} {xs ys : List String} (h : xs ⊆ ys) :
    xs.flatMap f ⊆ ys.flatMap f := by
  intro t ht
  obtain ⟨x, hx, hxt⟩ := List.mem_flatMap.mp ht
  exact List.mem_flatMap.mpr ⟨x, h hx, hxt⟩

theorem ne_nil_of_subset {xs ys : List String} (h : xs ⊆ ys) (hx : xs ≠ []) : ys ≠ [] := by
  rintro rfl
  exact hx (List.subset_nil.mp h)

/-- A session that does at least as much has at least the tags and the techniques. -/
theorem detect_mono (db : UnicodeDb) (cfg : IntelConfig) (ctx ctx' : BehaviorContext)
    (huser : ctx.username = ctx'.username) (hmal : ctx.isMaliciousIp = ctx'.isMaliciousIp)
    (hcmds : ctx.commands ⊆ ctx'.commands) (hauth : ctx.authAttempts ≤ ctx'.authAttempts)
    (hprior : ctx.priorAttempts ≤ ctx'.priorAttempts) :
    (detect db cfg ctx).behaviors ⊆ (detect db cfg ctx').behaviors ∧
      (detect db cfg ctx).techniques ⊆ (detect db cfg ctx').techniques := by
  have hforce : ctx.authAttempts + ctx.priorAttempts ≥ cfg.repeatedAttemptsThreshold →
      ctx'.authAttempts + ctx'.priorAttempts ≥ cfg.repeatedAttemptsThreshold := fun h => by omega
  have hoffender : ctx.priorAttempts > 0 → ctx'.priorAttempts > 0 := fun h => by omega
  have htags : tags db cfg ctx ⊆ tags db cfg ctx' := by
    unfold tags authTags
    rw [huser, hmal]
    refine append_subset_append (append_subset_append ?_ (flatMap_subset hcmds))
      (ite_subset (ne_nil_of_subset hcmds) _)
    refine append_subset_append (append_subset_append ?_ (ite_subset hoffender _)) (List.Subset.refl _)
    exact append_subset_append (List.Subset.refl _) (ite_subset hforce _)
  have htechniques : namedTechniques db cfg ctx ⊆ namedTechniques db cfg ctx' := by
    unfold namedTechniques authTechniques activityTechniques
    rw [huser]
    refine append_subset_append (append_subset_append ?_ (flatMap_subset hcmds))
      (ite_subset (ne_nil_of_subset hcmds) _)
    refine append_subset_append ?_ (ite_subset hoffender _)
    exact append_subset_append (List.Subset.refl _) (ite_subset hforce _)
  rw [detect_eq, detect_eq]
  exact ⟨fun t ht => mem_fromkeys.mpr (htags (mem_fromkeys.mp ht)),
    fun t ht => mem_fromkeys.mpr (htechniques (mem_fromkeys.mp ht))⟩

/-- A session of the same source and username with every command of another one, and at least as many
attempts, is assessed at least as high, when no weight is negative; so reordering or repeating commands
changes nothing. -/
theorem assessment_mono (hcfg : p.config.NonNegative) {c c' : Capture} {prior prior' : Int}
    (hip : c.sourceIp = c'.sourceIp) (huser : c.username = c'.username)
    (hcmds : c.commands.map (·.command) ⊆ c'.commands.map (·.command))
    (hauth : c.authAttempts ≤ c'.authAttempts) (hprior : prior ≤ prior') :
    AtMost (p.draft c prior).attack (p.draft c' prior').attack ∧
      (c'.commands.map (·.command) ⊆ c.commands.map (·.command) → c.authAttempts = c'.authAttempts →
        prior = prior' → SameAssessment (p.draft c prior).attack (p.draft c' prior').attack) := by
  have hle : ∀ {c c' : Capture} {prior prior' : Int}, c.sourceIp = c'.sourceIp →
      c.username = c'.username → c.commands.map (·.command) ⊆ c'.commands.map (·.command) →
      c.authAttempts ≤ c'.authAttempts → prior ≤ prior' →
      AtMost (p.draft c prior).attack (p.draft c' prior').attack := by
    intro c c' prior prior' hip huser hcmds hauth hprior
    obtain ⟨ctx, hctx, -, hb, ht, -⟩ := draft_assessment p c prior
    obtain ⟨ctx', hctx', -, hb', ht', -⟩ := draft_assessment p c' prior'
    have hmono := detect_mono p.unicode p.config ctx ctx' (by simp [hctx, hctx', huser])
      (by simp [hctx, hctx', hip]) (by simpa [hctx, hctx'] using hcmds) (by simpa [hctx, hctx'] using hauth)
      (by simpa [hctx, hctx'] using hprior)
    rw [← hb, ← hb', ← ht, ← ht'] at hmono
    have hsum := riskSum_mono p.config hcfg hmono.1 (p.isForeign c.sourceIp)
    have hscore : (p.draft c prior).attack.riskScore ≤ (p.draft c' prior').attack.riskScore := by
      rw [(draft_scored p c prior).score, (draft_scored p c' prior').score]
      have hsame : p.isForeign (p.draft c' prior').attack.sourceIp = p.isForeign c.sourceIp := by
        rw [hip]
        rfl
      rw [hsame]
      change max 0 (min 100 (riskSum p.config _ (p.isForeign c.sourceIp))) ≤ _
      omega
    refine { behaviors := hmono.1, techniques := hmono.2, score := hscore, level := ?_ }
    rw [(draft_scored p c prior).level, (draft_scored p c' prior').level]
    exact levelFor_mono p.config hscore
  have h := hle hip huser hcmds hauth hprior
  refine ⟨h, fun hcmds' hauth' hprior' => ?_⟩
  have h' := hle hip.symm huser.symm hcmds' hauth'.ge hprior'.ge
  have hscore := Int.le_antisymm h.score h'.score
  refine
    { behaviors := fun t => ⟨fun ht => h.behaviors ht, fun ht => h'.behaviors ht⟩
      techniques := fun t => ⟨fun ht => h.techniques ht, fun ht => h'.techniques ht⟩
      score := hscore
      level := ?_ }
  rw [(draft_scored p c prior).level, (draft_scored p c' prior').level, hscore]

/-- A session with a command more than another one, whose own command it repeats. -/
theorem assessment_mono_commands :
    AtMost
      (IngestPipeline.twoInstants.draft
        (.typing "2026-01-01T00:00:10+00:00" "8.8.8.8" ["uname -a"]) 0).attack
      (IngestPipeline.twoInstants.draft
        (.typing "2026-01-01T00:00:20+00:00" "8.8.8.8" ["crontab -e", "uname -a", "uname -a"]) 1).attack := by
  refine (assessment_mono ?_ ?_ ?_ ?_ ?_ ?_).1
  · exact ⟨by decide, by decide, by decide, by decide, by decide, by decide, by decide⟩
  · rfl
  · rfl
  · decide
  · decide
  · decide

end Stored

end SentinelSsh.Core

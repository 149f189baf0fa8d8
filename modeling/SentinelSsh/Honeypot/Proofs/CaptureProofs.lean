import SentinelSsh.Honeypot.Capture
import SentinelSsh.Core.Proofs.DraftProofs

/-!
# Which sessions are stored

The JSONL sink fails only on a byte string (`jsonl_ok_iff`); the pipeline sink fails exactly when one
of its statements carries a value its column has no room for. Of all columns only those the client or
the enrichment fills can be at fault, since the other texts are generated and the aggregates are
bounded (`incident_accepts_iff`). `stored_iff_storable` puts the two together.
-/

namespace SentinelSsh.Honeypot

open Python SentinelSsh.Core

/-! ## The JSONL sink -/

section Jsonl

theorem render_commands (cs : List CommandRecord) :
    ∃ ys, Json.renderItems false (cs.map CommandRecord.toDict) = .ok ys := by
  induction cs with
  | nil => exact ⟨[], rfl⟩
  | cons c cs ih =>
    obtain ⟨ys, hys⟩ := ih
    rw [List.map_cons, Json.renderItems, hys]
    exact ⟨_, rfl⟩

/-- A record is serialisable exactly when its password is no byte string. -/
theorem line_ok_iff (record : AttackRecord) :
    (∃ line, record.line = .ok line) ↔ ∀ b, record.password ≠ some (.bytes b) := by
  obtain ⟨ys, hys⟩ := render_commands record.commands
  have hstr : ∀ s : Option String, ∃ l, (jsonStr s).render false = .ok l := fun s => by
    cases s <;> exact ⟨_, rfl⟩
  obtain ⟨l₁, h₁⟩ := hstr record.username
  obtain ⟨l₂, h₂⟩ := hstr record.sshVersion
  rcases hp : record.password with _ | t
  · simp only [AttackRecord.line, AttackRecord.toDict, Json.Value.render, Json.renderFields, h₁, h₂, hys,
      hp]
    exact iff_of_true ⟨_, rfl⟩ (by simp)
  · cases t with
    | str s =>
      simp only [AttackRecord.line, AttackRecord.toDict, Json.Value.render, Json.renderFields, h₁, h₂,
        hys, hp]
      exact iff_of_true ⟨_, rfl⟩ (by simp)
    | bytes b =>
      simp only [AttackRecord.line, AttackRecord.toDict, Json.Value.render, Json.renderFields, h₁, h₂,
        hys, hp]
      refine iff_of_false ?_ fun h => h b rfl
      rintro ⟨line, hline⟩
      exact absurd hline (by simp [Except.mapError, Except.map, Except.bind, bind, Json.Value.render])

theorem jsonl_ok_iff (st : Stores) (record : AttackRecord) :
    (∃ st', jsonlSink st record = .ok st') ↔ ∀ b, record.password ≠ some (.bytes b) := by
  rw [← line_ok_iff, jsonlSink]
  cases record.line with
  | ok line => exact iff_of_true ⟨_, rfl⟩ ⟨_, rfl⟩
  | error e => exact iff_of_false (by simp [Except.map]) (by simp)

end Jsonl

/-! ## Columns -/

section Columns

theorem FitsVarchar.mono {m n : Nat} {s : String} (h : FitsVarchar m s) (hmn : m ≤ n) : FitsVarchar n s :=
  ⟨h.1.trans hmn, h.2⟩

theorem FitsVarchar.append {m n : Nat} {s t : String} (hs : FitsVarchar m s) (ht : FitsVarchar n t) :
    FitsVarchar (m + n) (s ++ t) := by
  refine ⟨?_, ?_⟩
  · rw [String.length_append]
    exact Nat.add_le_add hs.1 ht.1
  · rw [String.toList_append, List.mem_append]
    exact fun h => h.elim hs.2 ht.2

instance (n : Nat) (s : String) : Decidable (FitsVarchar n s) :=
  inferInstanceAs (Decidable (_ ∧ _))

theorem accepts_varchar {n : Nat} {s : String} :
    Engine.postgres.accepts (.varchar n) (.text (.str s)) = true ↔ FitsVarchar n s := by
  simp [Engine.postgres, FitsVarchar]

theorem accepts_varchar_ofStr {n : Nat} {s : Option String} :
    Engine.postgres.accepts (.varchar n) (.ofStr s) = true ↔ ∀ t, s = some t → FitsVarchar n t := by
  cases s with
  | none => exact iff_of_true rfl (by simp)
  | some s =>
    rw [SqlValue.ofStr, Option.elim_some, accepts_varchar]
    simp

theorem accepts_text {s : String} :
    Engine.postgres.accepts .text (.text (.str s)) = true ↔ Char.ofNat 0 ∉ s.toList := by
  simp [Engine.postgres]

theorem accepts_integer {i : Int} :
    Engine.postgres.accepts .integer (.int i) = true ↔ -2147483648 ≤ i ∧ i ≤ 2147483647 := by
  simp [Engine.postgres]

theorem fitsVarchar_toString {i : Int} (h0 : 0 ≤ i) (h1 : i ≤ 2147483647) :
    FitsVarchar 10 (toString i) := by
  obtain ⟨n, rfl⟩ := Int.eq_ofNat_of_zero_le h0
  have hrepr : toString (n : Int) = n.repr := rfl
  refine ⟨?_, fun h => ?_⟩
  · rw [hrepr, ← String.length_toList, Nat.toList_repr,
      Nat.length_toDigits_le_iff (by decide) (by decide)]
    omega
  · rw [hrepr, Nat.toList_repr] at h
    exact absurd (Nat.isDigit_of_mem_toDigits (by decide) (by decide) h) (by decide)

theorem fitsVarchar_buildTitle {ip : String} {country : Option String} {count : Int}
    (hip : FitsVarchar 45 ip) (hcountry : ∀ s, country = some s → FitsVarchar 64 s) (h0 : 0 ≤ count)
    (h1 : count ≤ 2147483647) : FitsVarchar 255 (buildTitle ip country count) := by
  have hpre : FitsVarchar 18 "SSH activity from " := by decide
  have hdash : FitsVarchar 3 " — " := by decide
  have hpost : FitsVarchar 9 " attempts" := by decide
  have hloc : FitsVarchar 67
      (if truthy country then " (" ++ country.getD "" ++ ")" else "") := by
    split
    · cases hc : country with
      | none => exact (by decide : FitsVarchar 67 (" (" ++ "" ++ ")"))
      | some s =>
        exact (((by decide : FitsVarchar 2 " (").append (hcountry s hc)).append
          (by decide : FitsVarchar 1 ")")).mono (by omega)
    · decide
  exact (((((hpre.append hip).append hloc).append hdash).append
    (fitsVarchar_toString h0 h1)).append hpost).mono (by omega)

end Columns

/-! ## Rows -/

section Rows

variable {p : IngestPipeline} {record : AttackRecord} {clock : Nat → Datetime}

theorem reputation_bounds (lib : IpLib) (networks : List lib.Net) (ip : String) :
    0 ≤ (checkReputation lib networks ip).reputation ∧
      (checkReputation lib networks ip).reputation ≤ 100 := by
  unfold checkReputation
  cases lib.ipAddress ip with
  | none => exact ⟨by simp, by simp⟩
  | some addr =>
    dsimp only
    split
    · exact ⟨by simp, by simp⟩
    · exact ⟨by simp, by simp⟩

theorem fitsVarchar_of_chars {n : Nat} {s : String} {q : Char → Prop} (hlen : s.length ≤ n)
    (hchars : ∀ c ∈ s.toList, q c) (hq : ¬ q (Char.ofNat 0)) : FitsVarchar n s :=
  ⟨hlen, fun h => hq (hchars _ h)⟩

theorem Accepted.sessionId_fits (h : Accepted record) : FitsVarchar 64 record.sessionId :=
  fitsVarchar_of_chars (by rw [h.sessionId.1]; decide) h.sessionId.2 (by decide)

theorem Accepted.sourceIp_fits (h : Accepted record) : FitsVarchar 45 record.sourceIp :=
  fitsVarchar_of_chars (h.sourceIp.1.trans (by decide)) h.sourceIp.2 (by decide)

/-- The attack row is accepted when the texts from outside fit. -/
theorem attack_accepts_iff (h : Accepted record) (prior : Int) :
    Engine.postgres.acceptsAll (p.draft (record.toCapture clock) prior).attack.columns = true ↔
      ((∀ b, record.password ≠ some (.bytes b)) ∧
        (∀ s, record.username = some s → FitsVarchar 255 s) ∧
        (∀ s, record.password = some (.str s) → FitsVarchar 255 s) ∧
        (∀ s, record.sshVersion = some s → FitsVarchar 128 s) ∧
        (∀ s, (p.enrichment.enrich p.lib record.sourceIp).storedCountry = some s → FitsVarchar 64 s) ∧
        (∀ s, (p.enrichment.enrich p.lib record.sourceIp).asn = some s → FitsVarchar 32 s) ∧
        (∀ s, (p.enrichment.enrich p.lib record.sourceIp).isp = some s → FitsVarchar 128 s) ∧
        (record.authAttempts : Int) ≤ 2147483647) := by
  have hip := accepts_varchar.mpr h.sourceIp_fits
  have hid := accepts_varchar.mpr h.sessionId_fits
  have hport : Engine.postgres.accepts .integer (.ofInt (some (record.sourcePort : Int))) = true :=
    accepts_integer.mpr ⟨by omega, by have := h.sourcePort; omega⟩
  have hrep : Engine.postgres.accepts .integer
      (.ofInt (some (checkReputation p.lib p.networks record.sourceIp).reputation)) = true := by
    have := reputation_bounds p.lib p.networks record.sourceIp
    exact accepts_integer.mpr ⟨by omega, by omega⟩
  have hscore : ∀ db cfg ctx, Engine.postgres.accepts .integer (.int (riskScore db cfg ctx).score) =
      true := by
    intro db cfg ctx
    have := riskScore_bounds db cfg ctx
    exact accepts_integer.mpr ⟨by omega, by omega⟩
  have hlevel : ∀ l : RiskLevel, Engine.postgres.accepts (.varchar 16) (.text (.str l.text)) = true := by
    intro l
    cases l <;> exact accepts_varchar.mpr (by decide)
  have hjson : ∀ xs, Engine.postgres.accepts .text (.ofStr (some (Json.dumps xs))) = true :=
    fun xs => accepts_text.mpr (Json.nul_notMem_dumps xs)
  have hpassword : Engine.postgres.accepts (.varchar 255) (record.password.elim .null .text) = true ↔
      (∀ b, record.password ≠ some (.bytes b)) ∧
        ∀ s, record.password = some (.str s) → FitsVarchar 255 s := by
    rcases record.password with _ | t
    · exact iff_of_true rfl ⟨by simp, by simp⟩
    · cases t with
      | str s =>
        rw [Option.elim_some, accepts_varchar]
        simp
      | bytes b => exact iff_of_false (by simp [Engine.postgres]) fun hb => hb.1 b rfl
  have hattempts : Engine.postgres.accepts .integer (.int record.authAttempts) = true ↔
      (record.authAttempts : Int) ≤ 2147483647 := by
    rw [accepts_integer]
    omega
  have htrue : ∀ v, Engine.postgres.accepts .timestamptz (.datetime v) = true := fun _ => rfl
  have hbool : ∀ v, Engine.postgres.accepts .boolean (.bool v) = true := fun _ => rfl
  have hfloat : ∀ v, Engine.postgres.accepts .float (.float v) = true := fun _ => rfl
  simp only [Engine.acceptsAll, AttackCols.columns, List.all_cons, List.all_nil, Bool.and_eq_true,
    IngestPipeline.draft, AttackRecord.toCapture, hip, hid, hport, hrep, hscore, hlevel, hjson, hpassword,
    hattempts, htrue, hbool, hfloat, accepts_varchar_ofStr, true_and, and_true]
  tauto

/-- The command rows are accepted when the commands hold no U+0000. -/
theorem commands_accept_iff (h : Accepted record) (prior : Int) :
    (p.draft (record.toCapture clock) prior).commands.all
        (fun c => Engine.postgres.acceptsAll c.columns) = true ↔
      ∀ c ∈ record.commands, Char.ofNat 0 ∉ c.command.toList := by
  have hid : Engine.postgres.accepts (.varchar 64) (.ofStr (some record.sessionId)) = true :=
    accepts_varchar.mpr h.sessionId_fits
  have htype : ∀ t : CommandType, Engine.postgres.accepts (.varchar 16) (.text (.str t.text)) = true := by
    intro t
    cases t <;> exact accepts_varchar.mpr (by decide)
  have htrue : ∀ v, Engine.postgres.accepts .timestamptz (.datetime v) = true := fun _ => rfl
  rw [List.all_eq_true]
  simp only [IngestPipeline.draft, AttackRecord.toCapture, List.mem_mapIdx, List.length_map,
    List.getElem_map, Engine.acceptsAll, CommandCols.columns]
  constructor
  · intro hall c hc
    obtain ⟨i, hi, rfl⟩ := List.getElem_of_mem hc
    have hrow := hall _ ⟨i, hi, rfl⟩
    simp only [List.all_cons, List.all_nil, Bool.and_eq_true, accepts_text] at hrow
    exact hrow.2.2.1
  · rintro hall c ⟨i, hi, rfl⟩
    simp only [List.all_cons, List.all_nil, Bool.and_eq_true, hid, htype, htrue, accepts_text]
    exact ⟨trivial, trivial, hall _ (List.getElem_mem hi), trivial, trivial⟩

/-- The attributes of an incident the engine has accepted. -/
def Kept (i : IncidentCols) : Prop :=
  Engine.postgres.acceptsAll i.columns = true

theorem accepts_status (st : IncidentStatus) :
    Engine.postgres.accepts (.varchar 16) (.text (.str st.text)) = true := by
  cases st <;> exact accepts_varchar.mpr (by decide)

theorem Kept.sourceIp {i : IncidentCols} (h : Kept i) : FitsVarchar 45 i.sourceIp := by
  simp only [Kept, Engine.acceptsAll, IncidentCols.columns, List.all_cons, Bool.and_eq_true,
    accepts_varchar] at h
  exact h.1

theorem Kept.country {i : IncidentCols} (h : Kept i) : ∀ s, i.country = some s → FitsVarchar 64 s := by
  simp only [Kept, Engine.acceptsAll, IncidentCols.columns, List.all_cons, Bool.and_eq_true,
    accepts_varchar_ofStr] at h
  exact h.2.1

theorem Kept.maxRiskScore {i : IncidentCols} (h : Kept i) :
    -2147483648 ≤ i.maxRiskScore ∧ i.maxRiskScore ≤ 2147483647 := by
  simp only [Kept, Engine.acceptsAll, IncidentCols.columns, List.all_cons, Bool.and_eq_true,
    accepts_integer] at h
  exact h.2.2.2.2.2.2.1

theorem Kept.withStatus {i : IncidentCols} (h : Kept i) (st : IncidentStatus) :
    Kept { i with status := st } := by
  simp only [Kept, Engine.acceptsAll, IncidentCols.columns, List.all_cons, List.all_nil,
    Bool.and_eq_true, accepts_status] at h ⊢
  exact h

/-- The incident after `correlate` is accepted as long as the count of attempts fits. -/
theorem absorb_accepts_iff {base : IncidentCols} {args : CorrelateArgs} (hip : FitsVarchar 45 base.sourceIp)
    (hcountry : ∀ s, base.country = some s → FitsVarchar 64 s)
    (hrisk : -2147483648 ≤ base.maxRiskScore ∧ base.maxRiskScore ≤ 2147483647)
    (h0 : 0 ≤ base.attemptCount) (hargs : ∀ s, args.country = some s → FitsVarchar 64 s)
    (hscore : 0 ≤ args.riskScore ∧ args.riskScore ≤ 100) :
    Engine.postgres.acceptsAll (base.absorb args).columns = true ↔
      base.attemptCount + max 1 args.attempts ≤ 2147483647 := by
  have hshown : ∀ s, (base.absorb args).country = some s → FitsVarchar 64 s := by
    intro s hs
    simp only [IncidentCols.absorb] at hs
    split at hs
    · exact hargs s hs
    · exact hcountry s hs
  have hcount : (base.absorb args).attemptCount = base.attemptCount + max 1 args.attempts := rfl
  have hmax : (base.absorb args).maxRiskScore = max base.maxRiskScore args.riskScore := rfl
  have hint : Engine.postgres.accepts .integer (.int (base.absorb args).attemptCount) = true ↔
      base.attemptCount + max 1 args.attempts ≤ 2147483647 := by
    rw [accepts_integer, hcount]
    omega
  have hrisk' : Engine.postgres.accepts .integer (.int (base.absorb args).maxRiskScore) = true :=
    accepts_integer.mpr (by rw [hmax]; omega)
  have hjson : Engine.postgres.accepts .text (.ofStr (base.absorb args).mitreTechniques) = true :=
    accepts_text.mpr (Json.nul_notMem_dumps _)
  have htrue : ∀ v, Engine.postgres.accepts .timestamptz (.datetime v) = true := fun _ => rfl
  simp only [Engine.acceptsAll, IncidentCols.columns, List.all_cons, List.all_nil, Bool.and_eq_true,
    accepts_varchar_ofStr, hint, hrisk', hjson, accepts_status, htrue, accepts_varchar, true_and, and_true]
  constructor
  · exact fun h => h.2.2.2
  · intro h
    refine ⟨hip, hshown, fun s hs => ?_, h⟩
    obtain rfl := Option.some.inj hs
    exact fitsVarchar_buildTitle hip hshown (by omega) h

end Rows

/-! ## The database -/

section Database

variable {p : IngestPipeline} {db : Db} {book : String → Ledger} {record : AttackRecord}
  {clock : Nat → Datetime}

/-- The rows of the incident table have been accepted. -/
def RowsKept (db : Db) : Prop :=
  ∀ i ∈ db.incidents, Kept i.toIncidentCols

theorem mem_incidents_put (h : Correlated db book) {args : CorrelateArgs} {a : AttackCols}
    (hd : Describes args a) {key attackKey : Nat} {cmds : List CommandCols} {i : Incident}
    (hkey : ∀ i, selectIncident .postgres db.incidents a.sourceIp = some i → key = i.id)
    (hi : i ∈ ((db.putIncident (correlate .postgres db.incidents args).1 key
      (correlate .postgres db.incidents args).2).putAttack attackKey a cmds key).incidents) :
    i ∈ db.incidents ∨ i.toIncidentCols = (correlate .postgres db.incidents args).2 := by
  have hfound := (h.correlate_cols .postgres hd).1
  cases hsel : selectIncident .postgres db.incidents a.sourceIp with
  | none =>
    rw [hfound, hsel] at hi
    simp only [Db.putAttack, Db.putIncident, List.mem_append, List.mem_singleton] at hi
    exact hi.imp_right fun he => by rw [he]
  | some loaded =>
    have hmem := (h.open_of_select hsel).1
    rw [hfound, hsel, hkey loaded hsel] at hi
    have hput := h.incidents_putFound hmem (correlate .postgres db.incidents args).2
    simp only [Db.putAttack, hput] at hi
    obtain ⟨j, hj, rfl⟩ := List.mem_map.mp hi
    split
    · exact Or.inr rfl
    · exact Or.inl hj

theorem rowsKept_process (h : Correlated db book) (hk : RowsKept db) {db' : Db} {capture : Capture}
    {snap : Snapshot} (hp : p.process .postgres db capture = .ok (db', snap)) : RowsKept db' := by
  obtain ⟨d, rfl, rfl, hacc, -, -⟩ := process_ok hp
  intro i hi
  have hd := draft_describes p capture
    (p.priorAttempts .postgres db.attacks capture.sourceIp (p.captureTs capture))
  have hkey : ∀ i, selectIncident .postgres db.incidents capture.sourceIp = some i →
      db.incidentKey (selectIncident .postgres db.incidents capture.sourceIp) = i.id := fun i hi => by
    rw [hi, Db.incidentKey, Option.elim_some]
  rcases mem_incidents_put h hd hkey hi with hi | hi
  · exact hk i hi
  · rw [hi]
    exact hacc

/-- In every run of the database the rows have been accepted. -/
theorem rowsKept_run {es : List Event} {s : Logged}
    (hr : Runs.run (loggedStep p .postgres) {} es = some s) : RowsKept s.db := by
  refine (Runs.run_invariant (I := fun s => Correlated s.db s.log.ledger ∧ RowsKept s.db) ?_
    ⟨correlated_empty, fun i hi => absurd hi (by simp)⟩ hr).2
  rintro s e s' ⟨hcor, hk⟩ hs
  refine ⟨correlated_step hcor hs, ?_⟩
  obtain ⟨db', hstep, rfl⟩ := Option.map_eq_some_iff.mp hs
  have hstatus : ∀ id st, RowsKept (s.db.setStatus id st) := by
    intro id st i hi
    obtain ⟨j, hj, rfl⟩ := List.mem_map.mp hi
    split
    · exact (hk j hj).withStatus st
    · exact hk j hj
  cases e with
  | ingest capture =>
    obtain ⟨snap, hok⟩ := process_of_toOption hstep
    exact rowsKept_process hcor hk hok
  | triage id =>
    simp only [step, Option.ite_none_right_eq_some, Option.some.injEq] at hstep
    exact hstep.2 ▸ hstatus id .triaged
  | close id =>
    simp only [step, Option.ite_none_right_eq_some, Option.some.injEq] at hstep
    exact hstep.2 ▸ hstatus id .closed

theorem incident_accepts_iff (h : Correlated db book) (hk : RowsKept db) (hacc : Accepted record)
    (prior : Int) (hcountry : ∀ s, (p.enrichment.enrich p.lib record.sourceIp).storedCountry = some s →
      FitsVarchar 64 s) :
    Engine.postgres.acceptsAll
        (correlate .postgres db.incidents (p.draft (record.toCapture clock) prior).correlateArgs).2.columns = true ↔
      (selectIncident .postgres db.incidents record.sourceIp).elim 0 (·.attemptCount) +
        max 1 (record.authAttempts : Int) ≤ 2147483647 := by
  set args := (p.draft (record.toCapture clock) prior).correlateArgs with hargs
  have hcols : (correlate .postgres db.incidents args).2 =
      (((selectIncident .postgres db.incidents record.sourceIp).map Incident.toIncidentCols).getD
        (newIncident args)).absorb args := rfl
  have hscore : 0 ≤ args.riskScore ∧ args.riskScore ≤ 100 := riskScore_bounds _ _ _
  have hattempts : max 1 args.attempts = max 1 (record.authAttempts : Int) := by
    show max 1 (max 1 (record.authAttempts : Int)) = _
    omega
  rw [hcols, ← hattempts]
  cases hsel : selectIncident .postgres db.incidents record.sourceIp with
  | none =>
    have hzero : (-2147483648 : Int) ≤ 0 ∧ (0 : Int) ≤ 2147483647 := by decide
    exact absorb_accepts_iff hacc.sourceIp_fits hcountry hzero le_rfl hcountry hscore
  | some loaded =>
    have hmem := (h.open_of_select hsel).1
    have hkept := hk loaded hmem
    exact absorb_accepts_iff hkept.sourceIp hkept.country hkept.maxRiskScore (h.attempts_nonneg hmem)
      hcountry hscore

/-- What a call that completes leaves in the tables is the captured session. -/
theorem process_stores {db' : Db} {snap : Snapshot}
    (hp : p.process .postgres db (record.toCapture clock) = .ok (db', snap)) :
    ∃ a cs, db'.attacks = db.attacks ++ [a] ∧ db'.commands = db.commands ++ cs ∧
      (a.username = record.username ∧ a.password = record.password ∧ a.sshVersion = record.sshVersion) ∧
      cs.map (·.command) = record.commands.map (·.command) ∧ ∀ c ∈ cs, c.attackId = a.id := by
  obtain ⟨d, hd, rfl, -⟩ := process_ok hp
  have hcreds : d.attack.username = record.username ∧ d.attack.password = record.password ∧
      d.attack.sshVersion = record.sshVersion := by
    rw [hd]
    exact ⟨rfl, rfl, rfl⟩
  have hcmds : d.commands.map (·.command) = record.commands.map (·.command) := by
    rw [hd, draft_commands, AttackRecord.toCapture, List.map_map]
    rfl
  have hrows : (d.commands.mapIdx fun i c =>
      ({ c with id := db.nextCommand + i, attackId := db.nextAttack } : Command)).map (·.command) =
        record.commands.map (·.command) := by
    rw [map_mapIdx_of_forall (k := fun c : CommandCols => c.command) (by intro i x; rfl), hcmds]
  have hnext : ∀ found key cols, (db.putIncident found key cols).commands = db.commands ∧
      (db.putIncident found key cols).nextCommand = db.nextCommand ∧
      (db.putIncident found key cols).attacks = db.attacks := by
    intro found key cols
    cases found <;> exact ⟨rfl, rfl, rfl⟩
  refine ⟨putRow db.nextAttack d.attack
    (db.incidentKey (correlate .postgres db.incidents d.correlateArgs).1), _, ?_, ?_, hcreds, hrows, ?_⟩
  · rw [Db.putAttack, (hnext _ _ _).2.2]
    rfl
  · rw [Db.putAttack, (hnext _ _ _).1, (hnext _ _ _).2.1]
  · intro c hc
    obtain ⟨i, hi, rfl⟩ := List.mem_mapIdx.mp hc
    rfl

theorem pipelineSink_ok_iff {st st' : Stores} : pipelineSink p .postgres clock st record = .ok st' ↔
    ∃ db snap, p.process .postgres st.db (record.toCapture clock) = .ok (db, snap) ∧
      st' = { st with db := db } := by
  rw [pipelineSink]
  cases p.process .postgres st.db (record.toCapture clock) with
  | error e => simp
  | ok r =>
    obtain ⟨db, snap⟩ := r
    simp only [Except.ok.injEq, Prod.mk.injEq]
    constructor
    · rintro rfl
      exact ⟨db, snap, ⟨rfl, rfl⟩, rfl⟩
    · rintro ⟨db', snap', ⟨rfl, rfl⟩, rfl⟩
      rfl

/-- A session the honeypot captured is stored by both sinks if and only if the schema has room for it,
whatever was ingested before. -/
theorem stored_iff_storable {es : List Event} {s : Logged}
    (hr : Runs.run (loggedStep p .postgres) {} es = some s) (hacc : Accepted record) (st : Stores)
    (hst : st.db = s.db) : Stored p clock st record ↔ Storable p clock st.db record := by
  have hcor : Correlated st.db s.log.ledger := hst ▸ correlated_run hr
  have hkept : RowsKept st.db := hst ▸ rowsKept_run hr
  have hok : (∃ db snap, p.process .postgres st.db (record.toCapture clock) = .ok (db, snap)) ↔ _ :=
    process_ok_iff rfl
  rw [attack_accepts_iff hacc, commands_accept_iff hacc] at hok
  constructor
  · rintro ⟨-, st', a, cs, hsink, -⟩
    obtain ⟨db, snap, hp, -⟩ := pipelineSink_ok_iff.mp hsink
    obtain ⟨hwindow, hinc, ⟨hpass, huser, hpw, hver, hcountry, hasn, hisp, -⟩, hcmds⟩ := hok.mp ⟨db, snap, hp⟩
    exact ⟨hpass, huser, hpw, hver, hcmds, hcountry, hasn, hisp,
      (incident_accepts_iff hcor hkept hacc _ hcountry).mp hinc, hwindow⟩
  · intro h
    refine ⟨(jsonl_ok_iff st record).mpr h.password_str, ?_⟩
    have hnonneg : 0 ≤ (selectIncident .postgres st.db.incidents record.sourceIp).elim 0 (·.attemptCount) := by
      cases hsel : selectIncident .postgres st.db.incidents record.sourceIp with
      | none => exact le_rfl
      | some loaded => exact hcor.attempts_nonneg (hcor.open_of_select hsel).1
    have hattempts : (record.authAttempts : Int) ≤ 2147483647 := by
      have := h.attempts
      omega
    obtain ⟨db, snap, hp⟩ := hok.mpr ⟨h.window, (incident_accepts_iff hcor hkept hacc _ h.country).mpr h.attempts,
      ⟨h.password_str, h.username, h.password, h.sshVersion, h.country, h.asn, h.isp, hattempts⟩,
      h.commands⟩
    obtain ⟨a, cs, hrows⟩ := process_stores hp
    exact ⟨{ st with db := db }, a, cs, pipelineSink_ok_iff.mpr ⟨db, snap, hp, rfl⟩, hrows⟩

/-- A session of one password guess. -/
def passwordGuess (password : Text) : AttackRecord where
  sessionId := "0123456789abcdef0123456789abcdef"
  timestamp := "2026-01-01T00:00:10+00:00"
  sourceIp := "8.8.8.8"
  sourcePort := 51514
  username := some "root"
  password := some password
  sshVersion := some "SSH-2.0-Go"
  duration := 1250
  authAttempts := 1
  commands := [⟨"2026-01-01T00:00:20+00:00", "uname -a", .exec⟩]

theorem passwordGuess_accepted (password : Text) : Accepted (passwordGuess password) := by
  have hid : "0123456789abcdef0123456789abcdef".length = 32 ∧
      ∀ c ∈ "0123456789abcdef0123456789abcdef".toList, c.isAlphanum :=
    ⟨rfl, List.all_eq_true.mp (by decide)⟩
  have hip : "8.8.8.8".length ≤ 15 ∧ ∀ c ∈ "8.8.8.8".toList, c.isDigit ∨ c = '.' :=
    ⟨by decide, by simp⟩
  have hport : 51514 ≤ 65535 := by decide
  exact ⟨hid, hip, hport⟩

/-- An ordinary guess is stored. -/
theorem stored_iff_storable_guess :
    Stored .twoInstants (fun _ => ⟨0, some 0⟩) {} (passwordGuess (.str "123456")) := by
  have hempty : Runs.run (loggedStep .twoInstants .postgres) {} [] = some {} := rfl
  refine (stored_iff_storable hempty (passwordGuess_accepted _) {} rfl).mpr ?_
  refine ⟨by simp [passwordGuess], ?_, ?_, ?_, ?_, ?_, ?_, ?_, by decide, by decide⟩
  · rintro s hs
    obtain rfl := Option.some.inj hs
    decide
  · rintro s hs
    obtain rfl := Text.str.inj (Option.some.inj hs)
    decide
  · rintro s hs
    obtain rfl := Option.some.inj hs
    decide
  · decide
  · exact fun s hs => absurd (show none = some s from hs) (by simp)
  · exact fun s hs => absurd (show none = some s from hs) (by simp)
  · exact fun s hs => absurd (show none = some s from hs) (by simp)

/-- A password that is not valid UTF-8 reaches the sinks as a byte string, and neither takes it. -/
theorem not_stored_bytes :
    ¬ ∀ (p : IngestPipeline) (clock : Nat → Datetime) (es : List Event) (s : Logged),
        Runs.run (loggedStep p .postgres) {} es = some s → ∀ record, Accepted record →
        Stored p clock { db := s.db } record := by
  intro h
  have hstored := h .twoInstants (fun _ => ⟨0, some 0⟩) [] {} rfl (passwordGuess (.bytes [0xff, 0xfe]))
    (passwordGuess_accepted _)
  exact (jsonl_ok_iff _ _).mp hstored.1 [0xff, 0xfe] rfl

end Database

end SentinelSsh.Honeypot

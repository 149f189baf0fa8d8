import SentinelSsh.Backend.Proofs.ListingProofs
import SentinelSsh.Core.Proofs.DraftProofs
import SentinelSsh.Honeypot.RealtimePublisher
import SentinelSsh.Lib.Proofs.Iso8601Proofs

/-!
# The live feed and the API

A session is shown twice: in the snapshot its `process` call hands on, and in what the API makes of its
row later. Both are functions of one draft, the second one after a detour through JSON columns and the
database (`serialize_row`). They agree but for the offset of the timestamp, which SQLite drops
(`live_agrees_iff`).
-/

namespace SentinelSsh.Backend

open SentinelSsh.Core Python

/-! ## What is posted -/

theorem renderFields_ok {ascii : Bool} {kvs : List (String × Json.Value)} {ys : List (List Char)}
    (h : Json.renderFields ascii kvs = .ok ys) : ∀ kv ∈ kvs, ∃ y, kv.2.render ascii = .ok y := by
  induction kvs generalizing ys with
  | nil => simp
  | cons kv kvs ih =>
    obtain ⟨k, x⟩ := kv
    rw [Json.renderFields, Escapes.bind_eq_ok] at h
    obtain ⟨y, hx, h⟩ := h
    obtain ⟨zs, hrest, -⟩ := Escapes.bind_eq_ok.mp h
    intro kv hkv
    rcases List.mem_cons.mp hkv with rfl | hkv
    · exact ⟨y, hx⟩
    · exact ih hrest kv hkv

/-- The password of a snapshot that was posted is no byte string. -/
theorem password_of_publish {snap : Core.Snapshot} {body : List Char}
    (h : Honeypot.publish snap = .ok body) : ∃ password : Option String, snap.password = password.map .str := by
  rw [Honeypot.publish, Honeypot.snapshotDict, Json.Value.render] at h
  cases hfields : Json.renderFields true _ with
  | error e =>
    rw [hfields] at h
    exact absurd h (by simp [Except.map])
  | ok ys =>
    obtain ⟨y, hy⟩ := renderFields_ok hfields ("password", snap.password.elim .none .text) (by simp)
    rcases hp : snap.password with _ | t
    · exact ⟨none, rfl⟩
    · cases t with
      | str s => exact ⟨some s, rfl⟩
      | bytes b =>
        rw [hp] at hy
        exact absurd hy (by simp [Json.Value.render])

/-! ## A row and its snapshot -/

section Row

variable {p : IngestPipeline} {dialect : Dialect} {db : Db} {a : Attack} {d : IngestPipeline.Draft}
  {snap : Core.Snapshot}

/-- What a row is serialised to. -/
theorem serialize_row (hcols : a.toAttackCols = d.attack) (hdraft : ∃ capture prior, d = p.draft capture prior)
    (hcount : (db.commandsOf a.id).length = d.commands.length)
    (hsnap : snap = snapshot a d.commands.length d.behavior.behaviors d.behavior.techniques d.risk)
    (hpassword : ∃ password : Option String, snap.password = password.map .str) (commands : Bool) :
    ∃ out, serialize dialect db a commands = .ok out ∧ SameFields snap out ∧
      out.timestamp = (dialect.load a.timestamp).jsonFormat := by
  obtain ⟨password, hpassword⟩ := hpassword
  obtain ⟨capture, prior, rfl⟩ := hdraft
  have hbehaviors : a.behaviors = some (Json.dumps (p.draft capture prior).behavior.behaviors) :=
    congrArg AttackCols.behaviors hcols
  have htechniques : a.mitreTechniques = some (Json.dumps (p.draft capture prior).behavior.techniques) :=
    congrArg AttackCols.mitreTechniques hcols
  have hvalid : validateStr a.password = .ok password := by
    rw [show a.password = snap.password by rw [hsnap]; rfl, hpassword]
    cases password <;> rfl
  subst hsnap
  unfold serialize
  rw [hvalid]
  refine ⟨_, rfl, ?_, rfl⟩
  exact
    { id := rfl
      sourceIp := rfl
      sourcePort := rfl
      country := rfl
      asn := rfl
      isp := rfl
      username := rfl
      password := hpassword.symm
      sshVersion := rfl
      duration := rfl
      authAttempts := rfl
      riskScore := rfl
      riskLevel := rfl
      isMalicious := rfl
      behaviors := by
        show parseJsonList a.behaviors = _
        rw [hbehaviors, parseJsonList_dumps]
        rfl
      mitre := by
        show resolve (parseJsonList a.mitreTechniques) = _
        rw [htechniques, parseJsonList_dumps]
        rfl
      incidentId := rfl
      commandCount := hcount }

/-- What holds of the forms a row is serialised to is what the API says about it. -/
theorem restSays_of_row (hnodup : (db.attacks.map (·.id)).Nodup) (ha : a ∈ db.attacks) {P : AttackOut → Prop}
    (hP : ∀ commands, ∃ out, serialize dialect db a commands = .ok out ∧ P out) :
    RestSays dialect db a.id P where
  get := by
    rw [AttackService.get, find?_key hnodup ha]
    exact hP true
  list := by
    intro sql arrange q items total hperm hlist out hout hid
    simp only [AttackService.list, AttackRepository.paginate] at hlist
    obtain ⟨ys, hitems, hpair⟩ := Escapes.bind_eq_ok.mp hlist
    obtain ⟨rfl, rfl⟩ := Prod.mk.inj (Except.ok.inj hpair)
    obtain ⟨b, hb, hser⟩ := Escapes.mem_of_mapM hitems out hout
    have hbdb : b ∈ db.attacks := List.mem_of_mem_filter (hperm.mem_iff.mp (mem_window hb))
    have hbid : b.id = out.id := (serialize_spec dialect db hser).1.symm
    obtain ⟨out', hout', hPout⟩ := hP false
    rw [List.inj_on_of_nodup_map hnodup hbdb ha (hbid.trans hid)] at hser
    obtain rfl := Except.ok.inj (hser.symm.trans hout')
    exact hPout

end Row

/-! ## Main results -/

theorem instant_load {dialect : Dialect} (h : dialect.keepsOffset = true) (d : Datetime) :
    (dialect.load d).utcoffset.isSome = true ∧ (dialect.load d).instant = d.instant := by
  cases dialect with
  | sqlite => exact absurd h (by simp [Dialect.keepsOffset])
  | postgresql zone =>
    refine ⟨rfl, ?_⟩
    simp [Dialect.load, Datetime.instant]

/-- A session is ingested after some run, its snapshot is posted, and the API is asked after some further
run. All shared fields but the timestamp agree on both database systems; the timestamps agree exactly on
the one that keeps the offset. -/
theorem live_agrees_iff {p : IngestPipeline} {engine : Engine} {es es' : List Event} {db db' db'' : Db}
    {capture : Capture} {snap : Core.Snapshot} {ts : Datetime} {body : List Char} (dialect : Dialect)
    (hr : Runs.run (step p engine) {} es = some db) (hp : p.process engine db capture = .ok (db', snap))
    (hr' : Runs.run (step p engine) db' es' = some db'') (hpublish : Honeypot.publish snap = .ok body)
    (hts : p.fromisoformat capture.timestamp = some ts) (hutc : ts.utcoffset = some 0)
    (hvalid : ts.Valid) (hload : (dialect.load ts).Valid) :
    RestSays dialect db'' snap.id (SameFields snap) ∧
      (RestSays dialect db'' snap.id (Agrees snap) ↔ dialect.keepsOffset = true) := by
  have hdrafted := (drafted_correlated_run hr).1
  obtain ⟨d, a, ⟨prior, hd⟩, ha, hcols, hcount, hsnap⟩ := hdrafted.process_row hp
  obtain ⟨hdrafted'', ha'', hcmds⟩ := (hdrafted.process hp).keeps_run hr' ha
  have hid : snap.id = a.id := by rw [hsnap]; rfl
  have htimestamp : a.timestamp = ts := by
    rw [congrArg AttackCols.timestamp hcols, hd]
    show p.captureTs capture = ts
    rw [IngestPipeline.captureTs, IngestPipeline.parseTs, hts]
    rfl
  have hiso : snap.timestamp = ts.isoformat := by
    rw [hsnap, ← htimestamp]
    rfl
  have hrow : ∀ commands, ∃ out, serialize dialect db'' a commands = .ok out ∧ SameFields snap out ∧
      out.timestamp = (dialect.load ts).jsonFormat := by
    intro commands
    rw [← htimestamp]
    exact serialize_row hcols ⟨capture, prior, hd⟩ (by rw [hcmds, hcount]) hsnap
      (password_of_publish hpublish) commands
  have hsame : ∀ out : AttackOut, out.timestamp = (dialect.load ts).jsonFormat →
      (SameInstant snap.timestamp out.timestamp ↔ dialect.keepsOffset = true) := by
    intro out hout
    rw [hout, hiso, sameInstant_iff (readIso_isoformat hvalid) (readIso_jsonFormat hload)]
    constructor
    · rintro ⟨-, hsome, -⟩
      cases dialect with
      | sqlite => simp [Dialect.load] at hsome
      | postgresql zone => rfl
    · intro hkeeps
      obtain ⟨hsome, hinstant⟩ := instant_load hkeeps ts
      exact ⟨by rw [hutc]; rfl, hsome, hinstant.symm⟩
  rw [hid]
  refine ⟨restSays_of_row hdrafted''.keys_nodup ha'' fun commands => ?_, fun hsays => ?_, fun hkeeps => ?_⟩
  · obtain ⟨out, hout, hfields, -⟩ := hrow commands
    exact ⟨out, hout, hfields⟩
  · obtain ⟨out, hout, hagrees⟩ := hsays.get
    rw [AttackService.get, find?_key hdrafted''.keys_nodup ha''] at hout
    obtain ⟨out', hout', -, htime⟩ := hrow true
    obtain rfl := Except.ok.inj (hout.symm.trans hout')
    exact (hsame out htime).mp hagrees.timestamp
  · refine restSays_of_row hdrafted''.keys_nodup ha'' fun commands => ?_
    obtain ⟨out, hout, hfields, htime⟩ := hrow commands
    exact ⟨out, hout, { hfields with timestamp := (hsame out htime).mpr hkeeps }⟩

/-- A session that is listed after another one was ingested, on PostgreSQL with a session at +05:30. -/
theorem live_agrees_iff_later : ∃ (snap : Core.Snapshot) (db : Db),
    RestSays (.postgresql fun _ => 330) db snap.id (Agrees snap) := by
  have hrun : (((IngestPipeline.process .twoInstants .postgres {}
      (.guess "2026-01-01T00:00:10+00:00" "8.8.8.8")).toOption).any fun r =>
        (Honeypot.publish r.2).toOption.isSome && (Runs.run (step .twoInstants .postgres) r.1
          [.ingest (.guess "2026-01-01T00:00:20+00:00" "8.8.8.8")]).isSome) = true := by
    with_unfolding_all decide
  obtain ⟨⟨db', snap⟩, hp, hrest⟩ := (Option.any_eq_true _ _).mp hrun
  obtain ⟨hbody, hlater⟩ := (Bool.and_eq_true _ _).mp hrest
  obtain ⟨body, hbody⟩ := Option.isSome_iff_exists.mp hbody
  obtain ⟨db'', hlater⟩ := Option.isSome_iff_exists.mp hlater
  have hts : IngestPipeline.twoInstants.fromisoformat "2026-01-01T00:00:10+00:00" =
      some ⟨1767225610000000, some 0⟩ := rfl
  refine ⟨snap, db'', (live_agrees_iff _ (Runs.run_nil _) (Escapes.toOption_eq_some hp) hlater
    (Escapes.toOption_eq_some hbody) hts rfl ?_ ?_).2.mpr rfl⟩
  · exact { year := by decide, offset := by simp }
  · exact { year := by decide, offset := by with_unfolding_all decide }

/-- On SQLite the API gives a session without an offset. -/
theorem not_agrees_sqlite :
    ¬ ∀ (dialect : Dialect) (capture : Capture) (db : Db) (snap : Core.Snapshot) (ts : Datetime),
      IngestPipeline.process .twoInstants .postgres {} capture = .ok (db, snap) →
      IngestPipeline.twoInstants.fromisoformat capture.timestamp = some ts → ts.utcoffset = some 0 →
      RestSays dialect db snap.id (Agrees snap) := by
  intro h
  have hrun : (((IngestPipeline.process .twoInstants .postgres {}
      (.guess "2026-01-01T00:00:10+00:00" "8.8.8.8")).toOption).any fun r =>
        ((AttackService.get .sqlite r.1 r.2.id).toOption).any fun out =>
          readIso out.timestamp = some ⟨1767225610000000, none⟩) = true := by
    with_unfolding_all decide
  obtain ⟨⟨db, snap⟩, hp, hrest⟩ := (Option.any_eq_true _ _).mp hrun
  obtain ⟨out, hout, hread⟩ := (Option.any_eq_true _ _).mp hrest
  obtain ⟨out', hout', hagrees⟩ := (h .sqlite _ db snap _ (Escapes.toOption_eq_some hp) rfl rfl).get
  obtain rfl := Except.ok.inj ((Escapes.toOption_eq_some hout).symm.trans hout')
  obtain ⟨e, e', -, he', -, hsome, -⟩ := hagrees.timestamp
  rw [of_decide_eq_true hread] at he'
  obtain rfl := Option.some.inj he'
  simp at hsome

end SentinelSsh.Backend

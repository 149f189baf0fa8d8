import SentinelSsh.Core.Assessment
import SentinelSsh.Core.Proofs.CorrelationProofs

/-!
# The stored rows are drafts

`process` writes an attack with its commands and never touches them again, and nothing else writes to
these two tables. So every attack row of a reachable database is the draft of some session, its command
rows are those of the same draft, and the keys tie them together.
-/

namespace SentinelSsh.Core

open Python

variable {p : IngestPipeline} {engine : Engine} {db db' : Db}

theorem map_mapIdx_of_forall {α β γ : Type*} {f : Nat → α → β} {g : β → γ} {k : α → γ}
    (h : ∀ i x, g (f i x) = k x) (l : List α) : (l.mapIdx f).map g = l.map k := by
  refine List.ext_getElem? fun i => ?_
  rw [List.getElem?_map, List.getElem?_mapIdx, List.getElem?_map, Option.map_map]
  congr 1
  funext x
  exact h i x

theorem draft_commands (capture : Capture) (prior : Int) :
    (p.draft capture prior).commands.map (·.command) = capture.commands.map (·.command) := by
  rw [IngestPipeline.draft]
  exact map_mapIdx_of_forall (by intro i x; rfl) capture.commands

theorem commandsOf_putAttack_of_ne {k attackKey : Nat} (hk : k ≠ attackKey) (a : AttackCols)
    (cmds : List CommandCols) (key : Nat) :
    (db.putAttack attackKey a cmds key).commandsOf k = db.commandsOf k := by
  have hnew : (cmds.mapIdx fun i c =>
      ({ c with id := db.nextCommand + i, attackId := attackKey } : Command)).filter (·.attackId = k) = [] := by
    rw [List.filter_eq_nil_iff]
    intro c hc
    obtain ⟨i, hi, rfl⟩ := List.mem_mapIdx.mp hc
    simpa using Ne.symm hk
  rw [Db.commandsOf, Db.putAttack, List.filter_append, hnew, List.append_nil]
  rfl

theorem commandsOf_putAttack_self {attackKey : Nat} (hfresh : ∀ c ∈ db.commands, c.attackId ≠ attackKey)
    (a : AttackCols) (cmds : List CommandCols) (key : Nat) :
    ((db.putAttack attackKey a cmds key).commandsOf attackKey).map Command.toCommandCols = cmds := by
  have hold : db.commands.filter (·.attackId = attackKey) = [] := by
    rw [List.filter_eq_nil_iff]
    intro c hc
    simpa using hfresh c hc
  have hnew : (cmds.mapIdx fun i c =>
      ({ c with id := db.nextCommand + i, attackId := attackKey } : Command)).filter
        (·.attackId = attackKey) = cmds.mapIdx fun i c =>
      ({ c with id := db.nextCommand + i, attackId := attackKey } : Command) := by
    rw [List.filter_eq_self]
    intro c hc
    obtain ⟨i, hi, rfl⟩ := List.mem_mapIdx.mp hc
    simp
  rw [Db.commandsOf, Db.putAttack, List.filter_append, hold, hnew, List.nil_append,
    map_mapIdx_of_forall (k := id) (by intro i x; rfl), List.map_id]

theorem Drafted.congr (h : Drafted p db) (hattacks : db'.attacks = db.attacks)
    (hcommands : db'.commands = db.commands) (hnext : db'.nextAttack = db.nextAttack) : Drafted p db' where
  keys_lt := by rw [hattacks, hnext]; exact h.keys_lt
  keys_nodup := by rw [hattacks]; exact h.keys_nodup
  commands_lt := by rw [hcommands, hnext]; exact h.commands_lt
  drafted := by
    rw [hattacks]
    intro a ha
    rw [Db.commandsOf, hcommands]
    exact h.drafted a ha

theorem drafted_empty : Drafted p {} where
  keys_lt := by simp
  keys_nodup := by simp
  commands_lt := by simp
  drafted := by simp

/-- The rows of a draft are written under the next key. -/
theorem Drafted.putAttack (h : Drafted p db) (capture : Capture) (prior : Int) (key : Nat) :
    Drafted p (db.putAttack db.nextAttack (p.draft capture prior).attack (p.draft capture prior).commands
      key) := by
  have hnext : max db.nextAttack (db.nextAttack + 1) = db.nextAttack + 1 := by omega
  refine
    { keys_lt := fun a ha => ?_
      keys_nodup := ?_
      commands_lt := fun c hc => ?_
      drafted := fun a ha => ?_ }
  · rw [Db.putAttack, List.mem_append, List.mem_singleton] at ha
    simp only [Db.putAttack, hnext]
    rcases ha with ha | rfl
    · exact Nat.lt_succ_of_lt (h.keys_lt a ha)
    · exact Nat.lt_succ_self _
  · rw [Db.putAttack, List.map_append, List.map_singleton, List.nodup_append]
    refine ⟨h.keys_nodup, List.nodup_singleton _, fun k hk k' hk' => ?_⟩
    obtain ⟨a, ha, rfl⟩ := List.mem_map.mp hk
    rw [List.mem_singleton.mp hk']
    exact (h.keys_lt a ha).ne
  · rw [Db.putAttack, List.mem_append] at hc
    simp only [Db.putAttack, hnext]
    rcases hc with hc | hc
    · exact Nat.lt_succ_of_lt (h.commands_lt c hc)
    · obtain ⟨i, hi, rfl⟩ := List.mem_mapIdx.mp hc
      exact Nat.lt_succ_self _
  · rw [Db.putAttack, List.mem_append, List.mem_singleton] at ha
    rcases ha with ha | rfl
    · rw [commandsOf_putAttack_of_ne (h.keys_lt a ha).ne]
      exact h.drafted a ha
    · refine ⟨capture, prior, rfl, ?_⟩
      exact commandsOf_putAttack_self (fun c hc => (h.commands_lt c hc).ne) _ _ _

@[simp] theorem nextAttack_putIncident (found : Option Incident) (key : Nat) (cols : IncidentCols) :
    (db.putIncident found key cols).nextAttack = db.nextAttack := by
  cases found <;> rfl

/-- A completed call writes the draft of its session. -/
theorem Drafted.process (h : Drafted p db) {capture : Capture} {snap : Snapshot}
    (hp : p.process engine db capture = .ok (db', snap)) : Drafted p db' := by
  obtain ⟨d, key, rfl, -, rfl, -⟩ := process_ok_snapshot hp
  have hput : ∀ found cols prior, Drafted p ((db.putIncident found key cols).putAttack db.nextAttack
      (p.draft capture prior).attack (p.draft capture prior).commands key) := by
    intro found cols prior
    have hincident : Drafted p (db.putIncident found key cols) :=
      h.congr (attacks_putIncident _ _ _) (commands_putIncident _ _ _) (nextAttack_putIncident _ _ _)
    simpa using hincident.putAttack capture prior key
  exact hput _ _ _

theorem Drafted.step (h : Drafted p db) {e : Event} (hs : step p engine db e = some db') :
    Drafted p db' := by
  cases e with
  | ingest capture =>
    obtain ⟨snap, hok⟩ := process_of_toOption hs
    exact h.process hok
  | triage id =>
    simp only [Core.step, Option.ite_none_right_eq_some, Option.some.injEq] at hs
    obtain ⟨-, rfl⟩ := hs
    exact h.congr rfl rfl rfl
  | close id =>
    simp only [Core.step, Option.ite_none_right_eq_some, Option.some.injEq] at hs
    obtain ⟨-, rfl⟩ := hs
    exact h.congr rfl rfl rfl

/-! ## Rows are never touched again -/

theorem mem_attacks_putAttack {a : Attack} (ha : a ∈ db.attacks) (attackKey : Nat) (cols : AttackCols)
    (cmds : List CommandCols) (key : Nat) : a ∈ (db.putAttack attackKey cols cmds key).attacks :=
  List.mem_append_left _ ha

/-- A row stays as it is, and so do its commands. -/
theorem Drafted.keeps_step (h : Drafted p db) {e : Event} (hs : Core.step p engine db e = some db')
    {a : Attack} (ha : a ∈ db.attacks) : a ∈ db'.attacks ∧ db'.commandsOf a.id = db.commandsOf a.id := by
  cases e with
  | ingest capture =>
    obtain ⟨snap, hok⟩ := process_of_toOption hs
    obtain ⟨d, key, -, -, rfl, -⟩ := process_ok_snapshot hok
    refine ⟨mem_attacks_putAttack (by simpa using ha) _ _ _ _, ?_⟩
    rw [commandsOf_putAttack_of_ne (h.keys_lt a ha).ne, Db.commandsOf, commands_putIncident]
    rfl
  | triage id =>
    simp only [Core.step, Option.ite_none_right_eq_some, Option.some.injEq] at hs
    obtain ⟨-, rfl⟩ := hs
    exact ⟨ha, rfl⟩
  | close id =>
    simp only [Core.step, Option.ite_none_right_eq_some, Option.some.injEq] at hs
    obtain ⟨-, rfl⟩ := hs
    exact ⟨ha, rfl⟩

theorem Drafted.keeps_run (h : Drafted p db) {es : List Event}
    (hr : Runs.run (Core.step p engine) db es = some db') {a : Attack} (ha : a ∈ db.attacks) :
    Drafted p db' ∧ a ∈ db'.attacks ∧ db'.commandsOf a.id = db.commandsOf a.id := by
  refine Runs.run_invariant (I := fun x => Drafted p x ∧ a ∈ x.attacks ∧
    x.commandsOf a.id = db.commandsOf a.id) ?_ ⟨h, ha, rfl⟩ hr
  rintro x e x' ⟨hx, hmem, hcmds⟩ hs
  obtain ⟨hmem', hcmds'⟩ := hx.keeps_step hs hmem
  exact ⟨hx.step hs, hmem', hcmds'.trans hcmds⟩

/-- The row of a completed call, its commands, and the snapshot of both. -/
theorem Drafted.process_row (h : Drafted p db) {capture : Capture} {snap : Snapshot}
    (hp : p.process engine db capture = .ok (db', snap)) :
    ∃ d a, (∃ prior, d = p.draft capture prior) ∧ a ∈ db'.attacks ∧ a.toAttackCols = d.attack ∧
      (db'.commandsOf a.id).length = d.commands.length ∧
      snap = snapshot a d.commands.length d.behavior.behaviors d.behavior.techniques d.risk := by
  obtain ⟨d, key, hd, -, rfl, hsnap, -⟩ := process_ok_snapshot hp
  refine ⟨d, { d.attack with id := db.nextAttack, incidentId := some key }, ⟨_, hd⟩, ?_, rfl, ?_, hsnap⟩
  · exact List.mem_append_right _ (List.mem_singleton_self _)
  · have hfresh : ∀ c ∈ (db.putIncident (correlate engine db.incidents d.correlateArgs).1 key
        (correlate engine db.incidents d.correlateArgs).2).commands, c.attackId ≠ db.nextAttack := by
      intro c hc
      rw [commands_putIncident] at hc
      exact (h.commands_lt c hc).ne
    have hcmds := congrArg List.length (commandsOf_putAttack_self hfresh d.attack d.commands key)
    rwa [List.length_map] at hcmds

/-- In every reachable database the rows are drafts and the incidents are correlated. -/
theorem drafted_correlated_run {es : List Event} (hr : Runs.run (Core.step p engine) {} es = some db) :
    Drafted p db ∧ ∃ book, Correlated db book :=
  Runs.run_invariant (I := fun db => Drafted p db ∧ ∃ book, Correlated db book)
    (fun _ _ _ ⟨h, _, hcor⟩ hs => ⟨h.step hs, (hcor.after_step hs).elim fun _ ⟨_, _, hcor'⟩ => ⟨_, hcor'⟩⟩)
    ⟨drafted_empty, _, correlated_empty⟩ hr

end SentinelSsh.Core

import SentinelSsh.Honeypot.Proofs.SessionHandlerProofs

/-!
# The limit on the commands of a session

`max_commands` is looked at before a `recv` only. What counts is therefore not the length of the
record but its length plus the commands the current chunk still brings (`total`): a session stays
within the limit exactly when every exec request and every chunk finds room for what it brings.
-/

namespace SentinelSsh.Honeypot

open Python

variable {config : HoneypotConfig} {sinks : List SinkName} {s s' : Session} {a : Action}

/-- The commands of the record and those the current chunk still brings. -/
def Session.total (config : HoneypotConfig) (s : Session) : Nat :=
  s.server.record.commands.length + s.pc.pendingCommands config

theorem pendingCommands_of_not_inChunk {pc : Pc} (h : pc.inChunk = false) :
    pc.pendingCommands config = 0 := by
  cases pc with
  | shellChars buffer pending => exact absurd h (by simp [Pc.inChunk])
  | _ => rfl

/-- A turn of the character loop moves a command from the chunk to the record. -/
theorem total_shellTick {now : String} {buffer pending : List Char} {ch : Char}
    (h : s.pc = .shellChars buffer (ch :: pending)) :
    (shellTick config s now buffer ch pending).total config = s.total config := by
  rw [Session.total, Session.total, h, Pc.pendingCommands, lineCommands, shellTick]
  set turn := shellChar (prompt config.fakeHostname) buffer ch
  cases turn.command with
  | none =>
    dsimp only
    cases turn.stop <;> simp [Pc.pendingCommands]
  | some cmd =>
    dsimp only
    cases turn.stop with
    | true => simp [Pc.pendingCommands, HoneypotServer.recordShell]
    | false =>
      simp only [Pc.pendingCommands, HoneypotServer.recordShell, Option.elim_some, List.length_append,
        List.length_singleton, Option.toList_some, Bool.false_eq_true, if_false]
      omega

/-- A step that goes on leaves fewer commands to come, unless it receives data. -/
theorem pending_of_goes {pc : Pc} (hg : Goes config sinks s a pc)
    (ha : ∀ data, a ≠ .recv data) : pc.pendingCommands config ≤ s.pc.pendingCommands config := by
  have hzero : ∀ {q : Pc}, q.inChunk = false → q.pendingCommands config ≤ s.pc.pendingCommands config := by
    intro q hq
    rw [pendingCommands_of_not_inChunk hq]
    exact Nat.zero_le _
  cases hg with
  | received => exact absurd rfl (ha _)
  | _ => exact hzero rfl

/-- How a step changes the total: an exec request adds one, data add the commands they complete, and
nothing else adds any. -/
theorem total_moved (hm : Moved config sinks s a s') :
    (∃ now command, a = .execRequest now command ∧ s'.total config = s.total config + 1) ∨
      (∃ data buffer, a = .recv data ∧ s.pc = .shellRecv buffer ∧ s'.total config =
        s.server.record.commands.length +
          (lineCommands (prompt config.fakeHostname) buffer (Utf8.decode data)).length) ∨
      (HasRoom config s a ∧ s'.total config ≤ s.total config ∧
        (s.pc.inChunk = false ∨ a ≠ .fail → s'.total config = s.total config)) := by
  have hsame : ∀ {t : Session}, t.server.record.commands = s.server.record.commands →
      t.pc.inChunk = false → s.pc.inChunk = false → t.total config = s.total config := by
    intro t hc ht hs
    rw [Session.total, Session.total, hc, pendingCommands_of_not_inChunk ht,
      pendingCommands_of_not_inChunk hs]
  have heq : HasRoom config s a → s'.total config = s.total config → HasRoom config s a ∧
      s'.total config ≤ s.total config ∧
      (s.pc.inChunk = false ∨ a ≠ .fail → s'.total config = s.total config) :=
    fun hroom h => ⟨hroom, h.le, fun _ => h⟩
  cases hm with
  | @goes _ pc _ hg =>
    by_cases hrecv : ∃ data, a = .recv data
    · obtain ⟨data, rfl⟩ := hrecv
      refine Or.inr (Or.inl ?_)
      cases hg with
      | received hpc => exact ⟨_, _, rfl, hpc, rfl⟩
      | ended hpc => exact ⟨_, _, rfl, hpc, rfl⟩
    · have hle : pc.pendingCommands config ≤ s.pc.pendingCommands config :=
        pending_of_goes hg fun data he => hrecv ⟨data, he⟩
      have hroom : HasRoom config s a := by
        cases hg with
        | received => exact absurd ⟨_, rfl⟩ hrecv
        | ended => exact absurd ⟨_, rfl⟩ hrecv
        | _ => trivial
      refine Or.inr (Or.inr ⟨hroom, Nat.add_le_add_left hle _, fun hor => ?_⟩)
      have hchunk : s.pc.pendingCommands config = 0 := by
        rcases hor with hnot | hfail
        · exact pendingCommands_of_not_inChunk hnot
        · cases hg with
          | chunkDone hpc => rw [hpc]; rfl
          | raised => exact absurd rfl hfail
          | _ => simp_all [Pc.pendingCommands]
      rw [hchunk] at hle
      show _ + pc.pendingCommands config = _ + s.pc.pendingCommands config
      rw [hchunk, Nat.le_zero.mp hle]
  | authPassword => exact Or.inr (Or.inr (heq trivial rfl))
  | authPublickey => exact Or.inr (Or.inr (heq trivial rfl))
  | network hn =>
    refine Or.inr (Or.inr (heq ?_ rfl))
    rcases hn with ⟨kind, rfl⟩ | rfl <;> trivial
  | shellRequest => exact Or.inr (Or.inr (heq trivial rfl))
  | execRequest =>
    refine Or.inl ⟨_, _, rfl, ?_⟩
    show (s.server.record.commands ++ [_]).length + s.pc.pendingCommands config = _
    rw [List.length_append, List.length_singleton, Session.total]
    omega
  | version h => exact Or.inr (Or.inr (heq trivial (hsame rfl rfl (by rw [h]; rfl))))
  | execTurn h => exact Or.inr (Or.inr (heq trivial (hsame rfl rfl (by rw [h]; rfl))))
  | exitStatus h => exact Or.inr (Or.inr (heq trivial (hsame rfl rfl (by rw [h]; rfl))))
  | welcome h => exact Or.inr (Or.inr (heq trivial (hsame rfl rfl (by rw [h]; rfl))))
  | shellTurn h => exact Or.inr (Or.inr (heq trivial (total_shellTick h)))
  | duration h => exact Or.inr (Or.inr (heq trivial (hsame rfl rfl (by rw [h]; rfl))))
  | deliver h => exact Or.inr (Or.inr (heq trivial (hsame rfl rfl (by rw [h]; rfl))))

/-- Within the limit, a step keeps the total there exactly when it has room. -/
theorem total_le_iff_hasRoom (hle : s.total config ≤ config.maxCommands) (hm : Moved config sinks s a s') :
    s'.total config ≤ config.maxCommands ↔ HasRoom config s a := by
  rcases total_moved hm with ⟨now, command, rfl, ht⟩ | ⟨data, buffer, rfl, hpc, ht⟩ | ⟨hroom, ht, -⟩
  · show _ ↔ (s.server.record.commands.length : Int) + s.pc.pendingCommands config < config.maxCommands
    rw [ht, Session.total]
    omega
  · rw [HasRoom, hpc, ht]
    push_cast
    rfl
  · exact iff_of_true (by omega) hroom

/-- What is beyond the limit stays beyond it, unless an exception cuts a chunk short. -/
theorem lt_total_of_moved (hlt : config.maxCommands < s.total config)
    (hfail : a = .fail → s.pc.inChunk = false) (hm : Moved config sinks s a s') :
    config.maxCommands < s'.total config := by
  rcases total_moved hm with ⟨now, command, rfl, ht⟩ | ⟨data, buffer, rfl, hpc, ht⟩ | ⟨-, -, ht⟩
  · rw [ht]
    omega
  · have hzero : s.pc.pendingCommands config = 0 := by rw [hpc]; rfl
    rw [Session.total, hzero] at hlt
    rw [ht]
    omega
  · have hor : s.pc.inChunk = false ∨ a ≠ .fail := by
      by_cases ha : a = .fail
      · exact Or.inl (hfail ha)
      · exact Or.inr ha
    rw [ht hor]
    exact hlt

/-- The limit on commands. A session whose exec requests and chunks all find room never holds more
commands than configured; and a session whose chunks are not cut short by an exception holds no more,
when it is not in the middle of a chunk, if and only if they all found room. -/
theorem bounded_iff_hasRoom (config : HoneypotConfig) (sinks : List SinkName)
    (sessionId timestamp sourceIp : String) (sourcePort : Nat) (hmax : 0 ≤ config.maxCommands)
    (as : List Action) :
    (Runs.Guarded (sessionStep config sinks) (HasRoom config)
        (.start config sessionId timestamp sourceIp sourcePort) as →
      Runs.Always (sessionStep config sinks) (Session.Bounded config)
        (.start config sessionId timestamp sourceIp sourcePort) as) ∧
      ∀ t, Runs.run (sessionStep config sinks)
          (.start config sessionId timestamp sourceIp sourcePort) as = some t →
        Runs.Guarded (sessionStep config sinks) (fun s a => a = .fail → s.pc.inChunk = false)
          (.start config sessionId timestamp sourceIp sourcePort) as →
        t.pc.inChunk = false →
        (t.Bounded config ↔ Runs.Guarded (sessionStep config sinks) (HasRoom config)
          (.start config sessionId timestamp sourceIp sourcePort) as) := by
  have hstart : ((Session.start config sessionId timestamp sourceIp sourcePort).total config : Int) ≤
      config.maxCommands := hmax
  constructor
  · intro hg
    refine (Runs.always_of_guarded (I := fun s => (s.total config : Int) ≤ config.maxCommands)
      (fun s a s' h hga hs => (total_le_iff_hasRoom h (moved_of_step hs)).mpr hga) hstart hg).mono fun s hs => ?_
    rw [Session.total] at hs
    rw [Session.Bounded]
    omega
  · intro t hr hfail hchunk
    have hcases := Runs.run_dichotomy (I := fun _ => True) (G := HasRoom config)
      (A := fun s => (s.total config : Int) ≤ config.maxCommands)
      (B := fun s => config.maxCommands < s.total config)
      (H := fun s a => a = .fail → s.pc.inChunk = false) (fun _ _ _ _ _ => trivial)
      (fun s a s' _ h hga hs => (total_le_iff_hasRoom h (moved_of_step hs)).mpr hga)
      (fun s a s' _ h hga hs => Int.not_le.mp fun hle => hga
        ((total_le_iff_hasRoom h (moved_of_step hs)).mp hle))
      (fun s a s' _ h hf hs => lt_total_of_moved h hf (moved_of_step hs)) trivial hstart hfail hr
    have htotal : t.total config = t.server.record.commands.length := by
      rw [Session.total, pendingCommands_of_not_inChunk hchunk, Nat.add_zero]
    rw [Session.Bounded, ← htotal]
    rcases hcases with ⟨hg, hle⟩ | ⟨hg, hlt⟩
    · exact iff_of_true hle hg
    · exact iff_of_false (Int.not_le.mpr hlt) hg

/-- The text of two lines in one chunk. -/
def twoLines : List UInt8 :=
  [0x69, 0x64, 0x0D, 0x77, 0x0D]

/-- The client asks for a shell and types two lines. -/
def typeTwoLines : List Action :=
  login ++ [.shellRequest, .tick "", .tick "", .tick "", .tick "", .tick "", .recv twoLines, .tick "",
    .tick "", .tick "", .tick "", .tick ""]

/-- Two lines in one chunk where there is room for both. -/
theorem bounded_iff_hasRoom_twoLines : ∃ t, Runs.run (sessionStep { maxCommands := 2 } [.jsonl])
      (.start { maxCommands := 2 } "0b5e" "2026-01-01T00:00:10+00:00" "8.8.8.8" 51514) typeTwoLines =
        some t ∧ t.Bounded { maxCommands := 2 } := by
  have hany : ((Runs.run (sessionStep { maxCommands := 2 } [.jsonl])
      (.start { maxCommands := 2 } "0b5e" "2026-01-01T00:00:10+00:00" "8.8.8.8" 51514)
      typeTwoLines).any fun t => t.server.record.commands.length = 2) = true := by decide
  obtain ⟨t, hr, -⟩ := (Option.any_eq_true _ _).mp hany
  exact ⟨t, hr, ((bounded_iff_hasRoom { maxCommands := 2 } [.jsonl] _ _ _ _ (by decide) _).1
    (by decide)).last hr⟩

/-- Two lines in one chunk where there is room for one. -/
theorem not_bounded_twoLines :
    ¬ ∀ (config : HoneypotConfig) (sinks : List SinkName) (sessionId timestamp sourceIp : String)
        (sourcePort : Nat) (as : List Action) (t : Session), 0 ≤ config.maxCommands →
        Runs.run (sessionStep config sinks) (.start config sessionId timestamp sourceIp sourcePort) as =
          some t → t.Bounded config := by
  intro h
  have hany : ((Runs.run (sessionStep { maxCommands := 1 } [.jsonl])
      (.start { maxCommands := 1 } "0b5e" "2026-01-01T00:00:10+00:00" "8.8.8.8" 51514)
      typeTwoLines).any fun t => 1 < t.server.record.commands.length) = true := by decide
  obtain ⟨t, hr, ht⟩ := (Option.any_eq_true _ _).mp hany
  have hle : (t.server.record.commands.length : Int) ≤ 1 :=
    h { maxCommands := 1 } [.jsonl] _ _ _ _ _ t (by decide) hr
  have hlt := of_decide_eq_true ht
  omega

end SentinelSsh.Honeypot

import SentinelSsh.Honeypot.Proofs.SessionHandlerProofs

/-!
# The shell of a session records what `fakeShell` computes

`Session.remaining` says what the shell will still record when the network delivers the chunks `rest`
and nothing disturbs it. What is in the record together with what remains is the same before and after
every step, so at the end of the shell the record holds what `fakeShell` computes.
-/

namespace SentinelSsh.Honeypot

open Python

variable {config : HoneypotConfig} {sinks : List SinkName} {s s' t : Session} {a : Action}

/-- What the shell records of a text and the chunks after it. -/
def afterText (prompt : String) (maxCommands : Int) (recorded : Nat) (buffer text : List Char)
    (rest : List (List UInt8)) : List String :=
  lineCommands prompt buffer text ++ (bufferAfter prompt buffer text).elim [] fun buffer' =>
    fakeShellLoop prompt maxCommands (recorded + (lineCommands prompt buffer text).length) buffer' rest

theorem fakeShellLoop_cons {prompt : String} {maxCommands : Int} {recorded : Nat}
    (hroom : ¬ maxCommands ≤ recorded) (buffer : List Char) {data : List UInt8} (hdata : data ≠ [])
    (rest : List (List UInt8)) : fakeShellLoop prompt maxCommands recorded buffer (data :: rest) =
      afterText prompt maxCommands recorded buffer (Utf8.decode data) rest := by
  simp only [fakeShellLoop, if_neg hroom, if_neg hdata, afterText]
  cases bufferAfter prompt buffer (Utf8.decode data) with
  | none => exact (List.append_nil _).symm
  | some buffer' => rfl

theorem fakeShellLoop_full {prompt : String} {maxCommands : Int} {recorded : Nat}
    (hfull : maxCommands ≤ recorded) (buffer : List Char) (rest : List (List UInt8)) :
    fakeShellLoop prompt maxCommands recorded buffer rest = [] := by
  cases rest with
  | nil => rfl
  | cons data rest => rw [fakeShellLoop, if_pos hfull]

theorem received_ne_nil {as : List Action} {data : List UInt8} (h : data ∈ received as) : data ≠ [] := by
  induction as with
  | nil => exact absurd h List.not_mem_nil
  | cons a as ih =>
    cases a with
    | recv data' =>
      rw [received] at h
      split_ifs at h with hend
      · exact absurd h List.not_mem_nil
      · rcases List.mem_cons.mp h with rfl | h
        · exact hend
        · exact ih h
    | _ => exact ih h

/-- What the shell still records of the chunks `rest`, when `recorded` commands are in the record. -/
def Pc.remaining (config : HoneypotConfig) (recorded : Nat) : Pc → List (List UInt8) → List String
  | .shellTop buffer, rest =>
    fakeShellLoop (prompt config.fakeHostname) config.maxCommands recorded buffer rest
  | .shellRecv buffer, data :: rest =>
    afterText (prompt config.fakeHostname) config.maxCommands recorded buffer (Utf8.decode data) rest
  | .shellChars buffer pending, rest =>
    afterText (prompt config.fakeHostname) config.maxCommands recorded buffer pending rest
  | _, _ => []

/-- The commands of the record and those that remain. -/
def Session.promised (config : HoneypotConfig) (s : Session) (rest : List (List UInt8)) : List String :=
  s.server.record.commands.map (·.command) ++
    s.pc.remaining config s.server.record.commands.length rest

/-- A turn of the character loop moves a command from what remains to the record. -/
theorem promised_shellTick {now : String} {buffer pending : List Char} {ch : Char}
    (h : s.pc = .shellChars buffer (ch :: pending)) (rest : List (List UInt8)) :
    (shellTick config s now buffer ch pending).promised config rest = s.promised config rest := by
  rw [Session.promised, Session.promised, h, Pc.remaining, afterText, lineCommands, bufferAfter,
    shellTick]
  set turn := shellChar (prompt config.fakeHostname) buffer ch
  cases turn.command with
  | none =>
    dsimp only
    cases turn.stop with
    | true => simp [Pc.remaining]
    | false => simp [Pc.remaining, afterText]
  | some cmd =>
    dsimp only
    cases turn.stop with
    | true => simp [Pc.remaining, HoneypotServer.recordShell]
    | false =>
      simp [Pc.remaining, afterText, HoneypotServer.recordShell, Nat.add_assoc, Nat.add_comm 1]

theorem Undisturbed.inShell (h : Undisturbed s a) : s.pc.inShell = true := by
  cases a with
  | execRequest => exact h.elim
  | recvTimeout => exact h.elim
  | deadline => exact h.elim
  | fail => exact h.elim
  | _ => exact h

/-- The statements of the shell that only move on take nothing from what remains. -/
theorem remaining_goes {pc : Pc} (hg : Goes config sinks s a pc) (hu : Undisturbed s a)
    (as : List Action) :
    pc.remaining config s.server.record.commands.length (received as) =
      s.pc.remaining config s.server.record.commands.length (received (a :: as)) := by
  have hin := hu.inShell
  have htick : ∀ now, received (.tick now :: as) = received as := fun _ => rfl
  cases hg with
  | shellFull h hfull =>
    rw [h, htick]
    exact (fakeShellLoop_full hfull _ _).symm
  | shellNext h hroom =>
    rw [h, htick]
    cases has : received as with
    | nil => rfl
    | cons data rest =>
      have hdata : data ≠ [] := received_ne_nil (has ▸ List.mem_cons_self)
      exact (fakeShellLoop_cons hroom _ hdata _).symm
  | received h hdata =>
    rw [h, received, if_neg hdata]
    rfl
  | ended h =>
    rw [h, received, if_pos rfl]
    rfl
  | chunkDone h =>
    rw [h, htick]
    exact List.nil_append _
  | late => exact hu.elim
  | recvTimeout => exact hu.elim
  | raised => exact hu.elim
  | negotiated h | negotiationFailed h | accepted h | notAccepted h | hasExec h | noExec h
  | execDone h | waited h | shellTimeout h | hasShell h | noShell h | closed h | written h
  | finished h =>
    rw [h] at hin
    exact absurd hin Bool.false_ne_true

/-- Nothing that happens to an undisturbed shell changes what its record will hold. -/
theorem promised_moved (hm : Moved config sinks s a s') (hu : Undisturbed s a) (as : List Action) :
    s'.promised config (received as) = s.promised config (received (a :: as)) := by
  have hin := hu.inShell
  cases hm with
  | goes hg => exact congrArg (s.server.record.commands.map (·.command) ++ ·) (remaining_goes hg hu as)
  | shellTurn h => exact promised_shellTick h _
  | authPassword | authPublickey | shellRequest => rfl
  | network hn =>
    rcases hn with ⟨kind, rfl⟩ | rfl
    · rfl
    · rfl
  | execRequest => exact hu.elim
  | version h | execTurn h | exitStatus h | welcome h | duration h | deliver h =>
    rw [h] at hin
    exact absurd hin Bool.false_ne_true

theorem promised_run {as : List Action} (hr : Runs.run (sessionStep config sinks) s as = some t)
    (hu : Runs.Guarded (sessionStep config sinks) Undisturbed s as) :
    s.promised config (received as) = t.promised config [] := by
  induction as generalizing s with
  | nil =>
    cases hr
    rfl
  | cons a as ih =>
    obtain ⟨s', hs, hr'⟩ := Runs.run_cons.mp hr
    obtain ⟨hua, hu'⟩ := hu s' hs
    rw [← promised_moved (moved_of_step hs) hua as]
    exact ih hr' hu'

/-- The shell of a session, from its first prompt to the moment it returns: if no exec request, timeout,
deadline or exception disturbs it, it adds to the record what `fakeShell` computes from the data
received. -/
theorem commands_of_shell {as : List Action} (hs : s.pc = .shellTop [])
    (hr : Runs.run (sessionStep config sinks) s as = some t)
    (hu : Runs.Guarded (sessionStep config sinks) Undisturbed s as) (ht : t.pc = .closing) :
    t.server.record.commands.map (·.command) = s.server.record.commands.map (·.command) ++
      fakeShell (prompt config.fakeHostname) config.maxCommands s.server.record.commands.length
        (received as) := by
  have hprom := promised_run hr hu
  rw [Session.promised, Session.promised, hs, ht] at hprom
  exact (hprom.trans (List.append_nil _)).symm

end SentinelSsh.Honeypot

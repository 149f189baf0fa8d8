import SentinelSsh.Honeypot.Proofs.SessionHandlerProofs
import SentinelSsh.Honeypot.Screen

/-!
# The screen and the record

The shell echoes what it reads, wipes off what a backspace deletes and starts a new row for a prompt, so
the row of the cursor shows the prompt and the line read so far, while there is room (`Session.Shown`). The commands
of the record are therefore those the attacker saw when pressing Enter (`shown_exactly`).
-/

namespace SentinelSsh.Honeypot

open Python Terminal

variable {t : Emulator} {config : HoneypotConfig} {sinks : List SinkName} {s s' : Session} {a : Action}

/-! ## White space behind a line -/

theorem rdropWhile_blanks (xs : List Char) (n : Nat) :
    (xs ++ List.replicate n ' ').rdropWhile isspace = xs.rdropWhile isspace := by
  induction n with
  | zero => rw [List.replicate_zero, List.append_nil]
  | succ n ih =>
    rw [List.replicate_succ', ← List.append_assoc, List.rdropWhile_concat_pos _ _ _ (by decide), ih]

theorem strip_blanks (xs : List Char) (n : Nat) : strip (xs ++ List.replicate n ' ') = strip xs := by
  unfold strip
  by_cases hxs : xs.dropWhile isspace = []
  · have hall : ∀ c ∈ xs, isspace c = true := List.dropWhile_eq_nil_iff.mp hxs
    have hblank : (xs ++ List.replicate n ' ').dropWhile isspace = [] := by
      refine List.dropWhile_eq_nil_iff.mpr fun c hc => ?_
      rcases List.mem_append.mp hc with hc | hc
      · exact hall c hc
      · rw [List.eq_of_mem_replicate hc]
        decide
    rw [hblank, hxs]
  · have hdrop : (xs ++ List.replicate n ' ').dropWhile isspace =
        xs.dropWhile isspace ++ List.replicate n ' ' := by
      rw [List.dropWhile_append, if_neg (by simpa using hxs)]
    rw [hdrop, rdropWhile_blanks]

/-- The command on a screen is the one the shell would record. -/
theorem shownCommand_of_shows {prompt : String} {screen : Screen} {buffer : List Char}
    (h : screen.Shows (prompt.toList ++ buffer)) :
    shownCommand prompt screen = String.ofList (strip buffer) := by
  obtain ⟨-, n, hrow⟩ := h
  rw [shownCommand, hrow, List.append_assoc, List.drop_left, strip_blanks]

/-! ## The screen after a step -/

theorem screen_send (t : Emulator) {texts : List String} (hsent : s'.sent = s.sent ++ texts.map .shell) :
    s'.screen t = t.display (s.screen t) (texts.flatMap String.toList) := by
  rw [Session.screen, Session.screen, hsent, List.flatMap_append, display_append, List.flatMap_map]
  rfl

theorem screen_of_sent (t : Emulator) (hsent : s'.sent = s.sent) : s'.screen t = s.screen t := by
  rw [Session.screen, Session.screen, hsent]

/-- An answer ends its line. -/
theorem respond_newline (cmd : String) : ∃ answer, (respond cmd).toList = answer ++ ['\r', '\n'] := by
  unfold respond
  split
  · exact ⟨_, String.toList_append⟩
  · have hend : ": command not found\r\n" = ": command not found" ++ "\r\n" := rfl
    rw [hend, ← String.append_assoc]
    exact ⟨_, String.toList_append⟩

section Prompt

variable (hprompt : PromptFits t config)

include hprompt

/-- Whatever is sent before it, a prompt in a new row is all the row shows. -/
theorem shows_prompt (screen : Screen) (text : List Char) :
    (t.display screen (text ++ ['\r', '\n'] ++ (prompt config.fakeHostname).toList)).Shows
      (prompt config.fakeHostname).toList := by
  rw [display_append]
  exact (shows_newline t screen text).display hprompt.narrow (by simpa using hprompt.short)

/-- The turns of the character loop keep the line on the screen. -/
theorem shows_turn {screen : Screen} {buffer : List Char} {ch : Char}
    (hshows : screen.Shows ((prompt config.fakeHostname).toList ++ buffer))
    (hroom : ((prompt config.fakeHostname).toList ++ buffer).length + 1 < t.columns)
    (hch : isKey ch = true ∨ t.isNarrow ch = true) :
    (shellChar (prompt config.fakeHostname) buffer ch).stop = false →
      (t.display screen ((shellChar (prompt config.fakeHostname) buffer ch).sent.flatMap String.toList)).Shows
        ((prompt config.fakeHostname).toList ++ (shellChar (prompt config.fakeHostname) buffer ch).buffer) := by
  unfold shellChar
  by_cases hend : ch = '\r' ∨ ch = '\n'
  · rw [if_pos hend]
    dsimp only
    by_cases hempty : String.ofList (strip buffer) = ""
    · rw [if_pos hempty]
      intro _
      have h := shows_prompt hprompt screen []
      simpa using h
    · rw [if_neg hempty]
      by_cases hleave : String.ofList (strip buffer) ∈ ["exit", "logout", "quit"]
      · rw [if_pos hleave]
        intro h
        cases h
      · rw [if_neg hleave]
        intro _
        obtain ⟨answer, hanswer⟩ := respond_newline (String.ofList (strip buffer))
        have h := shows_prompt hprompt screen (['\r', '\n'] ++ answer)
        simpa [hanswer] using h
  · rw [if_neg hend]
    by_cases hdel : ch = Char.ofNat 0x7F
    · rw [if_pos hdel]
      by_cases hnil : buffer = []
      · rw [if_pos hnil]
        intro _
        exact hshows
      · rw [if_neg hnil]
        intro _
        have hlast : (prompt config.fakeHostname).toList ++ buffer =
            (prompt config.fakeHostname).toList ++ buffer.dropLast ++ [buffer.getLast hnil] := by
          rw [List.append_assoc, List.dropLast_append_getLast hnil]
        rw [hlast] at hshows hroom
        rw [List.length_append] at hroom
        exact hshows.erase (Nat.lt_of_succ_lt hroom)
    · rw [if_neg hdel]
      by_cases hint : ch = Char.ofNat 3
      · rw [if_pos hint]
        intro _
        have h := shows_prompt hprompt screen ['^', 'C']
        simpa [String.toList_append] using h
      · rw [if_neg hint]
        intro _
        have hnarrow : t.isNarrow ch = true := by
          rcases hch with hkey | hnarrow
          · simp [isKey] at hkey
            simp [hdel, hint, not_or.mp hend] at hkey
          · exact hnarrow
        have h : (t.display screen [ch]).Shows ((prompt config.fakeHostname).toList ++ buffer ++ [ch]) :=
          hshows.display (List.forall_mem_singleton.mpr hnarrow) hroom
        rw [List.append_assoc] at h
        simpa using h

end Prompt

/-! ## Steps -/

theorem buffer_goes {pc : Pc} (hg : Goes config sinks s a pc) {buffer : List Char}
    (hb : pc.buffer? = some buffer) : s.pc.buffer? = some buffer := by
  cases hg with
  | shellNext h => rwa [h]
  | received h => rwa [h]
  | recvTimeout h => rwa [h]
  | chunkDone h => rwa [h]
  | _ => exact nomatch hb

theorem pending_goes {pc : Pc} (hg : Goes config sinks s a pc) (htypes : TypesNarrow t a)
    {buffer pending : List Char} (hpc : pc = .shellChars buffer pending) :
    ∀ ch ∈ pending, isKey ch = true ∨ t.isNarrow ch = true := by
  cases hg with
  | received h =>
    cases hpc
    exact htypes
  | _ => exact nomatch hpc

/-- The greeting ends in a prompt. -/
theorem sent_of_welcome {now : String} (hpc : s.pc = .welcome)
    (hs : sessionStep config sinks s (.tick now) = some s') :
    ∃ greeting, s'.sent = s.sent ++ [.shell greeting, .shell (prompt config.fakeHostname)] ∧
      s'.pc = .shellTop [] ∧ ∃ text, greeting.toList = text ++ ['\r', '\n'] := by
  simp only [sessionStep, tick, hpc, Option.some.injEq] at hs
  subst hs
  exact ⟨_, rfl, rfl, "Welcome to Ubuntu 22.04.4 LTS (GNU/Linux 5.15.0-105-generic x86_64)\r\n".toList, rfl⟩

theorem shown_step (hprompt : PromptFits t config) (h : s.Shown t config) (htypes : TypesInRow t config s a)
    (hs : sessionStep config sinks s a = some s') : s'.Shown t config := by
  have hkeep : ∀ {u : Session}, u.sent = s.sent → u.pc = s.pc → u.Shown t config := by
    intro u hsent hpc
    refine ⟨fun buffer hb => ?_, fun buffer pending hp => h.pending buffer pending (hpc ▸ hp)⟩
    rw [screen_of_sent t hsent]
    exact h.line buffer (hpc ▸ hb)
  have haway : ∀ {u : Session}, u.pc.buffer? = none → u.Shown t config := by
    intro u hpc
    refine ⟨fun buffer hb => ?_, fun buffer pending hp => ?_⟩
    · rw [hpc] at hb
      cases hb
    · rw [hp] at hpc
      cases hpc
  cases moved_of_step hs with
  | goes hg =>
    refine ⟨fun buffer hb => ?_, fun buffer pending hp => pending_goes hg htypes.2 hp⟩
    exact h.line buffer (buffer_goes hg hb)
  | authPassword | authPublickey | network | shellRequest | execRequest => exact hkeep rfl rfl
  | version | execTurn | exitStatus | duration | deliver => exact haway rfl
  | welcome hpc =>
    obtain ⟨greeting, hsent, hpc', text, htext⟩ := sent_of_welcome hpc hs
    refine ⟨fun buffer hb => ?_, fun buffer pending hp => ?_⟩
    · rw [hpc'] at hb
      cases hb
      have hshows := shows_prompt hprompt (s.screen t) text
      rw [@screen_send s _ t [greeting, prompt config.fakeHostname] hsent, List.append_nil]
      simpa [htext] using hshows
    · rw [hpc'] at hp
      cases hp
  | shellTurn hpc =>
    next now buffer ch pending =>
    have hch := h.pending _ _ hpc
    refine ⟨fun buffer' hb => ?_, fun buffer' pending' hp => ?_⟩
    · have hstop : (shellChar (prompt config.fakeHostname) buffer ch).stop = false := by
        rw [Bool.eq_false_iff]
        intro hstop
        rw [shellTick] at hb
        dsimp only at hb
        rw [hstop] at hb
        cases hb
      rw [screen_send t (s := s) rfl]
      have hbuffer : s.pc.buffer? = some buffer := by
        rw [hpc]
        rfl
      have hshows := shows_turn hprompt (h.line buffer hbuffer) (htypes.1 buffer hbuffer)
        (hch ch (List.mem_cons_self ..)) hstop
      rw [shellTick] at hb
      dsimp only at hb
      rw [hstop] at hb
      cases hb
      exact hshows
    · rw [shellTick] at hp
      dsimp only at hp
      split at hp
      · cases hp
      · cases hp
        exact fun c hc => hch c (List.mem_cons_of_mem _ hc)

/-! ## What is recorded -/

theorem shellCommands_append (record : AttackRecord) (c : CommandRecord) :
    shellCommands { record with commands := record.commands ++ [c] } =
      shellCommands record ++ if c.commandType = .shell then [c.command] else [] := by
  unfold shellCommands
  rw [List.filter_append, List.map_append]
  by_cases hc : c.commandType = .shell
  · simp [hc]
  · simp [hc]

/-- A turn of the character loop records what the line holds when it is ended. -/
theorem command_shellChar (prompt : String) (buffer : List Char) (ch : Char) :
    (shellChar prompt buffer ch).command.toList =
      if ch = '\r' ∨ ch = '\n' then [String.ofList (strip buffer)].filter (· ≠ "") else [] := by
  unfold shellChar
  by_cases hend : ch = '\r' ∨ ch = '\n'
  · rw [if_pos hend, if_pos hend]
    dsimp only
    by_cases hempty : String.ofList (strip buffer) = ""
    · rw [if_pos hempty, List.filter_cons_of_neg (by simpa using hempty)]
      rfl
    · rw [if_neg hempty, List.filter_cons_of_pos (by simpa using hempty)]
      split_ifs <;> rfl
  · rw [if_neg hend, if_neg hend]
    split_ifs <;> rfl

theorem entered_of_ne_turn
    (h : ∀ now, a = .tick now → ∀ buffer ch pending, s.pc ≠ .shellChars buffer (ch :: pending)) :
    s.entered t config a = [] := by
  unfold Session.entered
  split
  · next now =>
    split
    · next hpc => exact absurd hpc (h now rfl _ _ _)
    · rfl
  · rfl

/-- A step records the command that is on the screen when it processes Enter, and no other one. -/
theorem shellCommands_step (h : s.Shown t config) (hs : sessionStep config sinks s a = some s') :
    shellCommands s'.server.record = shellCommands s.server.record ++ s.entered t config a := by
  have hquiet : s.entered t config a = [] → s'.server.record.commands = s.server.record.commands →
      shellCommands s'.server.record = shellCommands s.server.record ++ s.entered t config a := by
    intro hnone hsame
    rw [hnone, List.append_nil, shellCommands, shellCommands, hsame]
  cases moved_of_step hs with
  | goes hg =>
    refine hquiet (entered_of_ne_turn fun now ha buffer ch pending hpc => ?_) rfl
    subst ha
    cases hg <;> simp_all
  | network hn =>
    refine hquiet (entered_of_ne_turn fun now ha => ?_) rfl
    rcases hn with ⟨kind, rfl⟩ | rfl
    · cases ha
    · cases ha
  | authPassword | authPublickey | shellRequest | version | duration => exact hquiet rfl rfl
  | execRequest =>
    show shellCommands { s.server.record with commands := s.server.record.commands ++ [_] } = _
    rw [shellCommands_append]
    rfl
  | execTurn hpc | exitStatus hpc | welcome hpc | deliver hpc =>
    refine hquiet (entered_of_ne_turn fun now ha buffer ch pending hpc' => ?_) rfl
    rw [hpc] at hpc'
    cases hpc'
  | shellTurn hpc =>
    next now buffer ch pending =>
    have hshown : shownCommand (prompt config.fakeHostname) (s.screen t) = String.ofList (strip buffer) :=
      shownCommand_of_shows (h.line buffer (by rw [hpc]; rfl))
    have hentered : s.entered t config (.tick now) =
        (shellChar (prompt config.fakeHostname) buffer ch).command.toList := by
      rw [command_shellChar, Session.entered, hpc]
      dsimp only
      rw [hshown]
    rw [hentered]
    show shellCommands ((shellChar (prompt config.fakeHostname) buffer ch).command.elim s.server
      (s.server.recordShell now)).record = _
    cases (shellChar (prompt config.fakeHostname) buffer ch).command with
    | none => exact (List.append_nil _).symm
    | some cmd =>
      show shellCommands { s.server.record with commands := s.server.record.commands ++ [⟨now, cmd, .shell⟩] } = _
      rw [shellCommands_append]
      rfl

/-! ## Runs -/

theorem shown_run (hprompt : PromptFits t config) {u : Session} {as : List Action} (h : s.Shown t config)
    (htypes : Runs.Guarded (sessionStep config sinks) (TypesInRow t config) s as)
    (hr : Runs.run (sessionStep config sinks) s as = some u) :
    u.Shown t config ∧ shellCommands u.server.record =
      shellCommands s.server.record ++ enteredCommands t config sinks s as := by
  induction as generalizing s with
  | nil =>
    cases hr
    exact ⟨h, (List.append_nil _).symm⟩
  | cons a as ih =>
    obtain ⟨s', hs, hr'⟩ := Runs.run_cons.mp hr
    obtain ⟨hnow, hlater⟩ := htypes s' hs
    obtain ⟨hshown, hcommands⟩ := ih (shown_step hprompt h hnow hs) hlater hr'
    refine ⟨hshown, ?_⟩
    rw [hcommands, shellCommands_step h hs, enteredCommands, hs, List.append_assoc]
    rfl

/-- As long as the lines typed fit into the row of the prompt, the row of the cursor shows the prompt and
the line read so far, and the commands recorded by the shell are those that stood there when Enter was
processed. -/
theorem shown_exactly {sessionId timestamp sourceIp : String} {sourcePort : Nat} {as : List Action}
    (hprompt : PromptFits t config)
    (htypes : Runs.Guarded (sessionStep config sinks) (TypesInRow t config)
      (Session.start config sessionId timestamp sourceIp sourcePort) as)
    (hr : Runs.run (sessionStep config sinks)
      (Session.start config sessionId timestamp sourceIp sourcePort) as = some s) :
    (∀ buffer, s.pc.buffer? = some buffer →
        (s.screen t).Shows ((prompt config.fakeHostname).toList ++ buffer)) ∧
      shellCommands s.server.record = enteredCommands t config sinks
        (Session.start config sessionId timestamp sourceIp sourcePort) as := by
  have hstart : (Session.start config sessionId timestamp sourceIp sourcePort).Shown t config := by
    constructor
    · intro buffer hb
      cases hb
    · intro buffer pending hpc
      cases hpc
  obtain ⟨hshown, hcommands⟩ := shown_run hprompt hstart htypes hr
  exact ⟨hshown.line, hcommands⟩

/-- A command with a slip that is wiped off, and the start of another one. -/
def typeWithSlip : List Action :=
  login ++ [.shellRequest, .tick "t0", .tick "t0", .tick "t0", .tick "t0", .tick "t1",
    .recv [105, 120, 127, 100, 13, 108]] ++ List.replicate 6 (.tick "t2")

theorem shown_exactly_slip : ∃ s, Runs.run (sessionStep {} [])
      (Session.start {} "a" "t" "203.0.113.9" 50022) typeWithSlip = some s ∧
    (s.screen ascii).Shows ((prompt "srv01").toList ++ ['l']) ∧
      enteredCommands ascii {} [] (Session.start {} "a" "t" "203.0.113.9" 50022) typeWithSlip = ["id"] := by
  have hrun : ((Runs.run (sessionStep {} []) (Session.start {} "a" "t" "203.0.113.9" 50022) typeWithSlip).any
      fun s => s.pc.buffer? = some ['l'] && shellCommands s.server.record = ["id"]) = true := by decide
  obtain ⟨s, hr, hend⟩ := (Option.any_eq_true _ _).mp hrun
  obtain ⟨hbuffer, hcommands⟩ : s.pc.buffer? = some ['l'] ∧ shellCommands s.server.record = ["id"] := by
    simpa using hend
  obtain ⟨hline, hall⟩ := @shown_exactly ascii {} [] s "a" "t" "203.0.113.9" 50022 typeWithSlip
    ⟨List.all_eq_true.mp (by decide), by decide⟩ (by decide) hr
  exact ⟨s, hr, hline ['l'] hbuffer, hall ▸ hcommands⟩

end SentinelSsh.Honeypot

import SentinelSsh.Honeypot.Proofs.FakeShellProofs

/-!
# The emulated shell against its line discipline

The shell reads one character at a time and keeps a buffer across chunks. The buffer is always what is
left of the unfinished line (`typed`), so the character that ends a line turns it into the command of
that line; `lineCommands_typed` carries this along the text, and the loop over the chunks along their
concatenation.
-/

namespace SentinelSsh.Honeypot

open Python

variable {prompt : String} {maxCommands : Int}

/-! ## One line -/

/-- The characters that end a line. -/
abbrev isLineEnd (ch : Char) : Bool :=
  ch = '\r' || ch = '\n'

@[simp] theorem typed_nil : typed [] = [] :=
  rfl

/-- A character that ends no line takes what is left of a line to what is left of the longer one. -/
theorem shellChar_typed (prompt : String) (line : List Char) {ch : Char} (hch : isLineEnd ch = false) :
    (shellChar prompt (typed line) ch).buffer = typed (line ++ [ch]) ∧
      (shellChar prompt (typed line) ch).command = none ∧
      (shellChar prompt (typed line) ch).stop = false := by
  have hend : ¬ (ch = '\r' ∨ ch = '\n') := by simpa [isLineEnd] using hch
  unfold shellChar
  rw [if_neg hend]
  by_cases hdel : ch = Char.ofNat 0x7F
  · subst hdel
    have htyped : typed (line ++ [Char.ofNat 0x7F]) = (typed line).dropLast := by
      unfold typed
      rw [List.rtakeWhile_concat_pos _ _ _ (by decide), List.foldl_append]
      rfl
    rw [if_pos rfl, htyped]
    by_cases hnil : typed line = []
    · rw [if_pos hnil, hnil]
      exact ⟨rfl, rfl, rfl⟩
    · rw [if_neg hnil]
      exact ⟨rfl, rfl, rfl⟩
  · rw [if_neg hdel]
    by_cases hint : ch = Char.ofNat 3
    · have htyped : typed (line ++ [ch]) = [] := by
        unfold typed
        rw [List.rtakeWhile_concat_neg _ _ _ (by simpa using hint)]
        rfl
      rw [if_pos hint, htyped]
      exact ⟨rfl, rfl, rfl⟩
    · have htyped : typed (line ++ [ch]) = typed line ++ [ch] := by
        unfold typed
        rw [List.rtakeWhile_concat_pos _ _ _ (by simpa using hint), List.foldl_append, List.foldl_cons,
          if_neg hdel]
        rfl
      rw [if_neg hint, htyped]
      exact ⟨rfl, rfl, rfl⟩

/-! ## The lines of a text -/

theorem untilLeft_cons (cmd : String) (cmds : List String) : untilLeft (cmd :: cmds) =
    cmd :: if cmd ∈ ["exit", "logout", "quit"] then [] else untilLeft cmds := by
  unfold untilLeft
  rw [List.findIdx_cons, List.take_succ_cons]
  by_cases hleave : cmd ∈ ["exit", "logout", "quit"]
  · rw [if_pos hleave, decide_eq_true hleave, cond_true, List.take_zero]
  · rw [if_neg hleave, decide_eq_false hleave, cond_false]

/-- A text without a line end terminates no line. -/
theorem commandsOfText_open {line : List Char} (hline : ∀ ch ∈ line, isLineEnd ch = false) :
    commandsOfText line = [] := by
  have hnone : terminatedLines line = [] := by
    unfold terminatedLines
    rw [List.splitOnP_eq_singleton hline]
    rfl
  rw [commandsOfText, hnone]
  rfl

/-- The first line of a text, and the rest after its end. -/
theorem commandsOfText_line {line : List Char} (hline : ∀ ch ∈ line, isLineEnd ch = false) {ch : Char}
    (hch : isLineEnd ch = true) (rest : List Char) :
    commandsOfText (line ++ ch :: rest) =
      let cmd := String.ofList (strip (typed line))
      if cmd = "" then commandsOfText rest
      else cmd :: if cmd ∈ ["exit", "logout", "quit"] then [] else commandsOfText rest := by
  have hcut : terminatedLines (line ++ ch :: rest) = line :: terminatedLines rest := by
    unfold terminatedLines
    rw [List.splitOnP_append_cons_of_forall_mem hline ch hch, List.dropLast_cons_of_ne_nil (List.splitOnP_ne_nil _ _)]
  dsimp only
  rw [commandsOfText, hcut, List.map_cons]
  by_cases hempty : String.ofList (strip (typed line)) = ""
  · rw [if_pos hempty, List.filter_cons_of_neg (by simpa using hempty)]
    rfl
  · rw [if_neg hempty, List.filter_cons_of_pos (by simpa using hempty), untilLeft_cons]
    rfl

/-- The shell that has read the line `line` records of the next text what the two together stand for. -/
theorem lineCommands_typed {line : List Char} (hline : ∀ ch ∈ line, isLineEnd ch = false)
    (text : List Char) : lineCommands prompt (typed line) text = commandsOfText (line ++ text) := by
  induction text generalizing line with
  | nil => rw [List.append_nil, commandsOfText_open hline, lineCommands]
  | cons ch text ih =>
    rw [lineCommands]
    cases hch : isLineEnd ch with
    | false =>
      obtain ⟨hbuffer, hcommand, hstop⟩ := shellChar_typed prompt line hch
      have hlonger : ∀ c ∈ line ++ [ch], isLineEnd c = false := by
        intro c hc
        rcases List.mem_append.mp hc with hc | hc
        · exact hline c hc
        · rwa [List.mem_singleton.mp hc]
      rw [hbuffer, hcommand, hstop, ih hlonger, List.append_assoc]
      rfl
    | true =>
      have hend : ch = '\r' ∨ ch = '\n' := by simpa [isLineEnd] using hch
      have hfresh : lineCommands prompt [] text = commandsOfText text := ih (List.forall_mem_nil _)
      rw [commandsOfText_line hline hch, ← hfresh]
      unfold shellChar
      rw [if_pos hend]
      dsimp only
      by_cases hempty : String.ofList (strip (typed line)) = ""
      · rw [if_pos hempty, if_pos hempty]
        rfl
      · rw [if_neg hempty, if_neg hempty]
        by_cases hleave : String.ofList (strip (typed line)) ∈ ["exit", "logout", "quit"]
        · rw [if_pos hleave, if_pos hleave]
          rfl
        · rw [if_neg hleave, if_neg hleave]
          rfl

/-! ## The loop over the chunks -/

/-- While its record is below the limit the loop records what the text before the end of the stream
completes. -/
theorem fakeShellLoop_below {n : Nat} {buffer : List Char} {chunks : List (List UInt8)}
    (hbelow : n + (fakeShellLoop prompt maxCommands n buffer chunks).length < maxCommands) :
    fakeShellLoop prompt maxCommands n buffer chunks =
      lineCommands prompt buffer (textOf (untilEnd chunks)) := by
  induction chunks generalizing n buffer with
  | nil => rfl
  | cons data rest ih =>
    have hroom : ¬ maxCommands ≤ n := by omega
    rw [fakeShellLoop, if_neg hroom] at hbelow ⊢
    by_cases hend : data = []
    · rw [if_pos hend, untilEnd, List.takeWhile_cons_of_neg (by simpa using hend)]
      rfl
    rw [if_neg hend] at hbelow ⊢
    rw [untilEnd, List.takeWhile_cons_of_pos (by simpa using hend), textOf_cons, lineCommands_append]
    dsimp only at hbelow ⊢
    cases hb : bufferAfter prompt buffer (Utf8.decode data) with
    | none => exact (List.append_nil _).symm
    | some buffer' =>
      rw [hb] at hbelow
      dsimp only [Option.elim] at hbelow ⊢
      rw [List.length_append] at hbelow
      push_cast at hbelow
      rw [ih (by push_cast; omega), untilEnd]

/-- The commands the shell records are those its text stands for, line by line, unless the limit is
reached. -/
theorem fakeShell_line_discipline (prompt : String) (maxCommands : Int) (recorded : Nat)
    (chunks : List (List UInt8))
    (hbelow : recorded + (fakeShell prompt maxCommands recorded chunks).length < maxCommands) :
    fakeShell prompt maxCommands recorded chunks = commandsOfText (textOf (untilEnd chunks)) := by
  have hloop : fakeShell prompt maxCommands recorded chunks =
      lineCommands prompt [] (textOf (untilEnd chunks)) :=
    fakeShellLoop_below hbelow
  have hlines : lineCommands prompt [] (textOf (untilEnd chunks)) =
      commandsOfText (textOf (untilEnd chunks)) :=
    lineCommands_typed (List.forall_mem_nil _) (textOf (untilEnd chunks))
  rw [hloop, hlines]

/-- A slip corrected with a backspace, a line given up, and input after the end of the session, cut in
the middle of a command. -/
theorem fakeShell_line_discipline_edited :
    fakeShell "# " 5 0 [[119, 104, 111, 120, 127], [97, 109, 105, 13, 10, 114, 109, 3, 108, 115, 13],
      [32, 101, 120, 105, 116, 10, 105, 100, 13]] = ["whoami", "ls", "exit"] := by
  have hrun := fakeShell_line_discipline "# " 5 0
    [[119, 104, 111, 120, 127], [97, 109, 105, 13, 10, 114, 109, 3, 108, 115, 13],
      [32, 101, 120, 105, 116, 10, 105, 100, 13]] (by decide)
  rw [hrun]
  decide

end SentinelSsh.Honeypot

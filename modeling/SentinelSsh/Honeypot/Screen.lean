import SentinelSsh.Honeypot.SessionHandler
import SentinelSsh.Lib.Terminal

/-!
# What an attacker sees

The output of a session on the attacker's terminal, and the commands that could be read off it: the
line behind the prompt whenever Enter is processed.
-/

namespace SentinelSsh.Honeypot

open Python Terminal

/-- The text of something sent on the channel. -/
def Sent.text : Sent → List Char
  | .exec _ output => output.toList
  | .exitStatus _ => []
  | .shell text => text.toList

/-- The terminal of the attacker. -/
def Session.screen (t : Emulator) (s : Session) : Screen :=
  t.display {} (s.sent.flatMap Sent.text)

/-- The line the shell has read so far. -/
def Pc.buffer? : Pc → Option (List Char)
  | .shellTop buffer => some buffer
  | .shellRecv buffer => some buffer
  | .shellChars buffer _ => some buffer
  | _ => none

/-- What stands behind the prompt in the row of the cursor. -/
def shownCommand (prompt : String) (screen : Screen) : String :=
  String.ofList (strip (screen.row.drop prompt.toList.length))

/-- The command on the screen when the next step processes Enter. -/
def Session.entered (t : Emulator) (config : HoneypotConfig) (s : Session) : Action → List String
  | .tick _ =>
    match s.pc with
    | .shellChars _ (ch :: _) =>
      if ch = '\r' ∨ ch = '\n' then
        [shownCommand (prompt config.fakeHostname) (s.screen t)].filter (· ≠ "")
      else []
    | _ => []
  | _ => []

/-- The commands on the screen over a run. -/
def enteredCommands (t : Emulator) (config : HoneypotConfig) (sinks : List SinkName) :
    Session → List Action → List String
  | _, [] => []
  | s, a :: as =>
    s.entered t config a ++
      (sessionStep config sinks s a).elim [] fun s' => enteredCommands t config sinks s' as

/-- The commands of the record that were typed into the shell. -/
def shellCommands (record : AttackRecord) : List String :=
  (record.commands.filter (·.commandType = .shell)).map (·.command)

/-- The prompt is shown in one row. -/
structure PromptFits (t : Emulator) (config : HoneypotConfig) : Prop where
  narrow : ∀ c ∈ (prompt config.fakeHostname).toList, t.isNarrow c = true
  short : (prompt config.fakeHostname).toList.length < t.columns

/-- The row of the prompt has room for the line read so far and for one more character. -/
def Session.HasRow (t : Emulator) (config : HoneypotConfig) (s : Session) : Prop :=
  ∀ buffer ∈ s.pc.buffer?, ((prompt config.fakeHostname).toList ++ buffer).length + 1 < t.columns

/-- What is typed are keys the shell acts on, and characters that fill one cell. -/
def TypesNarrow (t : Emulator) : Action → Prop
  | .recv data => ∀ ch ∈ Utf8.decode data, isKey ch = true ∨ t.isNarrow ch = true
  | _ => True

/-- What is typed can be shown in the row of the prompt. -/
def TypesInRow (t : Emulator) (config : HoneypotConfig) (s : Session) (a : Action) : Prop :=
  s.HasRow t config ∧ TypesNarrow t a

instance (t : Emulator) (config : HoneypotConfig) (s : Session) : Decidable (s.HasRow t config) :=
  inferInstanceAs (Decidable (∀ buffer ∈ s.pc.buffer?, _ < t.columns))

instance (t : Emulator) (a : Action) : Decidable (TypesNarrow t a) :=
  match a with
  | .recv data =>
    decidable_of_iff ((Utf8.decode data).all (fun ch => isKey ch || t.isNarrow ch) = true)
      (by simp [TypesNarrow])
  | .authPassword .. | .authPublickey _ | .openChannel _ | .shellRequest | .execRequest .. | .hangUp
  | .negotiated | .negotiationFailed | .readVersion _ | .acceptChannel | .acceptTimeout | .tick _
  | .shellTimeout | .recvTimeout | .deadline | .fail | .setDuration _ => isTrue trivial

instance (t : Emulator) (config : HoneypotConfig) (s : Session) (a : Action) :
    Decidable (TypesInRow t config s a) :=
  inferInstanceAs (Decidable (s.HasRow t config ∧ TypesNarrow t a))

/-- The terminal shows the prompt and the line read so far, and the characters of the chunk still to be
read can be shown too. -/
structure Session.Shown (t : Emulator) (config : HoneypotConfig) (s : Session) : Prop where
  line : ∀ buffer, s.pc.buffer? = some buffer →
    (s.screen t).Shows ((prompt config.fakeHostname).toList ++ buffer)
  pending : ∀ buffer pending, s.pc = .shellChars buffer pending →
    ∀ ch ∈ pending, isKey ch = true ∨ t.isNarrow ch = true

end SentinelSsh.Honeypot

import SentinelSsh.Honeypot.SshServer

/-!
# The emulated shell of `honeypot/session_handler.py`

The canned answers, the line discipline one character at a time, and `_fake_shell` on its own: the
commands it records from the results of `recv`.
-/

namespace SentinelSsh.Honeypot

open Python

def fakeResponses : List (String × String) :=
  [("whoami", "root"),
    ("id", "uid=0(root) gid=0(root) groups=0(root)"),
    ("pwd", "/root"),
    ("uname", "Linux"),
    ("uname -a", "Linux srv01 5.15.0-105-generic #115-Ubuntu SMP x86_64 GNU/Linux"),
    ("ls", "snap"),
    ("ls -la", "total 28\ndrwx------  4 root root 4096 Jan  1 00:00 .\n" ++
      "drwxr-xr-x 19 root root 4096 Jan  1 00:00 .."),
    ("cat /etc/passwd", "root:x:0:0:root:/root:/bin/bash\n" ++
      "daemon:x:1:1:daemon:/usr/sbin:/usr/sbin/nologin")]

/-- What the loop of `_handle_exec` sends for a command, if anything. -/
def execOutput (cmd : String) : String :=
  let output := (fakeResponses.lookup (String.ofList (strip cmd.toList))).getD ""
  if output ≠ "" then output ++ "\n" else ""

/-- `SessionHandler._respond` -/
def respond (cmd : String) : String :=
  match fakeResponses.lookup cmd with
  | some output => output ++ "\r\n"
  | none => "-bash: " ++ String.ofList (cmd.toList.takeWhile (· ≠ ' ')) ++ ": command not found\r\n"

/-- The prompt of the shell. -/
def prompt (fakeHostname : String) : String :=
  "root@" ++ fakeHostname ++ ":~# "

/-- One turn of the character loop of `_fake_shell`. -/
structure Turn where
  buffer : List Char
  /-- The command that is recorded. -/
  command : Option String := none
  /-- What is sent. -/
  sent : List String := []
  /-- The shell returns. -/
  stop : Bool := false
  deriving DecidableEq, Repr

/-- The body of the character loop of `_fake_shell`. -/
def shellChar (prompt : String) (buffer : List Char) (ch : Char) : Turn :=
  if ch = '\r' ∨ ch = '\n' then
    let cmd := String.ofList (strip buffer)
    if cmd = "" then { buffer := [], sent := ["\r\n", prompt] }
    else if cmd ∈ ["exit", "logout", "quit"] then
      { buffer := [], command := some cmd, sent := ["\r\n", "logout\r\n"], stop := true }
    else { buffer := [], command := some cmd, sent := ["\r\n", respond cmd, prompt] }
  else if ch = Char.ofNat 0x7F then
    if buffer = [] then { buffer := buffer }
    else { buffer := buffer.dropLast, sent := [String.ofList [Char.ofNat 8, ' ', Char.ofNat 8]] }
  else if ch = Char.ofNat 3 then { buffer := [], sent := ["^C\r\n" ++ prompt] }
  else { buffer := buffer ++ [ch], sent := [String.ofList [ch]] }

/-- The keys the shell acts on: Enter, backspace and Ctrl-C. -/
def isKey (ch : Char) : Bool :=
  ch = '\r' || ch = '\n' || ch = Char.ofNat 0x7F || ch = Char.ofNat 3

/-- Enter and Ctrl-C end the line that is typed. -/
def endsLine (ch : Char) : Bool :=
  ch = '\r' || ch = '\n' || ch = Char.ofNat 3

/-- The commands a text completes, given what is already in the buffer. -/
def lineCommands (prompt : String) : List Char → List Char → List String
  | _, [] => []
  | buffer, ch :: cs =>
    let turn := shellChar prompt buffer ch
    turn.command.toList ++ if turn.stop then [] else lineCommands prompt turn.buffer cs

/-- The buffer a text leaves, unless the shell returns. -/
def bufferAfter (prompt : String) : List Char → List Char → Option (List Char)
  | buffer, [] => some buffer
  | buffer, ch :: cs =>
    let turn := shellChar prompt buffer ch
    if turn.stop then none else bufferAfter prompt turn.buffer cs

/-- The loop of `_fake_shell` over the results of `recv`: the commands it records, when `recorded` of
them are already in the record. An empty result is the end of the stream, and so is the end of the
list. -/
def fakeShellLoop (prompt : String) (maxCommands : Int) :
    Nat → List Char → List (List UInt8) → List String
  | _, _, [] => []
  | recorded, buffer, data :: rest =>
    if maxCommands ≤ recorded then []
    else if data = [] then []
    else
      let text := Utf8.decode data
      let cmds := lineCommands prompt buffer text
      match bufferAfter prompt buffer text with
      | none => cmds
      | some buffer' => cmds ++ fakeShellLoop prompt maxCommands (recorded + cmds.length) buffer' rest

/-- `SessionHandler._fake_shell`: the commands recorded from the results of `recv`. -/
def fakeShell (prompt : String) (maxCommands : Int) (recorded : Nat) (chunks : List (List UInt8)) :
    List String :=
  fakeShellLoop prompt maxCommands recorded [] chunks

/-! ## Cuts of a byte string -/

/-- A way the network can split the bytes into the results of `recv(1024)`. -/
def IsCut (b : List UInt8) (chunks : List (List UInt8)) : Prop :=
  chunks.flatten = b ∧ ∀ c ∈ chunks, c ≠ [] ∧ c.length ≤ 1024

/-- The results of `recv` before the end of the stream. -/
def untilEnd (chunks : List (List UInt8)) : List (List UInt8) :=
  chunks.takeWhile (· ≠ [])

/-- The text of some chunks, each decoded on its own. -/
def textOf (chunks : List (List UInt8)) : List Char :=
  chunks.flatMap Utf8.decode

/-- The text read does not depend on the cut. -/
def SameText (b : List UInt8) : Prop :=
  ∀ c₁ c₂, IsCut b c₁ → IsCut b c₂ → textOf c₁ = textOf c₂

/-- The commands recorded do not depend on the cut. -/
def CutInsensitive (prompt : String) (maxCommands : Int) (recorded : Nat) (b : List UInt8) : Prop :=
  ∀ c₁ c₂, IsCut b c₁ → IsCut b c₂ →
    fakeShell prompt maxCommands recorded c₁ = fakeShell prompt maxCommands recorded c₂

/-- How many commands the bytes `u`, read one by one, and then the chunk `d` complete. -/
def completed (prompt : String) (u d : List UInt8) : Nat :=
  (lineCommands prompt [] (u.map Utf8.byteChar ++ Utf8.decode d)).length

/-- No chunk takes the record from below the limit to beyond it. -/
def NoStraddle (prompt : String) (maxCommands : Int) (recorded : Nat) (b : List UInt8) : Prop :=
  ∀ u d v, b = u ++ (d ++ v) → d.length ≤ 1024 → recorded + completed prompt u [] < maxCommands →
    recorded + completed prompt u d ≤ maxCommands

/-- The shell still reads after the bytes, read one by one. -/
def StillReads (prompt : String) (maxCommands : Int) (recorded : Nat) (u : List UInt8) : Prop :=
  (bufferAfter prompt [] (u.map Utf8.byteChar)).isSome = true ∧
    recorded + completed prompt u [] < maxCommands

/-- A line of the bytes that is entered while the shell still reads: the bytes `u` are read before the
two bytes `x` and `y`, and between these and Enter there is no Ctrl-C. -/
structure Enters (prompt : String) (maxCommands : Int) (recorded : Nat) (u : List UInt8)
    (x y : UInt8) (w : List UInt8) (e : UInt8) : Prop where
  reads : StillReads prompt maxCommands recorded u
  inLine : ∀ z ∈ w, endsLine (Utf8.byteChar z) = false
  enter : e = 0x0D ∨ e = 0x0A

/-- In the lines that are entered while the shell still reads no byte is continued by the next one. -/
def LinesIsolated (prompt : String) (maxCommands : Int) (recorded : Nat) (b : List UInt8) : Prop :=
  ∀ u x y w e v, b = u ++ ([x, y] ++ (w ++ e :: v)) →
    Enters prompt maxCommands recorded u x y w e → ¬ Utf8.Continues x y

/-- Each backspace among the bytes has a byte among them to erase. -/
def ErasesOwn (w : List UInt8) : Prop :=
  ∀ p, p <+: w → 2 * p.count 0x7F ≤ p.length

/-! ## The line discipline -/

/-- The lines a text terminates: it is cut at each CR or LF, and what follows the last cut is left
out. -/
def terminatedLines (text : List Char) : List (List Char) :=
  (text.splitOnP fun ch => ch = '\r' || ch = '\n').dropLast

/-- What is left of a line after its Ctrl-C and backspace keys: only what follows the last Ctrl-C
counts, and there each backspace deletes the last character that remains. -/
def typed (line : List Char) : List Char :=
  (line.rtakeWhile (· ≠ Char.ofNat 3)).foldl
    (fun kept ch => if ch = Char.ofNat 0x7F then kept.dropLast else kept ++ [ch]) []

/-- The commands up to the first one that leaves the shell, this one included. -/
def untilLeft (cmds : List String) : List String :=
  cmds.take (cmds.findIdx (· ∈ ["exit", "logout", "quit"]) + 1)

/-- The commands a text stands for, line by line. -/
def commandsOfText (text : List Char) : List String :=
  untilLeft (((terminatedLines text).map fun line => String.ofList (strip (typed line))).filter (· ≠ ""))

end SentinelSsh.Honeypot

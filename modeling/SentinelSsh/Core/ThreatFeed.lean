import SentinelSsh.Core.Enrichment
import SentinelSsh.Lib.Lines
import SentinelSsh.Lib.Utf8

/-!
# The threat feed of `core/intel/reputation.py`

`ReputationService.__init__` reads the feed, `check` is `checkReputation` with the networks it found.
The feed comes from outside, so it is any sequence of bytes here.
-/

namespace SentinelSsh.Core

open Python

/-- Python's `ipaddress` with the networks a feed names. -/
structure FeedLib extends IpLib where
  /-- `ipaddress.ip_network(entry, strict=False)`, `none` for a `ValueError`. -/
  ipNetwork : String → Option Net

/-- What reading the feed raises. -/
inductive FeedError where
  | unicodeDecodeError
  deriving DecidableEq, Repr

/-- `Path.read_text(encoding="utf-8")` -/
def readText (content : List UInt8) : Except FeedError (List Char) :=
  match Utf8.decodeStrict content with
  | none => .error .unicodeDecodeError
  | some text => .ok (universalNewlines text.toList)

/-- The body of the loop of `_load` for one line. -/
def loadLine (lib : FeedLib) (networks : List lib.Net) (line : List Char) : List lib.Net :=
  let entry := strip line
  if entry = [] ∨ entry.head? = some '#' then networks
  else
    match lib.ipNetwork (String.ofList entry) with
    | some net => networks ++ [net]
    | none => networks

/-- `ReputationService._load`; there need not be a file. -/
def loadFeed (lib : FeedLib) (file : Option (List UInt8)) : Except FeedError (List lib.Net) :=
  match file with
  | none => .ok []
  | some content => do
    let text ← readText content
    return (splitlines text).foldl (loadLine lib) []

/-! ## What the feed is for -/

/-- The lines of a feed; bytes that are no text are replaced. -/
def feedLines (content : List UInt8) : List (List Char) :=
  (Utf8.decode content).splitOnP isLineBreak

/-- The line is neither blank nor a comment, and it is an address or a network that has the address. -/
structure FeedLib.Names (lib : FeedLib) (line : List Char) (addr : lib.Addr) : Prop where
  not_blank : strip line ≠ []
  not_comment : (strip line).head? ≠ some '#'
  network : ∃ net, lib.ipNetwork (String.ofList (strip line)) = some net ∧ lib.contains net addr = true

/-- The feed is read, and an address is malicious exactly if a line of the feed names it. -/
def Vetted (lib : FeedLib) (content : List UInt8) : Prop :=
  ∃ networks, loadFeed lib (some content) = .ok networks ∧
    ∀ ip, (checkReputation lib.toIpLib networks ip).isMalicious = true ↔
      ∃ addr, lib.ipAddress ip = some addr ∧ ∃ line ∈ feedLines content, lib.Names line addr

end SentinelSsh.Core

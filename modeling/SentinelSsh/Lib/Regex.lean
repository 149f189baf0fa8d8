import SentinelSsh.Lib.Python

/-!
# `re.search` with `re.I`

The patterns are built from literals, `\s`, `\S`, concatenation, alternatives, `+` and `\b`; groups
only bracket. A search asks whether some match exists, so the order in which a backtracking engine
tries the alternatives does not matter: `ends` lists every position a match can end at.
-/

namespace Regex

open Python

/-- A pattern. -/
inductive Pattern where
  | eps
  /-- A literal character, compared without case. -/
  | lit (c : Char)
  /-- `\s` -/
  | space
  /-- `\S` -/
  | nonspace
  | seq (r s : Pattern)
  | alt (r s : Pattern)
  /-- `r+` -/
  | plus (r : Pattern)
  /-- `\b` -/
  | boundary
  deriving DecidableEq, Repr

/-- A position in the subject: the character before it and the text after it. -/
structure Cursor where
  before : Option Char
  rest : List Char
  deriving DecidableEq, Repr

/-- The lower-case letter a character stands for under `re.I`: besides the ASCII capitals these are
the four other characters that match an ASCII letter. -/
def foldCase (c : Char) : Char :=
  if c.toNat = 0x130 ∨ c.toNat = 0x131 then 'i'
  else if c.toNat = 0x17F then 's'
  else if c.toNat = 0x212A then 'k'
  else c.toLower

/-- `\w` -/
def isWord (db : UnicodeDb) (c : Char) : Bool :=
  db.isalnum c || c = '_'

/-- `\b` holds where exactly one side is a word character. -/
def atBoundary (db : UnicodeDb) (p : Cursor) : Bool :=
  p.before.any (isWord db) != p.rest.head?.any (isWord db)

/-- One character that satisfies `ok`. -/
def oneChar (ok : Char → Bool) (p : Cursor) : List Cursor :=
  match p.rest with
  | [] => []
  | c :: cs => if ok c then [⟨some c, cs⟩] else []

/-- One or more rounds of `f`; every round but the last consumes something, so the length of the
rest bounds their number. -/
def rounds (f : Cursor → List Cursor) : Nat → Cursor → List Cursor
  | 0, _ => []
  | n + 1, p => (f p).flatMap fun q =>
      q :: if q.rest.length < p.rest.length then rounds f n q else []

/-- The positions where a match that starts at `p` can end. -/
def ends (db : UnicodeDb) : Pattern → Cursor → List Cursor
  | .eps, p => [p]
  | .lit c, p => oneChar (fun d => foldCase d = foldCase c) p
  | .space, p => oneChar isspace p
  | .nonspace, p => oneChar (fun d => !isspace d) p
  | .seq r s, p => (ends db r p).flatMap (ends db s)
  | .alt r s, p => ends db r p ++ ends db s p
  | .plus r, p => rounds (ends db r) (p.rest.length + 1) p
  | .boundary, p => if atBoundary db p then [p] else []

/-- The positions of a text from a given one on. -/
def cursors (before : Option Char) : List Char → List Cursor
  | [] => [⟨before, []⟩]
  | c :: cs => ⟨before, c :: cs⟩ :: cursors (some c) cs

/-- `pattern.search(text)` finds a match. -/
def search (db : UnicodeDb) (r : Pattern) (text : String) : Bool :=
  (cursors none text.toList).any fun p => !(ends db r p).isEmpty

/-- `pattern.fullmatch(text)` finds a match. -/
def fullmatch (db : UnicodeDb) (r : Pattern) (text : String) : Bool :=
  (ends db r ⟨none, text.toList⟩).any (·.rest.isEmpty)

/-- The literal characters of a string in a row. -/
def word (s : String) : Pattern :=
  s.toList.foldr (fun c r => .seq (.lit c) r) .eps

/-- Patterns in a row. -/
def seqs (rs : List Pattern) : Pattern :=
  rs.foldr .seq .eps

/-- `r|s|...`, for at least one pattern. -/
def alts (r : Pattern) (rs : List Pattern) : Pattern :=
  rs.foldl .alt r

/-! ## Alternatives between anchors -/

/-- A pattern without the `\b` at its ends. -/
structure Anchored where
  leading : Bool
  body : Pattern
  trailing : Bool

def anchored : Pattern → Anchored
  | .seq .boundary (.seq r (.seq .boundary .eps)) => ⟨true, r, true⟩
  | .seq .boundary r => ⟨true, r, false⟩
  | r => ⟨false, r, false⟩

/-- The alternatives of a pattern, with its groups multiplied out. -/
def alternatives : Pattern → List Pattern
  | .alt r s => alternatives r ++ alternatives s
  | .seq r s => (alternatives r).flatMap fun a => (alternatives s).map (.seq a)
  | r => [r]

/-- The alternatives of a pattern alone, without the `\b` around them. -/
def Pattern.branches (r : Pattern) : List Pattern :=
  alternatives (anchored r).body

/-- In `before ++ w ++ after` an alternative of the pattern matches `w`, and there is a `\b` on each
side of `w` where the pattern asks for one. -/
structure Occurs (db : UnicodeDb) (r : Pattern) (before w after : String) : Prop where
  branch : ∃ a ∈ r.branches, fullmatch db a w
  leading : (anchored r).leading → atBoundary db ⟨before.toList.getLast?, (w ++ after).toList⟩
  trailing : (anchored r).trailing → atBoundary db ⟨(before ++ w).toList.getLast?, after.toList⟩

end Regex

import SentinelSsh.Lib.Runs

/-!
# Markup like XML

A reader of marked up text is a parameter: which tags it knows, and the character data it finds in a text.
All that is asked of it (`Reader.Lawful`) is about texts that are put together of pieces: tags it knows,
and texts in which neither a tag nor an entity begins. It finds the texts if the tags are balanced, and
refuses the whole otherwise. What it makes of other texts is left to it.

Markup shows its texts literally if they are its character data.
-/

namespace Markup

/-- What a tag does to the elements that are open. -/
inductive Tag where
  | start (name : String)
  | stop (name : String)
  | empty
  deriving DecidableEq, Repr

/-! ## Pieces -/

/-- A piece of marked up text. -/
inductive Piece where
  | tag (s : String)
  | text (s : String)
  deriving DecidableEq, Repr

/-- What stands in the markup. -/
def Piece.markup : Piece → List Char
  | .tag s => '<' :: s.toList ++ ['>']
  | .text s => s.toList

/-- What is to be shown. -/
def Piece.shown : Piece → List Char
  | .tag _ => []
  | .text s => s.toList

def markup (pieces : List Piece) : List Char :=
  pieces.flatMap Piece.markup

def shown (pieces : List Piece) : List Char :=
  pieces.flatMap Piece.shown

/-- All texts of the pieces are such. -/
def Texts (Q : String → Prop) (pieces : List Piece) : Prop :=
  ∀ text, .text text ∈ pieces → Q text

/-- A text that holds neither `<` nor `&`. -/
def Plain (s : String) : Prop :=
  ∀ c ∈ s.toList, c ≠ '<' ∧ c ≠ '&'

instance (s : String) : Decidable (Plain s) :=
  List.decidableBAll (fun c => c ≠ '<' ∧ c ≠ '&') s.toList

/-- A text in which no tag ends. -/
def Unended (s : String) : Prop :=
  ∀ c ∈ s.toList, c ≠ '>'

instance (s : String) : Decidable (Unended s) :=
  List.decidableBAll (fun c => c ≠ '>') s.toList

/-! ## Tags -/

section Tags

variable (known : String → Option Tag)

/-- The open elements after a tag, the last one first; none if it is unknown or ends another element than
the last one. -/
def nest (opened : List String) (tag : String) : Option (List String) :=
  match known tag, opened with
  | some (.start name), _ => some (name :: opened)
  | some (.stop name), top :: rest => if top = name then some rest else none
  | some .empty, _ => some opened
  | _, _ => none

/-- The open elements after the tags of some pieces. -/
def nestAll : List String → List Piece → Option (List String)
  | opened, [] => some opened
  | opened, .tag s :: pieces => (nest known opened s).bind fun opened => nestAll opened pieces
  | opened, .text _ :: pieces => nestAll opened pieces

end Tags

/-! ## Readers -/

structure Reader where
  /-- The tags that are known, by what stands between `<` and `>`. -/
  tag : String → Option Tag
  /-- The character data of a text; none if it is refused. -/
  read : List Char → Option (List Char)

variable (r : Reader)

/-- A tag that is known, and ends where it is to end, or a plain text. -/
def Reader.Known : Piece → Prop
  | .tag s => (r.tag s).isSome = true ∧ Unended s
  | .text s => Plain s

/-- The character data of pieces that are known are their texts if the tags are balanced. -/
structure Reader.Lawful : Prop where
  balanced : ∀ pieces, (∀ piece ∈ pieces, r.Known piece) → nestAll r.tag [] pieces = some [] →
    r.read (markup pieces) = some (shown pieces)
  unbalanced : ∀ pieces, (∀ piece ∈ pieces, r.Known piece) → nestAll r.tag [] pieces ≠ some [] →
    r.read (markup pieces) = none

/-- The character data of the markup is what is to be shown. -/
def Reader.Literal (pieces : List Piece) : Prop :=
  r.read (markup pieces) = some (shown pieces)

/-- The tags of the pieces are known and balanced, whatever their texts are. -/
structure Reader.Balanced (pieces : List Piece) : Prop where
  known : ∀ s, .tag s ∈ pieces → r.Known (.tag s)
  closed : nestAll r.tag [] pieces = some []

/-- A text that is itself put together of known pieces. -/
def Reader.Composed (text : String) : Prop :=
  ∃ pieces, (∀ piece ∈ pieces, r.Known piece) ∧ text.toList = markup pieces

/-- Plain texts are such, and what is put together of such texts. -/
structure Closed (Q : String → Prop) : Prop where
  plain : ∀ {text}, Plain text → Q text
  append : ∀ {t u}, Q t → Q u → Q (t ++ u)

/-! ## A reader of tags -/

/-- What is being read: a text, or a tag and what was read of it. -/
inductive Mode where
  | text
  | tag (read : List Char)
  deriving DecidableEq, Repr

/-- The elements that are open, the last one first, and the character data. -/
structure State where
  mode : Mode := .text
  opened : List String := []
  data : List Char := []
  deriving DecidableEq, Repr

/-- The reader takes a character; none if it refuses the tag that ends there. -/
def State.step (known : String → Option Tag) (s : State) (c : Char) : Option State :=
  match s.mode with
  | .text => if c = '<' then some { s with mode := .tag [] } else some { s with data := s.data ++ [c] }
  | .tag read =>
    if c = '>' then
      (nest known s.opened (String.ofList read)).map fun opened => { s with mode := .text, opened := opened }
    else some { s with mode := .tag (read ++ [c]) }

/-- A reader to which every `<` opens a tag, and a `&` is a character like others. -/
def tagReader (known : String → Option Tag) : Reader where
  tag := known
  read text :=
    match Runs.run (State.step known) {} text with
    | some { mode := .text, opened := [], data := data } => some data
    | _ => none

end Markup

import Mathlib.Data.List.Basic

/-!
# HTML text and its tags

The tokenizer of the HTML standard outside raw text elements, as a machine that reads one character at
a time: which tags a text holds and with which attributes. Templates are lists of pieces, so that it
is known of every character whether it comes from a field; the tokenizer looks at the character only,
and what it keeps of an attribute's value are the characters that do not come from a field.

Two renderings are `Inert` when they hold the same tags and attributes and field text stands in both
only where text or a quoted value is read, escaped so that it decodes to the value of the field.
-/

namespace Html

/-! ## Character references -/

/-- `'` -/
def apostrophe : Char := Char.ofNat 39

/-- The characters that are written as a reference. -/
def specials : List Char :=
  ['&', '<', '>', '"', apostrophe]

/-- A text without special characters. -/
def Plain (s : List Char) : Prop :=
  ∀ c ∈ s, c ∉ specials

instance (s : List Char) : Decidable (Plain s) :=
  List.decidableBAll (fun c => c ∉ specials) s

/-- The value of an escaped text; none if a special character stands in it as it is. -/
def unescape : List Char → Option (List Char)
  | [] => some []
  | '&' :: 'a' :: 'm' :: 'p' :: ';' :: cs => (unescape cs).map ('&' :: ·)
  | '&' :: 'l' :: 't' :: ';' :: cs => (unescape cs).map ('<' :: ·)
  | '&' :: 'g' :: 't' :: ';' :: cs => (unescape cs).map ('>' :: ·)
  | '&' :: 'q' :: 'u' :: 'o' :: 't' :: ';' :: cs => (unescape cs).map ('"' :: ·)
  | '&' :: '#' :: '3' :: '9' :: ';' :: cs => (unescape cs).map (apostrophe :: ·)
  | c :: cs => if c ∈ specials then none else (unescape cs).map (c :: ·)

/-! ## The tokenizer -/

/-- What the tokenizer is reading. -/
inductive Mode where
  | data
  | tagOpen
  | endTagOpen
  | tagName
  | beforeAttrName
  | attrName
  | afterAttrName
  | beforeValue
  | valueDouble
  | valueSingle
  | valueUnquoted
  | afterValue
  | selfClosing
  | markup
  | markupDash
  | commentStart
  | commentStartDash
  | comment
  | commentDash
  | commentEnd
  | commentBang
  | bogusComment
  deriving DecidableEq, Repr

/-- White space between attributes. -/
def isBlank (c : Char) : Bool :=
  c = ' ' || c = '\t' || c = '\n' || c = '\r' || c = Char.ofNat 12

/-- Where a tag goes on when no attribute is being read. -/
def betweenAttrs (c : Char) : Mode :=
  if isBlank c then .beforeAttrName
  else if c = '/' then .selfClosing
  else if c = '>' then .data
  else .attrName

/-- Inside a comment. -/
def inComment (c : Char) : Mode :=
  if c = '-' then .commentDash else .comment

/-- The transitions of the tokenizer. -/
def Mode.next : Mode → Char → Mode
  | .data, c => if c = '<' then .tagOpen else .data
  | .tagOpen, c =>
    if c = '!' then .markup
    else if c = '/' then .endTagOpen
    else if c.isAlpha then .tagName
    else if c = '?' then .bogusComment
    else if c = '<' then .tagOpen
    else .data
  | .endTagOpen, c => if c.isAlpha then .tagName else if c = '>' then .data else .bogusComment
  | .tagName, c =>
    if isBlank c then .beforeAttrName
    else if c = '/' then .selfClosing
    else if c = '>' then .data
    else .tagName
  | .beforeAttrName, c => betweenAttrs c
  | .attrName, c =>
    if isBlank c then .afterAttrName
    else if c = '/' then .selfClosing
    else if c = '>' then .data
    else if c = '=' then .beforeValue
    else .attrName
  | .afterAttrName, c =>
    if isBlank c then .afterAttrName
    else if c = '/' then .selfClosing
    else if c = '=' then .beforeValue
    else if c = '>' then .data
    else .attrName
  | .beforeValue, c =>
    if isBlank c then .beforeValue
    else if c = '"' then .valueDouble
    else if c = apostrophe then .valueSingle
    else if c = '>' then .data
    else .valueUnquoted
  | .valueDouble, c => if c = '"' then .afterValue else .valueDouble
  | .valueSingle, c => if c = apostrophe then .afterValue else .valueSingle
  | .valueUnquoted, c =>
    if isBlank c then .beforeAttrName else if c = '>' then .data else .valueUnquoted
  | .afterValue, c => betweenAttrs c
  | .selfClosing, c => betweenAttrs c
  | .markup, c => if c = '-' then .markupDash else if c = '>' then .data else .bogusComment
  | .markupDash, c => if c = '-' then .commentStart else if c = '>' then .data else .bogusComment
  | .commentStart, c =>
    if c = '-' then .commentStartDash else if c = '>' then .data else .comment
  | .commentStartDash, c =>
    if c = '-' then .commentEnd else if c = '>' then .data else .comment
  | .comment, c => inComment c
  | .commentDash, c => if c = '-' then .commentEnd else .comment
  | .commentEnd, c =>
    if c = '>' then .data
    else if c = '!' then .commentBang
    else if c = '-' then .commentEnd
    else .comment
  | .commentBang, c => if c = '>' then .data else inComment c
  | .bogusComment, c => if c = '>' then .data else .bogusComment

/-- Text or a quoted value is being read. -/
def Mode.isText : Mode → Bool
  | .data | .valueDouble => true
  | _ => false

/-- A tag is being read, which `>` ends. -/
def Mode.isTag : Mode → Bool
  | .tagName | .beforeAttrName | .attrName | .afterAttrName | .beforeValue | .valueUnquoted
  | .afterValue | .selfClosing => true
  | _ => false

/-- The mode after a text. -/
def Mode.run (m : Mode) (cs : List Char) : Mode :=
  cs.foldl Mode.next m

/-- A tag: its attributes in order, each with what of its value does not come from a field. -/
structure Tag where
  isEnd : Bool
  name : List Char
  attrs : List (List Char × List Char) := []
  isSelfClosing : Bool := false
  deriving DecidableEq, Repr

/-- Append a character to the name of the last attribute. -/
def Tag.extendName (t : Tag) (c : Char) : Tag :=
  { t with attrs := t.attrs.modifyLast fun a => (a.1 ++ [c.toLower], a.2) }

/-- Append a character to the value of the last attribute. -/
def Tag.extendValue (t : Tag) (c : Char) : Tag :=
  { t with attrs := t.attrs.modifyLast fun a => (a.1, a.2 ++ [c]) }

/-- The tag being read, after a character that takes the tokenizer from one mode to another. -/
def Tag.read (t : Tag) (m m' : Mode) (c : Char) (isField : Bool) : Tag :=
  match m, m' with
  | .tagOpen, .tagName => { isEnd := false, name := [c.toLower] }
  | .endTagOpen, .tagName => { isEnd := true, name := [c.toLower] }
  | .tagName, .tagName => { t with name := t.name ++ [c.toLower] }
  | .attrName, .attrName => t.extendName c
  | _, .attrName => { t with attrs := t.attrs ++ [([c.toLower], [])] }
  | .valueDouble, .valueDouble => if isField then t else t.extendValue c
  | .valueSingle, .valueSingle => if isField then t else t.extendValue c
  | .beforeValue, .valueUnquoted => if isField then t else t.extendValue c
  | .valueUnquoted, .valueUnquoted => if isField then t else t.extendValue c
  | .selfClosing, .data => { t with isSelfClosing := true }
  | _, _ => t

/-- The state of the tokenizer. -/
structure State where
  mode : Mode := .data
  tag : Tag := { isEnd := false, name := [] }
  tags : List Tag := []
  deriving DecidableEq, Repr

/-- The tokenizer reads a character; the mark says whether the character comes from a field. -/
def State.step (s : State) (x : Char × Bool) : State :=
  let m' := s.mode.next x.1
  let tag := s.tag.read s.mode m' x.1 x.2
  { mode := m', tag := tag, tags := if s.mode.isTag && m' = .data then s.tags ++ [tag] else s.tags }

def State.run (s : State) (xs : List (Char × Bool)) : State :=
  xs.foldl State.step s

/-! ## Templates -/

/-- A piece of a rendered template: the template's own text, data that is not a field (a number, a
time), or the text a field is rendered as. -/
inductive Piece where
  | lit (s : String)
  | text (s : String)
  | field (value text : String)
  deriving DecidableEq, Repr

/-- The text of a piece. -/
def Piece.content : Piece → String
  | .lit s => s
  | .text s => s
  | .field _ t => t

/-- The characters of a piece, marked when they come from a field. -/
def Piece.marked : Piece → List (Char × Bool)
  | .lit s => s.toList.map (·, false)
  | .text s => s.toList.map (·, false)
  | .field _ t => t.toList.map (·, true)

/-- The HTML string. -/
def html (ps : List Piece) : List Char :=
  ps.flatMap fun p => p.content.toList

/-- The tags of the HTML string. -/
def tags (ps : List Piece) : List Tag :=
  (State.run {} (ps.flatMap Piece.marked)).tags

/-- Field text stands only where text or a quoted value is read, escaped, and decodes to the value of
the field. -/
def Escaped (ps : List Piece) : Prop :=
  ∀ pre value text post, ps = pre ++ .field value text :: post →
    (Mode.data.run (html pre)).isText = true ∧ unescape text.toList = some value.toList

/-- Two renderings hold the same tags and attributes, and field text only as escaped character data. -/
def Inert (ps ps' : List Piece) : Prop :=
  tags ps = tags ps' ∧ Escaped ps ∧ Escaped ps'

/-- The data are plain and the field texts escaped. -/
def Piece.Sound : Piece → Prop
  | .lit _ => True
  | .text s => Plain s.toList
  | .field v t => unescape t.toList = some v.toList

/-- The mode after pieces that are sound, whatever their data and fields are; none if one of these
stands where neither text nor a quoted value is read. -/
def modeAfter : Mode → List Piece → Option Mode
  | m, [] => some m
  | m, .lit s :: ps => modeAfter (m.run s.toList) ps
  | m, .text _ :: ps => if m.isText then modeAfter m ps else none
  | m, .field _ _ :: ps => if m.isText then modeAfter m ps else none

/-- Sound pieces that begin and end where text is read. -/
structure Fragment (ps : List Piece) : Prop where
  keeps : modeAfter .data ps = some .data
  sound : ∀ p ∈ ps, p.Sound

/-- A piece without the text of its field. -/
def Piece.shape : Piece → Piece
  | .field _ _ => .field "" ""
  | p => p

/-- Pieces between separators. -/
def join (sep : String) : List (List Piece) → List Piece
  | [] => []
  | [ps] => ps
  | ps :: qs :: rest => ps ++ .lit sep :: join sep (qs :: rest)

example : tags [.lit "<p title=\"", .field "a" "a", .lit "\">", .field "<b>" "<b>", .lit "</p>"] =
    [{ isEnd := false, name := ['p'], attrs := [("title".toList, [])] },
      { isEnd := false, name := ['b'] }, { isEnd := true, name := ['p'] }] := by
  decide

end Html

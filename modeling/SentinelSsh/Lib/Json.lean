import SentinelSsh.Lib.Python

/-!
# `json.dumps`, and the strings of JSON

The writer covers every value a Python program hands to `json.dumps` here. Of the reader, what it does
inside a string.
-/

namespace Json

open Python

/-! ## Writing -/

/-- The lower-case hexadecimal digit of `n < 16`. -/
def hexDigit (n : Nat) : Char :=
  Char.ofNat (if n < 10 then 48 + n else 87 + n)

/-- `\uXXXX` for a UTF-16 code unit. -/
def hex4 (n : Nat) : List Char :=
  ['\\', 'u', hexDigit (n / 4096 % 16), hexDigit (n / 256 % 16), hexDigit (n / 16 % 16),
    hexDigit (n % 16)]

/-- A character inside a JSON string; with `ascii` (`ensure_ascii=True`) everything outside
`' '..'~'` is written as one or two `\uXXXX`. -/
def escape (ascii : Bool) (c : Char) : List Char :=
  if c = '"' then ['\\', '"']
  else if c = '\\' then ['\\', '\\']
  else if c = '\n' then ['\\', 'n']
  else if c = '\r' then ['\\', 'r']
  else if c = '\t' then ['\\', 't']
  else if c.toNat = 12 then ['\\', 'f']
  else if c.toNat = 8 then ['\\', 'b']
  else if c.toNat < 32 then hex4 c.toNat
  else if ascii && 126 < c.toNat then
    if c.toNat < 0x10000 then hex4 c.toNat
    else hex4 (0xD800 + (c.toNat - 0x10000) / 1024) ++ hex4 (0xDC00 + (c.toNat - 0x10000) % 1024)
  else [c]

/-- A string as a JSON string. -/
def renderStr (ascii : Bool) (s : String) : List Char :=
  '"' :: s.toList.flatMap (escape ascii) ++ ['"']

/-- Rendered items between commas. -/
def commaSep : List (List Char) → List Char
  | [] => []
  | [x] => x
  | x :: y :: xs => x ++ [',', ' '] ++ commaSep (y :: xs)

/-- `json.dumps` of a list of strings. -/
def dumps (xs : List String) : String :=
  String.ofList ('[' :: commaSep (xs.map (renderStr true)) ++ [']'])

/-- A Python value that is handed to `json.dumps`. A float is given by its thousandths. -/
inductive Value where
  | none
  | bool (b : Bool)
  | int (i : Int)
  | float (thousandths : Nat)
  | text (t : Text)
  | list (xs : List Value)
  | dict (kvs : List (String × Value))

/-- `float.__repr__` of a number with at most three decimals. -/
def renderFloat (n : Nat) : String :=
  let frac := n % 1000
  let digits := if frac % 100 = 0 then [frac / 100]
    else if frac % 10 = 0 then [frac / 100, frac / 10 % 10]
    else [frac / 100, frac / 10 % 10, frac % 10]
  toString (n / 1000) ++ "." ++ String.join (digits.map toString)

mutual

/-- `json.dumps(value, ensure_ascii=ascii)`; the error is the message of the `TypeError`. -/
def Value.render (ascii : Bool) : Value → Except String (List Char)
  | .none => .ok "null".toList
  | .bool b => .ok (if b then "true" else "false").toList
  | .int i => .ok (toString i).toList
  | .float n => .ok (renderFloat n).toList
  | .text (.str s) => .ok (renderStr ascii s)
  | .text (.bytes _) => .error "Object of type bytes is not JSON serializable"
  | .list xs => (renderItems ascii xs).map fun ys => '[' :: commaSep ys ++ [']']
  | .dict kvs => (renderFields ascii kvs).map fun ys => '{' :: commaSep ys ++ ['}']

/-- The items of a list. -/
def renderItems (ascii : Bool) : List Value → Except String (List (List Char))
  | [] => .ok []
  | x :: xs => do
    let y ← x.render ascii
    let ys ← renderItems ascii xs
    return y :: ys

/-- The items of a dictionary. -/
def renderFields (ascii : Bool) : List (String × Value) → Except String (List (List Char))
  | [] => .ok []
  | (k, x) :: kvs => do
    let y ← x.render ascii
    let ys ← renderFields ascii kvs
    return (renderStr ascii k ++ [':', ' '] ++ y) :: ys

end

/-! ## Reading -/

/-- JSON white space. -/
def skipWs : List Char → List Char
  | [] => []
  | c :: cs => if c = ' ' ∨ c = '\t' ∨ c = '\n' ∨ c = '\r' then skipWs cs else c :: cs

/-- The value of a hexadecimal digit. -/
def hexVal (c : Char) : Option Nat :=
  if 48 ≤ c.toNat ∧ c.toNat ≤ 57 then some (c.toNat - 48)
  else if 97 ≤ c.toNat ∧ c.toNat ≤ 102 then some (c.toNat - 87)
  else if 65 ≤ c.toNat ∧ c.toNat ≤ 70 then some (c.toNat - 55)
  else none

/-- The code unit after `\u`. -/
def readHex4 : List Char → Option (Nat × List Char)
  | a :: b :: c :: d :: r =>
    match hexVal a, hexVal b, hexVal c, hexVal d with
    | some a, some b, some c, some d => some (a * 4096 + b * 256 + c * 16 + d, r)
    | _, _, _, _ => none
  | _ => none

/-- The character after `\u`: one code unit, or a surrogate pair. A lone surrogate is a Python
string but no text, and is refused. -/
def readUnicode (cs : List Char) : Option (Char × List Char) :=
  match readHex4 cs with
  | none => none
  | some (hi, r) =>
    if 0xD800 ≤ hi ∧ hi < 0xDC00 then
      match r with
      | '\\' :: 'u' :: r' =>
        match readHex4 r' with
        | none => none
        | some (lo, r'') =>
          if 0xDC00 ≤ lo ∧ lo < 0xE000 then
            some (Char.ofNat (0x10000 + (hi - 0xD800) * 1024 + (lo - 0xDC00)), r'')
          else none
      | _ => none
    else if 0xDC00 ≤ hi ∧ hi < 0xE000 then none
    else some (Char.ofNat hi, r)

/-- The character after a backslash. -/
def readEscape : List Char → Option (Char × List Char)
  | [] => none
  | c :: r =>
    if c = '"' ∨ c = '\\' ∨ c = '/' then some (c, r)
    else if c = 'n' then some ('\n', r)
    else if c = 'r' then some ('\r', r)
    else if c = 't' then some ('\t', r)
    else if c = 'f' then some (Char.ofNat 12, r)
    else if c = 'b' then some (Char.ofNat 8, r)
    else if c = 'u' then readUnicode r
    else none

/-- What was read, changed by `f`, and the rest of the text. -/
def mapRead {α β : Type} (f : α → β) : Option (α × List Char) → Option (β × List Char)
  | none => Option.none
  | some (x, r) => some (f x, r)

/-- The rest of a string after its opening quote; the first argument bounds the characters read. -/
def readStr : Nat → List Char → Option (List Char × List Char)
  | 0, _ => none
  | _ + 1, [] => none
  | n + 1, c :: r =>
    if c = '"' then some ([], r)
    else if c = '\\' then
      match readEscape r with
      | none => none
      | some (d, r') => mapRead (d :: ·) (readStr n r')
    else if c.toNat < 32 then none
    else mapRead (c :: ·) (readStr n r)

end Json

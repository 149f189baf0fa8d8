import Mathlib.Algebra.Group.Nat.Defs
import SentinelSsh.Lib.Json

/-!
# `json.loads` of any value

The reader for the values the writer covers. A number with an exponent, a negative one with a fraction,
or one with more than three decimals is no `Value`, and is refused as a lone surrogate is. Reading back
what was written gives the value (`load_render`).
-/

namespace Json

open Python

/-! ## Numbers -/

/-- The digits of an integer at the front of a text: `0` stands alone. -/
def readDigits : List Char → Option (List Char × List Char)
  | '0' :: r => some (['0'], r)
  | cs =>
    let digits := cs.takeWhile Char.isDigit
    if digits = [] then none else some (digits, cs.dropWhile Char.isDigit)

/-- The decimals of a float after its point, with the digits before it. -/
def readDecimals (digits cs : List Char) : Option (Value × List Char) :=
  let decimals := cs.takeWhile Char.isDigit
  if decimals = [] ∨ 3 < decimals.length then none
  else
    let whole := Nat.ofDigitChars 10 digits 0 * 1000
    let frac := Nat.ofDigitChars 10 decimals 0 * 10 ^ (3 - decimals.length)
    some (.float (whole + frac), cs.dropWhile Char.isDigit)

/-- A number that is not negative. -/
def readUnsigned (cs : List Char) : Option (Value × List Char) :=
  match readDigits cs with
  | none => none
  | some (digits, '.' :: r) => readDecimals digits r
  | some (digits, r) => some (.int (Nat.ofDigitChars 10 digits 0), r)

/-- A negative number after its sign. -/
def readNegative (cs : List Char) : Option (Value × List Char) :=
  match readDigits cs with
  | none => none
  | some (_, '.' :: _) => none
  | some (digits, r) => some (.int (-(Nat.ofDigitChars 10 digits 0 : Int)), r)

/-! ## Values -/

/-- `d[key] = value` on the pairs of a dict. -/
def setKey (kvs : List (String × Value)) (kv : String × Value) : List (String × Value) :=
  if kv.1 ∈ kvs.map Prod.fst then kvs.map fun e => if e.1 = kv.1 then kv else e else kvs ++ [kv]

/-- `dict(pairs)` -/
def dictOf (pairs : List (String × Value)) : List (String × Value) :=
  pairs.foldl setKey []

/-- The items of a list after its opening bracket, at the first item. The number bounds the items. -/
def readElements (item : List Char → Option (Value × List Char)) :
    Nat → List Char → Option (List Value × List Char)
  | 0, _ => none
  | n + 1, cs =>
    match item cs with
    | none => none
    | some (x, r) =>
      match skipWs r with
      | ',' :: r' => mapRead (x :: ·) (readElements item n (skipWs r'))
      | ']' :: r' => some ([x], r')
      | _ => none

/-- The pairs of an object after its opening brace, at the first key. The number bounds the pairs. -/
def readMembers (item : List Char → Option (Value × List Char)) :
    Nat → List Char → Option (List (String × Value) × List Char)
  | n + 1, '"' :: cs =>
    match readStr (cs.length + 1) cs with
    | none => none
    | some (key, r) =>
      match skipWs r with
      | ':' :: r' =>
        match item (skipWs r') with
        | none => none
        | some (x, r'') =>
          match skipWs r'' with
          | ',' :: r3 => mapRead ((String.ofList key, x) :: ·) (readMembers item n (skipWs r3))
          | '}' :: r3 => some ([(String.ofList key, x)], r3)
          | _ => none
      | _ => none
  | _, _ => none

/-- `scan_once`: the value at the front of a text. The number bounds the nesting. -/
def readValue : Nat → List Char → Option (Value × List Char)
  | 0, _ => none
  | n + 1, cs =>
    match cs with
    | '"' :: r => mapRead (fun s => .text (.str (String.ofList s))) (readStr (r.length + 1) r)
    | '{' :: r =>
      match skipWs r with
      | '}' :: r' => some (.dict [], r')
      | r' => mapRead (fun pairs => .dict (dictOf pairs)) (readMembers (readValue n) r'.length r')
    | '[' :: r =>
      match skipWs r with
      | ']' :: r' => some (.list [], r')
      | r' => mapRead .list (readElements (readValue n) r'.length r')
    | 'n' :: 'u' :: 'l' :: 'l' :: r => some (.none, r)
    | 't' :: 'r' :: 'u' :: 'e' :: r => some (.bool true, r)
    | 'f' :: 'a' :: 'l' :: 's' :: 'e' :: r => some (.bool false, r)
    | '-' :: r => readNegative r
    | _ => readUnsigned cs

/-- `json.loads(text)`; `none` stands for the `ValueError` and for the values that are no `Value`. -/
def load (text : List Char) : Option Value :=
  match readValue (text.length + 1) (skipWs text) with
  | some (x, r) => if skipWs r = [] then some x else none
  | none => none

/-- A value that is a string. -/
def Value.str? : Value → Option String
  | .text (.str s) => some s
  | _ => Option.none

/-- `json.loads` of a text that denotes a list of strings; `none` stands for the `ValueError` and for the
values of another shape. -/
def loads (text : String) : Option (List String) :=
  match load text.toList with
  | some (.list xs) => xs.mapM Value.str?
  | _ => none

/-! ## Values with a JSON form of their own -/

mutual

/-- No dict of the value has a key twice. -/
def Value.DistinctKeys : Value → Prop
  | .list xs => DistinctItems xs
  | .dict kvs => (kvs.map Prod.fst).Nodup ∧ DistinctFields kvs
  | _ => True

/-- Nor has one of the items. -/
def DistinctItems : List Value → Prop
  | [] => True
  | x :: xs => x.DistinctKeys ∧ DistinctItems xs

/-- Nor has one of the values. -/
def DistinctFields : List (String × Value) → Prop
  | [] => True
  | (_, x) :: kvs => x.DistinctKeys ∧ DistinctFields kvs

end

mutual

/-- The value holds no byte string. -/
def Value.NoBytes : Value → Prop
  | .text (.bytes _) => False
  | .list xs => NoBytesItems xs
  | .dict kvs => NoBytesFields kvs
  | _ => True

/-- Nor does one of the items. -/
def NoBytesItems : List Value → Prop
  | [] => True
  | x :: xs => x.NoBytes ∧ NoBytesItems xs

/-- Nor does one of the values. -/
def NoBytesFields : List (String × Value) → Prop
  | [] => True
  | (_, x) :: kvs => x.NoBytes ∧ NoBytesFields kvs

end

end Json

import SentinelSsh.Lib.Python

/-!
# What `json.loads` returns

The values of a JSON text a client sends. Its strings are Python strings: they may hold lone
surrogates, which no encoding takes.
-/

namespace Python

/-- A character of a Python string; a surrogate is one. -/
abbrev CodePoint := Fin 0x110000

/-- The character of a code point that is no surrogate. -/
def CodePoint.char? (c : CodePoint) : Option Char :=
  if c.val.isValidChar then some (Char.ofNat c.val) else none

/-- `str.encode()`, which raises on a surrogate. -/
def encode (s : List CodePoint) : Option String :=
  (s.mapM CodePoint.char?).map String.ofList

theorem toNat_lt (c : Char) : c.toNat < 0x110000 := by
  rcases c.valid with h | h
  · exact Nat.lt_trans h (by decide)
  · exact h.2

/-- The string as Python holds it. -/
def points (s : String) : List CodePoint :=
  s.toList.map fun c => ⟨c.toNat, toNat_lt c⟩

theorem char?_toNat (ch : Char) : CodePoint.char? ⟨ch.toNat, toNat_lt ch⟩ = some ch := by
  have hvalid : ch.toNat.isValidChar := ch.valid
  unfold CodePoint.char?
  rw [if_pos hvalid, Char.ofNat_toNat]

theorem encode_points (s : String) : encode (points s) = some s := by
  have hchars : (points s).mapM CodePoint.char? = some s.toList := by
    unfold points
    induction s.toList with
    | nil => rfl
    | cons ch chars ih =>
      rw [List.map_cons, List.mapM_cons, char?_toNat, ih]
      rfl
  rw [encode, hchars, Option.map_some, String.ofList_toList]

/-- `str.strip()` of a string with surrogates. -/
def stripPoints (s : List CodePoint) : List CodePoint :=
  let space (c : CodePoint) : Bool := c.char?.any isspace
  (s.dropWhile space).rdropWhile space

end Python

namespace Json

open Python

/-- A number is given by its truth value, as nothing else of it is read. The pairs of an object are
those of the text: of several for one key the last counts. -/
inductive Loaded where
  | null
  | bool (b : Bool)
  | number (nonzero : Bool)
  | str (s : List CodePoint)
  | list (xs : List Loaded)
  | dict (items : List (List CodePoint × Loaded))

namespace Loaded

mutual

/-- How deep lists and objects are nested. -/
def depth : Loaded → Nat
  | .list xs => listDepth xs + 1
  | .dict items => itemsDepth items + 1
  | _ => 0

def listDepth : List Loaded → Nat
  | [] => 0
  | x :: xs => max x.depth (listDepth xs)

def itemsDepth : List (List CodePoint × Loaded) → Nat
  | [] => 0
  | (_, x) :: items => max x.depth (itemsDepth items)

end

/-- `bool(v)` -/
def truthy : Loaded → Bool
  | .null => false
  | .bool b => b
  | .number nonzero => nonzero
  | .str s => !s.isEmpty
  | .list xs => !xs.isEmpty
  | .dict items => !items.isEmpty

/-- `v or w` -/
def orElse (v w : Loaded) : Loaded :=
  if v.truthy then v else w

/-- `d.get(key)` of the pairs of an object. -/
def lookup (items : List (List CodePoint × Loaded)) (key : String) : Loaded :=
  ((items.reverse.find? fun item => encode item.1 = some key).map (·.2)).getD .null

end Loaded

end Json

import Mathlib.Data.List.Infix

/-!
# `LIKE` without regard to case

A pattern is read into tokens: `%` stands for any text, `_` for any one character, and where a
backslash escapes it takes the meaning from the character after it. Everything else stands for itself,
up to case.
-/

namespace Like

/-- What a database makes of a pattern. -/
structure Collation where
  /-- A backslash escapes. -/
  escapes : Bool
  /-- The letter a character is compared as. -/
  fold : Char → Char
  /-- No letter is compared as a character with a meaning of its own. -/
  fold_special : ∀ c d, c ∈ ['%', '_', '\\'] → fold c = fold d → c = d

/-- A character with a meaning of its own is the lower-case form of itself only. -/
theorem toLower_special (c d : Char) (hc : c ∈ ['%', '_', '\\']) (h : c.toLower = d.toLower) : c = d := by
  have hself : c.toLower = c := by
    simp only [List.mem_cons, List.not_mem_nil, or_false] at hc
    rcases hc with rfl | rfl | rfl <;> decide
  have hd : d.toLower = c := by rw [← h, hself]
  unfold Char.toLower at hd
  split at hd
  · next hup =>
    have hval : d.val + ('a'.val - 'A'.val) = c.val := congrArg Char.val hd
    have hnat := congrArg UInt32.toNat hval
    have hmin : 65 ≤ d.val.toNat := UInt32.le_iff_toNat_le.mp hup.1
    have hmax : d.val.toNat ≤ 90 := UInt32.le_iff_toNat_le.mp hup.2
    have hshift : ('a'.val - 'A'.val).toNat = 32 := rfl
    have hspecial : c.val.toNat = 37 ∨ c.val.toNat = 95 ∨ c.val.toNat = 92 := by
      simp only [List.mem_cons, List.not_mem_nil, or_false] at hc
      rcases hc with rfl | rfl | rfl <;> decide
    rw [UInt32.toNat_add, hshift] at hnat
    omega
  · exact hd.symm

/-- SQLite: only the letters of ASCII have a case, and a backslash stands for itself. -/
def Collation.sqlite : Collation where
  escapes := false
  fold := Char.toLower
  fold_special := toLower_special

inductive Token where
  /-- `%` -/
  | any
  /-- `_` -/
  | one
  | lit (c : Char)
  deriving DecidableEq, Repr

/-- The token of a character that is not escaped. -/
def Token.ofChar (c : Char) : Token :=
  if c = '%' then .any
  else if c = '_' then .one
  else .lit c

/-- The tokens of a pattern; `escaped` says that a backslash stands before it. A backslash that nothing
follows is no pattern, and is left out here. -/
def tokens (escapes : Bool) : Bool → List Char → List Token
  | _, [] => []
  | true, c :: cs => .lit c :: tokens escapes false cs
  | false, c :: cs =>
    if escapes && c = '\\' then tokens escapes true cs
    else .ofChar c :: tokens escapes false cs

/-- A text that the tokens stand for. -/
def accepts (fold : Char → Char) : List Token → List Char → Bool
  | [], cs => cs.isEmpty
  | .any :: ts, cs => cs.tails.any (accepts fold ts)
  | .one :: ts, cs => match cs with
    | [] => false
    | _ :: cs => accepts fold ts cs
  | .lit c :: ts, cs => match cs with
    | [] => false
    | d :: cs => fold c = fold d && accepts fold ts cs

/-- `text ILIKE pattern` -/
def ilike (coll : Collation) (pattern text : List Char) : Bool :=
  accepts coll.fold (tokens coll.escapes false pattern) text

/-- The text contains the term, up to case. -/
def Contains (coll : Collation) (term text : List Char) : Prop :=
  term.map coll.fold <:+: text.map coll.fold

instance (coll : Collation) (term text : List Char) : Decidable (Contains coll term text) :=
  inferInstanceAs (Decidable (_ <:+: _))

/-- A character of a pattern that does not stand for itself. -/
def isSpecial (escapes : Bool) (c : Char) : Bool :=
  c = '%' || c = '_' || escapes && c = '\\'

/-- The term has no character with a meaning of its own in a pattern. -/
def Plain (coll : Collation) (term : List Char) : Prop :=
  ∀ c ∈ term, isSpecial coll.escapes c = false

instance (coll : Collation) (term : List Char) : Decidable (Plain coll term) :=
  List.decidableBAll (fun c => isSpecial coll.escapes c = false) term

end Like

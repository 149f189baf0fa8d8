import SentinelSsh.Lib.Python

/-!
# `int` of a string

What `int(s)` makes of a string in base ten, and the literals it takes: digits in groups with
underscores between them, after an optional sign, with white space around.
-/

namespace Python

/-- The decimal digits of Unicode with their values: the table differs between versions outside ASCII. -/
structure Decimals where
  value : Char → Option (Fin 10)
  value_ascii : ∀ c : Char, c.toNat < 128 →
    value c = if c.isDigit then some (Fin.ofNat 10 (c.toNat - 48)) else none
  value_space : ∀ c : Char, isspace c = true → value c = none

/-- The table cut down to ASCII. -/
def Decimals.ascii : Decimals where
  value c := if c.isDigit then some (Fin.ofNat 10 (c.toNat - 48)) else none
  value_ascii _ _ := rfl
  value_space c hc := by
    refine if_neg fun hdigit => ?_
    have hrange : 48 ≤ c.toNat ∧ c.toNat ≤ 57 := by
      simpa [Char.isDigit, UInt32.le_iff_toNat_le] using hdigit
    simp only [isspace, Bool.or_eq_true, Bool.and_eq_true, decide_eq_true_eq] at hc
    omega

/-- White space around a literal. Of the control characters only those count that C takes for white
space. -/
def isBlank (c : Char) : Bool :=
  (9 ≤ c.toNat && c.toNat ≤ 13) || c.toNat = 32 || (127 ≤ c.toNat && isspace c)

/-- `sys.get_int_max_str_digits()` -/
def maxStrDigits : Nat :=
  4300

/-- The number some digits denote. -/
def ofDigits (digits : List (Fin 10)) : Nat :=
  digits.foldl (fun n d => 10 * n + d) 0

/-- Groups of digits with underscores between them, without a sign. -/
def Decimals.natural (u : Decimals) (s : List Char) : Option Nat :=
  let groups := s.splitOn '_'
  if groups.any List.isEmpty then none
  else (groups.flatten.mapM u.value).bind fun digits =>
    if maxStrDigits < digits.length then none else some (ofDigits digits)

/-- The sign of a literal, and what comes after it. -/
def splitSign : List Char → Bool × List Char
  | '-' :: s => (true, s)
  | '+' :: s => (false, s)
  | s => (false, s)

/-- `int(s)`; the `ValueError` is `none`. -/
def Decimals.int (u : Decimals) (s : String) : Option Int :=
  let (negative, digits) := splitSign ((s.toList.dropWhile isBlank).rdropWhile isBlank)
  (u.natural digits).map fun (n : Nat) => if negative then -(n : Int) else n

/-- The characters are groups of digits with underscores between them, and denote `n`. -/
def Decimals.Natural (u : Decimals) (s : List Char) (n : Nat) : Prop :=
  ∃ groups digits, groups ≠ [] ∧ [] ∉ groups ∧ s = ['_'].intercalate groups ∧
    groups.flatten.map u.value = digits.map some ∧ digits.length ≤ maxStrDigits ∧ n = ofDigits digits

end Python

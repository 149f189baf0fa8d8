import Mathlib.Data.List.Basic
import Mathlib.Data.List.DropRight
import Mathlib.Data.List.Nodup

/-!
# Built-ins of Python

The built-in types and functions a Python program leans on, where Lean's own behave differently:
truth values, `str.strip`, `dict.fromkeys`, the Unicode tables and the `str` / `bytes` distinction.
-/

namespace Python

/-! ## `str` and `bytes` -/

/-- A value that is declared `str` but may be `bytes` at run time. -/
inductive Text where
  | str (s : String)
  | bytes (b : List UInt8)
  deriving DecidableEq, Repr

/-- The truth value of an optional string: `None` and `""` are false. -/
def truthy : Option String → Bool
  | none => false
  | some s => s ≠ ""

/-- `a or b`. -/
def or (a b : Option String) : Option String :=
  if truthy a then a else b

@[simp] theorem truthy_none : truthy none = false := rfl

/-! ## Unicode -/

/-- `str.isspace` of one character. -/
def isspace (c : Char) : Bool :=
  let n := c.toNat
  (9 ≤ n && n ≤ 13) || (28 ≤ n && n ≤ 32) || n = 0x85 || n = 0xA0 || n = 0x1680 ||
    (0x2000 ≤ n && n ≤ 0x200A) || n = 0x2028 || n = 0x2029 || n = 0x202F || n = 0x205F || n = 0x3000

/-- The Unicode database of an interpreter: its tables differ between versions outside ASCII. -/
structure UnicodeDb where
  /-- `str.isalnum` of one character. -/
  isalnum : Char → Bool
  /-- `str.lower`. -/
  lower : String → String
  isalnum_ascii : ∀ c : Char, c.toNat < 128 → isalnum c = c.isAlphanum
  lower_ascii : ∀ s : String, (∀ c ∈ s.toList, c.toNat < 128) → lower s = s.toLower

/-- The tables cut down to ASCII. -/
def UnicodeDb.ascii : UnicodeDb where
  isalnum := Char.isAlphanum
  lower := String.toLower
  isalnum_ascii _ _ := rfl
  lower_ascii _ _ := rfl

/-- `str.strip()`. -/
def strip (s : List Char) : List Char :=
  (s.dropWhile isspace).rdropWhile isspace

/-- Stripping takes away white space only. -/
theorem countP_strip (s : List Char) :
    (strip s).countP (fun c => !isspace c) = s.countP fun c => !isspace c := by
  have hdrop : ∀ l : List Char,
      (l.dropWhile isspace).countP (fun c => !isspace c) = l.countP fun c => !isspace c := by
    intro l
    induction l with
    | nil => rfl
    | cons c l ih =>
      rw [List.dropWhile_cons]
      split_ifs with hc
      · rw [ih, List.countP_cons_of_neg (by simp [hc])]
      · rfl
  rw [strip, List.rdropWhile, List.countP_reverse, hdrop, List.countP_reverse, hdrop]

/-! ## `datetime` -/

/-- A `datetime`: what the wall clock shows, in microseconds since the epoch, and the UTC offset of an
aware value in microseconds. -/
structure Datetime where
  wall : Int
  utcoffset : Option Int
  deriving DecidableEq, Repr

/-- The instant a `datetime` denotes; a naive value is read as UTC. -/
def Datetime.instant (d : Datetime) : Int :=
  d.wall - d.utcoffset.getD 0

/-- `d - timedelta(hours=h)`, where the clock is far from the first and the last year. -/
def Datetime.minusHours (d : Datetime) (h : Int) : Datetime :=
  { d with wall := d.wall - h * 3600000000 }

/-- `datetime.min` and `datetime.max`: the first moment of the year 1 and the last one of the year 9999. -/
def Datetime.minWall : Int := -62135596800000000

def Datetime.maxWall : Int := 253402300799999999

/-- `d - timedelta(hours=h)`; `none` for the `OverflowError` outside the years 1 to 9999. -/
def Datetime.subHours (d : Datetime) (h : Int) : Option Datetime :=
  let wall := (d.minusHours h).wall
  if minWall ≤ wall ∧ wall ≤ maxWall then some (d.minusHours h) else none

/-- The aware `datetime` of an instant in UTC. -/
def Datetime.utc (instant : Int) : Datetime where
  wall := instant
  utcoffset := some 0

/-- `d.astimezone(timezone.utc)`, where a naive value was replaced by the one of UTC before. -/
def Datetime.toUtc (d : Datetime) : Datetime :=
  .utc d.instant

/-- `d.replace(minute=0, second=0, microsecond=0)`, for an offset of whole hours. -/
def Datetime.startOfHour (d : Datetime) : Datetime :=
  { d with wall := d.wall / 3600000000 * 3600000000 }

/-- A number in decimal, padded with zeros to a width. -/
def pad (width n : Nat) : String :=
  let digits := toString n
  String.ofList (List.replicate (width - digits.length) '0') ++ digits

/-- Year, month and day of a day counted from the epoch, in the proleptic Gregorian calendar. The
year starts in March here, so that the leap day is its last one. -/
def civil (day : Int) : Int × Nat × Nat :=
  let z := day + 719468
  let era := z / 146097
  let doe := (z % 146097).toNat
  let yoe := (doe - doe / 1460 + doe / 36524 - doe / 146096) / 365
  let doy := doe - (365 * yoe + yoe / 4 - yoe / 100)
  let mp := (5 * doy + 2) / 153
  let month := if mp < 10 then mp + 3 else mp - 9
  (yoe + era * 400 + (if month ≤ 2 then 1 else 0), month, doy - (153 * mp + 2) / 5 + 1)

/-- `d.isoformat()` -/
def Datetime.isoformat (d : Datetime) : String :=
  let (year, month, day) := civil (d.wall / 86400000000)
  let us := (d.wall % 86400000000).toNat
  let clock (us : Nat) : String :=
    pad 2 (us / 3600000000) ++ ":" ++ pad 2 (us / 60000000 % 60)
  let seconds (us : Nat) : String :=
    ":" ++ pad 2 (us / 1000000 % 60) ++
      if us % 1000000 = 0 then "" else "." ++ pad 6 (us % 1000000)
  let offset := match d.utcoffset with
    | none => ""
    | some o => (if o < 0 then "-" else "+") ++ clock o.natAbs ++
        if o.natAbs % 60000000 = 0 then "" else seconds o.natAbs
  pad 4 year.toNat ++ "-" ++ pad 2 month ++ "-" ++ pad 2 day ++ "T" ++ clock us ++ seconds us ++ offset

/-! ## `dict.fromkeys` -/

section FromKeys

variable {α : Type*} [DecidableEq α]

/-- Append `x` unless it is already there. -/
def addKey (keys : List α) (x : α) : List α :=
  if x ∈ keys then keys else keys ++ [x]

/-- `list(dict.fromkeys(xs))`: the elements of `xs` in the order of their first appearance. -/
def fromkeys (xs : List α) : List α :=
  xs.foldl addKey []

theorem nodup_addKey {keys : List α} (h : keys.Nodup) (x : α) : (addKey keys x).Nodup := by
  unfold addKey
  split
  · exact h
  · next hx =>
    refine List.nodup_append.mpr ⟨h, List.nodup_singleton x, ?_⟩
    intro a ha b hb hab
    rw [List.mem_singleton] at hb
    exact hx (hb ▸ hab ▸ ha)

theorem nodup_foldl_addKey {xs keys : List α} (h : keys.Nodup) : (xs.foldl addKey keys).Nodup := by
  induction xs generalizing keys with
  | nil => exact h
  | cons x xs ih => exact ih (nodup_addKey h x)

theorem nodup_fromkeys (xs : List α) : (fromkeys xs).Nodup :=
  nodup_foldl_addKey List.nodup_nil

@[simp] theorem mem_addKey {keys : List α} {x y : α} : y ∈ addKey keys x ↔ y ∈ keys ∨ y = x := by
  unfold addKey
  split
  · next hx =>
    refine ⟨Or.inl, fun h => h.elim id ?_⟩
    rintro rfl
    exact hx
  · simp

@[simp] theorem mem_foldl_addKey {xs keys : List α} {y : α} :
    y ∈ xs.foldl addKey keys ↔ y ∈ keys ∨ y ∈ xs := by
  induction xs generalizing keys with
  | nil => simp
  | cons x xs ih => rw [List.foldl_cons, ih, mem_addKey, List.mem_cons, or_assoc]

@[simp] theorem mem_fromkeys {xs : List α} {y : α} : y ∈ fromkeys xs ↔ y ∈ xs := by
  simp [fromkeys]

/-- Adding keys that are new and pairwise different appends them. -/
theorem foldl_addKey_of_nodup {xs : List α} (keys : List α) (h : (keys ++ xs).Nodup) :
    xs.foldl addKey keys = keys ++ xs := by
  induction xs generalizing keys with
  | nil => simp
  | cons x xs ih =>
    have hx : x ∉ keys := fun hk => (List.nodup_append.mp h).2.2 x hk x (by simp) rfl
    have hadd : addKey keys x = keys ++ [x] := by rw [addKey, if_neg hx]
    rw [List.foldl_cons, hadd, ih _ (by simpa using h), List.append_assoc, List.singleton_append]

theorem fromkeys_of_nodup {xs : List α} (h : xs.Nodup) : fromkeys xs = xs := by
  simpa [fromkeys] using foldl_addKey_of_nodup [] (by simpa using h)

theorem fromkeys_append (xs ys : List α) : fromkeys (xs ++ ys) = ys.foldl addKey (fromkeys xs) := by
  rw [fromkeys, List.foldl_append, fromkeys]

/-- Merging into an already merged list is merging into the original one. -/
theorem fromkeys_fromkeys_append (xs ys : List α) :
    fromkeys (fromkeys xs ++ ys) = fromkeys (xs ++ ys) := by
  rw [fromkeys_append, fromkeys_append, fromkeys_of_nodup (nodup_fromkeys xs)]

/-- Adding one key more to the list that is added adds it last. -/
theorem foldl_addKey_addKey (keys acc : List α) (x : α) :
    (addKey keys x).foldl addKey acc = addKey (keys.foldl addKey acc) x := by
  by_cases hx : x ∈ keys
  · rw [addKey, if_pos hx, addKey, if_pos (mem_foldl_addKey.mpr (Or.inr hx))]
  · rw [addKey, if_neg hx, List.foldl_append]
    rfl

/-- Adding the keys of a list that was itself put together by adding keys. -/
theorem foldl_addKey_foldl_addKey (xs keys acc : List α) :
    (xs.foldl addKey keys).foldl addKey acc = xs.foldl addKey (keys.foldl addKey acc) := by
  induction xs generalizing keys with
  | nil => rfl
  | cons x xs ih => rw [List.foldl_cons, List.foldl_cons, ih, foldl_addKey_addKey]

/-- Repeated keys of a list that is added do not matter. -/
theorem foldl_addKey_fromkeys (xs acc : List α) :
    (fromkeys xs).foldl addKey acc = xs.foldl addKey acc :=
  foldl_addKey_foldl_addKey xs [] acc

end FromKeys

end Python

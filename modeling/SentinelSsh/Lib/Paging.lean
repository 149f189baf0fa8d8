import Mathlib.Data.List.Count

/-!
# Pages of a query

A query selects rows and orders them by a key on which rows may tie. The database is free to put tied
rows in any order, and to choose another one for the next query. A page is a window of such an
arrangement, given by its offset and its length.
-/

namespace Paging

variable {α : Type*}

/-- The rows in an order that `ORDER BY` allows. -/
structure Arranged (le : α → α → Bool) (rows arranged : List α) : Prop where
  perm : arranged.Perm rows
  sorted : arranged.Pairwise fun x y => le x y = true

/-- `OFFSET offset LIMIT limit` -/
def window (offset limit : Nat) (rows : List α) : List α :=
  (rows.drop offset).take limit

/-- The number of pages it takes to show `total` rows. -/
def pages (total perPage : Nat) : Nat :=
  (total + perPage - 1) / perPage

/-- A client that begins with a page, and asks for the next one as long as an answer says that there is
one, asks for these pages. -/
inductive Walk (hasNext : Nat → Bool) : Nat → List Nat → Prop
  | last {page : Nat} : hasNext page = false → Walk hasNext page [page]
  | next {page : Nat} {rest : List Nat} :
    hasNext page = true → Walk hasNext (page + 1) rest → Walk hasNext page (page :: rest)

/-- The number of rows that come before `x` in every arrangement. -/
def before (le : α → α → Bool) (rows : List α) (x : α) : Nat :=
  rows.countP fun y => !le x y

/-- The number of rows that are before `x` or tie with it, `x` included. -/
def upTo (le : α → α → Bool) (rows : List α) (x : α) : Nat :=
  rows.countP fun y => le y x

/-- A group of tied rows has rows on both sides of the position `m`. -/
def Cuts (le : α → α → Bool) (rows : List α) (m : Nat) : Prop :=
  ∃ x ∈ rows, before le rows x < m ∧ m < upTo le rows x

instance (le : α → α → Bool) (rows : List α) (m : Nat) : Decidable (Cuts le rows m) :=
  inferInstanceAs (Decidable (∃ x ∈ rows, before le rows x < m ∧ m < upTo le rows x))

/-- Every row is among the ones returned, once. -/
def EachOnce [DecidableEq α] (rows returned : List α) : Prop :=
  ∀ x ∈ rows, returned.count x = 1

end Paging

import Mathlib.Data.List.Dedup
import SentinelSsh.Lib.Python

/-!
# `collections.Counter`

A counter is a dict from keys to their counts, in the order the keys were first counted, and
`most_common` sorts it by count. What the result is good for is stated without the counter
(`MostFrequent`): which keys are listed, with which counts, and what may be said of the others.
-/

namespace Counter

variable {α : Type*} [DecidableEq α]

/-- `counter[x] += 1` -/
def bump (counter : List (α × Nat)) (x : α) : List (α × Nat) :=
  if x ∈ counter.map Prod.fst then counter.map fun (key, n) => if key = x then (key, n + 1) else (key, n)
  else counter ++ [(x, 1)]

/-- The counter of the elements of a list. -/
def ofList (xs : List α) : List (α × Nat) :=
  xs.foldl bump []

/-- `counter.most_common(limit)`; keys of the same count keep their order. -/
def mostCommon (counter : List (α × Nat)) (limit : Nat) : List (α × Nat) :=
  (counter.mergeSort fun a b => b.2 ≤ a.2).take limit

/-- `ORDER BY count(*) DESC`: the groups with the more frequent ones first; the database is free to choose
among groups of the same count. -/
def OrdersByCount (arrange : List (α × Nat) → List (α × Nat)) : Prop :=
  ∀ groups, (arrange groups).Perm groups ∧ (arrange groups).Pairwise fun a b => b.2 ≤ a.2

/-- `top` lists the `limit` most frequent keys among `xs`, most frequent first. -/
structure MostFrequent (xs : List α) (frequency : α → Nat) (limit : Nat) (top : List (α × Nat)) : Prop where
  listed : ∀ e ∈ top, e.1 ∈ xs ∧ e.2 = frequency e.1
  nodup : (top.map Prod.fst).Nodup
  length : top.length = min limit xs.dedup.length
  sorted : top.Pairwise fun a b => b.2 ≤ a.2
  /-- A key that is left out is not more frequent than a listed one. -/
  omitted : ∀ x ∈ xs, x ∉ top.map Prod.fst → ∀ e ∈ top, frequency x ≤ e.2

end Counter

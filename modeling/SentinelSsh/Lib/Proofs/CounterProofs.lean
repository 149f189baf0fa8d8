import Mathlib.Algebra.Ring.Nat
import Mathlib.Data.List.Sort
import SentinelSsh.Lib.Counter

/-!
# Counters count

Counting the elements of a list one by one leaves the distinct elements in the order of their first
appearance, each with the number of its occurrences (`ofList_eq`). Sorting by count and cutting the
result off leaves out nothing that is more frequent than what stays.
-/

namespace Counter

open Python

variable {α : Type*} [DecidableEq α]

/-! ## The counter of a list -/

/-- The distinct elements of a list with the numbers of their occurrences. -/
def tally (xs : List α) : List (α × Nat) :=
  (fromkeys xs).map fun x => (x, xs.count x)

theorem map_fst_tally (xs : List α) : (tally xs).map Prod.fst = fromkeys xs := by
  rw [tally, List.map_map]
  exact List.map_id _

theorem fromkeys_concat (xs : List α) (x : α) : fromkeys (xs ++ [x]) = addKey (fromkeys xs) x :=
  fromkeys_append xs [x]

theorem count_concat (xs : List α) (x y : α) :
    (xs ++ [x]).count y = if y = x then xs.count y + 1 else xs.count y := by
  rw [List.count_append, List.count_singleton]
  by_cases h : y = x
  · rw [if_pos h, h, beq_self_eq_true, if_pos rfl]
  · have hne : (x == y) = false := beq_false_of_ne fun he => h he.symm
    rw [if_neg h, hne, if_neg Bool.false_ne_true, Nat.add_zero]

theorem bump_tally (xs : List α) (x : α) : bump (tally xs) x = tally (xs ++ [x]) := by
  unfold bump
  rw [map_fst_tally]
  by_cases hx : x ∈ fromkeys xs
  · have hkeys : fromkeys (xs ++ [x]) = fromkeys xs := by rw [fromkeys_concat, addKey, if_pos hx]
    rw [if_pos hx, tally, tally, hkeys, List.map_map]
    refine List.map_congr_left fun y _ => ?_
    rw [count_concat]
    dsimp only [Function.comp_apply]
    split <;> rfl
  · have hkeys : fromkeys (xs ++ [x]) = fromkeys xs ++ [x] := by rw [fromkeys_concat, addKey, if_neg hx]
    have hnone : xs.count x = 0 := List.count_eq_zero.mpr fun hmem => hx (mem_fromkeys.mpr hmem)
    rw [if_neg hx, tally, tally, hkeys, List.map_append, List.map_singleton, count_concat, if_pos rfl, hnone]
    refine congrArg (· ++ [(x, 0 + 1)]) (List.map_congr_left fun y hy => ?_)
    have hne : y ≠ x := fun he => hx (he ▸ hy)
    rw [count_concat, if_neg hne]

theorem ofList_eq (xs : List α) : ofList xs = tally xs := by
  induction xs using List.reverseRecOn with
  | nil => rfl
  | append_singleton xs x ih =>
    have hstep : ofList (xs ++ [x]) = bump (ofList xs) x := List.foldl_concat _ _ _ _
    rw [hstep, ih, bump_tally]

/-! ## The most common keys -/

theorem length_fromkeys (xs : List α) : (fromkeys xs).length = xs.dedup.length := by
  have hperm : (fromkeys xs).Perm xs.dedup :=
    (List.perm_ext_iff_of_nodup (nodup_fromkeys xs) (List.nodup_dedup xs)).mpr fun x => by
      rw [mem_fromkeys, List.mem_dedup]
  exact hperm.length_eq

/-- What a sorted list is cut off at comes last. -/
theorem le_of_mem_take {β : Type*} {le : β → β → Prop} {l : List β} (h : l.Pairwise le) {n : Nat} {a b : β}
    (ha : a ∈ l.take n) (hb : b ∈ l.drop n) : le a b := by
  rw [← List.take_append_drop n l] at h
  exact (List.pairwise_append.mp h).2.2 a ha b hb

/-- The groups of a list in any order that puts the more frequent ones first, cut off. -/
theorem mostFrequent_take {xs : List α} {sorted : List (α × Nat)} (hperm : sorted.Perm (ofList xs))
    (hpair : sorted.Pairwise fun a b => b.2 ≤ a.2) (limit : Nat) :
    MostFrequent xs xs.count limit (sorted.take limit) := by
  rw [ofList_eq] at hperm
  have hentry : ∀ e ∈ sorted, e.1 ∈ xs ∧ e.2 = xs.count e.1 := by
    intro e he
    obtain ⟨x, hx, rfl⟩ := List.mem_map.mp (hperm.mem_iff.mp he)
    exact ⟨mem_fromkeys.mp hx, rfl⟩
  have hnodup : (sorted.map Prod.fst).Nodup := by
    rw [(hperm.map Prod.fst).nodup_iff, map_fst_tally]
    exact nodup_fromkeys xs
  refine ⟨fun e he => hentry e (List.mem_of_mem_take he), ?_, ?_, ?_, ?_⟩
  · exact hnodup.sublist ((List.take_sublist limit sorted).map Prod.fst)
  · rw [List.length_take, hperm.length_eq, tally, List.length_map, length_fromkeys]
  · exact hpair.sublist (List.take_sublist limit sorted)
  · intro x hx hout e he
    have hmem : (x, xs.count x) ∈ sorted :=
      hperm.mem_iff.mpr (List.mem_map.mpr ⟨x, mem_fromkeys.mpr hx, rfl⟩)
    have hdrop : (x, xs.count x) ∈ sorted.drop limit := by
      rw [← List.take_append_drop limit sorted, List.mem_append] at hmem
      rcases hmem with htake | hdrop
      · exact absurd (List.mem_map.mpr ⟨_, htake, rfl⟩) hout
      · exact hdrop
    exact le_of_mem_take hpair he hdrop

/-- A stable sort is one of the orders. -/
theorem ordersByCount_mergeSort {β : Type*} :
    OrdersByCount fun groups : List (β × Nat) => groups.mergeSort fun a b => b.2 ≤ a.2 := by
  refine fun groups => ⟨List.mergeSort_perm _ _, ?_⟩
  have hmerge : (groups.mergeSort fun a b => b.2 ≤ a.2).Pairwise fun a b => decide (b.2 ≤ a.2) = true :=
    List.pairwise_mergeSort (fun a b c => by simp only [decide_eq_true_eq]; omega)
      (fun a b => by simp only [Bool.or_eq_true, decide_eq_true_eq]; omega) groups
  exact hmerge.imp fun h => by simpa using h

/-- `most_common` lists the most frequent elements of the list that was counted. -/
theorem mostFrequent_mostCommon (xs : List α) (limit : Nat) :
    MostFrequent xs xs.count limit (mostCommon (ofList xs) limit) := by
  obtain ⟨hperm, hsorted⟩ := ordersByCount_mergeSort (ofList xs)
  exact mostFrequent_take hperm hsorted limit

/-- Another name for the frequencies. -/
theorem MostFrequent.congr {xs : List α} {f g : α → Nat} {limit : Nat} {top : List (α × Nat)}
    (h : MostFrequent xs f limit top) (hfg : ∀ x ∈ xs, f x = g x) : MostFrequent xs g limit top where
  listed e he := by
    obtain ⟨hmem, hcount⟩ := h.listed e he
    exact ⟨hmem, hcount.trans (hfg e.1 hmem)⟩
  nodup := h.nodup
  length := h.length
  sorted := h.sorted
  omitted x hx hout e he := hfg x hx ▸ h.omitted x hx hout e he

/-- An element that no row holds twice occurs as often as there are rows that hold it. -/
theorem count_flatMap {ρ : Type*} {rows : List ρ} {f : ρ → List α} (h : ∀ r ∈ rows, (f r).Nodup) (x : α) :
    (rows.flatMap f).count x = rows.countP fun r => x ∈ f r := by
  induction rows with
  | nil => rfl
  | cons r rows ih =>
    have hrows := ih fun r' hr' => h r' (List.mem_cons_of_mem r hr')
    rw [List.flatMap_cons, List.count_append, hrows, List.countP_cons,
      (h r List.mem_cons_self).count, Nat.add_comm]
    by_cases hx : x ∈ f r
    · simp [hx]
    · simp [hx]

/-! ## Counting by classes -/

theorem lookup_ofList (xs : List α) (x : α) : ((ofList xs).lookup x).getD 0 = xs.count x := by
  have hlookup : ∀ keys : List α, (keys.map fun y => (y, xs.count y)).lookup x =
      if x ∈ keys then some (xs.count x) else none := by
    intro keys
    induction keys with
    | nil => rfl
    | cons y keys ih =>
      rw [List.map_cons, List.lookup_cons, ih]
      by_cases hy : x = y
      · simp [hy]
      · simp [hy, beq_false_of_ne hy]
  rw [ofList_eq, tally, hlookup]
  by_cases hx : x ∈ fromkeys xs
  · rw [if_pos hx, Option.getD_some]
  · have hnone : x ∉ xs := fun hmem => hx (mem_fromkeys.mpr hmem)
    rw [if_neg hx, Option.getD_none, List.count_eq_zero.mpr hnone]

/-- The sizes of some classes add up to the number of classes each element is in. -/
theorem sum_countP {ρ κ : Type*} (classes : List κ) (p : κ → ρ → Bool) (rows : List ρ) :
    (classes.map fun c => rows.countP (p c)).sum = (rows.map fun r => classes.countP fun c => p c r).sum := by
  induction rows with
  | nil => simp
  | cons r rows ih =>
    have hcons : (classes.map fun c => (r :: rows).countP (p c)).sum =
        (classes.map fun c => rows.countP (p c)).sum + classes.countP fun c => p c r := by
      clear ih
      induction classes with
      | nil => rfl
      | cons c classes ihc =>
        simp only [List.map_cons, List.sum_cons, List.countP_cons] at ihc ⊢
        rw [ihc]
        omega
    rw [hcons, ih, List.map_cons, List.sum_cons, Nat.add_comm]

/-- Classes that have every element once have as many elements as there are. -/
theorem sum_countP_of_partition {ρ κ : Type*} {classes : List κ} {p : κ → ρ → Bool} {rows : List ρ}
    (h : ∀ r ∈ rows, (classes.countP fun c => p c r) = 1) :
    (classes.map fun c => rows.countP (p c)).sum = rows.length := by
  have hone : (rows.map fun r => classes.countP fun c => p c r) = rows.map fun _ => 1 :=
    List.map_congr_left h
  rw [sum_countP, hone, List.map_const', List.sum_replicate_nat, Nat.mul_one]

/-- Two counts agree, one of which has stricter conditions, if and only if no row meets only the laxer
ones. -/
theorem countP_eq_iff {ρ : Type*} {rows : List ρ} {p q : ρ → Bool} (h : ∀ a ∈ rows, p a = true → q a = true) :
    rows.countP p = rows.countP q ↔ ∀ a ∈ rows, q a = true → p a = true := by
  have hsplit : rows.countP q = rows.countP p + rows.countP fun a => q a && !p a := by
    induction rows with
    | nil => rfl
    | cons a rows ih =>
      have ha := h a List.mem_cons_self
      simp only [List.countP_cons, ih fun b hb => h b (List.mem_cons_of_mem a hb)]
      cases hp : p a with
      | true => rw [ha hp, Bool.not_true, Bool.and_false]; simp; omega
      | false => rw [Bool.not_false, Bool.and_true]; simp; omega
  rw [hsplit, Nat.left_eq_add, List.countP_eq_zero]
  refine forall₂_congr fun a _ => ?_
  cases q a <;> cases p a <;> simp

/-- A key that is more frequent than all others is the one that is listed. -/
theorem MostFrequent.eq_singleton {xs : List α} {frequency : α → Nat} {top : List (α × Nat)}
    (h : MostFrequent xs frequency 1 top) {x : α} (hx : x ∈ xs)
    (hmost : ∀ y ∈ xs, y ≠ x → frequency y < frequency x) : top = [(x, frequency x)] := by
  have hpos : 0 < xs.dedup.length := List.length_pos_of_mem (List.mem_dedup.mpr hx)
  obtain ⟨e, rfl⟩ := List.length_eq_one_iff.mp (h.length.trans (min_eq_left hpos))
  obtain ⟨hmem, hcount⟩ := h.listed e (List.mem_singleton_self e)
  have hkey : e.1 = x := by
    by_contra hne
    have hle := h.omitted x hx (by simpa using fun h => hne h.symm) e (List.mem_singleton_self e)
    have := hmost e.1 hmem hne
    omega
  rw [← hkey, ← hcount]

end Counter

import Mathlib.Data.List.Basic

/-!
# Computations that raise

What a list is turned into element by element, when an element may raise (`mapM_cases`), and which
exceptions escape: a computation stays within some exceptions if it raises no others. The rules for that
follow the way it is put together, and lose nothing: each is an equivalence.
-/

namespace Escapes

variable {α β γ ε ε' : Type} {handled : ε → Prop} {f : α → Except ε β} {xs : List α} {ys : List β}

/-! ## Lists -/

/-- Either every element has a result, or the first one that has none raises. -/
theorem mapM_cases (f : α → Except ε β) (xs : List α) :
    (∃ ys, xs.mapM f = .ok ys ∧ xs.map f = ys.map .ok) ∨
      ∃ x ∈ xs, ∃ e, f x = .error e ∧ xs.mapM f = .error e := by
  induction xs with
  | nil => exact Or.inl ⟨[], rfl, rfl⟩
  | cons x xs ih =>
    rw [List.mapM_cons]
    cases hx : f x with
    | error e => exact Or.inr ⟨x, List.mem_cons_self, e, hx, rfl⟩
    | ok y =>
      rcases ih with ⟨ys, hys, hmap⟩ | ⟨z, hz, e, he, hraise⟩
      · rw [hys]
        refine Or.inl ⟨y :: ys, rfl, ?_⟩
        rw [List.map_cons, List.map_cons, hx, hmap]
      · rw [hraise]
        exact Or.inr ⟨z, List.mem_cons_of_mem x hz, e, he, rfl⟩

theorem map_of_mapM (h : xs.mapM f = .ok ys) : xs.map f = ys.map .ok := by
  rcases mapM_cases f xs with ⟨zs, hzs, hmap⟩ | ⟨x, -, e, -, hraise⟩
  · obtain rfl := Except.ok.inj (hzs.symm.trans h)
    exact hmap
  · rw [hraise] at h
    cases h

theorem exists_ok_of_mapM (h : xs.mapM f = .ok ys) {x : α} (hx : x ∈ xs) : ∃ y, f x = .ok y := by
  have hmem : f x ∈ xs.map f := List.mem_map_of_mem hx
  rw [map_of_mapM h] at hmem
  obtain ⟨y, -, hy⟩ := List.mem_map.mp hmem
  exact ⟨y, hy.symm⟩

theorem mem_of_mapM (h : xs.mapM f = .ok ys) : ∀ y ∈ ys, ∃ x ∈ xs, f x = .ok y := by
  intro y hy
  have hmem : .ok y ∈ ys.map (Except.ok (ε := ε)) := List.mem_map_of_mem hy
  rw [← map_of_mapM h] at hmem
  exact List.mem_map.mp hmem

/-- What a result says is what its element says, all in the same order. -/
theorem map_eq_of_mapM {g : β → γ} {k : α → γ} (hg : ∀ x y, f x = .ok y → g y = k x)
    (h : xs.mapM f = .ok ys) : ys.map g = xs.map k := by
  have hmap := map_of_mapM h
  clear h
  induction xs generalizing ys with
  | nil =>
    obtain rfl := List.map_eq_nil_iff.mp hmap.symm
    rfl
  | cons x xs ih =>
    cases ys with
    | nil => cases hmap
    | cons y ys =>
      obtain ⟨hx, htail⟩ := List.cons.inj hmap
      rw [List.map_cons, List.map_cons, hg x y hx, ih htail]

/-- A list has results that satisfy `Q` if every element has one. -/
theorem exists_mapM_iff {Q : β → Prop} :
    (∃ ys, xs.mapM f = .ok ys ∧ ∀ y ∈ ys, Q y) ↔ ∀ x ∈ xs, ∃ y, f x = .ok y ∧ Q y := by
  constructor
  · rintro ⟨ys, hys, hQ⟩ x hx
    obtain ⟨y, hy⟩ := exists_ok_of_mapM hys hx
    have hmem : f x ∈ ys.map .ok := map_of_mapM hys ▸ List.mem_map_of_mem hx
    obtain ⟨y', hy', heq⟩ := List.mem_map.mp hmem
    exact ⟨y', heq.symm, hQ y' hy'⟩
  · intro h
    rcases mapM_cases f xs with ⟨ys, hys, -⟩ | ⟨x, hx, e, he, -⟩
    · refine ⟨ys, hys, fun y hy => ?_⟩
      obtain ⟨x, hx, hxy⟩ := mem_of_mapM hys y hy
      obtain ⟨y', hy', hQ⟩ := h x hx
      cases hxy.symm.trans hy'
      exact hQ
    · obtain ⟨y, hy, -⟩ := h x hx
      cases he.symm.trans hy

/-! ## Results -/

theorem bind_eq_ok {x : Except ε α} {f : α → Except ε β} {b : β} :
    x >>= f = .ok b ↔ ∃ a, x = .ok a ∧ f a = .ok b := by
  cases x with
  | error e => exact iff_of_false (fun h => nomatch h) fun ⟨a, h, _⟩ => nomatch h
  | ok a =>
    refine ⟨fun h => ⟨a, rfl, h⟩, fun ⟨a', ha, h⟩ => ?_⟩
    cases ha
    exact h

theorem map_eq_ok {x : Except ε α} {f : α → β} {b : β} : x.map f = .ok b ↔ ∃ a, x = .ok a ∧ f a = b := by
  cases x with
  | error e => exact iff_of_false (fun h => nomatch h) fun ⟨a, h, _⟩ => nomatch h
  | ok a =>
    refine ⟨fun h => ⟨a, rfl, Except.ok.inj h⟩, ?_⟩
    rintro ⟨a', ha, rfl⟩
    cases ha
    rfl

theorem toOption_eq_some {x : Except ε α} {a : α} (h : x.toOption = some a) : x = .ok a := by
  cases x with
  | error e => exact nomatch h
  | ok b => exact congrArg Except.ok (Option.some.inj h)

theorem isOk_iff {x : Except ε α} : x.isOk = true ↔ ∃ a, x = .ok a := by
  cases x with
  | error e => exact iff_of_false Bool.false_ne_true fun ⟨_, h⟩ => nomatch h
  | ok a => exact iff_of_true rfl ⟨a, rfl⟩

theorem isOk_map {x : Except ε α} {g : α → γ} : (x.map g).isOk = x.isOk := by
  cases x <;> rfl

/-- A list has results if every element has one. -/
theorem isOk_mapM : (xs.mapM f).isOk = xs.all fun x => (f x).isOk := by
  rw [Bool.eq_iff_iff, List.all_eq_true]
  rcases mapM_cases f xs with ⟨ys, hys, -⟩ | ⟨x, hx, e, he, hraise⟩
  · refine iff_of_true (by rw [hys]; rfl) fun x hx => ?_
    obtain ⟨y, hy⟩ := exists_ok_of_mapM hys hx
    rw [hy]
    rfl
  · refine iff_of_false (by rw [hraise]; exact Bool.false_ne_true) fun hall => ?_
    have hok := hall x hx
    rw [he] at hok
    exact Bool.false_ne_true hok

/-! ## Exceptions that escape -/

/-- The computation raises nothing but what is handled. -/
def Within (handled : ε → Prop) : Except ε α → Prop
  | .ok _ => True
  | .error e => handled e

@[simp] theorem within_error {e : ε} : Within handled (.error e : Except ε α) ↔ handled e :=
  Iff.rfl

end Escapes

import Mathlib.Data.List.TakeWhile
import SentinelSsh.Lib.IntLiteral

/-!
# `int` reads the literals

`int_eq_some_iff`: `int` takes the texts that are literals, with the value they denote, and no others.
What is stripped off is blank, and no character of a literal itself is.
-/

namespace Python

variable {u : Decimals} {s : List Char}

/-! ## Groups of digits -/

theorem mem_intercalate {sep c : Char} {groups : List (List Char)} (h : c ∈ [sep].intercalate groups) :
    c = sep ∨ c ∈ groups.flatten := by
  induction groups with
  | nil => exact absurd h List.not_mem_nil
  | cons g groups ih =>
    cases groups with
    | nil => exact Or.inr (by simpa using h)
    | cons g' groups =>
      rw [List.intercalate_cons_cons, List.mem_append, List.mem_append, List.mem_singleton] at h
      rw [List.flatten_cons, List.mem_append]
      rcases h with (h | h) | h
      · exact Or.inr (Or.inl h)
      · exact Or.inl h
      · exact (ih h).imp_right Or.inr

/-- A digit is none of the other characters of a literal, and is not blank. -/
theorem Decimals.not_isDigit (u : Decimals) {c : Char} (h : (u.value c).isSome = true) :
    isBlank c = false ∧ c ≠ '_' ∧ c ≠ '+' ∧ c ≠ '-' := by
  have hascii : ∀ d : Char, d.toNat < 128 → d.isDigit = false → c ≠ d := by
    rintro d hd hdigit rfl
    rw [u.value_ascii c hd, hdigit] at h
    exact Bool.false_ne_true h
  have hspace : isspace c = false := by
    by_contra hc
    rw [u.value_space c (by simpa using hc)] at h
    exact Bool.false_ne_true h
  refine ⟨?_, hascii _ (by decide) (by decide), hascii _ (by decide) (by decide),
    hascii _ (by decide) (by decide)⟩
  simp only [isspace, Bool.or_eq_false_iff, Bool.and_eq_false_iff, decide_eq_false_iff_not] at hspace
  simp only [isBlank, isspace, Bool.or_eq_false_iff, Bool.and_eq_false_iff, decide_eq_false_iff_not]
  omega

/-- The characters of a number. -/
theorem Decimals.Natural.mem {n : Nat} (h : u.Natural s n) {c : Char} (hc : c ∈ s) :
    isBlank c = false ∧ c ≠ '+' ∧ c ≠ '-' := by
  obtain ⟨groups, digits, -, -, rfl, hvalues, -, -⟩ := h
  rcases mem_intercalate hc with rfl | hc
  · decide
  · have hmem : u.value c ∈ groups.flatten.map u.value := List.mem_map_of_mem hc
    rw [hvalues] at hmem
    obtain ⟨d, -, hd⟩ := List.mem_map.mp hmem
    obtain ⟨hblank, -, hplus, hminus⟩ := u.not_isDigit (c := c) (by rw [← hd]; rfl)
    exact ⟨hblank, hplus, hminus⟩

/-! ## Signs and blanks -/

end Python

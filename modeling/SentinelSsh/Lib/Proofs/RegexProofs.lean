import Mathlib.Computability.Language
import SentinelSsh.Lib.Regex

/-!
# What a search finds

A pattern without `\b` has a language, and where it matches does not depend on what stands around the
match (`mem_ends`). So a search with anchors at the ends finds exactly the occurrences of an alternative
that have a word boundary on each side that is anchored (`search_iff`).
-/

namespace Regex

open Python Computability

variable {db : UnicodeDb} {r : Pattern} {p q : Cursor} {u v w : List Char}

/-! ## Reading a text -/

/-- `q` is the position after `w`, read from `p` on. -/
structure Reads (w : List Char) (p q : Cursor) : Prop where
  rest : p.rest = w ++ q.rest
  before : q.before = w.getLast?.or p.before

@[simp] theorem reads_nil : Reads [] p q ↔ q = p := by
  constructor
  · rintro ⟨hrest, hbefore⟩
    cases p
    cases q
    simp_all
  · rintro rfl
    exact ⟨rfl, by simp⟩

theorem reads_append {q' : Cursor} : Reads (u ++ v) p q' ↔ ∃ q, Reads u p q ∧ Reads v q q' := by
  constructor
  · rintro ⟨hrest, hbefore⟩
    refine ⟨⟨u.getLast?.or p.before, v ++ q'.rest⟩, ⟨?_, rfl⟩, ⟨rfl, ?_⟩⟩
    · rw [hrest, List.append_assoc]
    · rw [hbefore, List.getLast?_append, Option.or_assoc]
  · rintro ⟨q, hu, hv⟩
    refine ⟨?_, ?_⟩
    · rw [hu.rest, hv.rest, List.append_assoc]
    · rw [hv.before, hu.before, List.getLast?_append, Option.or_assoc]

theorem mem_oneChar {ok : Char → Bool} : q ∈ oneChar ok p ↔ ∃ c, ok c ∧ Reads [c] p q := by
  obtain ⟨before, rest⟩ := p
  cases rest with
  | nil =>
    refine iff_of_false (by simp [oneChar]) ?_
    rintro ⟨c, -, hread⟩
    simpa using hread.rest
  | cons c cs =>
    simp only [oneChar]
    constructor
    · intro hq
      split_ifs at hq with hc
      · rw [List.mem_singleton.mp hq]
        exact ⟨c, hc, rfl, by simp⟩
      · simp at hq
    · rintro ⟨d, hd, hrest, hbefore⟩
      obtain ⟨rfl, hcs⟩ := List.cons.inj hrest
      rw [if_pos hd]
      obtain ⟨b, rest⟩ := q
      simp_all

theorem mem_cursors {before : Option Char} {text : List Char} :
    p ∈ cursors before text ↔ ∃ w, Reads w ⟨before, text⟩ p := by
  induction text generalizing before with
  | nil =>
    rw [cursors, List.mem_singleton]
    constructor
    · rintro rfl
      exact ⟨[], reads_nil.mpr rfl⟩
    · rintro ⟨w, hread⟩
      obtain ⟨rfl, -⟩ := List.append_eq_nil_iff.mp hread.rest.symm
      exact reads_nil.mp hread
  | cons c cs ih =>
    rw [cursors, List.mem_cons, ih]
    constructor
    · rintro (rfl | ⟨w, hread⟩)
      · exact ⟨[], reads_nil.mpr rfl⟩
      · exact ⟨c :: w, reads_append (u := [c]).mpr ⟨_, ⟨rfl, by simp⟩, hread⟩⟩
    · rintro ⟨w, hread⟩
      cases w with
      | nil => exact Or.inl (reads_nil.mp hread)
      | cons d w =>
        obtain ⟨⟨b, rest⟩, hd, hw⟩ := reads_append (u := [d]).mp hread
        obtain ⟨rfl, rfl⟩ := List.cons.inj hd.rest
        have hb : b = some c := by simpa using hd.before
        exact Or.inr ⟨w, hb ▸ hw⟩

/-! ## Languages -/

/-- The texts a pattern matches when nothing asks for a boundary. -/
def lang : Pattern → Language Char
  | .eps => 1
  | .lit c => {w | ∃ d, foldCase d = foldCase c ∧ w = [d]}
  | .space => {w | ∃ d, isspace d ∧ w = [d]}
  | .nonspace => {w | ∃ d, !isspace d ∧ w = [d]}
  | .seq r s => lang r * lang s
  | .alt r s => lang r + lang s
  | .plus r => lang r * (lang r)∗
  | .boundary => 1

/-- There is no `\b` in the pattern. -/
def boundaryFree : Pattern → Bool
  | .seq r s | .alt r s => boundaryFree r && boundaryFree s
  | .plus r => boundaryFree r
  | .boundary => false
  | _ => true

section Rounds

variable {L : Language Char} {f : Cursor → List Cursor}
  (hf : ∀ p q, q ∈ f p ↔ ∃ w ∈ L, Reads w p q)
include hf

theorem exists_of_mem_rounds {n : Nat} (hq : q ∈ rounds f n p) : ∃ w ∈ L * L∗, Reads w p q := by
  induction n generalizing p with
  | zero => simp [rounds] at hq
  | succ n ih =>
    obtain ⟨q₁, hq₁, hq⟩ := List.mem_flatMap.mp hq
    obtain ⟨u, hu, hread⟩ := (hf p q₁).mp hq₁
    rcases List.mem_cons.mp hq with rfl | hq
    · exact ⟨u, by simpa using Language.append_mem_mul hu (Language.nil_mem_kstar L), hread⟩
    · split_ifs at hq with hlt
      · obtain ⟨v, hv, hread'⟩ := ih hq
        exact ⟨u ++ v, Language.append_mem_mul hu (Set.mem_of_mem_of_subset hv (mul_kstar_le_kstar (a := L))),
          reads_append.mpr ⟨q₁, hread, hread'⟩⟩
      · simp at hq

/-- A round that consumes nothing can be left out, so the bound on the rounds is never reached. -/
theorem mem_rounds_of_reads {S : List (List Char)} (hS : ∀ y ∈ S, y ∈ L) {n : Nat} (hu : u ∈ L)
    (hn : p.rest.length < n) (hread : Reads (u ++ S.flatten) p q) : q ∈ rounds f n p := by
  induction S generalizing u p n with
  | nil =>
    obtain ⟨n, rfl⟩ := Nat.exists_eq_add_of_lt hn
    refine List.mem_flatMap.mpr ⟨q, (hf p q).mpr ⟨u, hu, ?_⟩, List.mem_cons_self⟩
    simpa using hread
  | cons s S ih =>
    have hs : s ∈ L := hS s List.mem_cons_self
    have hS' : ∀ y ∈ S, y ∈ L := fun y hy => hS y (List.mem_cons_of_mem s hy)
    cases u with
    | nil => exact ih hS' hs hn hread
    | cons c u =>
      obtain ⟨q₁, hread₁, hread₂⟩ := reads_append.mp hread
      obtain ⟨n, rfl⟩ := Nat.exists_eq_add_of_lt hn
      have hlt : q₁.rest.length < p.rest.length := by
        rw [hread₁.rest, List.length_append, List.length_cons]
        omega
      refine List.mem_flatMap.mpr ⟨q₁, (hf p q₁).mpr ⟨c :: u, hu, hread₁⟩, List.mem_cons_of_mem q₁ ?_⟩
      rw [if_pos hlt]
      exact ih hS' hs (by omega) hread₂

theorem mem_rounds : q ∈ rounds f (p.rest.length + 1) p ↔ ∃ w ∈ L * L∗, Reads w p q := by
  refine ⟨exists_of_mem_rounds hf, ?_⟩
  rintro ⟨w, hw, hread⟩
  obtain ⟨u, hu, v, ⟨S, rfl, hS⟩, rfl⟩ := Language.mem_mul.mp hw
  exact mem_rounds_of_reads hf hS hu (Nat.lt_succ_self _) hread

end Rounds

/-- A pattern without `\b` matches the texts of its language, wherever they stand. -/
theorem mem_ends (hr : boundaryFree r) : q ∈ ends db r p ↔ ∃ w ∈ lang r, Reads w p q := by
  induction r generalizing p q with
  | eps => simp [ends, lang]
  | lit c | space | nonspace =>
    rw [ends, mem_oneChar]
    constructor
    · rintro ⟨d, hd, hread⟩
      exact ⟨[d], ⟨d, by simpa using hd, rfl⟩, hread⟩
    · rintro ⟨w, ⟨d, hd, rfl⟩, hread⟩
      exact ⟨d, by simpa using hd, hread⟩
  | seq r s ihr ihs =>
    obtain ⟨hr, hs⟩ := Bool.and_eq_true_iff.mp hr
    rw [ends, List.mem_flatMap]
    constructor
    · rintro ⟨q₁, hq₁, hq⟩
      obtain ⟨u, hu, hread⟩ := (ihr hr).mp hq₁
      obtain ⟨v, hv, hread'⟩ := (ihs hs).mp hq
      exact ⟨u ++ v, Language.append_mem_mul hu hv, reads_append.mpr ⟨q₁, hread, hread'⟩⟩
    · rintro ⟨w, hw, hread⟩
      obtain ⟨u, hu, v, hv, rfl⟩ := Language.mem_mul.mp hw
      obtain ⟨q₁, hread, hread'⟩ := reads_append.mp hread
      exact ⟨q₁, (ihr hr).mpr ⟨u, hu, hread⟩, (ihs hs).mpr ⟨v, hv, hread'⟩⟩
  | alt r s ihr ihs =>
    obtain ⟨hr, hs⟩ := Bool.and_eq_true_iff.mp hr
    rw [ends, List.mem_append, ihr hr, ihs hs, ← exists_or]
    simp only [lang, Language.mem_add, or_and_right]
  | plus r ih => exact mem_rounds fun _ _ => ih hr
  | boundary => simp [boundaryFree] at hr

theorem fullmatch_iff (hr : boundaryFree r) {text : String} :
    fullmatch db r text ↔ text.toList ∈ lang r := by
  rw [fullmatch, List.any_eq_true]
  constructor
  · rintro ⟨q, hq, hrest⟩
    obtain ⟨w, hw, hread⟩ := (mem_ends hr).mp hq
    have htext : text.toList = w := by
      simpa [List.isEmpty_iff.mp hrest] using hread.rest
    rwa [htext]
  · intro hw
    exact ⟨⟨text.toList.getLast?.or none, []⟩, (mem_ends hr).mpr ⟨text.toList, hw, by simp, rfl⟩, rfl⟩

/-! ## Alternatives between anchors -/

theorem mem_ends_alternatives : q ∈ ends db r p ↔ ∃ a ∈ alternatives r, q ∈ ends db a p := by
  induction r generalizing p q with
  | alt r s ihr ihs => simp only [ends, alternatives, List.mem_append, ihr, ihs, or_and_right, exists_or]
  | seq r s ihr ihs =>
    rw [ends, List.mem_flatMap]
    constructor
    · rintro ⟨q₁, hq₁, hq⟩
      obtain ⟨a, ha, hq₁⟩ := ihr.mp hq₁
      obtain ⟨b, hb, hq⟩ := ihs.mp hq
      exact ⟨.seq a b, List.mem_flatMap.mpr ⟨a, ha, List.mem_map.mpr ⟨b, hb, rfl⟩⟩,
        List.mem_flatMap.mpr ⟨q₁, hq₁, hq⟩⟩
    · rintro ⟨c, hc, hq⟩
      obtain ⟨a, ha, hc⟩ := List.mem_flatMap.mp hc
      obtain ⟨b, hb, rfl⟩ := List.mem_map.mp hc
      obtain ⟨q₁, hq₁, hq⟩ := List.mem_flatMap.mp hq
      exact ⟨q₁, ihr.mpr ⟨a, ha, hq₁⟩, ihs.mpr ⟨b, hb, hq⟩⟩
  | eps | lit c | space | nonspace | plus r | boundary => simp [alternatives]

theorem mem_ends_anchored : q ∈ ends db r p ↔
    ((anchored r).leading → atBoundary db p) ∧ q ∈ ends db (anchored r).body p ∧
      ((anchored r).trailing → atBoundary db q) := by
  unfold anchored
  split
  · simp only [ends, List.mem_flatMap]
    constructor
    · rintro ⟨p', hp', q', hq', q'', hq'', hq⟩
      split_ifs at hp' hq'' <;> simp_all
    · rintro ⟨hp, hq, hb⟩
      exact ⟨p, by simp [hp], q, hq, q, by simp [hb], by simp⟩
  · simp only [ends, List.mem_flatMap]
    constructor
    · rintro ⟨p', hp', hq⟩
      split_ifs at hp' <;> simp_all
    · rintro ⟨hp, hq, -⟩
      exact ⟨p, by simp [hp], hq⟩
  · simp

/-- A search finds the occurrences of the alternatives that stand between the boundaries the pattern
asks for. -/
theorem search_iff (hfree : ∀ a ∈ r.branches, boundaryFree a) {text : String} :
    search db r text ↔ ∃ before w after, before ++ w ++ after = text ∧ Occurs db r before w after := by
  rw [search, List.any_eq_true]
  constructor
  · rintro ⟨p, hp, hne⟩
    obtain ⟨u, hread⟩ := mem_cursors.mp hp
    obtain ⟨q, hq⟩ := List.exists_mem_of_ne_nil _ (by simpa using hne)
    obtain ⟨hlead, hq, htrail⟩ := mem_ends_anchored.mp hq
    obtain ⟨a, ha, hq⟩ := mem_ends_alternatives.mp hq
    obtain ⟨w, hw, hread'⟩ := (mem_ends (hfree a ha)).mp hq
    have htext : text.toList = u ++ w ++ q.rest := by
      rw [List.append_assoc, ← hread'.rest, ← hread.rest]
    have hb : p.before = u.getLast? := by rw [hread.before, Option.or_none]
    have hb' : q.before = (u ++ w).getLast? := by rw [hread'.before, hb, List.getLast?_append]
    refine ⟨.ofList u, .ofList w, .ofList q.rest, ?_, ⟨a, ha, ?_⟩, ?_, ?_⟩
    · rw [← String.toList_inj, htext]
      simp
    · exact (fullmatch_iff (hfree a ha)).mpr (by simpa using hw)
    · simpa only [String.toList_append, String.toList_ofList, ← hb, ← hread'.rest] using hlead
    · simpa only [String.toList_append, String.toList_ofList, ← hb'] using htrail
  · rintro ⟨before, w, after, rfl, ⟨a, ha, hw⟩, hlead, htrail⟩
    have hread : Reads before.toList ⟨none, (before ++ w ++ after).toList⟩
        ⟨before.toList.getLast?, (w ++ after).toList⟩ := ⟨by simp, by simp⟩
    have hread' : Reads w.toList ⟨before.toList.getLast?, (w ++ after).toList⟩
        ⟨(before ++ w).toList.getLast?, after.toList⟩ := ⟨by simp, by simp [List.getLast?_append]⟩
    have hbody : _ ∈ ends db a _ :=
      (mem_ends (hfree a ha)).mpr ⟨_, (fullmatch_iff (hfree a ha)).mp hw, hread'⟩
    have hends := mem_ends_anchored.mpr ⟨hlead, mem_ends_alternatives.mpr ⟨a, ha, hbody⟩, htrail⟩
    exact ⟨_, mem_cursors.mpr ⟨_, hread⟩, by simpa using List.ne_nil_of_mem hends⟩

/-- What stands around a text does not disturb an occurrence in it, if no word character touches it. -/
theorem Occurs.extend {before w after pre post : String} (h : Occurs db r before w after)
    (hpre : pre.toList.getLast?.any (isWord db) = false)
    (hpost : post.toList.head?.any (isWord db) = false) :
    Occurs db r (pre ++ before) w (after ++ post) := by
  have hleft : ∀ u : List Char, (pre.toList ++ u).getLast?.any (isWord db) = u.getLast?.any (isWord db) := by
    intro u
    rw [List.getLast?_append]
    cases u.getLast? with
    | none => exact hpre
    | some ch => rfl
  have hright : ∀ u : List Char, (u ++ post.toList).head?.any (isWord db) = u.head?.any (isWord db) := by
    intro u
    cases u with
    | nil => exact hpost
    | cons ch u => rfl
  obtain ⟨hbranch, hlead, htrail⟩ := h
  refine ⟨hbranch, fun hl => ?_, fun ht => ?_⟩
  · have hb := hlead hl
    unfold atBoundary at hb ⊢
    rwa [String.toList_append, hleft, ← String.append_assoc, String.toList_append, hright]
  · have hb := htrail ht
    unfold atBoundary at hb ⊢
    have hafter : (after ++ post).toList = after.toList ++ post.toList := String.toList_append
    rwa [String.append_assoc, String.toList_append, hleft, hafter, hright]

/-- A search that succeeds in a text succeeds in every longer one, if no word character touches the
text from outside. -/
theorem search_extend (hfree : ∀ a ∈ r.branches, boundaryFree a) {pre text post : String}
    (hpre : pre.toList.getLast?.any (isWord db) = false)
    (hpost : post.toList.head?.any (isWord db) = false) (h : search db r text) :
    search db r (pre ++ text ++ post) := by
  obtain ⟨before, w, after, rfl, hocc⟩ := (search_iff hfree).mp h
  refine (search_iff hfree).mpr ⟨pre ++ before, w, after ++ post, ?_, hocc.extend hpre hpost⟩
  simp only [String.append_assoc]

end Regex

import Mathlib.Data.List.Chain

/-!
# UTF-8 with replacement

`bytes.decode("utf-8", errors="replace")` as an incremental decoder: a byte either completes a
character, extends a sequence or cannot be part of one, and every maximal part of a sequence that
cannot be completed becomes one U+FFFD. Bytes none of which extends a sequence are decoded one by one
(`decode_of_isolated`), so that it does not matter where they are cut.
-/

namespace Utf8

/-- U+FFFD -/
def replacement : Char := Char.ofNat 0xFFFD

/-- A sequence that is not complete: how many bytes it lacks, the range of the next one, and the bits
read so far. -/
structure Partial where
  need : Nat
  lo : Nat
  hi : Nat
  acc : Nat
  deriving DecidableEq, Repr

/-- The next byte continues the sequence. -/
def Partial.accepts (p : Partial) (b : UInt8) : Bool :=
  p.lo ≤ b.toNat && b.toNat ≤ p.hi

/-- The characters a byte gives at the start of a sequence, and the sequence it opens. -/
def start (b : UInt8) : List Char × Option Partial :=
  let n := b.toNat
  if n < 0x80 then ([Char.ofNat n], none)
  else if n < 0xC2 then ([replacement], none)
  else if n < 0xE0 then ([], some ⟨1, 0x80, 0xBF, n - 0xC0⟩)
  else if n = 0xE0 then ([], some ⟨2, 0xA0, 0xBF, 0⟩)
  else if n = 0xED then ([], some ⟨2, 0x80, 0x9F, 0xD⟩)
  else if n < 0xF0 then ([], some ⟨2, 0x80, 0xBF, n - 0xE0⟩)
  else if n = 0xF0 then ([], some ⟨3, 0x90, 0xBF, 0⟩)
  else if n < 0xF4 then ([], some ⟨3, 0x80, 0xBF, n - 0xF0⟩)
  else if n = 0xF4 then ([], some ⟨3, 0x80, 0x8F, 4⟩)
  else ([replacement], none)

/-- The characters a byte gives in a state, and the state it leaves. -/
def step : Option Partial → UInt8 → List Char × Option Partial
  | none, b => start b
  | some p, b =>
    if p.accepts b then
      let acc := p.acc * 64 + (b.toNat - 0x80)
      if p.need = 1 then ([Char.ofNat acc], none) else ([], some ⟨p.need - 1, 0x80, 0xBF, acc⟩)
    else (replacement :: (start b).1, (start b).2)

/-- The characters of a sequence that ends before it is complete. -/
def finish : Option Partial → List Char
  | none => []
  | some _ => [replacement]

/-- The characters of the rest of the input. -/
def decodeFrom : Option Partial → List UInt8 → List Char
  | st, [] => finish st
  | st, b :: bs => (step st b).1 ++ decodeFrom (step st b).2 bs

/-- `bs.decode("utf-8", errors="replace")` -/
def decode (bs : List UInt8) : List Char :=
  decodeFrom none bs

/-- `s.encode("utf-8")` -/
def encode (s : String) : List UInt8 :=
  s.toList.flatMap String.utf8EncodeChar

/-- `bs.decode("utf-8")`, `none` for a `UnicodeDecodeError`. -/
def decodeStrict (bs : List UInt8) : Option String :=
  String.fromUTF8? ⟨bs.toArray⟩

/-! ## Isolated bytes -/

/-- The byte `b` opens a sequence that the byte `c` continues. -/
def Continues (b c : UInt8) : Prop :=
  ∃ p, (start b).2 = some p ∧ p.accepts c = true

instance (b c : UInt8) : Decidable (Continues b c) :=
  match h : (start b).2 with
  | none => isFalse (by simp [Continues, h])
  | some p => decidable_of_iff (p.accepts c = true) (by simp [Continues, h])

/-- No byte is continued by the next one. -/
def Isolated (bs : List UInt8) : Prop :=
  bs.IsChain fun b c => ¬ Continues b c

instance (bs : List UInt8) : Decidable (Isolated bs) :=
  inferInstanceAs (Decidable (bs.IsChain fun b c => ¬ Continues b c))

/-- The character of a byte on its own. -/
def byteChar (b : UInt8) : Char :=
  if b.toNat < 0x80 then Char.ofNat b.toNat else replacement

/-- A byte that nothing continues gives its own character. -/
theorem start_finish (b : UInt8) : (start b).1 ++ finish (start b).2 = [byteChar b] := by
  simp only [start, byteChar]
  split_ifs <;> rfl

/-- In a state the first byte does not continue, isolated bytes are decoded one by one. -/
theorem decodeFrom_of_isolated {bs : List UInt8} (h : Isolated bs) {st : Option Partial}
    (hst : ∀ p, st = some p → ∀ b ∈ bs.head?, p.accepts b = false) :
    decodeFrom st bs = finish st ++ bs.map byteChar := by
  induction bs generalizing st with
  | nil => simp [decodeFrom]
  | cons b bs ih =>
    have hstep : step st b = (finish st ++ (start b).1, (start b).2) := by
      cases st with
      | none => rfl
      | some p =>
        have hp : p.accepts b = false := hst p rfl b (by simp)
        rw [step, hp]
        rfl
    have hnext : ∀ p, (start b).2 = some p → ∀ c ∈ bs.head?, p.accepts c = false := by
      intro p hp c hc
      rw [Isolated, List.isChain_cons] at h
      have := h.1 c hc
      rw [Continues, not_exists] at this
      simpa [hp] using this p
    have hrest := ih (List.isChain_cons.mp h).2 hnext
    rw [decodeFrom, hstep, hrest, List.append_assoc, ← List.append_assoc (start b).1, start_finish]
    rfl

theorem decode_of_isolated {bs : List UInt8} (h : Isolated bs) : decode bs = bs.map byteChar :=
  decodeFrom_of_isolated h fun p hp => absurd hp (by simp)

theorem Isolated.part {bs cs : List UInt8} (h : Isolated bs) (hi : cs <:+: bs) : Isolated cs :=
  List.IsChain.infix h hi

/-- What a byte that opens a sequence is like, and what may follow it. -/
theorem start_some {b : UInt8} {p : Partial} (h : (start b).2 = some p) :
    (start b).1 = [] ∧ 0x80 ≤ b.toNat ∧ 0x80 ≤ p.lo ∧ p.hi ≤ 0xBF ∧
      (p.need = 1 → 2 ≤ p.acc ∧ p.acc < 32) := by
  revert h
  simp only [start]
  split_ifs <;> simp only [Option.some.injEq, false_implies, true_and]
  all_goals
    rintro rfl
    dsimp only
    omega

/-- Of two bytes the second of which continues the first, neither is ASCII. -/
theorem byteChar_of_continues {x y : UInt8} (h : Continues x y) :
    byteChar x = replacement ∧ byteChar y = replacement := by
  obtain ⟨p, hp, hy⟩ := h
  obtain ⟨-, hx, hlo, -, -⟩ := start_some hp
  rw [Partial.accepts, Bool.and_eq_true, decide_eq_true_iff] at hy
  rw [byteChar, byteChar, if_neg (by omega), if_neg (by omega)]
  exact ⟨rfl, rfl⟩

/-- Two bytes of which the second continues the first give one character, and not an ASCII one. -/
theorem decode_of_continues {x y : UInt8} (h : Continues x y) :
    ∃ c : Char, decode [x, y] = [c] ∧ 0x80 ≤ c.toNat := by
  obtain ⟨p, hp, hy⟩ := h
  obtain ⟨hx, -, hlo, hhi, hacc⟩ := start_some hp
  rw [decode, decodeFrom, step, hp, hx, List.nil_append, decodeFrom, step, if_pos hy]
  split_ifs with hneed
  · obtain ⟨h2, h32⟩ := hacc hneed
    rw [Partial.accepts, Bool.and_eq_true, decide_eq_true_iff, decide_eq_true_iff] at hy
    have hvalid : (p.acc * 64 + (y.toNat - 0x80)).isValidChar := Or.inl (by omega)
    have hnat : (Char.ofNat (p.acc * 64 + (y.toNat - 0x80))).toNat =
        p.acc * 64 + (y.toNat - 0x80) := by
      rw [Char.ofNat, dif_pos hvalid]
      rfl
    exact ⟨_, rfl, by omega⟩
  · exact ⟨replacement, rfl, by decide⟩

/-! ## ASCII -/

/-- What holds of every sequence that is not complete: an ASCII byte does not continue it, and the
character it leads to is not an ASCII one. -/
structure Partial.WellFormed (p : Partial) : Prop where
  lo_ge : 0x80 ≤ p.lo
  acc_ge : 2 ≤ if p.need = 1 then p.acc else p.acc * 64 + (p.lo - 0x80)

theorem start_wellFormed {b : UInt8} {p : Partial} (h : (start b).2 = some p) : p.WellFormed := by
  revert h
  simp only [start]
  split_ifs <;> simp only [Option.some.injEq, false_implies]
  all_goals
    rintro rfl
    constructor <;> simp <;> omega

theorem step_wellFormed {st : Option Partial} {b : UInt8} (hst : ∀ p ∈ st, p.WellFormed) :
    ∀ p ∈ (step st b).2, p.WellFormed := by
  intro p hp
  cases st with
  | none => exact start_wellFormed hp
  | some q =>
    obtain ⟨hlo, hacc⟩ := hst q rfl
    simp only [step] at hp
    split_ifs at hp with haccepts hneed
    · cases hp
    · rw [Partial.accepts, Bool.and_eq_true, decide_eq_true_iff] at haccepts
      obtain rfl := Option.some.inj hp
      rw [if_neg hneed] at hacc
      refine ⟨le_rfl, ?_⟩
      dsimp only
      split_ifs <;> omega
    · exact start_wellFormed hp

/-- The input can be cut at an ASCII byte. -/
theorem decodeFrom_ascii {st : Option Partial} (hst : ∀ p ∈ st, p.WellFormed) {e : UInt8}
    (he : e.toNat < 0x80) (bs cs : List UInt8) :
    decodeFrom st (bs ++ e :: cs) = decodeFrom st bs ++ byteChar e :: decode cs := by
  induction bs generalizing st with
  | nil =>
    have hstart : start e = ([byteChar e], none) := by
      rw [start, byteChar, if_pos he, if_pos he]
    have hstep : step st e = (finish st ++ [byteChar e], none) := by
      cases st with
      | none => exact hstart
      | some p =>
        have haccepts : p.accepts e = false := by
          have := (hst p rfl).lo_ge
          rw [Partial.accepts, Bool.and_eq_false_iff, decide_eq_false_iff_not]
          omega
        rw [step, haccepts, hstart]
        rfl
    rw [List.nil_append, decodeFrom.eq_2, hstep, decodeFrom, List.append_assoc]
    rfl
  | cons b bs ih =>
    rw [List.cons_append, decodeFrom, decodeFrom, ih (step_wellFormed hst), List.append_assoc]

theorem decode_ascii {e : UInt8} (he : e.toNat < 0x80) (bs cs : List UInt8) :
    decode (bs ++ e :: cs) = decode bs ++ byteChar e :: decode cs :=
  decodeFrom_ascii (fun _ h => by cases h) he bs cs

/-- The characters of one step: those that are ASCII come from the byte. (`Char.ofNat` of a number that
is no character is NUL.) -/
theorem mem_step {st : Option Partial} (hst : ∀ p ∈ st, p.WellFormed) {b : UInt8} {c : Char}
    (hc : c ∈ (step st b).1) (hascii : c.toNat < 0x80) (hnul : c ≠ Char.ofNat 0) : c = byteChar b := by
  have hstart : c ∈ (start b).1 → c = byteChar b := by
    intro hc
    have hmem : c ∈ (start b).1 ++ finish (start b).2 := List.mem_append_left _ hc
    rw [start_finish] at hmem
    exact List.mem_singleton.mp hmem
  have hreplacement : c ≠ replacement := by
    intro h
    rw [h] at hascii
    exact absurd hascii (by decide)
  cases st with
  | none => exact hstart hc
  | some p =>
    obtain ⟨hlo, hacc⟩ := hst p rfl
    simp only [step] at hc
    split_ifs at hc with haccepts hneed
    · rw [if_pos hneed] at hacc
      rw [Partial.accepts, Bool.and_eq_true, decide_eq_true_iff] at haccepts
      -- a character that ends a sequence is beyond ASCII
      have hge : 0x80 ≤ p.acc * 64 + (b.toNat - 0x80) := by omega
      have hchar := List.mem_singleton.mp hc
      generalize p.acc * 64 + (b.toNat - 0x80) = n at hchar hge
      by_cases hvalid : n.isValidChar
      · have hnat : (Char.ofNat n).toNat = n := by
          rw [Char.ofNat, dif_pos hvalid]
          rfl
        rw [hchar, hnat] at hascii
        omega
      · rw [Char.ofNat, dif_neg hvalid] at hchar
        exact absurd hchar hnul
    · exact absurd hc List.not_mem_nil
    · exact hstart ((List.mem_cons.mp hc).resolve_left hreplacement)

theorem mem_decodeFrom {st : Option Partial} (hst : ∀ p ∈ st, p.WellFormed) {bs : List UInt8} {c : Char}
    (hc : c ∈ decodeFrom st bs) (hascii : c.toNat < 0x80) (hnul : c ≠ Char.ofNat 0) :
    ∃ b ∈ bs, byteChar b = c := by
  induction bs generalizing st with
  | nil =>
    cases st with
    | none => exact absurd hc List.not_mem_nil
    | some p =>
      obtain rfl := List.mem_singleton.mp hc
      exact absurd hascii (by decide)
  | cons b bs ih =>
    rcases List.mem_append.mp hc with hc | hc
    · exact ⟨b, List.mem_cons_self, (mem_step hst hc hascii hnul).symm⟩
    · obtain ⟨b', hb', rfl⟩ := ih (step_wellFormed hst) hc
      exact ⟨b', List.mem_cons_of_mem _ hb', rfl⟩

/-- An ASCII character of the text stands for its own byte. -/
theorem mem_decode {bs : List UInt8} {c : Char} (hc : c ∈ decode bs) (hascii : c.toNat < 0x80)
    (hnul : c ≠ Char.ofNat 0) : ∃ b ∈ bs, byteChar b = c :=
  mem_decodeFrom (fun _ h => by cases h) hc hascii hnul

example : decode [0x61, 0xC3, 0xA9, 0xF0, 0x9F, 0x98, 0x80] = "aé😀".toList := by decide

end Utf8

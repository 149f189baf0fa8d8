import Mathlib.Data.List.Basic

/-!
# A terminal

What a screen shows of the text sent to it. It has as many rows as the text needs. Characters that fill
one cell are written at the cursor, and the three that control the line move it. What any other character
does, and what happens at the end of a row, is left to the terminal (`Emulator.other`, `Emulator.wrap`).
-/

namespace Terminal

/-- A screen: the rows above the cursor, its own row, and its column. -/
structure Screen where
  above : List (List Char) := []
  row : List Char := []
  column : Nat := 0
  deriving DecidableEq, Repr

/-- The control character that moves the cursor back. -/
def backspace : Char := Char.ofNat 8

/-- A kind of terminal. -/
structure Emulator where
  columns : Nat
  /-- The character fills one cell. -/
  isNarrow : Char → Bool
  isNarrow_space : isNarrow ' ' = true
  isNarrow_control : ∀ c, isNarrow c = true → c ≠ '\r' ∧ c ≠ '\n' ∧ c ≠ backspace
  /-- What a character does that neither fills one cell nor controls the line. -/
  other : Char → Screen → Screen
  /-- What a character in the last column does, or behind it. -/
  wrap : Char → Screen → Screen

/-- A character in the cell at the cursor. -/
def Screen.put (c : Char) (s : Screen) : Screen :=
  { s with
    row := s.row.take s.column ++ List.replicate (s.column - s.row.length) ' ' ++ c :: s.row.drop (s.column + 1)
    column := s.column + 1 }

/-- A character is received. -/
def Emulator.feed (t : Emulator) (s : Screen) (c : Char) : Screen :=
  if c = '\r' then { s with column := 0 }
  else if c = '\n' then { above := s.above ++ [s.row], row := [], column := s.column }
  else if c = backspace then { s with column := s.column - 1 }
  else if t.isNarrow c then if s.column + 1 < t.columns then s.put c else t.wrap c s
  else t.other c s

/-- A text is received. -/
def Emulator.display (t : Emulator) (s : Screen) (text : List Char) : Screen :=
  text.foldl t.feed s

/-- The row shows a line with the cursor after it, and nothing but blanks behind. -/
def Screen.Shows (s : Screen) (line : List Char) : Prop :=
  s.column = line.length ∧ ∃ n, s.row = line ++ List.replicate n ' '

/-- A terminal for ASCII with 80 columns; it ignores everything else, and goes on in the next row. -/
def ascii : Emulator where
  columns := 80
  isNarrow c := 32 ≤ c.toNat && c.toNat < 127
  isNarrow_space := rfl
  isNarrow_control c h := by
    refine ⟨?_, ?_, ?_⟩
    all_goals
      rintro rfl
      exact absurd h (by decide)
  other _ s := s
  wrap c s := { above := s.above ++ [(s.put c).row], row := [], column := 0 }

variable {t : Emulator} {s : Screen} {line : List Char}

theorem display_append (t : Emulator) (s : Screen) (xs ys : List Char) :
    t.display s (xs ++ ys) = t.display (t.display s xs) ys :=
  List.foldl_append

theorem feed_narrow {c : Char} (hc : t.isNarrow c = true) (hroom : s.column + 1 < t.columns) :
    t.feed s c = s.put c := by
  obtain ⟨hr, hn, hb⟩ := t.isNarrow_control c hc
  rw [Emulator.feed, if_neg hr, if_neg hn, if_neg hb, if_pos hc, if_pos hroom]

/-- A character in one cell continues the line, if the row has room for it. -/
theorem Screen.Shows.feed (h : s.Shows line) {c : Char} (hc : t.isNarrow c = true)
    (hroom : line.length + 1 < t.columns) : (t.feed s c).Shows (line ++ [c]) := by
  obtain ⟨hcolumn, n, hrow⟩ := h
  rw [feed_narrow hc (hcolumn ▸ hroom)]
  refine ⟨?_, n - 1, ?_⟩
  · rw [Screen.put, hcolumn, List.length_append]
    rfl
  · have hgap : s.column - s.row.length = 0 := by
      rw [hrow, List.length_append, hcolumn]
      omega
    have hbehind : s.row.drop (s.column + 1) = List.replicate (n - 1) ' ' := by
      rw [hrow, hcolumn, List.drop_append, List.drop_replicate, List.drop_eq_nil_of_le (Nat.le_succ _),
        Nat.add_sub_cancel_left, List.nil_append]
    have hbefore : s.row.take s.column = line := by
      rw [hrow, hcolumn, List.take_left]
    rw [Screen.put, hgap, hbehind, hbefore, List.replicate_zero, List.append_nil]
    exact (List.append_assoc line [c] _).symm

theorem Screen.Shows.display (h : s.Shows line) {text : List Char} (htext : ∀ c ∈ text, t.isNarrow c = true)
    (hroom : line.length + text.length < t.columns) : (t.display s text).Shows (line ++ text) := by
  induction text generalizing s line with
  | nil => exact (List.append_nil line).symm ▸ h
  | cons c text ih =>
    rw [List.length_cons] at hroom
    have hstep := h.feed (htext c (List.mem_cons_self ..)) (by omega)
    have hlength : (line ++ [c]).length = line.length + 1 := List.length_append
    have hrest := ih hstep (fun d hd => htext d (List.mem_cons_of_mem _ hd)) (by omega)
    rw [List.append_assoc] at hrest
    exact hrest

/-- `"\b \b"` wipes the last character off the line. -/
theorem Screen.Shows.erase {c : Char} (h : s.Shows (line ++ [c])) (hroom : line.length + 1 < t.columns) :
    (t.display s [backspace, ' ', backspace]).Shows line := by
  obtain ⟨hcolumn, n, hrow⟩ := h
  rw [List.length_append] at hcolumn
  have hback : t.feed s backspace = { s with column := line.length } := by
    rw [Emulator.feed, if_neg (by decide), if_neg (by decide), if_pos rfl, hcolumn]
    rfl
  have hblank : (t.feed { s with column := line.length } ' ').row = line ++ List.replicate (n + 1) ' ' := by
    have hgap : line.length - s.row.length = 0 := by
      rw [hrow, List.length_append, List.length_append]
      omega
    have hbefore : s.row.take line.length = line := by
      rw [hrow, List.append_assoc, List.take_left]
    have hbehind : s.row.drop (line.length + 1) = List.replicate n ' ' := by
      have hlength : line.length + 1 = (line ++ [c]).length := by rw [List.length_append]; rfl
      rw [hrow, hlength, List.drop_left]
    rw [feed_narrow t.isNarrow_space hroom]
    show s.row.take line.length ++ List.replicate (line.length - s.row.length) ' ' ++
      ' ' :: s.row.drop (line.length + 1) = _
    rw [hgap, hbefore, hbehind, List.replicate_zero, List.append_nil, List.replicate_succ]
  have hcol : (t.feed { s with column := line.length } ' ').column = line.length + 1 := by
    rw [feed_narrow t.isNarrow_space hroom]
    rfl
  have hlast : ∀ u : Screen, t.feed u backspace = { u with column := u.column - 1 } := by
    intro u
    rw [Emulator.feed, if_neg (by decide), if_neg (by decide), if_pos rfl]
  have hall : t.display s [backspace, ' ', backspace] =
      { t.feed { s with column := line.length } ' ' with
        column := (t.feed { s with column := line.length } ' ').column - 1 } := by
    show t.feed (t.feed (t.feed s backspace) ' ') backspace = _
    rw [hback, hlast]
  rw [hall]
  refine ⟨?_, n + 1, hblank⟩
  show (t.feed { s with column := line.length } ' ').column - 1 = line.length
  rw [hcol]
  rfl

/-- A new line is empty, whatever the screen showed before. -/
theorem shows_newline (t : Emulator) (s : Screen) (text : List Char) :
    (t.display s (text ++ ['\r', '\n'])).Shows [] := by
  rw [display_append]
  exact ⟨rfl, 0, rfl⟩

end Terminal

import Mathlib.Data.List.Basic

/-!
# Lines of a text

`str.splitlines()`, and the translation of line ends when a file is read as text. Apart from empty
lines, both amount to cutting the text at every character that ends a line (`mem_lines_iff`).
-/

namespace Python

/-- The characters at which `str.splitlines` cuts. -/
def isLineBreak (c : Char) : Bool :=
  let n := c.toNat
  (0x0A ≤ n && n ≤ 0x0D) || (0x1C ≤ n && n ≤ 0x1E) || n = 0x85 || n = 0x2028 || n = 0x2029

/-- The translation of line ends in text mode: `\r\n` and `\r` become `\n`. -/
def universalNewlines : List Char → List Char
  | [] => []
  | '\r' :: '\n' :: rest => '\n' :: universalNewlines rest
  | c :: rest => (if c = '\r' then '\n' else c) :: universalNewlines rest

/-- The lines of a text, the characters of the first one before it given. -/
def splitlinesFrom (line : List Char) : List Char → List (List Char)
  | [] => if line = [] then [] else [line]
  | '\r' :: '\n' :: rest => line :: splitlinesFrom [] rest
  | c :: rest => if isLineBreak c then line :: splitlinesFrom [] rest else splitlinesFrom (line ++ [c]) rest

/-- `text.splitlines()` -/
def splitlines (text : List Char) : List (List Char) :=
  splitlinesFrom [] text

/-- The pieces between the characters that end a line, the first one continuing `line`. -/
def piecesFrom (line text : List Char) : List (List Char) :=
  (text.splitOnP isLineBreak).modifyHead (line ++ ·)

theorem piecesFrom_nil (line : List Char) : piecesFrom line [] = [line] := by
  rw [piecesFrom, List.splitOnP_nil, List.modifyHead_cons, List.append_nil]

@[simp] theorem piecesFrom_empty (text : List Char) : piecesFrom [] text = text.splitOnP isLineBreak :=
  congrFun List.modifyHead_id _

theorem piecesFrom_break {c : Char} (hc : isLineBreak c = true) (line rest : List Char) :
    piecesFrom line (c :: rest) = line :: piecesFrom [] rest := by
  rw [piecesFrom, List.splitOnP_cons_eq_if_modifyHead, if_pos hc, List.modifyHead_cons, List.append_nil,
    piecesFrom_empty]

theorem piecesFrom_char {c : Char} (hc : ¬ isLineBreak c = true) (line rest : List Char) :
    piecesFrom line (c :: rest) = piecesFrom (line ++ [c]) rest := by
  rw [piecesFrom, List.splitOnP_cons_eq_if_modifyHead, if_neg hc, List.modifyHead_modifyHead, piecesFrom]
  congr 1
  funext l
  exact (List.append_assoc line [c] l).symm

/-- The lines are the pieces that are not empty. -/
theorem mem_splitlinesFrom {l : List Char} (hl : l ≠ []) (line text : List Char) :
    l ∈ splitlinesFrom line text ↔ l ∈ piecesFrom line text := by
  fun_induction splitlinesFrom line text with
  | case1 => simp [piecesFrom_nil, hl]
  | case2 line hline => simp [piecesFrom_nil]
  | case3 line rest ih =>
    rw [piecesFrom_break (by decide), piecesFrom_break (by decide), List.mem_cons, List.mem_cons, ih,
      List.mem_cons, or_iff_right hl]
  | case4 line c rest _ hc ih => rw [piecesFrom_break hc, List.mem_cons, List.mem_cons, ih]
  | case5 line c rest _ hc ih => rw [piecesFrom_char hc, ih]

/-- Translating line ends only takes empty pieces away. -/
theorem mem_universalNewlines {l : List Char} (hl : l ≠ []) (line text : List Char) :
    l ∈ piecesFrom line (universalNewlines text) ↔ l ∈ piecesFrom line text := by
  fun_induction universalNewlines text generalizing line with
  | case1 => rfl
  | case2 rest ih =>
    rw [piecesFrom_break (by decide), piecesFrom_break (by decide), piecesFrom_break (by decide),
      List.mem_cons, List.mem_cons, ih, List.mem_cons, or_iff_right hl]
  | case3 c rest _ ih =>
    by_cases hr : c = '\r'
    · rw [if_pos hr, hr, piecesFrom_break (by decide), piecesFrom_break (by decide), List.mem_cons,
        List.mem_cons, ih]
    · rw [if_neg hr]
      by_cases hc : isLineBreak c = true
      · rw [piecesFrom_break hc, piecesFrom_break hc, List.mem_cons, List.mem_cons, ih]
      · rw [piecesFrom_char hc, piecesFrom_char hc, ih]

/-- The lines of a file that is read as text, empty ones aside, are what stands between its line ends. -/
theorem mem_lines_iff {l : List Char} (hl : l ≠ []) (text : List Char) :
    l ∈ splitlines (universalNewlines text) ↔ l ∈ text.splitOnP isLineBreak := by
  rw [splitlines, mem_splitlinesFrom hl, mem_universalNewlines hl, piecesFrom_empty]

/-! ## Iterating over a file -/

/-- The lines of a text after the translation of its line ends, each with the newline that ends it. -/
def keepLines : List Char → List (List Char)
  | [] => []
  | c :: rest =>
    if c = '\n' then ['\n'] :: keepLines rest
    else match keepLines rest with
      | [] => [[c]]
      | line :: lines => (c :: line) :: lines

theorem keepLines_line {line : List Char} (h : '\n' ∉ line) (rest : List Char) :
    keepLines (line ++ '\n' :: rest) = (line ++ ['\n']) :: keepLines rest := by
  induction line with
  | nil => rfl
  | cons c line ih =>
    have hc : c ≠ '\n' := fun heq => h (heq ▸ List.mem_cons_self ..)
    rw [List.cons_append, keepLines, if_neg hc, ih fun hmem => h (List.mem_cons_of_mem _ hmem)]
    rfl

/-- Lines that were written one after the other are read one after the other. -/
theorem keepLines_flatMap {lines : List (List Char)} (h : ∀ line ∈ lines, '\n' ∉ line) :
    keepLines (lines.flatMap (· ++ ['\n'])) = lines.map (· ++ ['\n']) := by
  induction lines with
  | nil => rfl
  | cons line lines ih =>
    rw [List.flatMap_cons, List.append_assoc, List.singleton_append, keepLines_line (h line (by simp)),
      ih fun l hl => h l (List.mem_cons_of_mem _ hl), List.map_cons]

/-- A text without carriage returns is read as it stands. -/
theorem universalNewlines_of_notMem {text : List Char} (h : '\r' ∉ text) : universalNewlines text = text := by
  fun_induction universalNewlines text with
  | case1 => rfl
  | case2 rest ih => exact absurd (List.mem_cons_self ..) h
  | case3 c rest _ ih =>
    have hc : c ≠ '\r' := fun heq => h (heq ▸ List.mem_cons_self ..)
    rw [if_neg hc, ih fun hmem => h (List.mem_cons_of_mem _ hmem)]

end Python

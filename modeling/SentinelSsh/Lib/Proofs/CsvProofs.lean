import SentinelSsh.Lib.Csv

/-!
# CSV round trips

A field is read back from where it starts to the delimiter or the line end behind it (`readFrom_field`),
whether it was quoted or not: a quoted one may hold anything, and the other ones hold nothing special.
A field that is too long is refused where it exceeds the limit, quoted or not.
-/

namespace Csv

variable {d : Dialect} {limit : Nat} {record : List (List Char)} {rest : List Char}

/-! ## Characters inside a line -/

theorem not_endsLine {c : Char} (hc : c ≠ '\r' ∧ c ≠ '\n') (hrest : rest ≠ []) : ¬ endsLine c rest := by
  rintro (h | ⟨h, -⟩ | h)
  · exact hc.2 h
  · exact hc.1 h
  · exact hrest h

/-- A character after which the line goes on. -/
theorem readFrom_inline {s s' : Reader} {c : Char} (hc : c ≠ '\r' ∧ c ≠ '\n') (hrest : rest ≠ [])
    (hs : s.feed d limit c = some s') : readFrom d limit s (c :: rest) = readFrom d limit s' rest := by
  rw [readFrom, hs]
  dsimp only
  rw [if_neg (not_endsLine hc hrest)]

/-- The end of a line that was written. -/
theorem readFrom_crlf {s s' : Reader} (hs : s.feed d limit '\r' = some s') (hmode : s'.mode = .eatCrnl) :
    readFrom d limit s ('\r' :: '\n' :: rest) = (readFrom d limit {} rest).map (s'.record :: ·) := by
  have hcr : ¬ endsLine '\r' ('\n' :: rest) := by simp [endsLine]
  have hlf : endsLine '\n' rest := .inl rfl
  have heat : s'.feed d limit '\n' = some s' := by simp [Reader.feed, hmode]
  have hend : s'.endLine = { s' with mode := .startRecord } := by simp [Reader.endLine, hmode]
  rw [readFrom, hs]
  dsimp only
  rw [if_neg hcr, readFrom, heat]
  dsimp only
  rw [if_pos hlf, hend, if_pos rfl]

/-- A character that is refused. -/
theorem readFrom_none {s : Reader} {c : Char} (hs : s.feed d limit c = none) :
    readFrom d limit s (c :: rest) = none := by
  rw [readFrom, hs]

/-- A record starts with its first field. -/
theorem readFrom_startRecord {field : List Char} {c : Char} (hc : c ≠ '\r' ∧ c ≠ '\n') :
    readFrom d limit ⟨.startRecord, field, record⟩ (c :: rest) =
      readFrom d limit ⟨.startField, field, record⟩ (c :: rest) := by
  have hfeed : Reader.feed d limit ⟨.startRecord, field, record⟩ c =
      Reader.feed d limit ⟨.startField, field, record⟩ c := by
    simp [Reader.feed, Reader.feedStart, Reader.save, Reader.add, hc]
  rw [readFrom, readFrom, hfeed]

/-! ## Quoted fields -/

/-- In a quoted field the end of a line is nothing special. -/
theorem readFrom_quoted_step {s s' : Reader} {c : Char} (hs : s.feed d limit c = some s')
    (hmode : s'.mode = .inQuotedField) : readFrom d limit s (c :: rest) = readFrom d limit s' rest := by
  rw [readFrom, hs]
  dsimp only
  by_cases hend : endsLine c rest
  · have hline : s'.endLine = s' := by
      unfold Reader.endLine
      rw [hmode]
    rw [if_pos hend, hline, if_neg (by simp [hmode])]
  · rw [if_neg hend]

/-- A doubled quote stands for one. -/
theorem readFrom_doubled (acc : List Char) :
    readFrom d limit ⟨.inQuotedField, acc, record⟩ (d.quote :: d.quote :: rest) =
      readFrom d limit ⟨.quoteInQuotedField, acc, record⟩ (d.quote :: rest) :=
  readFrom_inline d.quote_inline (List.cons_ne_nil _ _) (by simp [Reader.feed])

/-- A quoted field up to its closing quote. -/
theorem readFrom_quoted (field : List Char) {acc : List Char} (hacc : acc.length ≤ limit) {next : Char} :
    readFrom d limit ⟨.inQuotedField, acc, record⟩
        (field.flatMap (fun c => if c = d.quote then [c, c] else [c]) ++ d.quote :: next :: rest) =
      if (acc ++ field).length ≤ limit then
        readFrom d limit ⟨.quoteInQuotedField, acc ++ field, record⟩ (next :: rest)
      else none := by
  induction field generalizing acc with
  | nil =>
    rw [List.append_nil, if_pos hacc]
    exact readFrom_inline d.quote_inline (List.cons_ne_nil _ _) (by simp [Reader.feed])
  | cons c field ih =>
    have hone : ∀ tail, readFrom d limit ⟨.inQuotedField, acc, record⟩
        ((if c = d.quote then [c, c] else [c]) ++ tail) =
          if acc.length < limit then readFrom d limit ⟨.inQuotedField, acc ++ [c], record⟩ tail else none := by
      intro tail
      -- the state in which the character is added, and the next one
      have hadd : ∀ mode, Reader.feed d limit ⟨mode, acc, record⟩ c =
          (if acc.length < limit then some ⟨.inQuotedField, acc ++ [c], record⟩ else none) →
          readFrom d limit ⟨mode, acc, record⟩ (c :: tail) =
            if acc.length < limit then readFrom d limit ⟨.inQuotedField, acc ++ [c], record⟩ tail else none := by
        intro mode hfeed
        by_cases hlt : acc.length < limit
        · rw [if_pos hlt] at hfeed ⊢
          exact readFrom_quoted_step hfeed rfl
        · rw [if_neg hlt] at hfeed ⊢
          exact readFrom_none hfeed
      by_cases hc : c = d.quote
      · rw [if_pos hc]
        have hdoubled := @readFrom_doubled d limit record tail acc
        rw [← hc] at hdoubled
        exact hdoubled.trans (hadd .quoteInQuotedField (by simp [Reader.feed, Reader.add, hc]))
      · rw [if_neg hc]
        exact hadd .inQuotedField (by simp [Reader.feed, Reader.add, hc])
    rw [List.flatMap_cons, List.append_assoc, hone, List.append_cons acc c field]
    have hlength : (acc ++ [c]).length = acc.length + 1 := List.length_append
    by_cases hlt : acc.length < limit
    · rw [if_pos hlt]
      exact ih (by omega)
    · have hlong : ¬ (acc ++ [c] ++ field).length ≤ limit := by
        rw [List.length_append, hlength]
        omega
      rw [if_neg hlt, if_neg hlong]

/-! ## Fields -/

theorem not_isSpecial {c : Char} (hc : d.isSpecial c = false) :
    (c ≠ d.delimiter ∧ c ≠ d.quote) ∧ c ≠ '\r' ∧ c ≠ '\n' := by
  simpa [Dialect.isSpecial, and_assoc] using hc

/-- A field without special characters. -/
theorem readFrom_plain {field acc : List Char} (hfield : field.any d.isSpecial = false)
    (hacc : acc.length ≤ limit) (hrest : rest ≠ []) :
    readFrom d limit ⟨.inField, acc, record⟩ (field ++ rest) =
      if (acc ++ field).length ≤ limit then readFrom d limit ⟨.inField, acc ++ field, record⟩ rest
      else none := by
  induction field generalizing acc with
  | nil => rw [List.append_nil, List.nil_append, if_pos hacc]
  | cons c field ih =>
    rw [List.any_cons, Bool.or_eq_false_iff] at hfield
    obtain ⟨⟨hdelimiter, -⟩, hinline⟩ := not_isSpecial hfield.1
    have hfeed : Reader.feed d limit ⟨.inField, acc, record⟩ c =
        if acc.length < limit then some ⟨.inField, acc ++ [c], record⟩ else none := by
      simp [Reader.feed, Reader.add, hinline, hdelimiter]
    rw [List.append_cons acc c field, List.cons_append]
    have hlength : (acc ++ [c]).length = acc.length + 1 := List.length_append
    by_cases hlt : acc.length < limit
    · rw [if_pos hlt] at hfeed
      rw [readFrom_inline hinline (List.append_ne_nil_of_right_ne_nil _ hrest) hfeed]
      exact ih hfield.2 (by omega)
    · have hlong : ¬ (acc ++ [c] ++ field).length ≤ limit := by
        rw [List.length_append, hlength]
        omega
      rw [if_neg hlt] at hfeed
      rw [readFrom_none hfeed, if_neg hlong]

theorem readFrom_quotedField (field : List Char) (hrest : rest ≠ []) :
    readFrom d limit ⟨.startField, [], record⟩ (d.quoted field ++ rest) =
      if field.length ≤ limit then readFrom d limit ⟨.quoteInQuotedField, field, record⟩ rest else none := by
  obtain ⟨next, rest, rfl⟩ := List.exists_cons_of_ne_nil hrest
  have hfeed : Reader.feed d limit ⟨.startField, [], record⟩ d.quote = some ⟨.inQuotedField, [], record⟩ := by
    simp [Reader.feed, Reader.feedStart, d.quote_inline]
  rw [Dialect.quoted, List.append_assoc, List.cons_append, readFrom_inline d.quote_inline (by simp) hfeed]
  exact readFrom_quoted field (Nat.zero_le _)

/-- The states in which a field has been read up to its end. -/
inductive Ended (field : List Char) (record : List (List Char)) : Reader → Prop
  | empty (hfield : field = []) : Ended field record ⟨.startField, [], record⟩
  | plain : Ended field record ⟨.inField, field, record⟩
  | quoted : Ended field record ⟨.quoteInQuotedField, field, record⟩

/-- A field is read from its start to its end, if it is not too long. -/
theorem readFrom_field (record : List (List Char)) (field : List Char) (hrest : rest ≠ []) :
    ∃ s, Ended field record s ∧ readFrom d limit ⟨.startField, [], record⟩ (d.field field ++ rest) =
      if field.length ≤ limit then readFrom d limit s rest else none := by
  by_cases hspecial : field.any d.isSpecial = true
  · refine ⟨_, .quoted, ?_⟩
    rw [Dialect.field, if_pos hspecial]
    exact readFrom_quotedField field hrest
  · rw [Dialect.field, if_neg hspecial]
    rw [Bool.not_eq_true] at hspecial
    cases field with
    | nil => exact ⟨_, .empty rfl, (if_pos (Nat.zero_le _)).symm⟩
    | cons c field =>
      rw [List.any_cons, Bool.or_eq_false_iff] at hspecial
      obtain ⟨⟨hdelimiter, hquote⟩, hinline⟩ := not_isSpecial hspecial.1
      have hfeed : Reader.feed d limit ⟨.startField, [], record⟩ c =
          if 0 < limit then some ⟨.inField, [c], record⟩ else none := by
        simp [Reader.feed, Reader.feedStart, Reader.add, hinline, hdelimiter, hquote]
      refine ⟨_, .plain, ?_⟩
      rw [List.cons_append]
      by_cases hlt : 0 < limit
      · rw [if_pos hlt] at hfeed
        rw [readFrom_inline hinline (List.append_ne_nil_of_right_ne_nil _ hrest) hfeed]
        exact readFrom_plain hspecial.2 hlt hrest
      · have hlong : ¬ (c :: field).length ≤ limit := by
          rw [List.length_cons]
          omega
        rw [if_neg hlt] at hfeed
        rw [readFrom_none hfeed, if_neg hlong]

variable {field : List Char} {s : Reader}

/-- The next field starts behind a delimiter. -/
theorem Ended.delimiter (h : Ended field record s) (hrest : rest ≠ []) :
    readFrom d limit s (d.delimiter :: rest) = readFrom d limit ⟨.startField, [], record ++ [field]⟩ rest := by
  have hfeed : s.feed d limit d.delimiter = some ⟨.startField, [], record ++ [field]⟩ := by
    cases h with
    | empty hfield =>
      simp [Reader.feed, Reader.feedStart, Reader.save, hfield, d.delimiter_inline, d.delimiter_ne_quote]
    | plain => simp [Reader.feed, Reader.save, d.delimiter_inline]
    | quoted => simp [Reader.feed, Reader.save, d.delimiter_ne_quote]
  exact readFrom_inline d.delimiter_inline hrest hfeed

/-- The record ends at the end of the line. -/
theorem Ended.crlf (h : Ended field record s) :
    readFrom d limit s ('\r' :: '\n' :: rest) = (readFrom d limit {} rest).map ((record ++ [field]) :: ·) := by
  have hfeed : s.feed d limit '\r' = some ⟨.eatCrnl, [], record ++ [field]⟩ := by
    cases h with
    | empty hfield => simp [Reader.feed, Reader.feedStart, Reader.save, hfield]
    | plain => simp [Reader.feed, Reader.save]
    | quoted => simp [Reader.feed, Reader.save, d.quote_inline.1.symm, d.delimiter_inline.1.symm]
  exact readFrom_crlf hfeed rfl

/-! ## Rows -/

theorem short_cons {row : List (List Char)} :
    Short limit (field :: row) ↔ field.length ≤ limit ∧ Short limit row :=
  List.forall_mem_cons

theorem readFrom_fields {row : List (List Char)} (hrow : row ≠ []) :
    readFrom d limit ⟨.startField, [], record⟩ (d.fields row ++ '\r' :: '\n' :: rest) =
      if Short limit row then (readFrom d limit {} rest).map ((record ++ row) :: ·) else none := by
  induction row generalizing record with
  | nil => exact absurd rfl hrow
  | cons field row ih =>
    cases row with
    | nil =>
      obtain ⟨s, hs, hread⟩ := @readFrom_field d limit _ record field (List.cons_ne_nil '\r' ('\n' :: rest))
      rw [Dialect.fields, hread, hs.crlf]
      simp only [Short, List.forall_mem_singleton]
    | cons next row =>
      have htail : d.fields (next :: row) ++ '\r' :: '\n' :: rest ≠ [] := by simp
      obtain ⟨s, hs, hread⟩ := @readFrom_field d limit _ record field (List.cons_ne_nil d.delimiter _)
      rw [Dialect.fields, List.append_assoc, List.cons_append, hread, hs.delimiter htail,
        ih (List.cons_ne_nil _ _), List.append_assoc, List.singleton_append]
      by_cases hfield : field.length ≤ limit
      · rw [if_pos hfield]
        have hshort : Short limit (field :: next :: row) ↔ Short limit (next :: row) :=
          short_cons.trans (and_iff_right hfield)
        simp only [hshort]
      · rw [if_neg hfield, if_neg fun h => hfield (short_cons.mp h).1]

/-- What a row starts with, if it is neither empty nor one empty field. -/
theorem fields_head {row : List (List Char)} (hrow : row ≠ []) (hempty : row ≠ [[]]) :
    ∃ c tail, d.fields row = c :: tail ∧ c ≠ '\r' ∧ c ≠ '\n' := by
  have hfield : ∀ field, field ≠ [] → ∃ c tail, d.field field = c :: tail ∧ c ≠ '\r' ∧ c ≠ '\n' := by
    intro field hne
    obtain ⟨c, tail, rfl⟩ := List.exists_cons_of_ne_nil hne
    by_cases hspecial : (c :: tail).any d.isSpecial = true
    · rw [Dialect.field, if_pos hspecial]
      exact ⟨d.quote, _, rfl, d.quote_inline⟩
    · rw [Dialect.field, if_neg hspecial]
      rw [Bool.not_eq_true, List.any_cons, Bool.or_eq_false_iff] at hspecial
      exact ⟨c, tail, rfl, (not_isSpecial hspecial.1).2⟩
  match row with
  | [field] =>
    refine hfield field ?_
    rintro rfl
    exact hempty rfl
  | [] :: next :: row => exact ⟨d.delimiter, _, rfl, d.delimiter_inline⟩
  | (first :: field) :: next :: row =>
    obtain ⟨c, tail, htail, hc⟩ := hfield (first :: field) (List.cons_ne_nil _ _)
    refine ⟨c, tail ++ d.delimiter :: d.fields (next :: row), ?_, hc⟩
    rw [Dialect.fields, htail, List.cons_append]

/-- A row is read as one record. -/
theorem readFrom_row (row : List (List Char)) : readFrom d limit {} (d.row row ++ rest) =
    if Short limit row then (readFrom d limit {} rest).map (row :: ·) else none := by
  rw [Dialect.row, List.append_assoc]
  by_cases hempty : row = [[]]
  · have hshort : Short limit [[]] := List.forall_mem_singleton.mpr (Nat.zero_le limit)
    have hread : readFrom d limit ⟨.startField, [], []⟩ (d.quoted [] ++ '\r' :: '\n' :: rest) =
        readFrom d limit ⟨.quoteInQuotedField, [], []⟩ ('\r' :: '\n' :: rest) :=
      (readFrom_quotedField [] (List.cons_ne_nil _ _)).trans (if_pos (Nat.zero_le limit))
    rw [if_pos hempty, hempty, if_pos hshort]
    exact (readFrom_startRecord d.quote_inline).trans (hread.trans Ended.quoted.crlf)
  · rw [if_neg hempty]
    by_cases hrow : row = []
    · have hshort : Short limit [] := List.forall_mem_nil _
      rw [hrow, if_pos hshort]
      exact @readFrom_crlf d limit rest {} ⟨.eatCrnl, [], []⟩ rfl rfl
    · obtain ⟨c, tail, hhead, hc⟩ := fields_head (d := d) hrow hempty
      have hfields := @readFrom_fields d limit [] rest row hrow
      rw [hhead] at hfields ⊢
      exact (readFrom_startRecord hc).trans hfields

/-- What was written is read back, unless a field is too long. -/
theorem read_write (rows : List (List (List Char))) : read d limit (d.write rows) =
    if ∀ row ∈ rows, Short limit row then some rows else none := by
  unfold read Dialect.write
  induction rows with
  | nil => exact (if_pos (List.forall_mem_nil _)).symm
  | cons row rows ih =>
    rw [List.flatMap_cons, readFrom_row, ih]
    simp only [List.forall_mem_cons]
    by_cases hrow : Short limit row
    · by_cases hrows : ∀ row ∈ rows, Short limit row
      · rw [if_pos hrow, if_pos hrows, if_pos ⟨hrow, hrows⟩, Option.map_some]
      · rw [if_pos hrow, if_neg hrows, if_neg fun h => hrows h.2, Option.map_none]
    · rw [if_neg hrow, if_neg fun h => hrow h.1]

end Csv

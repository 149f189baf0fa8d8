import SentinelSsh.Backend.CsvExport
import SentinelSsh.Lib.Proofs.CsvProofs

/-!
# CSV reports are read as they were built

The file of a report is read back row by row (`readCsv_csvText`), and no row of its data is empty, so the
empty rows of the file are the ones between its sections (`csvReport_sections`): whatever is listed in a
report, it starts neither a row nor a section. A value that is too long for the reader makes it refuse the
file.
-/

namespace SentinelSsh.Backend.Reports

open SentinelSsh.Core Python Api

/-! ## Rows -/

theorem readCsv_csvText (rows : List Row) :
    readCsv (csvText rows) = if ∀ row ∈ rows, ShortRow row then some rows else none := by
  have hvalue : ∀ row : Row, (row.map String.toList).map String.ofList = row := by
    intro row
    have hcell : String.ofList ∘ String.toList = id := funext fun value => String.ofList_toList
    rw [List.map_map, hcell, List.map_id]
  have hrows : (rows.map (·.map String.toList)).map (·.map String.ofList) = rows := by
    rw [List.map_map]
    exact (List.map_congr_left fun row _ => hvalue row).trans (List.map_id' rows)
  have hshort : (∀ row ∈ rows.map (·.map String.toList), Csv.Short fieldSizeLimit row) ↔
      ∀ row ∈ rows, ShortRow row := by
    simp only [List.forall_mem_map, Csv.Short, ShortRow, String.length_toList]
  rw [readCsv, csvText, String.toList_ofList, Csv.read_write]
  by_cases h : ∀ row ∈ rows, ShortRow row
  · rw [if_pos h, if_pos (hshort.mpr h), Option.map_some, hrows]
  · rw [if_neg h, if_neg (mt hshort.mp h), Option.map_none]

/-! ## Sections -/

/-- No row of a section is empty. -/
def Section.Filled (sec : Section) : Prop :=
  [] ∉ sec.lines

theorem Section.filled_of {heading rows : List Row} (hheading : [] ∉ heading) (hrows : [] ∉ rows) :
    Section.Filled ⟨heading, rows⟩ := by
  unfold Filled lines
  rw [List.mem_append]
  rintro (h | h)
  · exact hheading h
  · exact hrows h

/-- A row for each entry. -/
theorem nil_notMem_map {α : Type} {f : α → Row} (hf : ∀ a, f a ≠ []) (l : List α) : [] ∉ l.map f := by
  rw [List.mem_map]
  rintro ⟨a, -, ha⟩
  exact hf a ha

theorem filled_headSection (m : Meta) : m.headSection.Filled :=
  Section.filled_of (by simp) (by simp)

theorem filled_kvSectionOf (title : String) (items : List (Text × Nat)) : (kvSectionOf title items).Filled :=
  Section.filled_of (by simp) (nil_notMem_map (fun entry => List.cons_ne_nil _ _) items)

theorem ExecutiveReport.filled (m : Meta) (data : ExecutiveReport) : ∀ sec ∈ data.sections m, sec.Filled := by
  simp only [sections, List.forall_mem_cons]
  refine ⟨filled_headSection m, ?summary, filled_kvSectionOf _ _, ?mitre, List.forall_mem_nil _⟩
  case summary => exact Section.filled_of (by simp) (nil_notMem_map (fun item => List.cons_ne_nil _ _) _)
  case mitre => exact Section.filled_of (by simp) (nil_notMem_map (fun t => List.cons_ne_nil _ _) _)

theorem ThreatsReport.filled (m : Meta) (data : ThreatsReport) : ∀ sec ∈ data.sections m, sec.Filled := by
  simp only [sections, List.forall_mem_cons]
  refine ⟨filled_headSection m, filled_kvSectionOf _ _, filled_kvSectionOf _ _, filled_kvSectionOf _ _, ?trends,
    List.forall_mem_nil _⟩
  case trends => exact Section.filled_of (by simp) (nil_notMem_map (fun b => List.cons_ne_nil _ _) _)

theorem IncidentsReport.filled (m : Meta) (data : IncidentsReport) : ∀ sec ∈ data.sections m, sec.Filled := by
  simp only [sections, List.forall_mem_cons]
  refine ⟨filled_headSection m, ?incidents, List.forall_mem_nil _⟩
  case incidents =>
    exact Section.filled_of (by simp [incidentHeader]) (nil_notMem_map (fun inc => List.cons_ne_nil _ _) _)

/-- The rows of sections with empty rows between them. -/
def sectioned (sections : List Section) : List Row :=
  [[]].intercalate (sections.map Section.lines)

theorem executiveRows_eq (m : Meta) (data : ExecutiveReport) :
    executiveRows m data = sectioned (data.sections m) := by
  simp [executiveRows, sectioned, ExecutiveReport.sections, metaRows, Meta.headSection, kvTable, kvSectionOf,
    Section.lines, List.intercalate_cons_cons]

theorem threatsRows_eq (m : Meta) (data : ThreatsReport) :
    threatsRows m data = sectioned (data.sections m) := by
  simp [threatsRows, sectioned, ThreatsReport.sections, metaRows, Meta.headSection, kvTable, kvSectionOf,
    Section.lines, List.intercalate_cons_cons]

theorem incidentsRows_eq (m : Meta) (data : IncidentsReport) :
    incidentsRows m data = sectioned (data.sections m) := by
  simp [incidentsRows, sectioned, IncidentsReport.sections, metaRows, Meta.headSection, Section.lines,
    List.intercalate_cons_cons]

/-- Filled sections are found again between the empty rows. -/
theorem splitOn_sectioned {sections : List Section} (hfilled : ∀ sec ∈ sections, sec.Filled)
    (hne : sections ≠ []) : (sectioned sections).splitOn [] = sections.map Section.lines := by
  refine List.splitOn_intercalate [] ?_ (by simpa using hne)
  intro lines hlines
  obtain ⟨sec, hsec, rfl⟩ := List.mem_map.mp hlines
  exact hfilled sec hsec

/-- The empty rows between sections are short. -/
theorem shortRow_sectioned {sections : List Section} :
    (∀ row ∈ sectioned sections, ShortRow row) ↔ ∀ sec ∈ sections, sec.Short := by
  have hnil : ShortRow [] := List.forall_mem_nil _
  induction sections with
  | nil => exact iff_of_true (List.forall_mem_nil _) (List.forall_mem_nil _)
  | cons sec sections ih =>
    rw [List.forall_mem_cons]
    cases sections with
    | nil =>
      have hone : sectioned [sec] = sec.lines := List.intercalate_singleton
      rw [hone]
      exact (and_iff_left (List.forall_mem_nil _)).symm
    | cons next sections =>
      have hmore : sectioned (sec :: next :: sections) = sec.lines ++ [[]] ++ sectioned (next :: sections) := by
        rw [sectioned, sectioned, List.map_cons, List.map_cons, List.intercalate_cons_cons]
      rw [hmore, List.forall_mem_append, List.forall_mem_append, List.forall_mem_singleton, and_iff_left hnil]
      exact and_congr_right fun _ => ih

theorem readCsv_sectioned {sections : List Section} (hfilled : ∀ sec ∈ sections, sec.Filled)
    (hne : sections ≠ []) : (readCsv (csvText (sectioned sections))).map (·.splitOn []) =
      if ∀ sec ∈ sections, sec.Short then some (sections.map Section.lines) else none := by
  rw [readCsv_csvText]
  simp only [shortRow_sectioned]
  split
  · rw [Option.map_some, splitOn_sectioned hfilled hne]
  · rfl

variable (dialect : Dialect) (s : Store)

/-- A report that can be built is read back as its sections, if the reader reads its values. -/
theorem csvReport_sections (report : Report) (now : Datetime) :
    (csvReport dialect s report now).map (fun text => (readCsv text).map (·.splitOn [])) =
      (report.sections dialect s now).map (fun sections =>
        if ∀ sec ∈ sections, sec.Short then some (sections.map Section.lines) else none) := by
  cases report with
  | executive =>
    have hread := readCsv_sectioned ((buildExecutive dialect s).filled (Report.meta .executive now))
      (List.cons_ne_nil _ _)
    rw [← executiveRows_eq] at hread
    exact congrArg Except.ok hread
  | threats =>
    have hread := readCsv_sectioned ((buildThreats dialect s).filled (Report.meta .threats now))
      (List.cons_ne_nil _ _)
    rw [← threatsRows_eq] at hread
    exact congrArg Except.ok hread
  | incidents =>
    unfold csvReport Report.sections
    dsimp only
    cases buildIncidents dialect s 25 with
    | error e => rfl
    | ok data =>
      have hread := readCsv_sectioned (data.filled (Report.meta .incidents now)) (List.cons_ne_nil _ _)
      rw [← incidentsRows_eq] at hread
      exact congrArg Except.ok hread

end SentinelSsh.Backend.Reports

import SentinelSsh.Backend.Proofs.DisplayProofs
import SentinelSsh.Backend.Reports
import SentinelSsh.Lib.Proofs.MarkupProofs

/-!
# Which reports show their data literally

The texts of the cells are not escaped. The tags of a cell are balanced, so it shows its text if the text
is plain, and what is not plain is data: the headers, the numbers, the times, the levels and the
techniques of the catalogue are plain. A property of texts that is closed carries over from what a report
lists to the texts of its cells: being plain, and being put together of known pieces.
-/

namespace SentinelSsh.Backend.Reports

open SentinelSsh.Core Python Markup Api Escapes

variable {r : ReportLab} {dialect : Dialect} {s : Store} {Q : String → Prop}

/-! ## Plain texts -/

theorem plain_pad (width n : Nat) : Plain (pad width n) := by
  unfold pad
  refine plain_append.mpr ⟨?_, plain_nat n⟩
  intro c hc
  rw [String.toList_ofList] at hc
  rw [List.eq_of_mem_replicate hc]
  decide

theorem plain_stamp (d : Datetime) : Plain d.stamp := by
  unfold Datetime.stamp
  have hfraction : ∀ us : Nat, Plain (if us % 1000000 = 0 then "" else "." ++ pad 6 (us % 1000000)) := by
    intro us
    split
    · decide
    · exact plain_append.mpr ⟨by decide, plain_pad _ _⟩
  simp only [plain_append, plain_pad, hfraction]
  decide

theorem plain_offsetText (offset : Int) : Plain (offsetText offset) := by
  have hsign : Plain (if offset < 0 then "-" else "+") := by split <;> decide
  unfold offsetText
  simp only [plain_append, plain_pad, hsign]
  decide

theorem plain_jsonFormat (d : Datetime) : Plain d.jsonFormat := by
  unfold Datetime.jsonFormat
  refine plain_append.mpr ⟨plain_stamp d, ?_⟩
  split
  · decide
  · split
    · decide
    · exact plain_offsetText _

theorem plain_strftime (d : Datetime) : Plain (strftime d) := by
  unfold strftime
  simp only [plain_append, plain_pad]
  decide

/-- A text that is no time is shown as it is. -/
theorem plain_fmtDt {iso : String} (hiso : Plain iso) : Plain (fmtDt iso) := by
  unfold fmtDt
  split
  · decide
  · split
    · exact plain_strftime _
    · exact hiso

theorem closed_strOr (hQ : Closed Q) {default : String} (hdefault : Plain default) (v : Text) :
    Q (strOr default v) ↔ Q (str v) := by
  unfold strOr
  split
  · rename_i hempty
    refine iff_of_true (hQ.plain hdefault) (hQ.plain ?_)
    rcases hempty with rfl | rfl
    · decide
    · decide
  · exact Iff.rfl

theorem closed_orElse (hQ : Closed Q) {default : String} (hdefault : Plain default) (text : String) :
    Q (orElse text default) ↔ Q text := by
  unfold orElse
  split
  · rename_i hempty
    exact iff_of_true (hQ.plain hdefault) (hQ.plain (hempty ▸ by decide))
  · exact Iff.rfl

theorem plain_catalogue : ∀ t ∈ catalogue, Plain t.id ∧ Plain t.name ∧ Plain t.tactic := by
  decide

/-- A technique is shown with the id it is stored with, also as its name if it is unknown. -/
theorem closed_topMitre (hQ : Closed Q) {now : Int} {limit : Nat} {hours : Option Int} {db : Db}
    {t : TopTechnique} (ht : t ∈ topMitre dialect now limit hours db) (hid : Q t.id) : Q t.name ∧ Q t.tactic := by
  unfold topMitre at ht
  obtain ⟨⟨tid, count⟩, -, rfl⟩ := List.mem_map.mp ht
  dsimp only at hid ⊢
  cases hfound : catalogueGet tid with
  | none => exact ⟨hid, hQ.plain (by decide)⟩
  | some tech =>
    obtain ⟨-, hname, htactic⟩ := plain_catalogue tech (List.mem_of_find?_eq_some hfound)
    exact ⟨hQ.plain hname, hQ.plain htactic⟩

theorem plain_bar (count peak : Nat) : Plain (bar count peak) := by
  unfold bar
  split
  · decide
  · intro c hc
    rw [String.toList_ofList] at hc
    rw [List.eq_of_mem_replicate hc]
    decide

/-! ## Cells -/

theorem texts_cell {text : String} : Texts Q (cell text) ↔ Q text :=
  texts_text.trans (and_iff_left texts_nil)

theorem texts_bold {text : String} : Texts Q (bold text) ↔ Q text :=
  texts_tag.trans (texts_text.trans (and_iff_left (texts_tag.mpr texts_nil)))

theorem balanced_bold (hknows : r.Knows) (text : String) : r.reader.Balanced (bold text) :=
  (balanced_text text).element hknows.b hknows.b_end (by decide)

theorem sevColor_mem (severity : RiskLevel) : sevColor severity.text ∈ muted :: sevColors.map (·.2) := by
  cases severity <;> decide

/-- The tag of a colour ends where it is to end. -/
theorem unended_font (hknows : r.Knows) {color : String} (hcolor : color ∈ muted :: sevColors.map (·.2)) :
    Unended (r.font color) := by
  have hhexval := unended_of_alphanum (hknows.hexval color hcolor)
  unfold ReportLab.font
  rw [unended_append, unended_append]
  exact ⟨⟨by decide, hhexval⟩, by decide⟩

theorem balanced_sevBadge (hknows : r.Knows) (severity : RiskLevel) :
    r.reader.Balanced (sevBadge r severity.text) :=
  have hcolor := sevColor_mem severity
  (balanced_bold hknows (upper severity.text)).element (hknows.font _ hcolor) hknows.font_end
    ⟨unended_font hknows hcolor, by decide⟩

theorem texts_sevBadge (hQ : Closed Q) (severity : RiskLevel) : Texts Q (sevBadge r severity.text) := by
  have hupper : Plain (upper severity.text) := by cases severity <;> decide
  refine texts_tag.mpr (texts_tag.mpr (texts_text.mpr ⟨hQ.plain hupper, ?_⟩))
  exact texts_tag.mpr (texts_tag.mpr texts_nil)

theorem forall_rowsOr {default rows : List (List String)} {P : List String → Prop}
    (hdefault : ∀ row ∈ default, P row) : (∀ row ∈ rowsOr default rows, P row) ↔ ∀ row ∈ rows, P row := by
  unfold rowsOr
  split
  · rename_i hempty
    refine iff_of_true hdefault ?_
    rw [hempty]
    exact fun row hrow => absurd hrow List.not_mem_nil
  · exact Iff.rfl

/-- The cells of a table whose header is plain. -/
theorem texts_dataTable (hQ : Closed Q) {header : List String} (hheader : ∀ h ∈ header, Plain (upper h))
    {rows : List (List String)} : (∀ c ∈ dataTable header rows, Texts Q c) ↔
      ∀ row ∈ rows, ∀ text ∈ row, Q text := by
  unfold dataTable
  rw [List.forall_mem_append]
  simp only [List.forall_mem_map, List.forall_mem_flatMap, texts_cell]
  exact and_iff_right fun h hh => hQ.plain (hheader h hh)

theorem balanced_dataTable {header : List String} {rows : List (List String)} :
    ∀ c ∈ dataTable header rows, r.reader.Balanced c := by
  unfold dataTable
  simp only [List.forall_mem_append, List.forall_mem_map, List.forall_mem_flatMap]
  exact ⟨fun h _ => balanced_text _, fun row _ text _ => balanced_text text⟩

/-- Cells with texts of known pieces show them literally if they are plain. -/
theorem literal_cells_iff (hlawful : r.reader.Lawful) {cells : List Cell}
    (hbalanced : ∀ c ∈ cells, r.reader.Balanced c) (hcomposed : ∀ c ∈ cells, Texts r.reader.Composed c) :
    (∀ c ∈ cells, r.reader.Literal c) ↔ ∀ c ∈ cells, Texts Plain c :=
  forall₂_congr fun c hc => literal_iff hlawful (hbalanced c hc) (hcomposed c hc)

/-! ## Reports -/

theorem texts_kvSection (hQ : Closed Q) {c1 : String} (hc1 : Plain (upper c1)) {items : List (Text × Nat)} :
    (∀ c ∈ kvSection items c1, Texts Q c) ↔ ∀ entry ∈ items, Q (str entry.1) := by
  have hheader : ∀ h ∈ [c1, "Count"], Plain (upper h) := by
    simp only [List.forall_mem_cons]
    exact ⟨hc1, by decide⟩
  have hdefault : ∀ row ∈ [["No data", "0"]], ∀ text ∈ row, Q text :=
    fun row hrow text htext => hQ.plain ((by decide : ∀ row ∈ [["No data", "0"]], ∀ text ∈ row, Plain text)
      row hrow text htext)
  have hcount : ∀ n : Nat, Q (toString n) := fun n => hQ.plain (plain_nat n)
  have hdash : Plain "—" := by decide
  unfold kvSection
  rw [texts_dataTable hQ hheader, forall_rowsOr hdefault, List.forall_mem_map]
  simp only [List.forall_mem_cons, List.not_mem_nil, false_implies, implies_true, closed_strOr hQ hdash,
    hcount, and_true]

theorem texts_kpiGrid (hQ : Closed Q) (summary : Summary) : ∀ c ∈ kpiGrid summary, Texts Q c := by
  have hplain : ∀ c ∈ kpiGrid summary, Texts Plain c := by
    unfold kpiGrid
    simp only [List.flatMap_cons, List.flatMap_nil, List.cons_append, List.nil_append, List.forall_mem_cons,
      List.not_mem_nil, false_implies, implies_true, texts_cell, plain_nat, true_and, and_true]
    decide
  exact fun c hc text htext => hQ.plain (hplain c hc text htext)

theorem balanced_kpiGrid (summary : Summary) : ∀ c ∈ kpiGrid summary, r.reader.Balanced c := by
  intro c hc
  obtain ⟨label, -, hc⟩ := List.mem_flatMap.mp hc
  rcases List.mem_pair.mp hc with rfl | rfl
  · exact balanced_text _
  · exact balanced_text _

theorem texts_executivePdf (hQ : Closed Q) :
    (∀ c ∈ executivePdf (buildExecutive dialect s), Texts Q c) ↔ Listed dialect s Q .executive := by
  have hunknown : Plain "Unknown" := by decide
  have hcount : ∀ n : Nat, Q (toString n) := fun n => hQ.plain (plain_nat n)
  have hcountries : ∀ row ∈ [["No data", "0"]], ∀ text ∈ row, Plain text := by decide
  have htechniques : ∀ row ∈ [["—", "No data", "", "0"]], ∀ text ∈ row, Plain text := by decide
  unfold executivePdf Listed
  dsimp only [buildExecutive]
  rw [List.forall_mem_append, List.forall_mem_append, texts_dataTable hQ (by decide),
    texts_dataTable hQ (by decide),
    forall_rowsOr fun row hrow text htext => hQ.plain (hcountries row hrow text htext),
    forall_rowsOr fun row hrow text htext => hQ.plain (htechniques row hrow text htext),
    and_iff_right (texts_kpiGrid hQ _)]
  simp only [List.forall_mem_map, List.forall_mem_cons, List.not_mem_nil, false_implies, implies_true,
    closed_strOr hQ hunknown, hcount, and_true]
  refine and_congr_right fun _ => forall₂_congr fun t ht => ?_
  exact and_iff_left_of_imp fun hid => closed_topMitre hQ ht hid

theorem balanced_executivePdf {data : ExecutiveReport} : ∀ c ∈ executivePdf data, r.reader.Balanced c := by
  unfold executivePdf
  simp only [List.forall_mem_append]
  exact ⟨⟨balanced_kpiGrid _, balanced_dataTable⟩, balanced_dataTable⟩

/-- The labels of the hours are plain. -/
theorem plain_label {now hours : Int} {db : Db} {b : HourBucket}
    (hb : b ∈ Backend.attacksPerHour dialect now hours db) : Plain b.label := by
  unfold Backend.attacksPerHour at hb
  obtain ⟨⟨slot, count⟩, -, rfl⟩ := List.mem_map.mp hb
  exact plain_append.mpr ⟨plain_pad _ _, by decide⟩

theorem texts_threatsPdf (hQ : Closed Q) :
    (∀ c ∈ threatsPdf (buildThreats dialect s), Texts Q c) ↔ Listed dialect s Q .threats := by
  unfold threatsPdf Listed
  dsimp only [buildThreats]
  have htrends : ∀ peak, ∀ row ∈ (Backend.attacksPerHour dialect s.now 24 s.db).map fun b =>
      [b.label, toString b.count, bar b.count peak], ∀ text ∈ row, Plain text := by
    intro peak
    simp only [List.forall_mem_map, List.forall_mem_cons, List.not_mem_nil, false_implies, implies_true,
      plain_nat, plain_bar, and_true]
    exact fun b hb => plain_label hb
  rw [List.forall_mem_append, List.forall_mem_append, List.forall_mem_append, texts_dataTable hQ (by decide),
    texts_kvSection hQ (by decide), texts_kvSection hQ (by decide), texts_kvSection hQ (by decide),
    and_iff_left fun row hrow text htext => hQ.plain (htrends _ row hrow text htext), and_assoc]

theorem balanced_threatsPdf {data : ThreatsReport} : ∀ c ∈ threatsPdf data, r.reader.Balanced c := by
  unfold threatsPdf kvSection
  simp only [List.forall_mem_append]
  exact ⟨⟨⟨balanced_dataTable, balanced_dataTable⟩, balanced_dataTable⟩, balanced_dataTable⟩

/-! ## Incidents -/

theorem plain_technique {ids : List String} {t : Technique} (ht : t ∈ resolve ids) :
    Plain (t.id ++ " (" ++ t.name ++ ")") := by
  obtain ⟨tid, -, hfound⟩ := List.mem_filterMap.mp ht
  obtain ⟨hid, hname, -⟩ := plain_catalogue t (List.mem_of_find?_eq_some hfound)
  simp only [plain_append, hid, hname, true_and]
  decide

theorem balanced_incidentCells (hknows : r.Knows) (inc : IncidentRecord) :
    ∀ c ∈ incidentCells r inc, r.reader.Balanced c := by
  have hbold := balanced_bold hknows
  have hcell : ∀ text, r.reader.Balanced (cell text) := balanced_text
  unfold incidentCells
  simp only [List.forall_mem_cons, List.not_mem_nil, false_implies, implies_true, hbold, hcell,
    balanced_sevBadge hknows, and_true]
  exact (hbold _).append (balanced_text _)

/-- The cells of an incident with techniques of the catalogue, and the times as they are printed. -/
theorem texts_incidentCells (hQ : Closed Q) {inc : IncidentRecord} {ids : List String}
    (hmitre : inc.mitre = resolve ids) (hfirst : Plain inc.timeline.firstSeen)
    (hlast : Plain inc.timeline.lastSeen) (hip : Q inc.sourceIp) (hcountry : Q (inc.country.getD ""))
    (hbehaviors : ∀ behavior ∈ inc.behaviors, Q behavior) : ∀ c ∈ incidentCells r inc, Texts Q c := by
  have hdash : Plain "—" := by decide
  have hunknown : Plain "Unknown" := by decide
  have htechniques : ∀ text ∈ inc.mitre.map fun t => t.id ++ " (" ++ t.name ++ ")", Q text := by
    rw [hmitre, List.forall_mem_map]
    exact fun t ht => hQ.plain (plain_technique ht)
  have hstatus : Plain inc.status.text := by cases inc.status <;> decide
  have hfixed : Plain "Status" ∧ Plain "Attempts" ∧ Plain "First Seen" ∧ Plain "Last Seen" ∧ Plain "MITRE" ∧
      Plain "Behaviors" := by
    decide
  have htitle : Q (" — " ++ inc.sourceIp ++ " (" ++ orElse (inc.country.getD "") "Unknown" ++ ")") := by
    have hcountry' := (closed_orElse hQ hunknown _).mpr hcountry
    have hbefore := hQ.append (hQ.append (hQ.plain (by decide : Plain " — ")) hip) (hQ.plain (by decide : Plain " ("))
    exact hQ.append (hQ.append hbefore hcountry') (hQ.plain (by decide))
  have hnumber : Plain ("Incident #" ++ toString inc.id) := plain_append.mpr ⟨by decide, plain_nat _⟩
  have hrisk : Plain ("Risk " ++ toString inc.riskScore) := plain_append.mpr ⟨by decide, plain_int _⟩
  unfold incidentCells
  simp only [List.forall_mem_cons, List.not_mem_nil, false_implies, implies_true, texts_append, texts_text,
    texts_cell, texts_bold, closed_orElse hQ hdash, and_true]
  exact ⟨⟨hQ.plain hnumber, htitle, texts_nil⟩, texts_sevBadge hQ _, hQ.plain hrisk, hQ.plain hfixed.1,
    hQ.plain hstatus, hQ.plain hfixed.2.1, hQ.plain (plain_int _), hQ.plain hfixed.2.2.1,
    hQ.plain (plain_fmtDt hfirst), hQ.plain hfixed.2.2.2.1, hQ.plain (plain_fmtDt hlast),
    hQ.plain hfixed.2.2.2.2.1, hQ.intercalate (by decide) htechniques, hQ.plain hfixed.2.2.2.2.2,
    hQ.intercalate (by decide) hbehaviors⟩

/-- An incident with plain cells is one with plain data. -/
theorem plain_of_incidentCells {inc : IncidentRecord} (h : ∀ c ∈ incidentCells r inc, Texts Plain c) :
    Plain inc.sourceIp ∧ Plain (inc.country.getD "") ∧ ∀ behavior ∈ inc.behaviors, Plain behavior := by
  have hdash : Plain "—" := by decide
  have hunknown : Plain "Unknown" := by decide
  unfold incidentCells at h
  simp only [List.forall_mem_cons, texts_append, texts_text, texts_cell, texts_bold, plain_append,
    closed_orElse closed_plain hdash, closed_orElse closed_plain hunknown] at h
  obtain ⟨⟨-, ⟨⟨⟨⟨-, hip⟩, -⟩, hcountry⟩, -⟩, -⟩, -, -, -, -, -, -, -, -, -, -, -, -, -, hbehaviors, -⟩ := h
  exact ⟨hip, hcountry, plain_of_intercalate hbehaviors⟩

/-- The database returns the rows it holds, in some order. -/
structure Permutes (s : Store) : Prop where
  incidents : (s.incidents s.db.incidents).Perm s.db.incidents
  attacks : ∀ incidentId, (s.attacks (s.db.linked incidentId)).Perm (s.db.linked incidentId)

/-- The texts of an incident. -/
def ListedOf (Q : String → Prop) (db : Db) (inc : Incident) : Prop :=
  Q inc.sourceIp ∧ Q (inc.country.getD "") ∧
    ∀ a ∈ db.linked inc.id, ∀ behavior ∈ parseJsonList a.behaviors, Q behavior

/-- The cells of an incident whose texts are put together of known pieces. -/
theorem literal_detail (hlawful : r.reader.Lawful) (hknows : r.Knows) (hpermutes : Permutes s)
    {incidentId : Nat} {inc : Incident} (hfind : s.db.incidents.find? (·.id = incidentId) = some inc)
    (hcomposed : ListedOf r.reader.Composed s.db inc) {detail : IncidentDetailOut}
    (hdetail : IncidentService.get dialect s.attacks s.db incidentId = .ok detail) :
    (∀ c ∈ incidentCells r (record dialect detail), r.reader.Literal c) ↔ ListedOf Plain s.db inc := by
  obtain ⟨hsummary, -, hbehaviors⟩ := get_incident_eq_ok hfind (hpermutes.attacks inc.id) hdetail
  have hmitre : (record dialect detail).mitre = resolve (parseJsonList inc.mitreTechniques) :=
    congrArg IncidentOut.mitre hsummary
  have hip : (record dialect detail).sourceIp = inc.sourceIp := congrArg IncidentOut.sourceIp hsummary
  have hcountry : (record dialect detail).country = inc.country := congrArg IncidentOut.country hsummary
  have hfirst : Plain (record dialect detail).timeline.firstSeen := plain_jsonFormat _
  have hlast : Plain (record dialect detail).timeline.lastSeen := plain_jsonFormat _
  have htexts : ∀ {Q : String → Prop}, Closed Q → ListedOf Q s.db inc →
      ∀ c ∈ incidentCells r (record dialect detail), Texts Q c := by
    rintro Q hQ ⟨hQip, hQcountry, hQbehaviors⟩
    refine texts_incidentCells hQ hmitre hfirst hlast (hip ▸ hQip) (hcountry ▸ hQcountry) ?_
    intro behavior hb
    obtain ⟨a, ha, hb⟩ := (hbehaviors behavior).mp hb
    exact hQbehaviors a ha behavior hb
  rw [literal_cells_iff hlawful (balanced_incidentCells hknows _) (htexts closed_composed hcomposed)]
  refine ⟨fun h => ?_, htexts closed_plain⟩
  obtain ⟨hplainIp, hplainCountry, hplainBehaviors⟩ := plain_of_incidentCells h
  exact ⟨hip ▸ hplainIp, hcountry ▸ hplainCountry,
    fun a ha behavior hb => hplainBehaviors behavior ((hbehaviors behavior).mpr ⟨a, ha, hb⟩)⟩

/-- The part of the report about one incident. -/
theorem literal_record (hlawful : r.reader.Lawful) (hknows : r.Knows) (hpermutes : Permutes s)
    {incidentId : Nat} {inc : Incident} (hfind : s.db.incidents.find? (·.id = incidentId) = some inc)
    (hcomposed : ListedOf r.reader.Composed s.db inc) :
    (∃ detail, IncidentService.get dialect s.attacks s.db incidentId = .ok detail ∧
      ∀ c ∈ incidentCells r (record dialect detail), r.reader.Literal c) ↔
        (∀ a ∈ s.db.linked inc.id, (validateStr a.password).isOk = true) ∧ ListedOf Plain s.db inc := by
  have hshown : (IncidentService.get dialect s.attacks s.db incidentId).isOk =
      (s.db.linked inc.id).all fun a => (validateStr a.password).isOk :=
    isOk_get_incident hfind (hpermutes.attacks inc.id)
  constructor
  · rintro ⟨detail, hdetail, hliteral⟩
    rw [hdetail] at hshown
    exact ⟨List.all_eq_true.mp hshown.symm,
      (literal_detail hlawful hknows hpermutes hfind hcomposed hdetail).mp hliteral⟩
  · rintro ⟨hpasswords, hplain⟩
    have hok : (IncidentService.get dialect s.attacks s.db incidentId).isOk = true := by
      rw [hshown]
      exact List.all_eq_true.mpr hpasswords
    cases hdetail : IncidentService.get dialect s.attacks s.db incidentId with
    | error e =>
      rw [hdetail] at hok
      cases hok
    | ok detail =>
      exact ⟨detail, rfl, (literal_detail hlawful hknows hpermutes hfind hcomposed hdetail).mpr hplain⟩

/-- Every incident that is listed is found. -/
theorem find?_of_mem_incidentIds (hpermutes : Permutes s) {limit incidentId : Nat}
    (hid : incidentId ∈ incidentIds s limit) :
    ∃ inc, s.db.incidents.find? (·.id = incidentId) = some inc := by
  obtain ⟨inc, hinc, rfl⟩ := List.mem_map.mp hid
  have hmem := hpermutes.incidents.mem_iff.mp (List.mem_of_mem_take hinc)
  exact Option.isSome_iff_exists.mp (List.find?_isSome.mpr ⟨inc, hmem, decide_eq_true rfl⟩)

theorem rendersLiterally_of_ok {report : Report} {cells : List Cell}
    (hcells : pdfCells dialect s r report = .ok cells) :
    RendersLiterally dialect s r report ↔ ∀ c ∈ cells, r.reader.Literal c := by
  unfold RendersLiterally
  rw [hcells]
  simp only [Except.ok.injEq, exists_eq_left']

/-- The records of the incidents are made one after the other. -/
theorem rendersLiterally_iff_mapM : RendersLiterally dialect s r .incidents ↔
    ∃ records, ((incidentIds s 25).mapM fun incidentId =>
        (IncidentService.get dialect s.attacks s.db incidentId).map (record dialect)) = .ok records ∧
      ∀ inc ∈ records, ∀ c ∈ incidentCells r inc, r.reader.Literal c := by
  have hbuild : pdfCells dialect s r .incidents = ((incidentIds s 25).mapM fun incidentId =>
      (IncidentService.get dialect s.attacks s.db incidentId).map (record dialect)).map fun records =>
        records.flatMap (incidentCells r) := by
    unfold pdfCells buildIncidents
    have hrecord : (fun incidentId => do
        let detail ← IncidentService.get dialect s.attacks s.db incidentId
        return record dialect detail) = fun incidentId =>
          (IncidentService.get dialect s.attacks s.db incidentId).map (record dialect) := by
      funext incidentId
      cases IncidentService.get dialect s.attacks s.db incidentId <;> rfl
    rw [hrecord]
    generalize ((incidentIds s 25).mapM fun incidentId =>
      (IncidentService.get dialect s.attacks s.db incidentId).map (record dialect)) = records
    cases records <;> rfl
  unfold RendersLiterally
  rw [hbuild]
  cases (incidentIds s 25).mapM fun incidentId =>
      (IncidentService.get dialect s.attacks s.db incidentId).map (record dialect) with
  | error e => exact iff_of_false (fun ⟨cells, h, _⟩ => nomatch h) fun ⟨records, h, _⟩ => nomatch h
  | ok records =>
    simp only [Except.map, Except.ok.injEq, exists_eq_left', List.forall_mem_flatMap]

theorem rendersLiterally_incidents (hlawful : r.reader.Lawful) (hknows : r.Knows) (hpermutes : Permutes s)
    (hcomposed : Listed dialect s r.reader.Composed .incidents) :
    RendersLiterally dialect s r .incidents ↔ Harmless dialect s .incidents := by
  have hrecord : ∀ incidentId, (∃ inc, (IncidentService.get dialect s.attacks s.db incidentId).map
      (record dialect) = .ok inc ∧ ∀ c ∈ incidentCells r inc, r.reader.Literal c) ↔
        ∃ detail, IncidentService.get dialect s.attacks s.db incidentId = .ok detail ∧
          ∀ c ∈ incidentCells r (record dialect detail), r.reader.Literal c := by
    intro incidentId
    cases IncidentService.get dialect s.attacks s.db incidentId with
    | error e => exact iff_of_false (fun ⟨inc, h, _⟩ => nomatch h) fun ⟨detail, h, _⟩ => nomatch h
    | ok detail => simp only [Except.map, Except.ok.injEq, exists_eq_left']
  have hlisted : ∀ incidentId ∈ incidentIds s 25, ∀ inc,
      s.db.incidents.find? (·.id = incidentId) = some inc → inc ∈ listedIncidents s 25 :=
    fun incidentId hid inc hfind => List.mem_filterMap.mpr ⟨incidentId, hid, hfind⟩
  rw [rendersLiterally_iff_mapM, exists_mapM_iff]
  simp only [hrecord]
  unfold Harmless Readable Listed
  constructor
  · intro h
    have hone : ∀ inc ∈ listedIncidents s 25,
        (∀ a ∈ s.db.linked inc.id, (validateStr a.password).isOk = true) ∧ ListedOf Plain s.db inc := by
      intro inc hinc
      obtain ⟨incidentId, hid, hfind⟩ := List.mem_filterMap.mp hinc
      exact (literal_record hlawful hknows hpermutes hfind (hcomposed inc hinc)).mp (h incidentId hid)
    exact ⟨fun inc hinc => (hone inc hinc).1, fun inc hinc => (hone inc hinc).2⟩
  · rintro ⟨hreadable, hplain⟩ incidentId hid
    obtain ⟨inc, hfind⟩ := find?_of_mem_incidentIds hpermutes hid
    have hinc := hlisted incidentId hid inc hfind
    exact (literal_record hlawful hknows hpermutes hfind (hcomposed inc hinc)).mpr
      ⟨hreadable inc hinc, hplain inc hinc⟩

/-! ## Which reports show their data -/

theorem Listed.mono {P : String → Prop} (himp : ∀ text, P text → Q text) {report : Report}
    (h : Listed dialect s P report) : Listed dialect s Q report := by
  cases report with
  | executive => exact ⟨fun entry he => himp _ (h.1 entry he), fun t ht => himp _ (h.2 t ht)⟩
  | threats =>
    exact ⟨fun entry he => himp _ (h.1 entry he), fun entry he => himp _ (h.2.1 entry he),
      fun entry he => himp _ (h.2.2 entry he)⟩
  | incidents =>
    intro inc hinc
    obtain ⟨hip, hcountry, hbehaviors⟩ := h inc hinc
    exact ⟨himp _ hip, himp _ hcountry, fun a ha behavior hb => himp _ (hbehaviors a ha behavior hb)⟩

/-- Where the texts that are listed are put together of known pieces, being harmless decides. -/
theorem rendersLiterally_iff (hlawful : r.reader.Lawful) (hknows : r.Knows) (hpermutes : Permutes s)
    {report : Report} (hcomposed : Listed dialect s r.reader.Composed report) :
    RendersLiterally dialect s r report ↔ Harmless dialect s report := by
  cases report with
  | executive =>
    rw [rendersLiterally_of_ok rfl, literal_cells_iff hlawful balanced_executivePdf
      ((texts_executivePdf closed_composed).mpr hcomposed), texts_executivePdf closed_plain]
    exact (and_iff_right True.intro).symm
  | threats =>
    rw [rendersLiterally_of_ok rfl, literal_cells_iff hlawful balanced_threatsPdf
      ((texts_threatsPdf closed_composed).mpr hcomposed), texts_threatsPdf closed_plain]
    exact (and_iff_right True.intro).symm
  | incidents => exact rendersLiterally_incidents hlawful hknows hpermutes hcomposed

/-- A report can be rendered and shows its data literally if what it lists is harmless; and only then,
where the texts that are listed are put together of tags the reader knows and of plain texts. -/
theorem rendersLiterally_of_harmless {r : ReportLab} (hlawful : r.reader.Lawful) (hknows : r.Knows)
    (dialect : Dialect) {s : Store} (hpermutes : Permutes s) (report : Report) :
    (Harmless dialect s report → RendersLiterally dialect s r report) ∧
      (Listed dialect s r.reader.Composed report → RendersLiterally dialect s r report →
        Harmless dialect s report) := by
  constructor
  · intro hharmless
    have hcomposed := hharmless.2.mono fun text => composed_of_plain (r := r.reader)
    exact (rendersLiterally_iff hlawful hknows hpermutes hcomposed).mpr hharmless
  · exact fun hcomposed => (rendersLiterally_iff hlawful hknows hpermutes hcomposed).mp

/-- A reader that knows the tags of the cells and no others. -/
def ReportLab.cellTags : ReportLab where
  reader := tagReader fun tag =>
    [("b", Tag.start "b"), ("/b", .stop "b"), ("font color=\"0x2563eb\"", .start "font"),
      ("font color=\"0xca8a04\"", .start "font"), ("font color=\"0xea580c\"", .start "font"),
      ("font color=\"0xdc2626\"", .start "font"), ("font color=\"0x6b7280\"", .start "font"),
      ("/font", .stop "font")].lookup tag
  hexval color := "0x" ++ String.ofList (color.toList.drop 1)

theorem knows_cellTags : ReportLab.cellTags.Knows := by
  refine { hexval := ?_, font := ?_, font_end := rfl, b := rfl, b_end := rfl }
  · decide
  · decide

/-- The store after one session that ended with this password. -/
def guessed (password : String) : Store where
  db := ingest .twoInstants .postgres {}
    { Capture.guess "2026-01-01T00:00:10+00:00" "8.8.8.8" with password := some (.str password) }
  now := 1767225620000000
  attacks := id
  incidents := id
  commands := id
  texts := id
  passwords := id

theorem rendersLiterally_of_harmless_guessed :
    RendersLiterally .sqlite (guessed "123456") .cellTags .threats := by
  have hpermutes : Permutes (guessed "123456") := ⟨List.Perm.refl _, fun _ => List.Perm.refl _⟩
  have hreports := rendersLiterally_of_harmless (lawful_tagReader _) knows_cellTags .sqlite hpermutes .threats
  refine hreports.1 ⟨True.intro, ?_, ?_, ?_⟩
  · with_unfolding_all decide
  · with_unfolding_all decide
  · with_unfolding_all decide

/-- The password `<b>x`, a tag that nothing ends: every lawful reader refuses its cell. -/
theorem not_rendersLiterally_guessed : cell "<b>x" ∈ threatsPdf (buildThreats .sqlite (guessed "<b>x")) ∧
    ∀ r : ReportLab, r.reader.Lawful → r.Knows →
      r.reader.read (markup (cell "<b>x")) = none ∧ ¬ RendersLiterally .sqlite (guessed "<b>x") r .threats := by
  have hpasswords : topPasswords .sqlite (guessed "<b>x") 10 = [(.str "<b>x", 1)] := by
    with_unfolding_all decide
  have hmem : cell "<b>x" ∈ threatsPdf (buildThreats .sqlite (guessed "<b>x")) := by
    have hsection : cell "<b>x" ∈ kvSection [(.str "<b>x", 1)] "Password" := by decide
    unfold threatsPdf
    dsimp only [buildThreats]
    rw [hpasswords]
    exact List.mem_append_left _ (List.mem_append_left _ (List.mem_append_right _ hsection))
  refine ⟨hmem, fun r hlawful hknows => ?_⟩
  have hpieces : markup (cell "<b>x") = markup [.tag "b", .text "x"] := by decide
  have hknown : ∀ piece ∈ [Piece.tag "b", .text "x"], r.reader.Known piece := by
    refine List.forall_mem_cons.mpr ⟨⟨Option.isSome_of_eq_some hknows.b, by decide⟩, ?_⟩
    exact List.forall_mem_singleton.mpr (by decide : Plain "x")
  have hnest : nestAll r.reader.tag [] [.tag "b", .text "x"] = some ["b"] := by
    have hopen : nest r.reader.tag [] "b" = some ["b"] := by
      unfold nest
      rw [hknows.b]
    rw [nestAll, hopen]
    rfl
  have hread : r.reader.read (markup (cell "<b>x")) = none := by
    rw [hpieces]
    refine hlawful.unbalanced _ hknown ?_
    rw [hnest]
    decide
  refine ⟨hread, fun h => ?_⟩
  have hliteral := (rendersLiterally_of_ok rfl).mp h (cell "<b>x") hmem
  cases hread.symm.trans hliteral

end SentinelSsh.Backend.Reports

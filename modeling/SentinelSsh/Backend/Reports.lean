import SentinelSsh.Backend.Requests
import SentinelSsh.Lib.Markup

/-!
# `backend/app/reports`

The reports of `builder.py`, and the cells `pdf.py` makes of them: the markup that is given to
ReportLab's `Paragraph` for each. Headings and other paragraphs with fixed texts, the page around them
and the layout are left out.
-/

namespace SentinelSsh.Backend.Reports

open SentinelSsh.Core Python Markup Api

/-! ## Texts -/

/-- A byte in `repr(b)`. -/
def reprByte (quote : Char) (byte : UInt8) : List Char :=
  let c := Char.ofNat byte.toNat
  if c = quote ∨ c = '\\' then ['\\', c]
  else if c = '\t' then ['\\', 't']
  else if c = '\n' then ['\\', 'n']
  else if c = '\r' then ['\\', 'r']
  else if c < ' ' ∨ 127 ≤ byte then
    ['\\', 'x', Nat.digitChar (byte.toNat / 16), Nat.digitChar (byte.toNat % 16)]
  else [c]

/-- `repr(b)` -/
def reprBytes (b : List UInt8) : String :=
  let apostrophe := Char.ofNat 39
  let quote := if 39 ∈ b ∧ 34 ∉ b then '"' else apostrophe
  String.ofList ('b' :: quote :: b.flatMap (reprByte quote) ++ [quote])

/-- `str(v)` -/
def str : Text → String
  | .str s => s
  | .bytes b => reprBytes b

/-- `str(v or default)` -/
def strOr (default : String) (v : Text) : String :=
  if v = .str "" ∨ v = .bytes [] then default else str v

/-- `s or default` -/
def orElse (s default : String) : String :=
  if s = "" then default else s

/-- `s.upper()` of an ASCII string. -/
def upper (s : String) : String :=
  String.ofList (s.toList.map Char.toUpper)

/-- `s.lower()` of an ASCII string. -/
def lower (s : String) : String :=
  String.ofList (s.toList.map Char.toLower)

/-- `d.strftime("%Y-%m-%d %H:%M UTC")` -/
def strftime (d : Datetime) : String :=
  let (year, month, day) := civil (d.wall / 86400000000)
  let us := (d.wall % 86400000000).toNat
  pad 4 year.toNat ++ "-" ++ pad 2 month ++ "-" ++ pad 2 day ++ " " ++
    (pad 2 (us / 3600000000) ++ ":" ++ pad 2 (us / 60000000 % 60)) ++ " UTC"

/-- `_fmt_dt` -/
def fmtDt (iso : String) : String :=
  if iso = "" then "—"
  else
    match readIso (String.ofList (iso.toList.flatMap fun c => if c = 'Z' then "+00:00".toList else [c])) with
    | some d => strftime d
    | none => iso

/-! ## `builder.py` -/

/-- The reports of `PDF_RENDERERS`. -/
inductive Report where
  | executive
  | threats
  | incidents
  deriving DecidableEq, Repr

structure Summary where
  totalAttacks : Nat
  totalIncidents : Nat
  activeIncidents : Nat
  criticalIncidents : Nat
  uniqueIps : Nat
  last24h : Nat
  deriving DecidableEq, Repr

structure ExecutiveReport where
  summary : Summary
  topCountries : List (Text × Nat)
  topMitre : List TopTechnique
  deriving DecidableEq, Repr

structure ThreatsReport where
  topUsernames : List (Text × Nat)
  topPasswords : List (Text × Nat)
  topSourceIps : List (Text × Nat)
  attackTrends : List HourBucket
  deriving DecidableEq, Repr

structure Timeline where
  firstSeen : String
  lastSeen : String
  deriving DecidableEq, Repr

structure IncidentRecord where
  id : Nat
  sourceIp : String
  country : Option String
  severity : RiskLevel
  riskScore : Int
  status : IncidentStatus
  attemptCount : Int
  mitre : List Technique
  behaviors : List String
  timeline : Timeline
  relatedAttacks : List RelatedAttackOut
  deriving DecidableEq, Repr

structure IncidentsReport where
  incidentCount : Nat
  incidents : List IncidentRecord
  deriving DecidableEq, Repr

variable (dialect : Dialect) (s : Store)

/-- The entries of a text column, with their counts. -/
def topTexts (column : Attack → Option String) (limit : Nat) : List (Text × Nat) :=
  (topColumn s.texts dialect s.now column limit none s.db).map fun (v, c) => (.str v, c)

/-- The passwords, with their counts. -/
def topPasswords (limit : Nat) : List (Text × Nat) :=
  topColumn s.passwords dialect s.now (·.password) limit none s.db

/-- `ReportBuilder.executive` -/
def buildExecutive : ExecutiveReport :=
  let incidents := overview s.db
  let attacks := attackOverview s.texts dialect s.now s.db
  { summary :=
      { totalAttacks := attacks.totalAttacks
        totalIncidents := incidents.totalIncidents
        activeIncidents := incidents.activeIncidents
        criticalIncidents := incidents.criticalIncidents
        uniqueIps := attacks.uniqueIps
        last24h := attacks.last24h }
    topCountries := topTexts dialect s (·.country) 10
    topMitre := topMitre dialect s.now 10 none s.db }

/-- `ReportBuilder.threats` -/
def buildThreats : ThreatsReport where
  topUsernames := topTexts dialect s (·.username) 10
  topPasswords := topPasswords dialect s 10
  topSourceIps := topTexts dialect s (some ·.sourceIp) 10
  attackTrends := Backend.attacksPerHour dialect s.now 24 s.db

/-- The record of an incident. -/
def record (detail : IncidentDetailOut) : IncidentRecord where
  id := detail.id
  sourceIp := detail.sourceIp
  country := detail.country
  severity := detail.severity
  riskScore := detail.maxRiskScore
  status := detail.status
  attemptCount := detail.attemptCount
  mitre := detail.mitre
  behaviors := detail.behaviors
  timeline :=
    { firstSeen := (dialect.load detail.firstSeen).jsonFormat
      lastSeen := (dialect.load detail.lastSeen).jsonFormat }
  relatedAttacks := detail.relatedAttacks

/-- The keys of the incidents in the report, the riskiest first: `s.incidents` is the order in which the
database returns the rows. -/
def incidentIds (limit : Nat) : List Nat :=
  ((s.incidents s.db.incidents).take limit).map (·.id)

/-- `ReportBuilder.incidents` -/
def buildIncidents (limit : Nat) : Except ApiError IncidentsReport := do
  let records ← (incidentIds s limit).mapM fun incidentId => do
    let detail ← IncidentService.get dialect s.attacks s.db incidentId
    return record dialect detail
  return { incidentCount := records.length, incidents := records }

/-! ## `pdf.py` -/

/-- What is given to `Paragraph` for one cell. -/
abbrev Cell := List Markup.Piece

/-- `Paragraph(text, CELL)` -/
def cell (text : String) : Cell :=
  [.text text]

/-- The rows, or others if there are none. -/
def rowsOr (default rows : List (List String)) : List (List String) :=
  if rows = [] then default else rows

/-- `_kpi_grid` -/
def kpiGrid (summary : Summary) : List Cell :=
  let labels : List (String × Nat) :=
    [("Total Attacks", summary.totalAttacks), ("Total Incidents", summary.totalIncidents),
      ("Active Incidents", summary.activeIncidents), ("Critical Incidents", summary.criticalIncidents),
      ("Unique IPs", summary.uniqueIps), ("Last 24 Hours", summary.last24h)]
  labels.flatMap fun (label, value) => [cell (upper label), cell (toString value)]

/-- `_data_table` -/
def dataTable (header : List String) (rows : List (List String)) : List Cell :=
  header.map (fun h => cell (upper h)) ++ rows.flatMap fun r => r.map cell

/-- `executive_pdf` -/
def executivePdf (data : ExecutiveReport) : List Cell :=
  let countries := data.topCountries.map fun (value, count) => [strOr "Unknown" value, toString count]
  let techniques := data.topMitre.map fun t => [t.id, t.name, t.tactic, toString t.count]
  kpiGrid data.summary ++ dataTable ["Country", "Attacks"] (rowsOr [["No data", "0"]] countries) ++
    dataTable ["ID", "Technique", "Tactic", "Count"] (rowsOr [["—", "No data", "", "0"]] techniques)

/-- `kv_section` -/
def kvSection (items : List (Text × Nat)) (c1 : String) : List Cell :=
  let rows := items.map fun (value, count) => [strOr "—" value, toString count]
  dataTable [c1, "Count"] (rowsOr [["No data", "0"]] rows)

/-- `"█" * int((count / peak) * 30) if peak else ""` -/
def bar (count peak : Nat) : String :=
  if peak = 0 then ""
  else String.ofList (List.replicate (count.toFloat / peak.toFloat * 30).toUInt64.toNat '█')

/-- `threats_pdf` -/
def threatsPdf (data : ThreatsReport) : List Cell :=
  let peak := (data.attackTrends.map (·.count)).foldl max 0
  let rows := data.attackTrends.map fun b => [b.label, toString b.count, bar b.count peak]
  kvSection data.topUsernames "Username" ++ kvSection data.topPasswords "Password" ++
    kvSection data.topSourceIps "Source IP" ++ dataTable ["Hour (UTC)", "Attacks", "Distribution"] rows

/-- `MUTED` -/
def muted : String :=
  "#6b7280"

/-- `SEV_COLORS` -/
def sevColors : List (String × String) :=
  [("critical", "#dc2626"), ("high", "#ea580c"), ("medium", "#ca8a04"), ("low", "#2563eb")]

/-- `SEV_COLORS.get((severity or "").lower(), MUTED)` -/
def sevColor (severity : String) : String :=
  (sevColors.lookup (lower severity)).getD muted

/-- What `pdf.py` uses of ReportLab: the reader of `Paragraph`, apart from what is done to white space
before and after it, and `HexColor(color).hexval()`. -/
structure ReportLab where
  reader : Reader
  hexval : String → String

variable (r : ReportLab)

/-- The tag that sets the colour of a severity. -/
def ReportLab.font (color : String) : String :=
  "font color=\"" ++ r.hexval color ++ "\""

/-- `_sev_badge` -/
def sevBadge (severity : String) : Cell :=
  [.tag (r.font (sevColor severity)), .tag "b", .text (upper severity), .tag "/b", .tag "/font"]

/-- `<b>{text}</b>` -/
def bold (text : String) : Cell :=
  [.tag "b", .text text, .tag "/b"]

/-- The cells of an incident. -/
def incidentCells (inc : IncidentRecord) : List Cell :=
  let mitre := orElse (", ".intercalate (inc.mitre.map fun t => t.id ++ " (" ++ t.name ++ ")")) "—"
  let behaviors := orElse (", ".intercalate inc.behaviors) "—"
  let country := orElse (inc.country.getD "") "Unknown"
  [bold ("Incident #" ++ toString inc.id) ++ [.text (" — " ++ inc.sourceIp ++ " (" ++ country ++ ")")],
    sevBadge r inc.severity.text, bold ("Risk " ++ toString inc.riskScore),
    bold "Status", cell inc.status.text, bold "Attempts", cell (toString inc.attemptCount),
    bold "First Seen", cell (fmtDt inc.timeline.firstSeen), bold "Last Seen", cell (fmtDt inc.timeline.lastSeen),
    bold "MITRE", cell mitre, bold "Behaviors", cell behaviors]

/-- `incidents_pdf` -/
def incidentsPdf (data : IncidentsReport) : List Cell :=
  data.incidents.flatMap (incidentCells r)

/-- The cells of a report, or the error that is raised while it is built. -/
def pdfCells : Report → Except ApiError (List Cell)
  | .executive => .ok (executivePdf (buildExecutive dialect s))
  | .threats => .ok (threatsPdf (buildThreats dialect s))
  | .incidents => (buildIncidents dialect s 25).map (incidentsPdf r)

/-! ## Literal reports -/

/-- The colours of the severities are written in hexadecimal, and the tags of the cells are known. -/
structure ReportLab.Knows : Prop where
  hexval : ∀ color ∈ muted :: sevColors.map (·.2), (r.hexval color).toList.all Char.isAlphanum = true
  font : ∀ color ∈ muted :: sevColors.map (·.2), r.reader.tag (r.font color) = some (.start "font")
  font_end : r.reader.tag "/font" = some (.stop "font")
  b : r.reader.tag "b" = some (.start "b")
  b_end : r.reader.tag "/b" = some (.stop "b")

/-- The report can be rendered, and every cell shows its text literally. -/
def RendersLiterally (report : Report) : Prop :=
  ∃ cells, pdfCells dialect s r report = .ok cells ∧ ∀ cell ∈ cells, r.reader.Literal cell

/-- The incidents in the report. -/
def listedIncidents (limit : Nat) : List Incident :=
  (incidentIds s limit).filterMap fun incidentId => s.db.incidents.find? (·.id = incidentId)

/-- All texts that the report lists are such. -/
def Listed (Q : String → Prop) : Report → Prop
  | .executive => (∀ entry ∈ topTexts dialect s (·.country) 10, Q (str entry.1)) ∧
      ∀ t ∈ topMitre dialect s.now 10 none s.db, Q t.id
  | .threats => (∀ entry ∈ topTexts dialect s (·.username) 10, Q (str entry.1)) ∧
      (∀ entry ∈ topPasswords dialect s 10, Q (str entry.1)) ∧
        ∀ entry ∈ topTexts dialect s (some ·.sourceIp) 10, Q (str entry.1)
  | .incidents => ∀ inc ∈ listedIncidents s 25, Q inc.sourceIp ∧ Q (inc.country.getD "") ∧
      ∀ a ∈ s.db.linked inc.id, ∀ behavior ∈ parseJsonList a.behaviors, Q behavior

/-- The incidents that are listed can be read: the passwords of their attacks are texts. -/
def Readable : Report → Prop
  | .incidents => ∀ inc ∈ listedIncidents s 25, ∀ a ∈ s.db.linked inc.id, (validateStr a.password).isOk = true
  | _ => True

/-- Neither `<` nor `&` stands in what is listed in the report, and the incidents that are listed can be
read. -/
def Harmless (report : Report) : Prop :=
  Readable s report ∧ Listed dialect s Plain report

end SentinelSsh.Backend.Reports

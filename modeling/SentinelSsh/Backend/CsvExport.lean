import SentinelSsh.Backend.Reports
import SentinelSsh.Lib.Csv

/-!
# `backend/app/reports/csv_export.py`

The rows of the three reports, and the text that `csv.writer` makes of them. A report is a list of
sections with empty rows between them (`Report.sections`).
-/

namespace SentinelSsh.Backend.Reports

open SentinelSsh.Core Python Api

/-! ## Rows -/

/-- A row of a file. -/
abbrev Row := List String

/-- What the CSV renderers use of `_meta`. -/
structure Meta where
  title : String
  product : String
  generatedAt : String
  deriving DecidableEq, Repr

/-- `_meta` -/
def Report.meta (report : Report) (now : Datetime) : Meta where
  title :=
    match report with
    | .executive => "Executive Summary"
    | .threats => "Threat Activity Report"
    | .incidents => "Incident Report"
  product := "SentinelSSH"
  generatedAt := now.isoformat

/-- `_meta_rows` -/
def metaRows (m : Meta) : List Row :=
  [[m.product ++ " — " ++ m.title], ["Generated", m.generatedAt], []]

/-- The row of an entry. -/
def kvRow (entry : Text × Nat) : Row :=
  [str entry.1, toString entry.2]

/-- `_kv_table` -/
def kvTable (title : String) (items : List (Text × Nat)) : List Row :=
  [title] :: ["Value", "Count"] :: items.map kvRow ++ [[]]

/-- `str.title()` of an ASCII string, in a word or not. -/
def titleFrom : Bool → List Char → List Char
  | _, [] => []
  | cased, c :: cs =>
    if c.isAlpha then (if cased then c.toLower else c.toUpper) :: titleFrom true cs
    else c :: titleFrom false cs

/-- `key.replace("_", " ").title()` -/
def keyTitle (key : String) : String :=
  String.ofList (titleFrom false (key.toList.map fun c => if c = '_' then ' ' else c))

/-- `data["summary"].items()` -/
def Summary.items (summary : Summary) : List (String × Nat) :=
  [("total_attacks", summary.totalAttacks), ("total_incidents", summary.totalIncidents),
    ("active_incidents", summary.activeIncidents), ("critical_incidents", summary.criticalIncidents),
    ("unique_ips", summary.uniqueIps), ("last_24h", summary.last24h)]

example : keyTitle "last_24h" = "Last 24H" := by decide

/-- The row of a number of the summary. -/
def summaryRow (item : String × Nat) : Row :=
  [keyTitle item.1, toString item.2]

/-- The row of a technique. -/
def techniqueRow (t : TopTechnique) : Row :=
  [t.id, t.name, t.tactic, toString t.count]

/-- The row of an hour. -/
def hourRow (b : HourBucket) : Row :=
  [b.label, toString b.count]

/-- The header of the incidents. -/
def incidentHeader : Row :=
  ["Incident ID", "Severity", "Risk Score", "Status", "Source IP", "Country", "Attempts", "First Seen",
    "Last Seen", "MITRE Techniques", "Behaviors"]

/-- The row of an incident. -/
def incidentRow (inc : IncidentRecord) : Row :=
  [toString inc.id, inc.severity.text, toString inc.riskScore, inc.status.text, inc.sourceIp,
    inc.country.getD "", toString inc.attemptCount, inc.timeline.firstSeen, inc.timeline.lastSeen,
    "; ".intercalate (inc.mitre.map (·.id)), "; ".intercalate inc.behaviors]

/-- The rows that `executive_csv` writes. -/
def executiveRows (m : Meta) (data : ExecutiveReport) : List Row :=
  metaRows m ++ [["Executive Summary"]] ++ data.summary.items.map summaryRow ++ [[]] ++
    kvTable "Top Countries" data.topCountries ++ [["Top MITRE Techniques"], ["ID", "Name", "Tactic", "Count"]] ++
    data.topMitre.map techniqueRow

/-- The rows that `threats_csv` writes. -/
def threatsRows (m : Meta) (data : ThreatsReport) : List Row :=
  metaRows m ++ kvTable "Top Usernames" data.topUsernames ++ kvTable "Top Passwords" data.topPasswords ++
    kvTable "Top Source IPs" data.topSourceIps ++
    [["Attack Trends (per hour, last 24h)"], ["Hour", "Attacks"]] ++ data.attackTrends.map hourRow

/-- The rows that `incidents_csv` writes. -/
def incidentsRows (m : Meta) (data : IncidentsReport) : List Row :=
  metaRows m ++ [incidentHeader] ++ data.incidents.map incidentRow

/-! ## Files -/

/-- `buf.getvalue()` -/
def csvText (rows : List Row) : String :=
  String.ofList (Csv.excel.write (rows.map (·.map String.toList)))

/-- `executive_csv` -/
def executiveCsv (m : Meta) (data : ExecutiveReport) : String :=
  csvText (executiveRows m data)

/-- `threats_csv` -/
def threatsCsv (m : Meta) (data : ThreatsReport) : String :=
  csvText (threatsRows m data)

/-- `incidents_csv` -/
def incidentsCsv (m : Meta) (data : IncidentsReport) : String :=
  csvText (incidentsRows m data)

variable (dialect : Dialect) (s : Store)

/-- `CSV_RENDERERS[report](_BUILDERS[report]())`; the clock is read once more when the data is there. -/
def csvReport (report : Report) (now : Datetime) : Except ApiError String :=
  match report with
  | .executive => .ok (executiveCsv (report.meta now) (buildExecutive dialect s))
  | .threats => .ok (threatsCsv (report.meta now) (buildThreats dialect s))
  | .incidents => (buildIncidents dialect s 25).map (incidentsCsv (report.meta now))

/-- `csv.field_size_limit()` -/
def fieldSizeLimit : Nat :=
  131072

/-- `list(csv.reader(file))` of a text that is opened with `newline=""`. -/
def readCsv (text : String) : Option (List Row) :=
  (Csv.read Csv.excel fieldSizeLimit text.toList).map (·.map (·.map String.ofList))

/-! ## Sections -/

/-- A part of a report: its title and its header, if it has them, and its data. -/
structure Section where
  heading : List Row
  rows : List Row
  deriving DecidableEq, Repr

/-- What stands in the file of a section. -/
def Section.lines (sec : Section) : List Row :=
  sec.heading ++ sec.rows

/-- No value of the row is longer than the reader reads. -/
def ShortRow (row : Row) : Prop :=
  ∀ value ∈ row, value.length ≤ fieldSizeLimit

instance (row : Row) : Decidable (ShortRow row) :=
  inferInstanceAs (Decidable (∀ value ∈ row, _ ≤ _))

/-- None of the rows of the section holds one. -/
def Section.Short (sec : Section) : Prop :=
  ∀ row ∈ sec.lines, ShortRow row

instance (sec : Section) : Decidable sec.Short :=
  inferInstanceAs (Decidable (∀ row ∈ sec.lines, ShortRow row))

/-- The head of a report. -/
def Meta.headSection (m : Meta) : Section where
  heading := [[m.product ++ " — " ++ m.title]]
  rows := [["Generated", m.generatedAt]]

/-- The section of a table of counts. -/
def kvSectionOf (title : String) (items : List (Text × Nat)) : Section where
  heading := [[title], ["Value", "Count"]]
  rows := items.map kvRow

/-- What the executive report says. -/
def ExecutiveReport.sections (m : Meta) (data : ExecutiveReport) : List Section :=
  [m.headSection, ⟨[["Executive Summary"]], data.summary.items.map summaryRow⟩,
    kvSectionOf "Top Countries" data.topCountries,
    ⟨[["Top MITRE Techniques"], ["ID", "Name", "Tactic", "Count"]], data.topMitre.map techniqueRow⟩]

/-- What the threat report says. -/
def ThreatsReport.sections (m : Meta) (data : ThreatsReport) : List Section :=
  [m.headSection, kvSectionOf "Top Usernames" data.topUsernames, kvSectionOf "Top Passwords" data.topPasswords,
    kvSectionOf "Top Source IPs" data.topSourceIps,
    ⟨[["Attack Trends (per hour, last 24h)"], ["Hour", "Attacks"]], data.attackTrends.map hourRow⟩]

/-- What the incident report says. -/
def IncidentsReport.sections (m : Meta) (data : IncidentsReport) : List Section :=
  [m.headSection, ⟨[incidentHeader], data.incidents.map incidentRow⟩]

/-- What a report says, or the error that is raised while it is built. -/
def Report.sections (report : Report) (now : Datetime) : Except ApiError (List Section) :=
  match report with
  | .executive => .ok ((buildExecutive dialect s).sections (report.meta now))
  | .threats => .ok ((buildThreats dialect s).sections (report.meta now))
  | .incidents => (buildIncidents dialect s 25).map (·.sections (report.meta now))

end SentinelSsh.Backend.Reports

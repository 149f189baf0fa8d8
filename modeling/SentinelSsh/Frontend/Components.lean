import SentinelSsh.Honeypot.Capture
import SentinelSsh.Lib.Html

/-!
# `frontend/assets/js/components.js`

The objects the API answers with, as far as the templates read them, and the template builders of
`UI`. A template is a list of pieces: `esc` is what the source writes `${escapeHtml(x)}`, `raw` a
field it writes `${x}`.
-/

namespace SentinelSsh.Frontend

open Html Honeypot

/-! ## The browser -/

/-- What the templates take from the browser: dates, which depend on the locale and the clock, and
the rounding of floats. Times and fixed-point numbers are written without markup. -/
structure Browser where
  /-- `Date.now()` -/
  now : Int
  /-- `new Date(iso).getTime()`, none for an invalid date. -/
  getTime : String → Option Int
  /-- `new Date(t).toLocaleTimeString([], ...)` with hours, minutes and seconds. -/
  toLocaleTimeString : Option Int → String
  /-- `new Date(t + seconds * 1000).toISOString()`, none for the `RangeError` of an invalid date. -/
  addSeconds : Option Int → Rat → Option String
  /-- `x.toFixed(2)` -/
  toFixed2 : Rat → String
  /-- `Math.round((count / top) * 100)` -/
  percent : Nat → Nat → Nat
  toLocaleTimeString_plain : ∀ t, Plain (toLocaleTimeString t).toList
  toFixed2_plain : ∀ x, Plain (toFixed2 x).toList

/-! ## What the API answers with -/

structure MitreOut where
  id : String
  name : String
  tactic : String
  deriving DecidableEq, Repr

structure CommandOut where
  timestamp : Option String
  command : String
  commandType : CommandType
  deriving DecidableEq, Repr

/-- `AttackOut`, and the snapshot of `new_attack`. -/
structure AttackOut where
  id : Nat
  timestamp : Option String
  sourceIp : String
  country : Option String
  asn : Option String
  isp : Option String
  username : Option String
  password : Option String
  sshVersion : Option String
  duration : Rat
  authAttempts : Int
  riskScore : Int
  isMalicious : Bool
  behaviors : List String
  mitre : List MitreOut
  incidentId : Option Nat
  commands : Option (List CommandOut)
  deriving DecidableEq

structure IncidentOut where
  id : Nat
  sourceIp : String
  country : Option String
  maxRiskScore : Int
  attemptCount : Int
  lastSeen : Option String
  mitre : List MitreOut
  deriving DecidableEq, Repr

/-- An answer of `SystemService.alerts`. -/
structure AlertOut where
  id : Nat
  alertType : String
  sourceIp : String
  country : Option String
  riskScore : Int
  mitre : Option MitreOut
  timestamp : Option String
  deriving DecidableEq, Repr

/-- An answer of `recent_commands`. -/
structure RecentCommand where
  timestamp : Option String
  sessionId : String
  sourceIp : String
  command : String
  mitre : List MitreOut
  deriving DecidableEq, Repr

/-- `TopItem` and `TopMitreItem` -/
inductive BarItem where
  | value (value : String) (count : Nat)
  | technique (id name : String) (count : Nat)
  deriving DecidableEq, Repr

def BarItem.count : BarItem → Nat
  | .value _ n => n
  | .technique _ _ n => n

/-! ## Helpers -/

/-- The value of a field, unless it is falsy. -/
def truthy (s : Option String) : Option String :=
  s.filter (· ≠ "")

/-- `s || '—'` -/
def orDash (s : Option String) : String :=
  (truthy s).getD "—"

/-- What `escapeHtml` writes for a character. -/
def escapeChar (c : Char) : List Char :=
  if c = '&' then "&amp;".toList
  else if c = '<' then "&lt;".toList
  else if c = '>' then "&gt;".toList
  else if c = '"' then "&quot;".toList
  else if c = apostrophe then "&#39;".toList
  else [c]

def escapeHtml : Option String → String
  | none => ""
  | some s => String.ofList (s.toList.flatMap escapeChar)

/-- `${escapeHtml(s)}` -/
def esc (s : String) : Piece :=
  .field s (escapeHtml (some s))

/-- `${s}` -/
def raw (s : String) : Piece :=
  .field s s

/-- `${s ? f(s) : ''}` -/
def ifTruthy (s : Option String) (f : String → List Piece) : List Piece :=
  (truthy s).elim [] f

/-- The four tiers of `severity`. -/
structure Severity where
  key : String
  label : String
  deriving DecidableEq, Repr

def severity (score : Int) : Severity :=
  if 90 ≤ score then { key := "critical", label := "CRITICAL" }
  else if 71 ≤ score then { key := "high", label := "HIGH" }
  else if 31 ≤ score then { key := "medium", label := "MEDIUM" }
  else { key := "low", label := "LOW" }

def sevBadge (score : Int) : List Piece :=
  let s := severity score
  [.lit "<span class=\"badge-sev sev-", .text s.key, .lit "\">", .text s.label, .lit " ",
    .text (toString score), .lit "</span>"]

def fmtTime (b : Browser) (iso : Option String) : String :=
  match truthy iso with
  | none => "—"
  | some iso => b.toLocaleTimeString (b.getTime iso)

def fmtAgo (b : Browser) (iso : Option String) : String :=
  match truthy iso with
  | none => "—"
  | some iso =>
    match b.getTime iso with
    | none => "NaNd ago"
    | some t =>
      -- milliseconds, where the source has the seconds as a float
      let age := (b.now - t).toNat
      if age < 60000 then toString (age / 1000) ++ "s ago"
      else if age < 3600000 then toString (age / 60000) ++ "m ago"
      else if age < 86400000 then toString (age / 3600000) ++ "h ago"
      else toString (age / 86400000) ++ "d ago"

/-! ## Templates -/

def mitreTags (mitre : List MitreOut) (max : Nat) : List Piece :=
  (mitre.take max).flatMap (fun m =>
    [.lit "<span class=\"tag mitre\" title=\"", esc m.name, .lit "\">", esc m.id, .lit "</span>"]) ++
  if max < mitre.length then
    [.lit "<span class=\"tag\">+", .text (toString (mitre.length - max)), .lit "</span>"]
  else []

def feedRow (b : Browser) (a : AttackOut) (isNew : Bool) : List Piece :=
  [.lit "<div class=\"feed-row ", .text (if isNew then "feed-new" else ""), .lit "\" data-attack=\"",
    .text (toString a.id), .lit "\">\n      <div class=\"time\">", .text (fmtTime b a.timestamp),
    .lit ("</div>\n      <div class=\"main\">\n" ++
      "        <div><span class=\"ip\">"), esc a.sourceIp,
    .lit "</span>\n          <span class=\"flag\">"] ++
  ifTruthy a.country (fun c => [.lit "· ", esc c]) ++
  [.lit "</span>\n          "] ++ sevBadge a.riskScore ++
  [.lit "</div>\n        <div class=\"creds\">", esc (orDash a.username), .lit " / ",
    esc (orDash a.password), .lit "</div>\n        <div class=\"tags\">"] ++
  mitreTags a.mitre 3 ++
  [.lit "</div>\n      </div>\n    </div>"]

def incidentItem (b : Browser) (inc : IncidentOut) : List Piece :=
  let s := severity inc.maxRiskScore
  [.lit "<div class=\"list-item\" data-incident=\"", .text (toString inc.id),
    .lit "\">\n      <div class=\"row1\"><span class=\"ip\">", esc inc.sourceIp, .lit " "] ++
  ifTruthy inc.country (fun c => [.lit "· ", esc c]) ++
  [.lit "</span>\n        <span class=\"badge-sev sev-", .text s.key, .lit "\">", .text s.label,
    .lit "</span></div>\n      <div class=\"sub\">", .text (toString inc.attemptCount),
    .lit " attacks · ", .text (fmtAgo b inc.lastSeen), .lit " · "] ++
  mitreTags inc.mitre 2 ++
  [.lit "</div>\n    </div>"]

def alertRow (b : Browser) (al : AlertOut) : List Piece :=
  let s := severity al.riskScore
  let tech := al.mitre.elim [] fun m => [.lit "<span class=\"tag mitre\">", esc m.id, .lit "</span>"]
  [.lit "<div class=\"alert-row ", .text s.key, .lit "\" data-attack=\"", .text (toString al.id),
    .lit ("\">\n      <div class=\"sev-stripe\"></div>\n      <div class=\"body\">\n" ++
      "        <div class=\"type\">"), esc al.alertType,
    .lit "</div>\n        <div class=\"meta\">", esc al.sourceIp, .lit " "] ++
  ifTruthy al.country (fun c => [.lit "· ", esc c]) ++
  [.lit " · "] ++ tech ++
  [.lit " · ", .text (fmtTime b al.timestamp),
    .lit "</div>\n      </div>\n      <div class=\"score sev-", .text s.key,
    .lit "\" style=\"color:var(--", .text s.key, .lit ")\">", .text (toString al.riskScore),
    .lit "</div>\n    </div>"]

/-- The label of an item of `barList`. -/
def BarItem.label : BarItem → String
  | .value v _ => v
  | .technique id name _ => id ++ " " ++ name

/-- An item of `barList`. -/
def barItem (b : Browser) (top : Nat) (i : BarItem) : List Piece :=
  [.lit "<div class=\"bar-item\">\n        <div class=\"name\" title=\"", esc i.label, .lit "\">",
    esc (orDash (some i.label)), .lit "</div>\n        <div class=\"count\">",
    .text (toString i.count),
    .lit "</div>\n        <div class=\"track\"><div class=\"fill\" style=\"width:",
    .text (toString (b.percent i.count top)), .lit "%\"></div></div>\n      </div>"]

def barList (b : Browser) (items : List BarItem) (max : Option Nat) : List Piece :=
  if items = [] then [.lit "<div class=\"empty\" style=\"padding:8px\">No data</div>"]
  else
    let top := (max.filter (· ≠ 0)).getD ((items.map BarItem.count).foldl Nat.max 1)
    items.flatMap (barItem b top)

def commandRow (b : Browser) (c : RecentCommand) : List Piece :=
  -- every tag is a non-empty text, so the joined tags are falsy exactly when there is none
  let tech := if c.mitre = [] then [.lit "—"] else c.mitre.flatMap fun m =>
    [.lit "<span class=\"tag mitre\">", esc m.id, .lit "</span>"]
  let sess := String.ofList (c.sessionId.toList.take 8)
  [.lit "<tr>\n      <td class=\"mono\" style=\"color:var(--muted-2)\">",
    .text (fmtTime b c.timestamp), .lit "</td>\n      <td class=\"mono\">", esc sess,
    .lit "</td>\n      <td class=\"mono\">", esc c.sourceIp, .lit "</td>\n      <td><code>",
    esc c.command, .lit "</code></td>\n      <td>"] ++
  tech ++
  [.lit "</td>\n    </tr>"]

end SentinelSsh.Frontend

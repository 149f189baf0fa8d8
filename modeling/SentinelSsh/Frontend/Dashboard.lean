import SentinelSsh.Frontend.Components

/-!
# The attack modal of `frontend/assets/js/dashboard.js`

`buildTimeline` and `openAttack`, and what two objects of the same shape have in common: everything
but the values of the strings an attacker controls, of which only emptiness counts.
-/

namespace SentinelSsh.Frontend

open Html Honeypot

/-! ## Templates -/

/-- An item of the timeline. -/
structure TimelineItem where
  cls : String
  time : Option String
  title : String
  desc : List Piece
  deriving DecidableEq, Repr

/-- The items of `buildTimeline`, given the end of the session. -/
def timelineItems (b : Browser) (a : AttackOut) (ended : Option String) : List TimelineItem :=
  let t0 := a.timestamp
  [{ cls := "", time := t0, title := "Connection Established",
      desc := [raw a.sourceIp] ++ ifTruthy a.country (fun c => [.lit " · ", raw c]) ++
        [.lit " · ", raw ((truthy a.sshVersion).getD "unknown client")] },
    { cls := "auth", time := t0, title := "Authentication Attempt",
      desc := [esc (orDash a.username), .lit " / ", esc (orDash a.password), .lit " · ",
        .text (toString a.authAttempts), .lit " attempt(s)"] }] ++
  (a.commands.getD []).map (fun c =>
    { cls := "cmd", time := c.timestamp, title := "Command Executed",
      desc := [.lit "<code>", esc c.command, .lit "</code> <span class=\"tag\">",
        .text c.commandType.text, .lit "</span>"] }) ++
  (if a.behaviors = [] then [] else
    [{ cls := "behavior", time := t0, title := "Behaviors Detected",
       desc := join " " (a.behaviors.map fun v =>
        [.lit "<span class=\"tag\">", esc v, .lit "</span>"]) }]) ++
  [{ cls := "disconnect", time := ended, title := "Disconnect",
      desc := [.lit "session closed after ", .text (b.toFixed2 a.duration), .lit "s"] }]

/-- An item as `buildTimeline` writes it. -/
def TimelineItem.render (b : Browser) (i : TimelineItem) : List Piece :=
  [.lit "\n      <div class=\"tl-item ", .text i.cls, .lit "\">\n        <div class=\"tl-time\">",
    .text (fmtTime b i.time), .lit "</div>\n        <div class=\"tl-title\">", .text i.title,
    .lit "</div>\n        <div class=\"tl-desc\">"] ++
  i.desc ++
  [.lit "</div>\n      </div>"]

/-- The end of the session: none if there is no timestamp, an error if it is not a date. -/
def endOf (b : Browser) (a : AttackOut) : Option (Option String) :=
  match truthy a.timestamp with
  | none => some none
  | some iso => (b.addSeconds (b.getTime iso) a.duration).map some

/-- `buildTimeline`; none if it raises. -/
def buildTimeline (b : Browser) (a : AttackOut) : Option (List Piece) :=
  (endOf b a).map fun ended =>
    [.lit "<div class=\"timeline\">"] ++ (timelineItems b a ended).flatMap (TimelineItem.render b) ++
      [.lit "</div>"]

/-- The title of the modal. -/
def modalTitle (a : AttackOut) : List Piece :=
  [.lit "Attack #", .text (toString a.id), .lit " — ", esc a.sourceIp, .lit " "] ++
    sevBadge a.riskScore

/-- Joined tags, or a dash: every tag is a non-empty text, so the joined tags are falsy exactly when
there is none. -/
def tagsOrDash (tags : List (List Piece)) : List Piece :=
  if tags = [] then [.lit "—"] else join " " tags

/-- The body of the modal around the timeline. -/
def modalBody (b : Browser) (a : AttackOut) (timeline : List Piece) : List Piece :=
  let mitre := tagsOrDash (a.mitre.map fun m =>
    [.lit "<span class=\"tag mitre\" title=\"", esc m.tactic, .lit "\">", esc m.id, .lit " ",
      esc m.name, .lit "</span>"])
  let behaviors := tagsOrDash (a.behaviors.map fun v =>
    [.lit "<span class=\"tag\">", esc v, .lit "</span>"])
  let incident := (a.incidentId.filter (· ≠ 0)).elim [] fun n =>
    [.lit " · incident #", .text (toString n)]
  [.lit "\n        <div class=\"kv\">\n          <b>", esc ((truthy a.country).getD "Unknown"),
    .lit "</b> · ASN ", esc (orDash a.asn), .lit " · ", esc (orDash a.isp),
    .lit "<br/>\n          user <b>", esc (orDash a.username), .lit "</b> / pass <b>",
    esc (orDash a.password), .lit "</b> ·\n          ", esc (orDash a.sshVersion), .lit " · ",
    .text (b.toFixed2 a.duration), .lit "s ·\n          "] ++
  (if a.isMalicious then
    [.lit "<span class=\"tag\" style=\"color:#fca5a5;border-color:#7f1d1d\">malicious source</span>"]
  else []) ++
  [.lit "\n          "] ++ incident ++
  [.lit ("\n        </div>\n        <div class=\"detail-section\">" ++
    "<h4>MITRE ATT&CK Techniques</h4><div>")] ++
  mitre ++
  [.lit ("</div></div>\n        <div class=\"detail-section\">" ++
    "<h4>Behaviors Detected</h4><div>")] ++
  behaviors ++
  [.lit "</div></div>\n        <div class=\"detail-section\"><h4>Attack Timeline</h4>"] ++
  timeline ++
  [.lit "</div>"]

/-- `openAttack`: what is written to the title and to the body of the modal. When `buildTimeline`
raises the body is not written. -/
def openAttack (b : Browser) (a : AttackOut) : List Piece × Option (List Piece) :=
  (modalTitle a, (buildTimeline b a).map (modalBody b a))

/-! ## Objects of the same shape -/

/-- What counts of a string the attacker controls: whether it is empty. -/
def blank (s : String) : String :=
  if s = "" then "" else "x"

def MitreOut.erase (m : MitreOut) : MitreOut :=
  { m with name := blank m.name }

def CommandOut.erase (c : CommandOut) : CommandOut :=
  { c with command := blank c.command }

/-- An attack without the values of the strings the attacker controls. -/
def AttackOut.erase (a : AttackOut) : AttackOut :=
  { a with
    sourceIp := blank a.sourceIp
    country := a.country.map blank
    username := a.username.map blank
    password := a.password.map blank
    sshVersion := a.sshVersion.map blank
    behaviors := a.behaviors.map blank
    mitre := a.mitre.map MitreOut.erase
    commands := a.commands.map (·.map CommandOut.erase) }

def IncidentOut.erase (inc : IncidentOut) : IncidentOut :=
  { inc with
    sourceIp := blank inc.sourceIp
    country := inc.country.map blank
    mitre := inc.mitre.map MitreOut.erase }

def AlertOut.erase (al : AlertOut) : AlertOut :=
  { al with
    sourceIp := blank al.sourceIp
    country := al.country.map blank
    mitre := al.mitre.map MitreOut.erase }

def RecentCommand.erase (c : RecentCommand) : RecentCommand :=
  { c with
    sourceIp := blank c.sourceIp
    command := blank c.command
    mitre := c.mitre.map MitreOut.erase }

def BarItem.erase : BarItem → BarItem
  | .value v n => .value (blank v) n
  | .technique id name n => .technique id (blank name) n

/-- The fields `buildTimeline` writes as they are hold no special character. -/
def AttackOut.Clean (a : AttackOut) : Prop :=
  Plain a.sourceIp.toList ∧ (∀ c, a.country = some c → Plain c.toList) ∧
    ∀ v, a.sshVersion = some v → Plain v.toList

end SentinelSsh.Frontend

import SentinelSsh.Frontend.Proofs.RenderingProofs
import SentinelSsh.Lib.Proofs.HtmlTextProofs

/-!
# What the panels show

The own text of the builders is plain and each of them ends where it began (`prints_feedRow` and the others),
so a panel shows the data of its rows, character for character, as if they had never been markup. A command
stands alone between the tags of its cell.
-/

namespace SentinelSsh.Frontend

open Html Honeypot

/-! ## The builders -/

theorem prints_sevBadge (score : Int) : Prints .data (sevBadge score) .data := by
  repeat' constructor

theorem prints_mitreTags (mitre : List MitreOut) (max : Nat) : Prints .data (mitreTags mitre max) .data := by
  refine (Prints.flatMap fun m _ => by repeat' constructor).append ?_
  split_ifs
  · repeat' constructor
  · exact .nil

theorem prints_country (c : Option String) :
    Prints .data (ifTruthy c fun c => [.lit "· ", esc c]) .data := by
  rw [ifTruthy]
  cases truthy c with
  | none => exact .nil
  | some v => repeat' constructor

theorem prints_feedRow (b : Browser) (a : AttackOut) (isNew : Bool) :
    Prints .data (feedRow b a isNew) .data := by
  refine Prints.append (Prints.append (Prints.append (Prints.append (Prints.append
    (Prints.append ?_ (prints_country _)) ?_) (prints_sevBadge _)) ?_)
    (prints_mitreTags _ _)) ?_
  all_goals repeat' constructor

theorem prints_incidentItem (b : Browser) (inc : IncidentOut) :
    Prints .data (incidentItem b inc) .data := by
  refine Prints.append (Prints.append (Prints.append (Prints.append ?_
    (prints_country _)) ?_) (prints_mitreTags _ _)) ?_
  all_goals repeat' constructor

theorem prints_alertRow (b : Browser) (al : AlertOut) : Prints .data (alertRow b al) .data := by
  refine Prints.append_data (Prints.append_data (Prints.append_data (Prints.append_data ?_
    (prints_country _)) ?_) ?_) ?_
  · repeat' constructor
  · repeat' constructor
  · cases al.mitre with
    | none => exact .nil
    | some m => repeat' constructor
  · repeat' constructor

theorem prints_barList (b : Browser) (items : List BarItem) (max : Option Nat) :
    Prints .data (barList b items max) .data := by
  rw [barList]
  split_ifs
  · repeat' constructor
  · exact Prints.flatMap fun i _ => by repeat' constructor

theorem prints_commandRow (b : Browser) (c : RecentCommand) : Prints .data (commandRow b c) .data := by
  refine Prints.append_data (Prints.append_data ?_ ?_) ?_
  · repeat' constructor
  · split_ifs
    · repeat' constructor
    · exact Prints.flatMap fun m _ => by repeat' constructor
  · repeat' constructor

/-! ## The table of commands -/

/-- The white space between the cells of a row. -/
def blanks : List Char :=
  "\n      ".toList

/-- The texts of a row of the table of commands: in the cells the time, the beginning of the session, the
address and the command, each alone. -/
def cells (b : Browser) (c : RecentCommand) : List (List Char) :=
  [(fmtTime b c.timestamp).toList, blanks, c.sessionId.toList.take 8, blanks, c.sourceIp.toList, blanks, [],
    c.command.toList, []]

theorem shown_commandRow (b : Browser) (c : RecentCommand) : ∃ rest, rest ≠ [] ∧
    shown (commandRow b c) = [] :: (blanks :: cells b c ++ rest) := by
  rw [shown, commandRow]
  simp only [List.cons_append, List.nil_append]
  rw [shownFrom_lit [[], blanks] (by decide) (by decide),
    shownFrom_text [blanks] (by decide) (by decide), esc, shownFrom_field [blanks] (by decide) (by decide),
    esc, shownFrom_field [blanks, []] (by decide) (by decide),
    esc, shownFrom_field [[], blanks] (by decide) (by decide), String.toList_ofList]
  exact ⟨_, List.cons_ne_nil _ _, rfl⟩

/-- A row of the table stands in it as it is. -/
theorem cells_infix (b : Browser) {rows : List RecentCommand} {c : RecentCommand} (hc : c ∈ rows) :
    cells b c <:+: shown (rows.flatMap (commandRow b)) := by
  obtain ⟨pre, post, rfl⟩ := List.append_of_mem hc
  obtain ⟨rest, hrest, hrow⟩ := shown_commandRow b c
  have hpre : Prints .data (pre.flatMap (commandRow b)) .data :=
    Prints.flatMap fun d _ => prints_commandRow b d
  rw [List.flatMap_append, List.flatMap_cons, shown, shownFrom_append hpre,
    shownFrom_append (prints_commandRow b c)]
  rw [shown] at hrow
  rw [hrow]
  have hmid : blanks :: cells b c <:+: glue _ (glue ([] :: (blanks :: cells b c ++ rest)) _) :=
    infix_glue hrest [] (shownFrom .data (pre.flatMap (commandRow b)))
      (shownFrom .data (post.flatMap (commandRow b)))
  exact (List.suffix_cons _ _).isInfix.trans hmid

/-! ## The panels -/

/-- The panels of the dashboard show the data of their rows, character for character, and in the table of
commands each command stands alone in its cell. -/
theorem panels_display (b : Browser) :
    (∀ (rows : List AttackOut) (isNew : Bool), Displays (rows.flatMap fun a => feedRow b a isNew)) ∧
      (∀ rows : List IncidentOut, Displays (rows.flatMap (incidentItem b))) ∧
      (∀ rows : List AlertOut, Displays (rows.flatMap (alertRow b))) ∧
      (∀ (items : List BarItem) (max : Option Nat), Displays (barList b items max)) ∧
      ∀ rows : List RecentCommand, Displays (rows.flatMap (commandRow b)) ∧
        ∀ c ∈ rows, cells b c <:+: shown (rows.flatMap (commandRow b)) := by
  refine ⟨fun rows isNew => ?_, fun rows => ?_, fun rows => ?_, fun items max => ?_, fun rows => ⟨?_, ?_⟩⟩
  · exact (Prints.flatMap fun a _ => prints_feedRow b a isNew).displays
      (Fragment.flatMap fun a _ => fragment_feedRow b a isNew).sound
  · exact (Prints.flatMap fun i _ => prints_incidentItem b i).displays
      (Fragment.flatMap fun i _ => fragment_incidentItem b i).sound
  · exact (Prints.flatMap fun al _ => prints_alertRow b al).displays
      (Fragment.flatMap fun al _ => fragment_alertRow b al).sound
  · exact (prints_barList b items max).displays (fragment_barList b items max).sound
  · exact (Prints.flatMap fun c _ => prints_commandRow b c).displays
      (Fragment.flatMap fun c _ => fragment_commandRow b c).sound
  · exact fun c hc => cells_infix b hc

end SentinelSsh.Frontend

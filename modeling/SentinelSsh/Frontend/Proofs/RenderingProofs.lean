import SentinelSsh.Frontend.Dashboard
import SentinelSsh.Lib.Proofs.HtmlProofs

/-!
# What attacker-controlled text does to the dashboard

Every builder of `UI` gives a fragment, whose shape is that of the object without the attacker's
strings. `buildTimeline` writes three fields as they are: it gives a fragment when they are plain, and
field text that is not escaped when they are not.
-/

namespace SentinelSsh.Frontend

open Html Honeypot

/-! ## `escapeHtml` -/

/-- Escaping is undone by decoding. -/
theorem unescape_escapeHtml (s : String) :
    unescape (escapeHtml (some s)).toList = some s.toList := by
  rw [escapeHtml, String.toList_ofList]
  induction s.toList with
  | nil => rfl
  | cons c cs ih =>
    have hreference : ∀ ref d, (∀ t, unescape (ref ++ t) = (unescape t).map (d :: ·)) →
        unescape (ref ++ cs.flatMap escapeChar) = some (d :: cs) := by
      intro ref d hd
      rw [hd, ih]
      rfl
    rw [List.flatMap_cons, escapeChar]
    split_ifs with h₁ h₂ h₃ h₄ h₅
    · exact hreference _ _ fun t => by rw [h₁]; rfl
    · exact hreference _ _ fun t => by rw [h₂]; rfl
    · exact hreference _ _ fun t => by rw [h₃]; rfl
    · exact hreference _ _ fun t => by rw [h₄]; rfl
    · exact hreference _ _ fun t => by rw [h₅]; rfl
    · refine hreference _ _ fun t => ?_
      have hc : c ∉ specials := by simp [specials, h₁, h₂, h₃, h₄, h₅]
      rw [List.singleton_append, unescape, if_neg hc]
      all_goals
        intros
        exact h₁ (by assumption)

@[simp]
theorem sound_lit (s : String) : (Piece.lit s).Sound := trivial

@[simp]
theorem sound_esc (s : String) : (esc s).Sound :=
  unescape_escapeHtml s

@[simp]
theorem sound_text (s : String) : (Piece.text s).Sound ↔ Plain s.toList := Iff.rfl

@[simp]
theorem sound_raw (s : String) : (raw s).Sound ↔ Plain s.toList :=
  unescape_self_iff

/-! ## Numbers and times -/

@[simp]
theorem plain_toDigits (n : Nat) : Plain (Nat.toDigits 10 n) := by
  intro c hc hspecial
  have hdigit := Nat.isDigit_of_mem_toDigits (by decide) (by decide) hc
  have hnone : ∀ d ∈ specials, d.isDigit = false := by simp [specials, apostrophe, Char.isDigit]
  rw [hnone c hspecial] at hdigit
  exact absurd hdigit (by decide)

theorem plain_append {s t : String} (hs : Plain s.toList) (ht : Plain t.toList) :
    Plain (s ++ t).toList := by
  intro c hc
  rw [String.toList_append] at hc
  rcases List.mem_append.mp hc with hc | hc
  · exact hs c hc
  · exact ht c hc

@[simp]
theorem plain_repr (i : Int) : Plain i.repr.toList := by
  have hnat : ∀ n : Nat, Plain n.repr.toList := fun n => by simp
  cases i with
  | ofNat n => exact hnat n
  | negSucc n => exact plain_append (s := "-") (by decide) (hnat _)

@[simp]
theorem plain_fmtTime (b : Browser) (iso : Option String) : Plain (fmtTime b iso).toList := by
  have hdash : Plain "—".toList := by decide
  rw [fmtTime]
  cases truthy iso with
  | none => exact hdash
  | some iso => exact b.toLocaleTimeString_plain _

@[simp]
theorem plain_fmtAgo (b : Browser) (iso : Option String) : Plain (fmtAgo b iso).toList := by
  have hdash : Plain "—".toList := by decide
  have hnan : Plain "NaNd ago".toList := by decide
  have hnat : ∀ (n : Nat) {unit : String}, Plain unit.toList → Plain (toString n ++ unit).toList :=
    fun n _ hunit => plain_append (by simp) hunit
  rw [fmtAgo]
  cases truthy iso with
  | none => exact hdash
  | some iso =>
    dsimp only
    cases b.getTime iso with
    | none => exact hnan
    | some t =>
      dsimp only
      split_ifs <;> exact hnat _ (by decide)

@[simp]
theorem plain_severity_key (score : Int) : Plain (severity score).key.toList := by
  rw [severity]
  split_ifs <;> decide

@[simp]
theorem plain_severity_label (score : Int) : Plain (severity score).label.toList := by
  rw [severity]
  split_ifs <;> decide

@[simp]
theorem plain_feedNew (isNew : Bool) : Plain (if isNew then "feed-new" else "").toList := by
  cases isNew <;> decide

/-! ## The builders give fragments -/

theorem fragment_sevBadge (score : Int) : Fragment (sevBadge score) :=
  Leads.fragment (by repeat' constructor) (by simp [sevBadge])

theorem fragment_mitreTags (mitre : List MitreOut) (max : Nat) : Fragment (mitreTags mitre max) := by
  refine (Fragment.flatMap fun m _ => Leads.fragment (by repeat' constructor) (by simp)).append ?_
  split_ifs
  · exact Leads.fragment (by repeat' constructor) (by simp)
  · exact Fragment.nil

theorem fragment_ifTruthy {s : Option String} {f : String → List Piece}
    (h : ∀ v, s = some v → Fragment (f v)) : Fragment (ifTruthy s f) := by
  rw [ifTruthy, truthy]
  cases hs : s.filter (· ≠ "") with
  | none => exact Fragment.nil
  | some v => exact h v (Option.filter_eq_some_iff.mp hs).1

theorem fragment_country (c : Option String) :
    Fragment (ifTruthy c fun c => [.lit "· ", esc c]) :=
  fragment_ifTruthy fun c _ => Leads.fragment (by repeat' constructor) (by simp)

theorem fragment_feedRow (b : Browser) (a : AttackOut) (isNew : Bool) :
    Fragment (feedRow b a isNew) := by
  refine Fragment.append (Fragment.append (Fragment.append (Fragment.append (Fragment.append
    (Fragment.append ?_ (fragment_country _)) ?_) (fragment_sevBadge _)) ?_)
    (fragment_mitreTags _ _)) ?_
  all_goals exact Leads.fragment (by repeat' constructor) (by simp)

theorem fragment_incidentItem (b : Browser) (inc : IncidentOut) : Fragment (incidentItem b inc) := by
  refine Fragment.append (Fragment.append (Fragment.append (Fragment.append ?_
    (fragment_country _)) ?_) (fragment_mitreTags _ _)) ?_
  all_goals exact Leads.fragment (by repeat' constructor) (by simp)

theorem fragment_alertRow (b : Browser) (al : AlertOut) : Fragment (alertRow b al) := by
  refine Fragment.append (Fragment.append (Fragment.append (Fragment.append ?_
    (fragment_country _)) ?_) ?_) ?_
  · exact Leads.fragment (by repeat' constructor) (by simp)
  · exact Leads.fragment (by repeat' constructor) (by simp)
  · cases al.mitre with
    | none => exact Fragment.nil
    | some m => exact Leads.fragment (by repeat' constructor) (by simp)
  · exact Leads.fragment (by repeat' constructor) (by simp)

theorem fragment_barList (b : Browser) (items : List BarItem) (max : Option Nat) :
    Fragment (barList b items max) := by
  rw [barList]
  split_ifs
  · exact Leads.fragment (by repeat' constructor) (by simp)
  · exact Fragment.flatMap fun i _ => Leads.fragment (by repeat' constructor) (by simp [barItem])

theorem fragment_commandRow (b : Browser) (c : RecentCommand) : Fragment (commandRow b c) := by
  refine Fragment.append (Fragment.append ?_ ?_) ?_
  · exact Leads.fragment (by repeat' constructor) (by simp)
  · split_ifs
    · exact Leads.fragment (by repeat' constructor) (by simp)
    · exact Fragment.flatMap fun m _ => Leads.fragment (by repeat' constructor) (by simp)
  · exact Leads.fragment (by repeat' constructor) (by simp)

theorem fragment_render (b : Browser) {cls title : String} {time : Option String}
    {desc : List Piece} (hcls : Plain cls.toList) (htitle : Plain title.toList)
    (hdesc : Fragment desc) :
    Fragment (TimelineItem.render b { cls := cls, time := time, title := title, desc := desc }) := by
  refine Fragment.append (Fragment.append ?_ hdesc) ?_
  · exact Leads.fragment (by repeat' constructor) (by simp [hcls, htitle])
  · exact Leads.fragment (by repeat' constructor) (by simp)

theorem plain_commandType (t : CommandType) : Plain t.text.toList := by
  cases t <;> decide

/-- The timeline of an attack whose unescaped fields are plain. -/
theorem fragment_timeline (b : Browser) {a : AttackOut} (hc : a.Clean) (ended : Option String) :
    Fragment ((timelineItems b a ended).flatMap (TimelineItem.render b)) := by
  obtain ⟨hip, hcountry, hversion⟩ := hc
  refine Fragment.flatMap fun i hi => ?_
  rw [timelineItems, List.append_assoc, List.append_assoc] at hi
  rcases List.mem_append.mp hi with hi | hi
  · rcases List.mem_cons.mp hi with rfl | hi
    · have hclient : Plain ((truthy a.sshVersion).getD "unknown client").toList := by
        rw [truthy]
        cases hv : a.sshVersion.filter (· ≠ "") with
        | none => decide
        | some v => exact hversion v (Option.filter_eq_some_iff.mp hv).1
      refine fragment_render b (by decide) (by decide)
        (Fragment.append (Fragment.append ?_ (fragment_ifTruthy fun c h => ?_)) ?_)
      · exact Leads.fragment (by repeat' constructor) (by simp [hip])
      · exact Leads.fragment (by repeat' constructor) (by simp [hcountry c h])
      · exact Leads.fragment (by repeat' constructor) (by simp [hclient])
    · obtain rfl := List.mem_singleton.mp hi
      exact fragment_render b (by decide) (by decide) (Leads.fragment (by repeat' constructor) (by simp))
  rcases List.mem_append.mp hi with hi | hi
  · obtain ⟨c, -, rfl⟩ := List.mem_map.mp hi
    refine fragment_render b (by decide) (by decide) ?_
    exact Leads.fragment (by repeat' constructor) (by simp [plain_commandType])
  rcases List.mem_append.mp hi with hi | hi
  · split_ifs at hi
    · exact absurd hi List.not_mem_nil
    · obtain rfl := List.mem_singleton.mp hi
      refine fragment_render b (by decide) (by decide)
        (Fragment.join (Leads.fragment (by repeat' constructor) (by simp)) fun ps hps => ?_)
      obtain ⟨v, -, rfl⟩ := List.mem_map.mp hps
      exact Leads.fragment (by repeat' constructor) (by simp)
  · obtain rfl := List.mem_singleton.mp hi
    refine fragment_render b (by decide) (by decide) ?_
    exact Leads.fragment (by repeat' constructor) (by simp [b.toFixed2_plain])

theorem fragment_tagsOrDash {tags : List (List Piece)} (h : ∀ ps ∈ tags, Fragment ps) :
    Fragment (tagsOrDash tags) := by
  rw [tagsOrDash]
  split_ifs
  · exact Leads.fragment (by repeat' constructor) (by simp)
  · exact Fragment.join (Leads.fragment (by repeat' constructor) (by simp)) h

theorem fragment_modalTitle (a : AttackOut) : Fragment (modalTitle a) :=
  Fragment.append (Leads.fragment (by repeat' constructor) (by simp)) (fragment_sevBadge _)

theorem fragment_modalBody (b : Browser) (a : AttackOut) {timeline : List Piece}
    (h : Fragment timeline) : Fragment (modalBody b a timeline) := by
  refine Fragment.append (Fragment.append (Fragment.append (Fragment.append (Fragment.append
    (Fragment.append (Fragment.append (Fragment.append (Fragment.append (Fragment.append
    ?_ ?_) ?_) ?_) ?_) (fragment_tagsOrDash fun ps hps => ?_)) ?_)
    (fragment_tagsOrDash fun ps hps => ?_)) ?_) h) ?_
  · exact Leads.fragment (by repeat' constructor) (by simp [b.toFixed2_plain])
  · split_ifs
    · exact Leads.fragment (by repeat' constructor) (by simp)
    · exact Fragment.nil
  · exact Leads.fragment (by repeat' constructor) (by simp)
  · cases a.incidentId.filter (· ≠ 0) with
    | none => exact Fragment.nil
    | some n => exact Leads.fragment (by repeat' constructor) (by simp)
  · exact Leads.fragment (by repeat' constructor) (by simp)
  · obtain ⟨m, -, rfl⟩ := List.mem_map.mp hps
    exact Leads.fragment (by repeat' constructor) (by simp)
  · exact Leads.fragment (by repeat' constructor) (by simp)
  · obtain ⟨v, -, rfl⟩ := List.mem_map.mp hps
    exact Leads.fragment (by repeat' constructor) (by simp)
  · exact Leads.fragment (by repeat' constructor) (by simp)
  · exact Leads.fragment (by repeat' constructor) (by simp)

/-! ## The shape of a rendering -/

theorem truthy_map_blank (s : Option String) : truthy (s.map blank) = (truthy s).map blank := by
  cases s with
  | none => rfl
  | some v =>
    by_cases hv : v = ""
    · rw [hv]
      rfl
    · simp [truthy, Option.filter, blank, hv]

theorem shape_ifTruthy (s : Option String) {f : String → List Piece}
    (h : ∀ v w, (f v).map Piece.shape = (f w).map Piece.shape) :
    (ifTruthy s f).map Piece.shape = (ifTruthy (s.map blank) f).map Piece.shape := by
  rw [ifTruthy, ifTruthy, truthy_map_blank]
  cases truthy s with
  | none => rfl
  | some v => exact h v (blank v)

theorem shape_mitreTags (mitre : List MitreOut) (max : Nat) :
    (mitreTags mitre max).map Piece.shape =
      (mitreTags (mitre.map MitreOut.erase) max).map Piece.shape := by
  rw [mitreTags, mitreTags, ← List.map_take, List.flatMap_map, List.length_map, List.map_append,
    List.map_append, List.map_flatMap, List.map_flatMap]
  rfl

theorem shape_feedRow (b : Browser) (a : AttackOut) (isNew : Bool) :
    (feedRow b a isNew).map Piece.shape = (feedRow b a.erase isNew).map Piece.shape := by
  simp only [feedRow, List.map_append]
  rw [shape_ifTruthy a.country fun _ _ => rfl, shape_mitreTags]
  rfl

theorem shape_incidentItem (b : Browser) (inc : IncidentOut) :
    (incidentItem b inc).map Piece.shape = (incidentItem b inc.erase).map Piece.shape := by
  simp only [incidentItem, List.map_append]
  rw [shape_ifTruthy inc.country fun _ _ => rfl, shape_mitreTags]
  rfl

theorem shape_alertRow (b : Browser) (al : AlertOut) :
    (alertRow b al).map Piece.shape = (alertRow b al.erase).map Piece.shape := by
  simp only [alertRow, List.map_append]
  rw [shape_ifTruthy al.country fun _ _ => rfl]
  have htech : ∀ m : Option MitreOut,
      (m.elim [] fun m => [.lit "<span class=\"tag mitre\">", esc m.id, .lit "</span>"]).map
          Piece.shape =
        ((m.map MitreOut.erase).elim [] fun m =>
          [.lit "<span class=\"tag mitre\">", esc m.id, .lit "</span>"]).map Piece.shape := by
    intro m
    cases m <;> rfl
  rw [htech]
  rfl

theorem shape_barList (b : Browser) (items : List BarItem) (max : Option Nat) :
    (barList b items max).map Piece.shape =
      (barList b (items.map BarItem.erase) max).map Piece.shape := by
  have hcount : (items.map BarItem.erase).map BarItem.count = items.map BarItem.count := by
    rw [List.map_map]
    exact List.map_congr_left fun i _ => by cases i <;> rfl
  have hitem : ∀ (top : Nat) (i : BarItem),
      (barItem b top i).map Piece.shape = (barItem b top i.erase).map Piece.shape :=
    fun _ i => by cases i <;> rfl
  rw [barList, barList, hcount]
  by_cases hnil : items = []
  · rw [hnil]
    rfl
  · rw [if_neg hnil, if_neg (mt List.map_eq_nil_iff.mp hnil), List.flatMap_map, List.map_flatMap,
      List.map_flatMap]
    exact congrArg (items.flatMap ·) (funext fun i => hitem _ i)

theorem shape_commandRow (b : Browser) (c : RecentCommand) :
    (commandRow b c).map Piece.shape = (commandRow b c.erase).map Piece.shape := by
  have htech : ∀ mitre : List MitreOut,
      (if mitre = [] then [.lit "—"] else mitre.flatMap fun m =>
          [.lit "<span class=\"tag mitre\">", esc m.id, .lit "</span>"]).map Piece.shape =
        (if mitre.map MitreOut.erase = [] then [.lit "—"] else
          (mitre.map MitreOut.erase).flatMap fun m =>
            [.lit "<span class=\"tag mitre\">", esc m.id, .lit "</span>"]).map Piece.shape := by
    intro mitre
    rw [List.flatMap_map]
    cases mitre <;> rfl
  simp only [commandRow, List.map_append]
  rw [htech]
  rfl

/-- An item without field texts. -/
def TimelineItem.shape (i : TimelineItem) : TimelineItem :=
  { i with desc := i.desc.map Piece.shape }

theorem shape_tags (vs : List String) :
    (vs.map fun v => [.lit "<span class=\"tag\">", esc v, .lit "</span>"]).map (·.map Piece.shape) =
      ((vs.map blank).map fun v => [.lit "<span class=\"tag\">", esc v, .lit "</span>"]).map
        (·.map Piece.shape) := by
  rw [List.map_map, List.map_map, List.map_map]
  rfl

theorem shape_timelineItems (b : Browser) (a : AttackOut) (ended : Option String) :
    (timelineItems b a ended).map TimelineItem.shape =
      (timelineItems b a.erase ended).map TimelineItem.shape := by
  have hconnection : ([raw a.sourceIp] ++ ifTruthy a.country (fun c => [.lit " · ", raw c]) ++
      [.lit " · ", raw ((truthy a.sshVersion).getD "unknown client")]).map Piece.shape =
      ([raw a.erase.sourceIp] ++ ifTruthy a.erase.country (fun c => [.lit " · ", raw c]) ++
        [.lit " · ", raw ((truthy a.erase.sshVersion).getD "unknown client")]).map Piece.shape := by
    rw [List.map_append, List.map_append, shape_ifTruthy a.country fun _ _ => rfl, List.map_append,
      List.map_append]
    rfl
  have hcommands : a.erase.commands.getD [] = (a.commands.getD []).map CommandOut.erase := by
    rw [AttackOut.erase]
    cases a.commands <;> rfl
  simp only [timelineItems, List.map_append, List.map_cons, List.map_nil]
  rw [hcommands, List.map_map, List.map_map, List.map_map]
  refine congrArg₂ (· ++ ·) (congrArg₂ (· ++ ·) (congrArg₂ (· ++ ·) ?_ rfl) ?_) rfl
  · rw [TimelineItem.shape, hconnection]
    rfl
  · rw [show a.erase.behaviors = a.behaviors.map blank from rfl]
    by_cases hnil : a.behaviors = []
    · rw [hnil]
      rfl
    · rw [if_neg hnil, if_neg (mt List.map_eq_nil_iff.mp hnil), List.map_singleton,
        List.map_singleton, TimelineItem.shape, TimelineItem.shape, map_shape_join, map_shape_join,
        shape_tags]
      rfl

/-- What an item is written as has the shape of what the item without field texts is written as. -/
theorem shape_render (b : Browser) (i : TimelineItem) :
    (i.render b).map Piece.shape = (i.shape.render b).map Piece.shape := by
  have hidem : (i.desc.map Piece.shape).map Piece.shape = i.desc.map Piece.shape := by
    rw [List.map_map]
    exact List.map_congr_left fun p _ => by cases p <;> rfl
  rw [TimelineItem.render, TimelineItem.render, List.map_append, List.map_append, List.map_append,
    List.map_append, TimelineItem.shape, hidem]

theorem shape_timeline (b : Browser) (a : AttackOut) (ended : Option String) :
    ((timelineItems b a ended).flatMap (TimelineItem.render b)).map Piece.shape =
      ((timelineItems b a.erase ended).flatMap (TimelineItem.render b)).map Piece.shape := by
  have hitems : ∀ items : List TimelineItem, (items.flatMap (TimelineItem.render b)).map Piece.shape =
      ((items.map TimelineItem.shape).flatMap (TimelineItem.render b)).map Piece.shape := by
    intro items
    rw [List.flatMap_map, List.map_flatMap, List.map_flatMap]
    exact congrArg (items.flatMap ·) (funext fun i => shape_render b i)
  rw [hitems, shape_timelineItems, ← hitems]

/-- The timeline is written for both of two objects of the same shape or for neither. -/
theorem shape_buildTimeline (b : Browser) (a : AttackOut) :
    (buildTimeline b a).map (·.map Piece.shape) =
      (buildTimeline b a.erase).map (·.map Piece.shape) := by
  rw [buildTimeline, buildTimeline, show endOf b a.erase = endOf b a from rfl]
  cases endOf b a with
  | none => rfl
  | some ended =>
    simp only [Option.map_some, List.map_append, shape_timeline b a ended]

theorem shape_modalTitle (a : AttackOut) :
    (modalTitle a).map Piece.shape = (modalTitle a.erase).map Piece.shape :=
  rfl

theorem shape_tagsOrDash {tags tags' : List (List Piece)}
    (h : tags.map (·.map Piece.shape) = tags'.map (·.map Piece.shape)) :
    (tagsOrDash tags).map Piece.shape = (tagsOrDash tags').map Piece.shape := by
  rw [tagsOrDash, tagsOrDash]
  by_cases hnil : tags = []
  · subst hnil
    rw [List.map_nil, eq_comm, List.map_eq_nil_iff] at h
    rw [h]
  · have hnil' : tags' ≠ [] := by
      rintro rfl
      exact hnil (List.map_eq_nil_iff.mp h)
    rw [if_neg hnil, if_neg hnil', map_shape_join, map_shape_join, h]

theorem shape_modalBody (b : Browser) (a : AttackOut) {t t' : List Piece}
    (ht : t.map Piece.shape = t'.map Piece.shape) :
    (modalBody b a t).map Piece.shape = (modalBody b a.erase t').map Piece.shape := by
  have hmitre : ∀ mitre : List MitreOut,
      (mitre.map fun m => [.lit "<span class=\"tag mitre\" title=\"", esc m.tactic, .lit "\">",
          esc m.id, .lit " ", esc m.name, .lit "</span>"]).map (·.map Piece.shape) =
        ((mitre.map MitreOut.erase).map fun m => [.lit "<span class=\"tag mitre\" title=\"",
          esc m.tactic, .lit "\">", esc m.id, .lit " ", esc m.name, .lit "</span>"]).map
            (·.map Piece.shape) := by
    intro mitre
    rw [List.map_map, List.map_map, List.map_map]
    rfl
  simp only [modalBody, List.map_append]
  rw [ht, shape_tagsOrDash (shape_tags a.behaviors), shape_tagsOrDash (hmitre a.mitre)]
  rfl

/-! ## What the unescaped fields do -/

theorem mem_buildTimeline {b : Browser} {a : AttackOut} {t : List Piece}
    (h : buildTimeline b a = some t) {p : Piece}
    (hp : ∀ ended, ∃ i ∈ timelineItems b a ended, p ∈ i.desc) : p ∈ t := by
  obtain ⟨ended, -, rfl⟩ := Option.map_eq_some_iff.mp h
  obtain ⟨i, hi, hdesc⟩ := hp ended
  have hrender : p ∈ i.render b := by
    rw [TimelineItem.render]
    exact List.mem_append_left _ (List.mem_append_right _ hdesc)
  exact List.mem_append_left _ (List.mem_append_right _ (List.mem_flatMap.mpr ⟨i, hi, hrender⟩))

theorem mem_ifTruthy {s : Option String} {v : String} (hs : s = some v) (hv : v ≠ "")
    {f : String → List Piece} {p : Piece} (hp : p ∈ f v) : p ∈ ifTruthy s f := by
  rw [ifTruthy, truthy, hs, Option.filter_some, if_pos (by simpa using hv)]
  exact hp

/-- The fields that are written as they are: if all of them are plain the attack is clean. -/
theorem clean_of_plain {b : Browser} {a : AttackOut} {t : List Piece}
    (h : buildTimeline b a = some t) (hplain : ∀ s, raw s ∈ t → Plain s.toList) : a.Clean := by
  refine ⟨?_, fun c hc => ?_, fun v hv => ?_⟩
  · refine hplain _ (mem_buildTimeline h fun ended => ⟨_, List.mem_cons_self, ?_⟩)
    exact List.mem_cons_self
  · by_cases hempty : c = ""
    · rw [hempty]
      decide
    · refine hplain _ (mem_buildTimeline h fun ended => ⟨_, List.mem_cons_self, ?_⟩)
      exact List.mem_append_left _ (List.mem_append_right _ (mem_ifTruthy hc hempty (by simp)))
  · by_cases hempty : v = ""
    · rw [hempty]
      decide
    · refine hplain _ (mem_buildTimeline h fun ended => ⟨_, List.mem_cons_self, ?_⟩)
      refine List.mem_append_right _ (List.mem_cons_of_mem _ (List.mem_singleton.mpr ?_))
      rw [truthy, hv, Option.filter_some, if_pos (by simpa using hempty)]
      rfl

/-- A fragment with the timeline in it: its fields are escaped only if the attack is clean. -/
theorem clean_of_escaped {b : Browser} {a : AttackOut} {t ps : List Piece}
    (h : buildTimeline b a = some t) (ht : ∀ p ∈ t, p ∈ ps) (he : Escaped ps) : a.Clean :=
  clean_of_plain h fun _ hs => unescape_self_iff.mp (he.unescape (ht _ hs))

theorem fragment_buildTimeline {b : Browser} {a : AttackOut} {t : List Piece}
    (h : buildTimeline b a = some t) (hc : a.Clean) : Fragment t := by
  obtain ⟨ended, -, rfl⟩ := Option.map_eq_some_iff.mp h
  refine Fragment.append (Fragment.append ?_ (fragment_timeline b hc ended)) ?_
  · exact Leads.fragment (by repeat' constructor) (by simp)
  · exact Leads.fragment (by repeat' constructor) (by simp)

section SameShape

variable {b : Browser} {a a' : AttackOut} (hshape : a.erase = a'.erase)

include hshape

theorem shape_timelines {t t' : List Piece} (h : buildTimeline b a = some t)
    (h' : buildTimeline b a' = some t') : t.map Piece.shape = t'.map Piece.shape := by
  have hmap := shape_buildTimeline b a
  rw [hshape, ← shape_buildTimeline b a', h, h'] at hmap
  exact Option.some.inj hmap

theorem isSome_buildTimeline : (buildTimeline b a).isSome = (buildTimeline b a').isSome := by
  have hmap := congrArg Option.isSome (shape_buildTimeline b a)
  rwa [hshape, ← shape_buildTimeline b a', Option.isSome_map, Option.isSome_map] at hmap

/-- The timelines of two attacks of one shape are inert exactly when both attacks are clean. -/
theorem inert_buildTimeline_iff {t t' : List Piece} (h : buildTimeline b a = some t)
    (h' : buildTimeline b a' = some t') : Inert t t' ↔ a.Clean ∧ a'.Clean := by
  constructor
  · rintro ⟨-, he, he'⟩
    exact ⟨clean_of_escaped h (fun _ hp => hp) he, clean_of_escaped h' (fun _ hp => hp) he'⟩
  · rintro ⟨hc, hc'⟩
    exact inert_of_fragment (fragment_buildTimeline h hc) (fragment_buildTimeline h' hc')
      (shape_timelines hshape h h')

theorem inert_modalBody_iff {t t' : List Piece} (h : (openAttack b a).2 = some t)
    (h' : (openAttack b a').2 = some t') : Inert t t' ↔ a.Clean ∧ a'.Clean := by
  obtain ⟨s, hs, rfl⟩ := Option.map_eq_some_iff.mp h
  obtain ⟨s', hs', rfl⟩ := Option.map_eq_some_iff.mp h'
  have hmem : ∀ (a : AttackOut) (s : List Piece), ∀ p ∈ s, p ∈ modalBody b a s :=
    fun a s p hp => List.mem_append_left _ (List.mem_append_right _ hp)
  constructor
  · rintro ⟨-, he, he'⟩
    exact ⟨clean_of_escaped hs (hmem a s) he, clean_of_escaped hs' (hmem a' s') he'⟩
  · rintro ⟨hc, hc'⟩
    refine inert_of_fragment (fragment_modalBody b a (fragment_buildTimeline hs hc))
      (fragment_modalBody b a' (fragment_buildTimeline hs' hc')) ?_
    rw [shape_modalBody b a (shape_timelines hshape hs hs'), hshape, ← shape_modalBody b a' rfl]

end SameShape

/-- Attacker-controlled text and the dashboard. Rows, items and bars of two objects of the same shape
hold the same tags and attributes, with field text as escaped character data only; the timeline and
the body of the modal do so if and only if the address, the country and the client version of both
attacks hold no special character. -/
theorem dashboard_inert (b : Browser) :
    (∀ a a' isNew, AttackOut.erase a = a'.erase → Inert (feedRow b a isNew) (feedRow b a' isNew)) ∧
      (∀ inc inc', IncidentOut.erase inc = inc'.erase →
        Inert (incidentItem b inc) (incidentItem b inc')) ∧
      (∀ al al', AlertOut.erase al = al'.erase → Inert (alertRow b al) (alertRow b al')) ∧
      (∀ c c', RecentCommand.erase c = c'.erase → Inert (commandRow b c) (commandRow b c')) ∧
      (∀ items items' max, items.map BarItem.erase = items'.map BarItem.erase →
        Inert (barList b items max) (barList b items' max)) ∧
      ∀ a a', AttackOut.erase a = a'.erase →
        (buildTimeline b a).isSome = (buildTimeline b a').isSome ∧
        (∀ t t', buildTimeline b a = some t → buildTimeline b a' = some t' →
          (Inert t t' ↔ a.Clean ∧ a'.Clean)) ∧
        Inert (openAttack b a).1 (openAttack b a').1 ∧
        ∀ t t', (openAttack b a).2 = some t → (openAttack b a').2 = some t' →
          (Inert t t' ↔ a.Clean ∧ a'.Clean) := by
  refine ⟨fun a a' isNew h => ?_, fun inc inc' h => ?_, fun al al' h => ?_, fun c c' h => ?_,
    fun items items' max h => ?_, fun a a' h => ⟨isSome_buildTimeline h,
      fun t t' ht ht' => inert_buildTimeline_iff h ht ht', ?_,
      fun t t' ht ht' => inert_modalBody_iff h ht ht'⟩⟩
  · refine inert_of_fragment (fragment_feedRow b a isNew) (fragment_feedRow b a' isNew) ?_
    rw [shape_feedRow, h, ← shape_feedRow]
  · refine inert_of_fragment (fragment_incidentItem b inc) (fragment_incidentItem b inc') ?_
    rw [shape_incidentItem, h, ← shape_incidentItem]
  · refine inert_of_fragment (fragment_alertRow b al) (fragment_alertRow b al') ?_
    rw [shape_alertRow, h, ← shape_alertRow]
  · refine inert_of_fragment (fragment_commandRow b c) (fragment_commandRow b c') ?_
    rw [shape_commandRow, h, ← shape_commandRow]
  · refine inert_of_fragment (fragment_barList b items max) (fragment_barList b items' max) ?_
    rw [shape_barList, h, ← shape_barList]
  · refine inert_of_fragment (fragment_modalTitle a) (fragment_modalTitle a') ?_
    show (modalTitle a).map Piece.shape = (modalTitle a').map Piece.shape
    rw [shape_modalTitle, h, ← shape_modalTitle]

/-- A number with at least two digits. -/
def pad2 (n : Nat) : String :=
  if n < 10 then "0" ++ toString n else toString n

theorem plain_pad2 (n : Nat) : Plain (pad2 n).toList := by
  rw [pad2]
  split_ifs
  · exact plain_append (by decide) (by simp)
  · simp

/-- The dates of the examples, in milliseconds. -/
def dates : List (String × Int) :=
  [("2026-01-01T00:00:10+00:00", 1767225610000), ("2026-01-01T00:00:11.500Z", 1767225611500)]

/-- A browser in UTC whose language writes 24 hours. -/
def utc : Browser where
  now := 1767225660000
  getTime iso := dates.lookup iso
  toLocaleTimeString t := t.elim "Invalid Date" fun t =>
    let seconds := (t / 1000 % 86400).toNat
    pad2 (seconds / 3600) ++ (":" ++ (pad2 (seconds / 60 % 60) ++ (":" ++ pad2 (seconds % 60))))
  addSeconds t x := t.bind fun t => (dates.find? (·.2 = t + (x * 1000).floor)).map Prod.fst
  toFixed2 x :=
    let hundredths := (x.abs * 100 + 1 / 2).floor.toNat
    (if x < 0 then "-" else "") ++ (toString (hundredths / 100) ++ ("." ++ pad2 (hundredths % 100)))
  percent count top := (200 * count + top) / (2 * top)
  toLocaleTimeString_plain t := by
    cases t with
    | none => decide
    | some t =>
      exact plain_append (plain_pad2 _) (plain_append (by decide)
        (plain_append (plain_pad2 _) (plain_append (by decide) (plain_pad2 _))))
  toFixed2_plain x := by
    refine plain_append ?_ (plain_append (by simp) (plain_append (by decide) (plain_pad2 _)))
    split_ifs <;> decide

/-- An attack from 8.8.8.8. -/
def guess (password sshVersion : String) : AttackOut where
  id := 7
  timestamp := some "2026-01-01T00:00:10+00:00"
  sourceIp := "8.8.8.8"
  country := some "United States"
  asn := none
  isp := none
  username := some "root"
  password := some password
  sshVersion := some sshVersion
  duration := 3 / 2
  authAttempts := 1
  riskScore := 40
  isMalicious := false
  behaviors := ["brute_force"]
  mitre := [{ id := "T1110", name := "Brute Force", tactic := "Credential Access" }]
  incidentId := some 3
  commands := some [{ timestamp := none, command := "id", commandType := .shell }]

/-- Two clean attacks, one of them with markup in its password. -/
theorem dashboard_inert_password :
    Inert (feedRow utc (guess "toor" "SSH-2.0-Go") true)
        (feedRow utc (guess "<b>&" "SSH-2.0-libssh_0.9.6") true) ∧
      ∃ t t', buildTimeline utc (guess "toor" "SSH-2.0-Go") = some t ∧
        buildTimeline utc (guess "<b>&" "SSH-2.0-libssh_0.9.6") = some t' ∧ Inert t t' := by
  have hfacts : (guess "toor" "SSH-2.0-Go").erase = (guess "<b>&" "SSH-2.0-libssh_0.9.6").erase ∧
      (buildTimeline utc (guess "toor" "SSH-2.0-Go")).isSome := by
    decide +kernel
  obtain ⟨hshape, hsome⟩ := hfacts
  obtain ⟨hfeed, -, -, -, -, hattack⟩ := dashboard_inert utc
  obtain ⟨hbuild, htimeline, -⟩ := hattack _ _ hshape
  obtain ⟨t, ht⟩ := Option.isSome_iff_exists.mp hsome
  obtain ⟨t', ht'⟩ := Option.isSome_iff_exists.mp (hbuild ▸ hsome)
  refine ⟨hfeed _ _ true hshape, t, t', ht, ht', (htimeline t t' ht ht').mpr ⟨?_, ?_⟩⟩
  all_goals simp [AttackOut.Clean, guess]; decide

/-- A client that announces an `img` tag as its version. -/
theorem not_inert_image : ¬ ∀ (b : Browser) (a a' : AttackOut), a.erase = a'.erase →
    ∀ t t', buildTimeline b a = some t → buildTimeline b a' = some t' → Inert t t' := by
  intro h
  have hfacts : (guess "toor" "SSH-2.0-Go").erase = (guess "toor" "SSH-2.0-<img src=x onerror=alert(1)>").erase ∧
      (buildTimeline utc (guess "toor" "SSH-2.0-Go")).isSome ∧
      (buildTimeline utc (guess "toor" "SSH-2.0-Go")).map tags ≠
        (buildTimeline utc (guess "toor" "SSH-2.0-<img src=x onerror=alert(1)>")).map tags := by
    decide +kernel
  obtain ⟨hshape, hsome, hne⟩ := hfacts
  obtain ⟨t, ht⟩ := Option.isSome_iff_exists.mp hsome
  obtain ⟨t', ht'⟩ := Option.isSome_iff_exists.mp (isSome_buildTimeline hshape ▸ hsome)
  rw [ht, ht'] at hne
  exact hne (congrArg some (h utc _ _ hshape t t' ht ht').1)

end SentinelSsh.Frontend

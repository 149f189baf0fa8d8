import SentinelSsh.Lib.Html

/-!
# Templates whose fields are escaped

Escaped text leaves the tokenizer where it is, so a template's tags and attributes are the same
whatever its fields hold (`inert_of_fragment`). What has to be known of a template is the mode after each
of its pieces (`modeAfter`), and that its pieces are sound.
-/

namespace Html

/-! ## Escaped text -/

theorem unescape_of_plain {s : List Char} (h : Plain s) : unescape s = some s := by
  induction s with
  | nil => rfl
  | cons c cs ih =>
    have hc : c ∉ specials := h c (by simp)
    have hand : c ≠ '&' := fun he => hc (by rw [he]; decide)
    rw [unescape, if_neg hc, ih fun d hd => h d (by simp [hd])]
    · rfl
    all_goals
      intros
      exact hand (by assumption)

theorem of_unescape_reference (ref : List Char) {t w : List Char} (href : Plain ref) (hne : ref ≠ [])
    (h : (∀ c ∈ t, c = '&' ∨ c ∉ specials) ∧ w.length ≤ t.length) (d : Char) :
    (∀ c ∈ '&' :: ref ++ t, c = '&' ∨ c ∉ specials) ∧ (d :: w).length < ('&' :: ref ++ t).length := by
  constructor
  · intro c hc
    rcases List.mem_append.mp hc with hc | hc
    · rcases List.mem_cons.mp hc with rfl | hc
      · exact Or.inl rfl
      · exact Or.inr (href c hc)
    · exact h.1 c hc
  · have hpos := List.length_pos_of_ne_nil hne
    have hle := h.2
    rw [List.length_append, List.length_cons, List.length_cons]
    omega

/-- An escaped text holds no special character but `&`, is at least as long as its value, and is
plain when it is not longer. -/
theorem of_unescape {t v : List Char} (h : unescape t = some v) :
    ((∀ c ∈ t, c = '&' ∨ c ∉ specials) ∧ v.length ≤ t.length) ∧
      (v.length = t.length → Plain t) := by
  have hlonger : ∀ {t v : List Char}, (∀ c ∈ t, c = '&' ∨ c ∉ specials) ∧ v.length < t.length →
      ((∀ c ∈ t, c = '&' ∨ c ∉ specials) ∧ v.length ≤ t.length) ∧ (v.length = t.length → Plain t) :=
    fun h => ⟨⟨h.1, Nat.le_of_lt h.2⟩, fun he => absurd he (Nat.ne_of_lt h.2)⟩
  induction t using unescape.induct generalizing v with
  | case1 =>
    obtain rfl : [] = v := Option.some.inj h
    exact ⟨⟨by simp, Nat.le_refl _⟩, fun _ => by simp [Plain]⟩
  | case2 cs ih =>
    obtain ⟨w, hw, rfl⟩ := Option.map_eq_some_iff.mp h
    exact hlonger (of_unescape_reference "amp;".toList (by decide) (by decide) (ih hw).1 _)
  | case3 cs ih =>
    obtain ⟨w, hw, rfl⟩ := Option.map_eq_some_iff.mp h
    exact hlonger (of_unescape_reference "lt;".toList (by decide) (by decide) (ih hw).1 _)
  | case4 cs ih =>
    obtain ⟨w, hw, rfl⟩ := Option.map_eq_some_iff.mp h
    exact hlonger (of_unescape_reference "gt;".toList (by decide) (by decide) (ih hw).1 _)
  | case5 cs ih =>
    obtain ⟨w, hw, rfl⟩ := Option.map_eq_some_iff.mp h
    exact hlonger (of_unescape_reference "quot;".toList (by decide) (by decide) (ih hw).1 _)
  | case6 cs ih =>
    obtain ⟨w, hw, rfl⟩ := Option.map_eq_some_iff.mp h
    exact hlonger (of_unescape_reference "#39;".toList (by decide) (by decide) (ih hw).1 _)
  | case7 c cs h1 h2 h3 h4 h5 hc => simp_all [unescape]
  | case8 c cs h1 h2 h3 h4 h5 hc ih =>
    rw [unescape, if_neg hc] at h
    · obtain ⟨w, hw, rfl⟩ := Option.map_eq_some_iff.mp h
      obtain ⟨⟨hmem, hle⟩, hplain⟩ := ih hw
      refine ⟨⟨fun d hd => ?_, Nat.succ_le_succ hle⟩, fun he d hd => ?_⟩
      · rcases List.mem_cons.mp hd with rfl | hd
        · exact Or.inr hc
        · exact hmem d hd
      · rcases List.mem_cons.mp hd with rfl | hd
        · exact hc
        · exact hplain (Nat.succ.inj he) d hd
    all_goals assumption

theorem unescape_self_iff {s : List Char} : unescape s = some s ↔ Plain s :=
  ⟨fun h => (of_unescape h).2 rfl, unescape_of_plain⟩

/-! ## What leaves the tokenizer where it is -/

/-- Text that holds neither `<` nor `"` is passed over where text or a quoted value is read. -/
theorem Mode.run_of_isText {m : Mode} (hm : m.isText = true) {cs : List Char}
    (h : ∀ c ∈ cs, c = '&' ∨ c ∉ specials) : m.run cs = m := by
  induction cs with
  | nil => rfl
  | cons c cs ih =>
    have hnext : m.next c = m := by
      have hc := h c (by simp)
      have hlt : c ≠ '<' := by
        rintro rfl
        exact absurd hc (by decide)
      have hquot : c ≠ '"' := by
        rintro rfl
        exact absurd hc (by decide)
      cases m with
      | data => rw [Mode.next, if_neg hlt]
      | valueDouble => rw [Mode.next, if_neg hquot]
      | _ => exact absurd hm (by decide)
    rw [Mode.run, List.foldl_cons, hnext]
    exact ih fun d hd => h d (by simp [hd])

theorem State.run_mode (s : State) (xs : List (Char × Bool)) :
    (s.run xs).mode = s.mode.run (xs.map Prod.fst) := by
  induction xs generalizing s with
  | nil => rfl
  | cons x xs ih => exact ih _

theorem State.run_append (s : State) (xs ys : List (Char × Bool)) :
    s.run (xs ++ ys) = (s.run xs).run ys :=
  List.foldl_append

/-- Escaped field text leaves the whole state as it is. -/
theorem State.run_field {s : State} (hm : s.mode.isText = true) {cs : List Char}
    (h : ∀ c ∈ cs, c = '&' ∨ c ∉ specials) : s.run (cs.map (·, true)) = s := by
  induction cs with
  | nil => rfl
  | cons c cs ih =>
    have hmode : s.mode.next c = s.mode :=
      show s.mode.run [c] = s.mode from Mode.run_of_isText hm fun d hd => by
        rw [List.mem_singleton.mp hd]
        exact h c (by simp)
    have hstep : s.step (c, true) = s := by
      obtain ⟨mode, tag, tags⟩ := s
      dsimp only at hm hmode
      cases mode with
      | data => simp [State.step, hmode, Tag.read, Mode.isTag]
      | valueDouble => simp [State.step, hmode, Tag.read, Mode.isTag]
      | _ => exact absurd hm (by decide)
    rw [List.map_cons, State.run, List.foldl_cons, hstep]
    exact ih fun d hd => h d (by simp [hd])

/-! ## Templates -/

theorem Mode.run_append (m : Mode) (cs ds : List Char) : m.run (cs ++ ds) = (m.run cs).run ds :=
  List.foldl_append

theorem Piece.Sound.special {p : Piece} (h : p.Sound) (hp : ∀ s, p ≠ .lit s) :
    ∀ c ∈ p.content.toList, c = '&' ∨ c ∉ specials := by
  cases p with
  | lit s => exact absurd rfl (hp s)
  | text s => exact fun c hc => Or.inr (h c hc)
  | field v t => exact (of_unescape h).1.1

theorem run_html_of_modeAfter {ps : List Piece} {m m' : Mode} (h : modeAfter m ps = some m')
    (hs : ∀ p ∈ ps, p.Sound) : m.run (html ps) = m' := by
  induction ps generalizing m with
  | nil => exact Option.some.inj h
  | cons p ps ih =>
    have hps : ∀ q ∈ ps, q.Sound := fun q hq => hs q (List.mem_cons_of_mem _ hq)
    have hstay : ∀ {q : Piece}, q.Sound → (∀ s, q ≠ .lit s) →
        (if m.isText then modeAfter m ps else none) = some m' →
          m.run (q.content.toList ++ html ps) = m' := by
      intro q hq hlit hm
      split_ifs at hm with htext
      rw [Mode.run_append, Mode.run_of_isText htext (hq.special hlit)]
      exact ih hm hps
    rw [html, List.flatMap_cons]
    cases p with
    | lit s =>
      rw [Mode.run_append]
      exact ih h hps
    | text s => exact hstay (hs _ (by simp)) (by simp) h
    | field v t => exact hstay (hs _ (by simp)) (by simp) h

theorem modeAfter_append (m : Mode) (ps qs : List Piece) :
    modeAfter m (ps ++ qs) = (modeAfter m ps).bind fun m' => modeAfter m' qs := by
  induction ps generalizing m with
  | nil => rfl
  | cons p ps ih =>
    cases p with
    | lit s => exact ih _
    | text s =>
      rw [List.cons_append, modeAfter, modeAfter]
      split_ifs
      · exact ih m
      · rfl
    | field v t =>
      rw [List.cons_append, modeAfter, modeAfter]
      split_ifs
      · exact ih m
      · rfl

/-- Fields of a template that keeps its place are escaped. -/
theorem escaped_of_modeAfter {ps : List Piece} {m : Mode} (h : modeAfter .data ps = some m)
    (hs : ∀ p ∈ ps, p.Sound) : Escaped ps := by
  rintro pre value text post rfl
  rw [modeAfter_append] at h
  obtain ⟨m₁, hpre, hm⟩ := Option.bind_eq_some_iff.mp h
  rw [run_html_of_modeAfter hpre fun p hp => hs p (by simp [hp])]
  rw [modeAfter] at hm
  split_ifs at hm with htext
  exact ⟨htext, hs (.field value text) (by simp)⟩

/-- The texts of escaped fields decode to their values. -/
theorem Escaped.unescape {ps : List Piece} (h : Escaped ps) {value text : String}
    (hp : Piece.field value text ∈ ps) : unescape text.toList = some value.toList := by
  obtain ⟨pre, post, rfl⟩ := List.append_of_mem hp
  exact (h pre value text post rfl).2

/-- The tokenizer reads a sound template as it reads its shape. -/
theorem run_shape {ps : List Piece} {s : State} {m : Mode} (h : modeAfter s.mode ps = some m)
    (hs : ∀ p ∈ ps, p.Sound) :
    s.run (ps.flatMap Piece.marked) = s.run ((ps.map Piece.shape).flatMap Piece.marked) := by
  induction ps generalizing s with
  | nil => rfl
  | cons p ps ih =>
    have hps : ∀ q ∈ ps, q.Sound := fun q hq => hs q (List.mem_cons_of_mem _ hq)
    have hown : ∀ t : String, modeAfter (s.mode.run t.toList) ps = some m →
        (s.run (t.toList.map (·, false))).run (ps.flatMap Piece.marked) =
          (s.run (t.toList.map (·, false))).run ((ps.map Piece.shape).flatMap Piece.marked) := by
      intro t ht
      refine ih ?_ hps
      rw [State.run_mode, List.map_map, show Prod.fst ∘ (fun c : Char => (c, false)) = id from rfl,
        List.map_id]
      exact ht
    rw [List.map_cons, List.flatMap_cons, List.flatMap_cons, State.run_append, State.run_append]
    cases p with
    | lit t => exact hown t h
    | text t =>
      rw [modeAfter] at h
      split_ifs at h with htext
      refine hown t ?_
      rw [Mode.run_of_isText htext fun c hc => Or.inr (hs (.text t) (by simp) c hc)]
      exact h
    | field v t =>
      rw [modeAfter] at h
      split_ifs at h with htext
      rw [Piece.marked, State.run_field htext (of_unescape (hs (.field v t) (by simp))).1.1]
      exact ih h hps

/-! ## Fragments -/

/-- The letters of a text, which need not be decoded from it when they are known. -/
inductive Spelled : String → List Char → Prop
  | append {s t : String} {cs ds : List Char} (hs : Spelled s cs) (ht : Spelled t ds) :
      Spelled (s ++ t) (cs ++ ds)
  | ofList (cs : List Char) : Spelled (String.ofList cs) cs

theorem Spelled.toList_eq {s : String} {cs : List Char} (h : Spelled s cs) : s.toList = cs := by
  induction h with
  | append _ _ ihs iht => rw [String.toList_append, ihs, iht]
  | ofList cs => rw [String.toList_ofList]

/-- A template takes the tokenizer from one mode to another. -/
inductive Leads : Mode → List Piece → Mode → Prop
  | nil {m : Mode} : Leads m [] m
  | lit {m m' : Mode} {s : String} {cs : List Char} {ps : List Piece} (hs : Spelled s cs)
      (h : Leads (m.run cs) ps m') : Leads m (.lit s :: ps) m'
  | text {m m' : Mode} {s : String} {ps : List Piece} (hm : m.isText) (h : Leads m ps m') :
      Leads m (.text s :: ps) m'
  | field {m m' : Mode} {v t : String} {ps : List Piece} (hm : m.isText) (h : Leads m ps m') :
      Leads m (.field v t :: ps) m'

theorem Leads.modeAfter_eq {m m' : Mode} {ps : List Piece} (h : Leads m ps m') :
    modeAfter m ps = some m' := by
  induction h with
  | nil => rfl
  | lit hs _ ih => rw [modeAfter, hs.toList_eq, ih]
  | text hm _ ih => rw [modeAfter, if_pos hm, ih]
  | field hm _ ih => rw [modeAfter, if_pos hm, ih]

theorem Leads.fragment {ps : List Piece} (h : Leads .data ps .data) (hs : ∀ p ∈ ps, p.Sound) :
    Fragment ps :=
  ⟨h.modeAfter_eq, hs⟩

theorem Fragment.nil : Fragment [] :=
  ⟨rfl, by simp⟩

theorem Fragment.append {ps qs : List Piece} (hp : Fragment ps) (hq : Fragment qs) :
    Fragment (ps ++ qs) := by
  refine ⟨?_, fun r hr => ?_⟩
  · rw [modeAfter_append, hp.keeps]
    exact hq.keeps
  · rcases List.mem_append.mp hr with hr | hr
    · exact hp.sound r hr
    · exact hq.sound r hr

theorem Fragment.flatMap {α : Type} {xs : List α} {f : α → List Piece}
    (h : ∀ x ∈ xs, Fragment (f x)) : Fragment (xs.flatMap f) := by
  induction xs with
  | nil => exact Fragment.nil
  | cons x xs ih =>
    exact (h x (by simp)).append (ih fun y hy => h y (by simp [hy]))

theorem Fragment.join {sep : String} (hsep : Fragment [.lit sep]) {pss : List (List Piece)}
    (h : ∀ ps ∈ pss, Fragment ps) : Fragment (join sep pss) := by
  induction pss with
  | nil => exact Fragment.nil
  | cons ps pss ih =>
    cases pss with
    | nil => exact h ps (by simp)
    | cons qs rest =>
      exact (h ps (by simp)).append (hsep.append (ih fun rs hr => h rs (by simp [hr])))

/-- Two fragments of one shape are inert. -/
theorem inert_of_fragment {ps ps' : List Piece} (h : Fragment ps) (h' : Fragment ps')
    (hshape : ps.map Piece.shape = ps'.map Piece.shape) : Inert ps ps' := by
  refine ⟨?_, escaped_of_modeAfter h.keeps h.sound, escaped_of_modeAfter h'.keeps h'.sound⟩
  rw [tags, tags, run_shape h.keeps h.sound, run_shape h'.keeps h'.sound, hshape]

theorem map_shape_join (sep : String) (pss : List (List Piece)) :
    (join sep pss).map Piece.shape = join sep (pss.map (·.map Piece.shape)) := by
  induction pss with
  | nil => rfl
  | cons ps pss ih =>
    cases pss with
    | nil => rfl
    | cons qs rest =>
      rw [join, List.map_append, List.map_cons, ih]
      rfl

end Html

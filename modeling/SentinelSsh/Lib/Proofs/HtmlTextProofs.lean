import Mathlib.Data.List.Forall2
import SentinelSsh.Lib.HtmlText
import SentinelSsh.Lib.Proofs.HtmlProofs

/-!
# Escaped fields show their values

The texts of two strings in a row are those of each, glued together (`readTexts_append`), and references do
not reach across the seam (`unescape_append`). So a template whose own text is plain displays what it is
meant to, whatever its fields hold (`Prints.displays`).
-/

namespace Html

/-! ## Gluing texts -/

theorem prepend_nil {us : List (List Char)} (h : us ≠ []) : prepend [] us = us := by
  cases us with
  | nil => exact absurd rfl h
  | cons u us => rfl

theorem prepend_ne_nil (cs : List Char) (us : List (List Char)) : prepend cs us ≠ [] := by
  cases us <;> exact List.cons_ne_nil _ _

theorem glue_cons (t : List Char) {ts : List (List Char)} (h : ts ≠ []) (us : List (List Char)) :
    glue (t :: ts) us = t :: glue ts us := by
  cases ts with
  | nil => exact absurd rfl h
  | cons t' ts => rfl

theorem prepend_glue (cs : List Char) {ts us : List (List Char)} (h : ts ≠ []) (hu : us ≠ []) :
    prepend cs (glue ts us) = glue (prepend cs ts) us := by
  cases ts with
  | nil => exact absurd rfl h
  | cons t ts =>
    cases ts with
    | nil =>
      cases us with
      | nil => exact absurd rfl hu
      | cons u us => simp [glue, prepend]
    | cons t' ts => rfl

theorem readTexts_ne_nil (m : Mode) (cs : List Char) : readTexts m cs ≠ [] := by
  cases cs with
  | nil => exact List.cons_ne_nil _ _
  | cons c cs =>
    rw [readTexts]
    split
    · exact List.cons_ne_nil _ _
    · exact prepend_ne_nil _ _

/-- The texts of two strings in a row. -/
theorem readTexts_append (m : Mode) (as bs : List Char) :
    readTexts m (as ++ bs) = glue (readTexts m as) (readTexts (m.run as) bs) := by
  induction as generalizing m with
  | nil => exact (prepend_nil (readTexts_ne_nil _ _)).symm
  | cons a as ih =>
    have hrun : m.run (a :: as) = (m.next a).run as := rfl
    rw [List.cons_append, readTexts, readTexts, hrun, ih]
    split
    · exact (glue_cons _ (readTexts_ne_nil _ _) _).symm
    · exact prepend_glue _ (readTexts_ne_nil _ _) (readTexts_ne_nil _ _)

/-- Text without `<` and `"` is one text, or no text in the value of an attribute. -/
theorem readTexts_of_isText {m : Mode} (hm : m.isText = true) {cs : List Char}
    (h : ∀ c ∈ cs, c = '&' ∨ c ∉ specials) : readTexts m cs = if m = .data then [cs] else [[]] := by
  induction cs with
  | nil => cases m <;> rfl
  | cons c cs ih =>
    have hnext : m.next c = m :=
      show m.run [c] = m from Mode.run_of_isText hm fun d hd => by
        rw [List.mem_singleton.mp hd]
        exact h c (by simp)
    have hlt : c ≠ '<' := by
      rintro rfl
      exact absurd (h '<' (by simp)) (by decide)
    rw [readTexts, hnext, ih fun d hd => h d (by simp [hd])]
    cases m with
    | data => simp [Mode.isTag, Mode.emit, hlt, prepend]
    | valueDouble => simp [Mode.isTag, Mode.emit, prepend]
    | _ => exact absurd hm (by decide)

/-! ## References -/

/-- References do not reach across a seam. -/
theorem unescape_append {s t v w : List Char} (hs : unescape s = some v) (ht : unescape t = some w) :
    unescape (s ++ t) = some (v ++ w) := by
  induction s using unescape.induct generalizing v with
  | case1 =>
    obtain rfl : [] = v := Option.some.inj hs
    exact ht
  | case2 cs ih | case3 cs ih | case4 cs ih | case5 cs ih | case6 cs ih =>
    obtain ⟨x, hx, rfl⟩ := Option.map_eq_some_iff.mp hs
    have hrest := ih hx
    simp only [List.cons_append, unescape, hrest, Option.map_some]
  | case7 c cs h1 h2 h3 h4 h5 hc => simp_all [unescape]
  | case8 c cs h1 h2 h3 h4 h5 hc ih =>
    have hamp : c ≠ '&' := by
      rintro rfl
      exact hc (by decide)
    rw [unescape, if_neg hc] at hs
    · obtain ⟨x, hx, rfl⟩ := Option.map_eq_some_iff.mp hs
      rw [List.cons_append, unescape, if_neg hc, ih hx]
      · rfl
      all_goals exact fun _ he _ => hamp he
    all_goals assumption

/-- The text and the value it shows. -/
def Unescapes (t v : List Char) : Prop :=
  unescape t = some v

theorem unescapes_plain {t : List Char} (h : Plain t) : Unescapes t t :=
  unescape_of_plain h

theorem unescapes_prepend {t v : List Char} (h : Unescapes t v) {us vs : List (List Char)}
    (hus : List.Forall₂ Unescapes us vs) : List.Forall₂ Unescapes (prepend t us) (prepend v vs) := by
  cases hus with
  | nil => exact .cons h .nil
  | cons hu htail => exact .cons (unescape_append h hu) htail

theorem unescapes_glue {ts vs us ws : List (List Char)} (h : List.Forall₂ Unescapes ts vs)
    (hus : List.Forall₂ Unescapes us ws) : List.Forall₂ Unescapes (glue ts us) (glue vs ws) := by
  induction h with
  | nil => exact hus
  | cons hu hrest ih =>
    cases hrest with
    | nil => exact unescapes_prepend hu hus
    | cons _ _ => exact .cons hu ih

theorem unescapes_self {ts : List (List Char)} (h : ∀ t ∈ ts, Plain t) :
    List.Forall₂ Unescapes ts ts := by
  induction ts with
  | nil => exact .nil
  | cons t ts ih => exact .cons (unescapes_plain (h t (by simp))) (ih fun u hu => h u (by simp [hu]))

theorem map_unescape {ts vs : List (List Char)} (h : List.Forall₂ Unescapes ts vs) :
    ts.map unescape = vs.map some := by
  induction h with
  | nil => rfl
  | cons hu _ ih => rw [List.map_cons, List.map_cons, ih, hu]

/-! ## Templates -/

/-- A template of plain own text takes the tokenizer from one mode to another. -/
inductive Prints : Mode → List Piece → Mode → Prop
  | nil {m : Mode} : Prints m [] m
  | lit {m m' : Mode} {s : String} {cs : List Char} {ps : List Piece} (hs : Spelled s cs)
      (hplain : ((readTexts m cs).all fun t => t.all fun c => c ∉ specials) = true)
      (h : Prints (m.run cs) ps m') : Prints m (.lit s :: ps) m'
  | text {m m' : Mode} {s : String} {ps : List Piece} (hm : m.isText) (h : Prints m ps m') :
      Prints m (.text s :: ps) m'
  | field {m m' : Mode} {v t : String} {ps : List Piece} (hm : m.isText) (h : Prints m ps m') :
      Prints m (.field v t :: ps) m'

theorem Prints.append {m m' m'' : Mode} {ps qs : List Piece} (h : Prints m ps m') (h' : Prints m' qs m'') :
    Prints m (ps ++ qs) m'' := by
  induction h with
  | nil => exact h'
  | lit hs hplain _ ih => exact .lit hs hplain (ih h')
  | text hm _ ih => exact .text hm (ih h')
  | field hm _ ih => exact .field hm (ih h')

/-- Templates that begin and end where text is read. -/
theorem Prints.append_data {ps qs : List Piece} (h : Prints .data ps .data) (h' : Prints .data qs .data) :
    Prints .data (ps ++ qs) .data :=
  h.append h'

theorem Prints.flatMap {α : Type} {xs : List α} {f : α → List Piece} {m : Mode}
    (h : ∀ x ∈ xs, Prints m (f x) m) : Prints m (xs.flatMap f) m := by
  induction xs with
  | nil => exact .nil
  | cons x xs ih => exact (h x (by simp)).append (ih fun y hy => h y (by simp [hy]))

/-- Where text is read, escaped data show their value. -/
theorem unescapes_shows {m : Mode} (hm : m.isText = true) {t : List Char} {v : String}
    (hv : Unescapes t v.toList) {us ws : List (List Char)} (h : List.Forall₂ Unescapes us ws) :
    List.Forall₂ Unescapes (glue (readTexts m t) us) (glue (m.shows v) ws) := by
  rw [readTexts_of_isText hm (of_unescape hv).1.1]
  refine unescapes_glue ?_ h
  rw [Mode.shows]
  split
  · exact .cons hv .nil
  · exact .cons rfl .nil

theorem Prints.forall₂ {m m' : Mode} {ps : List Piece} (h : Prints m ps m') (hs : ∀ p ∈ ps, p.Sound) :
    List.Forall₂ Unescapes (readTexts m (html ps)) (shownFrom m ps) := by
  induction h with
  | nil => exact .cons rfl .nil
  | @lit m m' s cs ps hspelled hplain _ ih =>
    rw [html, List.flatMap_cons, readTexts_append, shownFrom]
    refine unescapes_glue ?_ (hspelled.toList_eq ▸ ih fun p hp => hs p (by simp [hp]))
    rw [Piece.content, hspelled.toList_eq]
    exact unescapes_self fun t ht c hc => by simpa using List.all_eq_true.mp (List.all_eq_true.mp hplain t ht) c hc
  | @text m m' s ps hm _ ih =>
    have hplain : Plain s.toList := hs (.text s) (by simp)
    have hrun := Mode.run_of_isText hm fun c hc => Or.inr (hplain c hc)
    rw [html, List.flatMap_cons, readTexts_append, shownFrom, Piece.content, hrun]
    exact unescapes_shows hm (unescapes_plain hplain) (ih fun p hp => hs p (by simp [hp]))
  | @field m m' v t ps hm _ ih =>
    have hvalue : unescape t.toList = some v.toList := hs (.field v t) (by simp)
    have hrun := Mode.run_of_isText hm (of_unescape hvalue).1.1
    rw [html, List.flatMap_cons, readTexts_append, shownFrom, Piece.content, hrun]
    exact unescapes_shows hm hvalue (ih fun p hp => hs p (by simp [hp]))

/-! ## Texts of their own -/

theorem glue_ne_nil {ts us : List (List Char)} (h : us ≠ []) : glue ts us ≠ [] := by
  cases ts with
  | nil => exact h
  | cons t ts =>
    cases ts with
    | nil => exact prepend_ne_nil _ _
    | cons t' ts => exact List.cons_ne_nil _ _

theorem shows_ne_nil (m : Mode) (s : String) : m.shows s ≠ [] := by
  rw [Mode.shows]
  split <;> exact List.cons_ne_nil _ _

theorem shownFrom_ne_nil (m : Mode) (ps : List Piece) : shownFrom m ps ≠ [] := by
  induction ps generalizing m with
  | nil => exact List.cons_ne_nil _ _
  | cons p ps ih => cases p <;> exact glue_ne_nil (ih _)

theorem glue_assoc {ts us : List (List Char)} (ht : ts ≠ []) (hu : us ≠ []) {ws : List (List Char)}
    (hw : ws ≠ []) : glue (glue ts us) ws = glue ts (glue us ws) := by
  induction ts with
  | nil => exact absurd rfl ht
  | cons t ts ih =>
    by_cases hts : ts = []
    · subst hts
      exact (prepend_glue t hu hw).symm
    · rw [glue_cons _ hts, glue_cons _ (glue_ne_nil hu), ih hts, glue_cons _ hts]

/-- Templates in a row are meant to show what each shows. -/
theorem shownFrom_append {m m' : Mode} {ps : List Piece} (h : Prints m ps m') (qs : List Piece) :
    shownFrom m (ps ++ qs) = glue (shownFrom m ps) (shownFrom m' qs) := by
  induction h with
  | nil => exact (prepend_nil (shownFrom_ne_nil _ _)).symm
  | lit hs _ _ ih =>
    rw [List.cons_append, shownFrom, shownFrom, hs.toList_eq, ih,
      glue_assoc (readTexts_ne_nil _ _) (shownFrom_ne_nil _ _) (shownFrom_ne_nil _ _)]
  | text _ _ ih =>
    rw [List.cons_append, shownFrom, shownFrom, ih,
      glue_assoc (shows_ne_nil _ _) (shownFrom_ne_nil _ _) (shownFrom_ne_nil _ _)]
  | field _ _ ih =>
    rw [List.cons_append, shownFrom, shownFrom, ih,
      glue_assoc (shows_ne_nil _ _) (shownFrom_ne_nil _ _) (shownFrom_ne_nil _ _)]

/-- Texts between the first and the last stay as they are. -/
theorem infix_glue {mid rest : List (List Char)} (hrest : rest ≠ []) (u : List Char)
    (ts us : List (List Char)) : mid <:+: glue ts (glue (u :: (mid ++ rest)) us) := by
  have hmid : glue (u :: (mid ++ rest)) us = u :: (mid ++ glue rest us) := by
    rw [glue_cons _ (by simp [hrest])]
    congr 1
    induction mid with
    | nil => rfl
    | cons v mid ih => rw [List.cons_append, glue_cons _ (by simp [hrest]), ih, List.cons_append]
  rw [hmid]
  induction ts with
  | nil => exact ⟨[u], glue rest us, by simp [glue]⟩
  | cons t ts ih =>
    by_cases hts : ts = []
    · subst hts
      exact ⟨[t ++ u], glue rest us, by simp [glue, prepend]⟩
    · rw [glue_cons _ hts]
      exact ih.trans (List.suffix_cons _ _).isInfix

theorem glue_concat_nil (xs : List (List Char)) {us : List (List Char)} (h : us ≠ []) :
    glue (xs ++ [[]]) us = xs ++ us := by
  induction xs with
  | nil => exact prepend_nil h
  | cons x xs ih => rw [List.cons_append, glue_cons _ (by simp), ih, List.cons_append]

/-- Text that ends with a tag. -/
theorem shownFrom_lit {z : String} (xs : List (List Char)) (hz : readTexts .data z.toList = xs ++ [[]])
    (hrun : Mode.data.run z.toList = .data) (ps : List Piece) :
    shownFrom .data (.lit z :: ps) = xs ++ shownFrom .data ps := by
  rw [shownFrom, hz, hrun, glue_concat_nil _ (shownFrom_ne_nil _ _)]

theorem glue_singleton_nil (v : List Char) (us : List (List Char)) : glue [v] ([] :: us) = v :: us := by
  rw [glue, prepend, List.append_nil]

theorem glue_shows_lit {z : String} (xs : List (List Char)) (hz : readTexts .data z.toList = [] :: xs ++ [[]])
    (hrun : Mode.data.run z.toList = .data) (v : String) (ps : List Piece) :
    glue (Mode.data.shows v) (shownFrom .data (.lit z :: ps)) = v.toList :: (xs ++ shownFrom .data ps) := by
  rw [shownFrom_lit _ hz hrun, Mode.shows, if_pos rfl, List.cons_append, glue_singleton_nil]

/-- A field between two tags is a text of its own. -/
theorem shownFrom_field {v t z : String} (xs : List (List Char))
    (hz : readTexts .data z.toList = [] :: xs ++ [[]]) (hrun : Mode.data.run z.toList = .data)
    (ps : List Piece) : shownFrom .data (.field v t :: .lit z :: ps) =
      v.toList :: (xs ++ shownFrom .data ps) := by
  rw [shownFrom]
  exact glue_shows_lit xs hz hrun v ps

/-- So are data that are no field. -/
theorem shownFrom_text {s z : String} (xs : List (List Char))
    (hz : readTexts .data z.toList = [] :: xs ++ [[]]) (hrun : Mode.data.run z.toList = .data)
    (ps : List Piece) : shownFrom .data (.text s :: .lit z :: ps) =
      s.toList :: (xs ++ shownFrom .data ps) := by
  rw [shownFrom]
  exact glue_shows_lit xs hz hrun s ps

/-- A template of plain own text and escaped fields displays what it is meant to. -/
theorem Prints.displays {m : Mode} {ps : List Piece} (h : Prints .data ps m) (hs : ∀ p ∈ ps, p.Sound) :
    Displays ps :=
  map_unescape (h.forall₂ hs)

end Html

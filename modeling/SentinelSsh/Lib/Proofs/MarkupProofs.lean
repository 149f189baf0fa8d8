import SentinelSsh.Lib.Markup

/-!
# When markup shows its texts literally

Plain texts between balanced tags are read as themselves. Where the texts are put together of known pieces
the converse holds: the whole is then known pieces again, and the tags in the texts, which show nothing,
are missing in the character data.
-/

namespace Markup

variable {r : Reader} {pieces more : List Piece} {Q : String → Prop}

/-! ## Pieces -/

@[simp] theorem markup_append : markup (pieces ++ more) = markup pieces ++ markup more :=
  List.flatMap_append

@[simp] theorem shown_append : shown (pieces ++ more) = shown pieces ++ shown more :=
  List.flatMap_append

theorem texts_nil : Texts Q [] :=
  fun _ htext => absurd htext List.not_mem_nil

theorem texts_tag {s : String} : Texts Q (.tag s :: pieces) ↔ Texts Q pieces := by
  constructor
  · exact fun h text htext => h text (List.mem_cons_of_mem _ htext)
  · intro h text htext
    rcases List.mem_cons.mp htext with htext | htext
    · cases htext
    · exact h text htext

theorem texts_text {s : String} : Texts Q (.text s :: pieces) ↔ Q s ∧ Texts Q pieces := by
  constructor
  · exact fun h => ⟨h s List.mem_cons_self, fun text htext => h text (List.mem_cons_of_mem _ htext)⟩
  · rintro ⟨hs, h⟩ text htext
    rcases List.mem_cons.mp htext with htext | htext
    · cases htext
      exact hs
    · exact h text htext

theorem texts_append : Texts Q (pieces ++ more) ↔ Texts Q pieces ∧ Texts Q more := by
  unfold Texts
  simp only [List.mem_append, or_imp, forall_and]

/-- A tag shows less than it takes. -/
theorem length_shown_le (pieces : List Piece) : (shown pieces).length ≤ (markup pieces).length := by
  induction pieces with
  | nil => exact Nat.le_refl _
  | cons piece pieces ih =>
    have hpiece : piece.shown.length ≤ piece.markup.length := by
      cases piece with
      | tag s => exact Nat.zero_le _
      | text s => exact Nat.le_refl _
    rw [shown, markup, List.flatMap_cons, List.flatMap_cons, List.length_append, List.length_append]
    exact Nat.add_le_add hpiece ih

/-- Known pieces that show as much as they take are plain texts. -/
theorem plain_of_length (hknown : ∀ piece ∈ pieces, r.Known piece)
    (hlength : (shown pieces).length = (markup pieces).length) : ∀ c ∈ markup pieces, c ≠ '<' ∧ c ≠ '&' := by
  induction pieces with
  | nil => exact fun c hc => absurd hc List.not_mem_nil
  | cons piece pieces ih =>
    obtain ⟨hpiece, hpieces⟩ := List.forall_mem_cons.mp hknown
    have hrest := length_shown_le pieces
    rw [shown, markup, List.flatMap_cons, List.flatMap_cons, List.length_append, List.length_append] at hlength
    rw [shown, markup] at hrest
    cases piece with
    | tag s =>
      rw [Piece.shown, Piece.markup, List.length_nil, List.length_append, List.length_cons] at hlength
      omega
    | text s =>
      have hlength' : (shown pieces).length = (markup pieces).length := Nat.add_left_cancel hlength
      rw [markup, List.flatMap_cons, List.forall_mem_append]
      exact ⟨hpiece, ih hpieces hlength'⟩

/-! ## Texts that are put together -/

theorem composed_of_plain {text : String} (h : Plain text) : r.Composed text :=
  ⟨[.text text], List.forall_mem_singleton.mpr h, (List.append_nil _).symm⟩

theorem Reader.Composed.append {t u : String} (ht : r.Composed t) (hu : r.Composed u) :
    r.Composed (t ++ u) := by
  obtain ⟨pieces, hpieces, ht⟩ := ht
  obtain ⟨more, hmore, hu⟩ := hu
  refine ⟨pieces ++ more, List.forall_mem_append.mpr ⟨hpieces, hmore⟩, ?_⟩
  rw [String.toList_append, ht, hu, markup_append]

theorem closed_composed : Closed r.Composed :=
  ⟨composed_of_plain, Reader.Composed.append⟩

/-- Texts of known pieces, in pieces with known tags, are known pieces as a whole. -/
theorem exists_known (htags : ∀ s, .tag s ∈ pieces → r.Known (.tag s)) (htexts : Texts r.Composed pieces) :
    ∃ inner, (∀ piece ∈ inner, r.Known piece) ∧ markup inner = markup pieces ∧
      (shown inner).length ≤ (shown pieces).length ∧
        ((shown inner).length = (shown pieces).length → Texts Plain pieces) := by
  induction pieces with
  | nil => exact ⟨[], fun piece hp => absurd hp List.not_mem_nil, rfl, Nat.le_refl _, fun _ => texts_nil⟩
  | cons piece pieces ih =>
    have htags' : ∀ s, .tag s ∈ pieces → r.Known (.tag s) :=
      fun s hs => htags s (List.mem_cons_of_mem _ hs)
    cases piece with
    | tag s =>
      obtain ⟨inner, hknown, hmarkup, hle, heq⟩ := ih htags' (texts_tag.mp htexts)
      refine ⟨.tag s :: inner, ?_, ?_, hle, fun h => texts_tag.mpr (heq h)⟩
      · exact List.forall_mem_cons.mpr ⟨htags s List.mem_cons_self, hknown⟩
      · rw [markup, markup, List.flatMap_cons, List.flatMap_cons]
        exact congrArg (Piece.markup (.tag s) ++ ·) hmarkup
    | text text =>
      obtain ⟨⟨own, hown, htext⟩, hrest⟩ := texts_text.mp htexts
      obtain ⟨inner, hknown, hmarkup, hle, heq⟩ := ih htags' hrest
      have hshown := length_shown_le own
      have hpieces : (shown (.text text :: pieces)).length = (markup own).length + (shown pieces).length := by
        rw [shown, List.flatMap_cons, List.length_append, Piece.shown, htext]
        rfl
      refine ⟨own ++ inner, List.forall_mem_append.mpr ⟨hown, hknown⟩, ?_, ?_, fun h => ?_⟩
      · rw [markup_append, hmarkup, ← htext]
        rfl
      · rw [shown_append, List.length_append, hpieces]
        omega
      · rw [shown_append, List.length_append, hpieces] at h
        have hplain : Plain text := by
          unfold Plain
          rw [htext]
          exact plain_of_length hown (by omega)
        exact texts_text.mpr ⟨hplain, heq (by omega)⟩

/-- Plain texts are read as themselves. -/
theorem literal_of_plain (hlawful : r.Lawful) (hbalanced : r.Balanced pieces) (hplain : Texts Plain pieces) :
    r.Literal pieces := by
  refine hlawful.balanced pieces (fun piece hp => ?_) hbalanced.closed
  cases piece with
  | tag s => exact hbalanced.known s hp
  | text text => exact hplain text hp

/-- Texts of known pieces are read as themselves only if they are plain. -/
theorem literal_iff (hlawful : r.Lawful) (hbalanced : r.Balanced pieces)
    (hcomposed : Texts r.Composed pieces) : r.Literal pieces ↔ Texts Plain pieces := by
  refine ⟨fun hliteral => ?_, literal_of_plain hlawful hbalanced⟩
  obtain ⟨inner, hknown, hmarkup, -, hplain⟩ := exists_known hbalanced.known hcomposed
  unfold Reader.Literal at hliteral
  rw [← hmarkup] at hliteral
  by_cases hnest : nestAll r.tag [] inner = some []
  · rw [hlawful.balanced inner hknown hnest] at hliteral
    exact hplain (congrArg List.length (Option.some.inj hliteral))
  · rw [hlawful.unbalanced inner hknown hnest] at hliteral
    cases hliteral

/-! ## Putting pieces together -/

section Nest

variable {known : String → Option Tag}

theorem nestAll_append (opened : List String) (pieces more : List Piece) :
    nestAll known opened (pieces ++ more) =
      (nestAll known opened pieces).bind fun opened => nestAll known opened more := by
  induction pieces generalizing opened with
  | nil => rfl
  | cons piece pieces ih =>
    cases piece with
    | tag tag =>
      rw [List.cons_append, nestAll, nestAll, Option.bind_assoc]
      simp only [ih]
    | text text => exact ih opened

/-- What was open before stays open. -/
theorem nest_frame {opened opened' : List String} {tag : String} (h : nest known opened tag = some opened')
    (before : List String) : nest known (opened ++ before) tag = some (opened' ++ before) := by
  unfold nest at h ⊢
  cases htag : known tag with
  | none =>
    rw [htag] at h
    cases h
  | some effect =>
    rw [htag] at h
    cases effect with
    | start name =>
      cases h
      rfl
    | empty =>
      cases h
      rfl
    | stop name =>
      cases opened with
      | nil => cases h
      | cons top rest =>
        dsimp only [List.cons_append] at h ⊢
        split at h
        · rename_i hname
          cases h
          rw [if_pos hname]
        · cases h

theorem nestAll_frame {opened opened' : List String} (h : nestAll known opened pieces = some opened')
    (before : List String) : nestAll known (opened ++ before) pieces = some (opened' ++ before) := by
  induction pieces generalizing opened with
  | nil =>
    cases h
    rfl
  | cons piece pieces ih =>
    cases piece with
    | tag tag =>
      obtain ⟨nested, hnest, hrest⟩ := Option.bind_eq_some_iff.mp h
      rw [nestAll, nest_frame hnest before]
      exact ih hrest
    | text text => exact ih h

end Nest

theorem balanced_text (text : String) : r.Balanced [.text text] where
  known _ hs := nomatch List.mem_singleton.mp hs
  closed := rfl

theorem Reader.Balanced.append (h : r.Balanced pieces) (hmore : r.Balanced more) :
    r.Balanced (pieces ++ more) where
  known s hs := (List.mem_append.mp hs).elim (h.known s) (hmore.known s)
  closed := by rw [nestAll_append, h.closed, Option.bind_some, hmore.closed]

/-- An element around balanced pieces. -/
theorem Reader.Balanced.element {start stop name : String} (hstart : r.tag start = some (.start name))
    (hstop : r.tag stop = some (.stop name)) (hunended : Unended start ∧ Unended stop)
    (h : r.Balanced pieces) : r.Balanced (.tag start :: (pieces ++ [.tag stop])) where
  known s hs := by
    rcases List.mem_cons.mp hs with hs | hs
    · cases hs
      exact ⟨Option.isSome_of_eq_some hstart, hunended.1⟩
    · rcases List.mem_append.mp hs with hs | hs
      · exact h.known s hs
      · cases List.mem_singleton.mp hs
        exact ⟨Option.isSome_of_eq_some hstop, hunended.2⟩
  closed := by
    have hopen : nest r.tag [] start = some [name] := by
      unfold nest
      rw [hstart]
    have hclose : nest r.tag [name] stop = some [] := by
      unfold nest
      rw [hstop]
      exact if_pos rfl
    have hinside : nestAll r.tag [name] pieces = some [name] := nestAll_frame h.closed [name]
    rw [nestAll, hopen, Option.bind_some, nestAll_append, hinside, Option.bind_some, nestAll, hclose]
    rfl

/-! ## Plain texts -/

theorem unended_append {t u : String} : Unended (t ++ u) ↔ Unended t ∧ Unended u := by
  unfold Unended
  rw [String.toList_append, List.forall_mem_append]

theorem unended_of_alphanum {text : String} (h : text.toList.all Char.isAlphanum = true) : Unended text := by
  rintro c hc rfl
  exact absurd (List.all_eq_true.mp h '>' hc) (by decide)

theorem plain_of_alphanum {text : String} (h : text.toList.all Char.isAlphanum = true) : Plain text := by
  intro c hc
  have halnum := List.all_eq_true.mp h c hc
  constructor
  · rintro rfl
    exact absurd halnum (by decide)
  · rintro rfl
    exact absurd halnum (by decide)

@[simp] theorem plain_append {t u : String} : Plain (t ++ u) ↔ Plain t ∧ Plain u := by
  unfold Plain
  rw [String.toList_append, List.forall_mem_append]

@[simp] theorem plain_nat (n : Nat) : Plain (toString n) := by
  refine plain_of_alphanum (List.all_eq_true.mpr fun c hc => ?_)
  rw [Nat.toString_eq_repr, Nat.toList_repr] at hc
  have hdigit := Nat.isDigit_of_mem_toDigits (by decide) (by decide) hc
  rw [Char.isAlphanum, hdigit, Bool.or_true]

@[simp] theorem plain_int (i : Int) : Plain (toString i) := by
  cases i with
  | ofNat n => exact plain_nat n
  | negSucc n => exact plain_append.mpr ⟨by decide, plain_nat (n + 1)⟩

theorem closed_plain : Closed Plain :=
  ⟨id, fun ht hu => plain_append.mpr ⟨ht, hu⟩⟩

theorem Closed.intercalate (hQ : Closed Q) {sep : String} (hsep : Plain sep) {texts : List String}
    (h : ∀ text ∈ texts, Q text) : Q (sep.intercalate texts) := by
  induction texts with
  | nil =>
    rw [String.intercalate_nil]
    exact hQ.plain (by decide)
  | cons text texts ih =>
    obtain ⟨htext, htexts⟩ := List.forall_mem_cons.mp h
    cases texts with
    | nil =>
      rw [String.intercalate_singleton]
      exact htext
    | cons next rest =>
      rw [String.intercalate_cons_cons]
      exact hQ.append (hQ.append htext (hQ.plain hsep)) (ih htexts)

/-- Texts with a separator are plain only if they all are. -/
theorem plain_of_intercalate {sep : String} {texts : List String} (h : Plain (sep.intercalate texts)) :
    ∀ text ∈ texts, Plain text := by
  induction texts with
  | nil => exact fun text htext => absurd htext List.not_mem_nil
  | cons text texts ih =>
    cases texts with
    | nil =>
      rw [String.intercalate_singleton] at h
      exact List.forall_mem_singleton.mpr h
    | cons next rest =>
      rw [String.intercalate_cons_cons, plain_append, plain_append] at h
      exact List.forall_mem_cons.mpr ⟨h.1.1, ih h.2⟩

/-! ## A reader of tags -/

section TagReader

variable {known : String → Option Tag} {s : State} {cs : List Char}

theorem run_plain (hmode : s.mode = .text) (hplain : ∀ c ∈ cs, c ≠ '<' ∧ c ≠ '&') :
    Runs.run (State.step known) s cs = some { s with data := s.data ++ cs } := by
  induction cs generalizing s with
  | nil =>
    rw [List.append_nil]
    rfl
  | cons c cs ih =>
    have hstep : State.step known s c = some { s with data := s.data ++ [c] } := by
      unfold State.step
      rw [hmode]
      exact if_neg (hplain c List.mem_cons_self).1
    refine Runs.run_cons.mpr ⟨_, hstep, ?_⟩
    have hplain' := fun d hd => hplain d (List.mem_cons_of_mem c hd)
    have hrest := ih (s := { s with data := s.data ++ [c] }) hmode hplain'
    rw [hrest, List.append_assoc, List.singleton_append]

theorem run_tag (s : State) (read : List Char) (hcs : ∀ c ∈ cs, c ≠ '>') :
    Runs.run (State.step known) { s with mode := .tag read } cs = some { s with mode := .tag (read ++ cs) } := by
  induction cs generalizing read with
  | nil =>
    rw [List.append_nil]
    rfl
  | cons c cs ih =>
    have hstep : State.step known { s with mode := .tag read } c = some { s with mode := .tag (read ++ [c]) } :=
      if_neg (hcs c List.mem_cons_self)
    refine Runs.run_cons.mpr ⟨_, hstep, ?_⟩
    rw [ih _ fun d hd => hcs d (List.mem_cons_of_mem c hd), List.append_assoc, List.singleton_append]

/-- A tag where text is read. -/
theorem run_tag_markup {tag : String} (hunended : Unended tag) (hmode : s.mode = .text) :
    Runs.run (State.step known) s (Piece.tag tag).markup =
      (nest known s.opened tag).map fun opened => { s with opened := opened } := by
  have hopen : State.step known s '<' = some { s with mode := .tag [] } := by
    unfold State.step
    rw [hmode]
    rfl
  have hname : Runs.run (State.step known) { s with mode := .tag [] } tag.toList =
      some { s with mode := .tag tag.toList } := run_tag s [] hunended
  have hclose : State.step known { s with mode := .tag tag.toList } '>' =
      (nest known s.opened tag).map fun opened => { s with opened := opened } := by
    unfold State.step
    dsimp only
    rw [if_pos rfl, String.ofList_toList, ← hmode]
  rw [Piece.markup, List.cons_append, Runs.run, hopen, Option.bind_some, Runs.run_append_eq, hname,
    Option.bind_some, Runs.run, hclose]
  cases nest known s.opened tag <;> rfl

/-- The character data of known pieces are their texts. -/
theorem run_pieces (hknown : ∀ piece ∈ pieces, (tagReader known).Known piece) (hmode : s.mode = .text) :
    Runs.run (State.step known) s (markup pieces) = (nestAll known s.opened pieces).map fun opened =>
      { s with opened := opened, data := s.data ++ shown pieces } := by
  induction pieces generalizing s with
  | nil =>
    rw [markup, shown, List.flatMap_nil, List.flatMap_nil, List.append_nil]
    rfl
  | cons piece pieces ih =>
    obtain ⟨hpiece, hpieces⟩ := List.forall_mem_cons.mp hknown
    have hmarkup : markup (piece :: pieces) = piece.markup ++ markup pieces := List.flatMap_cons
    have hshown : shown (piece :: pieces) = piece.shown ++ shown pieces := List.flatMap_cons
    rw [hmarkup, hshown, Runs.run_append_eq]
    cases piece with
    | tag tag =>
      rw [run_tag_markup hpiece.2 hmode, nestAll]
      cases nest known s.opened tag with
      | none => rfl
      | some opened => exact ih (s := { s with opened := opened }) hpieces hmode
    | text text =>
      have hrun : Runs.run (State.step known) s text.toList = some { s with data := s.data ++ text.toList } :=
        run_plain hmode hpiece
      have hrest := ih (s := { s with data := s.data ++ text.toList }) hpieces hmode
      rw [Piece.markup, hrun, Option.bind_some, hrest, nestAll, Piece.shown]
      simp only [List.append_assoc]

theorem lawful_tagReader (known : String → Option Tag) : (tagReader known).Lawful where
  balanced pieces hknown hnest := by
    have hrun := run_pieces (s := {}) hknown rfl
    have hnest' : nestAll known [] pieces = some [] := hnest
    rw [hnest'] at hrun
    unfold tagReader
    dsimp only
    rw [hrun]
    rfl
  unbalanced pieces hknown hnest := by
    have hrun := run_pieces (s := {}) hknown rfl
    have hnest' : nestAll known [] pieces ≠ some [] := hnest
    unfold tagReader
    dsimp only
    rw [hrun]
    cases hopened : nestAll known [] pieces with
    | none => rfl
    | some opened =>
      cases opened with
      | nil => exact absurd hopened hnest'
      | cons name opened => rfl

end TagReader

end Markup

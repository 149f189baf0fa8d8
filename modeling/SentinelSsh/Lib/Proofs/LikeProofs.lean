import SentinelSsh.Lib.Like

/-!
# Searching with `LIKE`

The pattern `%term%` accepts the texts that contain the term if the term is plain. If it is not, the
shortest text its tokens stand for (`sample`) is accepted and does not contain the term: a wildcard
or an escape makes it shorter than the term, or leaves another character in its place.
-/

namespace Like

variable {coll : Collation} {fold : Char → Char} {escapes : Bool} {ts : List Token} {cs term : List Char}

/-! ## Accepted texts -/

theorem accepts_any_iff : accepts fold (.any :: ts) cs ↔ ∃ before after, before ++ after = cs ∧
    accepts fold ts after := by
  rw [accepts, List.any_eq_true]
  constructor
  · rintro ⟨after, hafter, haccepts⟩
    obtain ⟨before, hcs⟩ := (List.mem_tails _ _).mp hafter
    exact ⟨before, after, hcs, haccepts⟩
  · rintro ⟨before, after, hcs, haccepts⟩
    exact ⟨after, (List.mem_tails _ _).mpr ⟨before, hcs⟩, haccepts⟩

theorem accepts_lits_iff : accepts fold (term.map .lit ++ ts) cs ↔ ∃ w after, w ++ after = cs ∧
    w.map fold = term.map fold ∧ accepts fold ts after := by
  induction term generalizing cs with
  | nil =>
    constructor
    · intro h
      exact ⟨[], cs, rfl, rfl, h⟩
    · rintro ⟨w, after, rfl, hw, h⟩
      rw [List.map_eq_nil_iff.mp hw]
      exact h
  | cons c term ih =>
    rw [List.map_cons, List.cons_append]
    cases cs with
    | nil =>
      refine iff_of_false Bool.false_ne_true ?_
      rintro ⟨w, after, hcs, hw, -⟩
      rw [(List.append_eq_nil_iff.mp hcs).1] at hw
      exact absurd hw (List.cons_ne_nil _ _).symm
    | cons d cs =>
      rw [accepts, Bool.and_eq_true, decide_eq_true_eq, ih]
      constructor
      · rintro ⟨hd, w, after, rfl, hw, h⟩
        exact ⟨d :: w, after, rfl, by rw [List.map_cons, List.map_cons, hd, hw], h⟩
      · rintro ⟨w, after, hcs, hw, h⟩
        cases w with
        | nil => exact absurd hw (List.cons_ne_nil _ _).symm
        | cons e w =>
          obtain ⟨rfl, rfl⟩ := List.cons.inj hcs
          obtain ⟨he, hw⟩ := List.cons.inj hw
          exact ⟨he.symm, w, after, rfl, hw, h⟩

/-! ## Plain terms -/

theorem tokens_plain (hplain : ∀ c ∈ term, isSpecial escapes c = false) (rest : List Char) :
    tokens escapes false (term ++ rest) = term.map .lit ++ tokens escapes false rest := by
  induction term with
  | nil => rfl
  | cons c term ih =>
    have hc := hplain c List.mem_cons_self
    simp only [isSpecial, Bool.or_eq_false_iff, decide_eq_false_iff_not] at hc
    obtain ⟨⟨hany, hone⟩, hescape⟩ := hc
    rw [List.cons_append, tokens, hescape, if_neg Bool.false_ne_true,
      ih fun d hd => hplain d (List.mem_cons_of_mem c hd)]
    rw [Token.ofChar, if_neg hany, if_neg hone]
    rfl

/-- The wildcard in front. -/
theorem tokens_wildcard (rest : List Char) :
    tokens escapes false ('%' :: rest) = .any :: tokens escapes false rest := by
  have hescape : (escapes && decide ('%' = '\\')) = false := by cases escapes <;> rfl
  rw [tokens, hescape, if_neg Bool.false_ne_true]
  rfl

/-- A plain term between wildcards finds the texts that contain it. -/
theorem ilike_iff_contains (hplain : Plain coll term) (text : List Char) :
    ilike coll ('%' :: (term ++ ['%'])) text ↔ Contains coll term text := by
  rw [ilike, tokens_wildcard, tokens_plain hplain, tokens_wildcard, accepts_any_iff]
  constructor
  · rintro ⟨before, after, rfl, h⟩
    obtain ⟨w, after', rfl, hw, -⟩ := accepts_lits_iff.mp h
    refine ⟨before.map coll.fold, after'.map coll.fold, ?_⟩
    rw [← hw, List.map_append, List.map_append, List.append_assoc]
  · rintro ⟨before, after, htext⟩
    obtain ⟨front, after', rfl, hfront, -⟩ := List.map_eq_append_iff.mp htext.symm
    obtain ⟨before', w, rfl, -, hw⟩ := List.map_eq_append_iff.mp hfront
    refine ⟨before', w ++ after', by rw [List.append_assoc], accepts_lits_iff.mpr ⟨w, after', rfl, hw, ?_⟩⟩
    exact accepts_any_iff.mpr ⟨after', [], List.append_nil _, rfl⟩

/-! ## Other terms -/

/-- The shortest text the tokens stand for. -/
def sample (ts : List Token) : List Char :=
  ts.flatMap fun t => match t with
    | .any => []
    | .one => ['a']
    | .lit c => [c]

theorem accepts_sample (fold : Char → Char) (ts : List Token) : accepts fold ts (sample ts) := by
  induction ts with
  | nil => rfl
  | cons t ts ih =>
    cases t with
    | any => exact accepts_any_iff.mpr ⟨[], sample ts, rfl, ih⟩
    | one => exact ih
    | lit c => exact Bool.and_eq_true_iff.mpr ⟨decide_eq_true rfl, ih⟩

theorem sample_cons (t : Token) (ts : List Token) : sample (t :: ts) = sample [t] ++ sample ts := by
  rw [sample, List.flatMap_cons]
  cases t <;> rfl

/-- The sample is not longer than the term, one character longer after a backslash. -/
theorem length_sample_le (escapes escaped : Bool) (term : List Char) :
    (sample (tokens escapes escaped (term ++ ['%']))).length ≤ term.length + escaped.toNat := by
  induction term generalizing escaped with
  | nil =>
    cases escaped with
    | true => exact le_rfl
    | false =>
      rw [List.nil_append, tokens_wildcard]
      exact le_rfl
  | cons c term ih =>
    cases escaped with
    | true =>
      have hrest := ih false
      rw [List.cons_append, tokens, sample_cons, List.length_append]
      simp only [sample, Bool.toNat_false, Bool.toNat_true, List.flatMap_cons, List.flatMap_nil,
        List.length_cons, List.length_nil, List.append_nil] at hrest ⊢
      omega
    | false =>
      rw [List.cons_append, tokens]
      split
      · exact ih true
      · have hrest := ih false
        have hchar : (sample [Token.ofChar c]).length ≤ 1 := by
          unfold Token.ofChar
          split_ifs <;> simp [sample]
        rw [sample_cons, List.length_append, List.length_cons]
        simp only [Bool.toNat_false] at hrest ⊢
        omega

/-- If the sample is the term up to case, then the term is plain. -/
theorem plain_of_sample (h : (sample (tokens coll.escapes false (term ++ ['%']))).map coll.fold =
    term.map coll.fold) : Plain coll term := by
  induction term with
  | nil => exact List.forall_mem_nil _
  | cons c term ih =>
    have hlength := congrArg List.length h
    rw [List.length_map, List.length_map, List.length_cons] at hlength
    rw [List.cons_append, tokens] at h hlength
    by_cases hescape : (coll.escapes && decide (c = '\\')) = true
    · rw [if_pos hescape] at h hlength
      obtain ⟨-, rfl⟩ := Bool.and_eq_true_iff.mp hescape |>.imp id of_decide_eq_true
      cases term with
      | nil =>
        have hhead := (List.cons.inj h).1
        exact absurd (coll.fold_special _ _ (by decide) hhead) (by decide)
      | cons d term =>
        have hle := length_sample_le coll.escapes false term
        rw [List.cons_append, tokens, sample_cons, List.length_append] at hlength
        simp only [sample, Bool.toNat_false, List.flatMap_cons, List.flatMap_nil, List.length_cons,
          List.length_nil, List.append_nil] at hle hlength
        omega
    · rw [if_neg hescape] at h hlength
      have hle := length_sample_le coll.escapes false term
      rw [Bool.toNat_false, Nat.add_zero] at hle
      by_cases hany : c = '%'
      · rw [Token.ofChar, if_pos hany, sample_cons, List.length_append] at hlength
        have hnil : (sample [Token.any]).length = 0 := rfl
        omega
      · by_cases hone : c = '_'
        · rw [Token.ofChar, if_neg hany, if_pos hone, sample_cons] at h
          have hhead := (List.cons.inj h).1
          rw [hone] at hhead
          exact absurd (coll.fold_special _ _ (by decide) hhead.symm) (by decide)
        · rw [Token.ofChar, if_neg hany, if_neg hone, sample_cons] at h
          have hrest := ih (List.cons.inj h).2
          have hplain : isSpecial coll.escapes c = false := by
            simp only [isSpecial, decide_eq_false hany, decide_eq_false hone, Bool.false_or]
            simpa using hescape
          exact List.forall_mem_cons.mpr ⟨hplain, hrest⟩

/-- A term with a wildcard or an escape between wildcards finds a text that does not contain it. -/
theorem exists_ilike_not_contains (hplain : ¬ Plain coll term) :
    ∃ text, ilike coll ('%' :: (term ++ ['%'])) text ∧ ¬ Contains coll term text := by
  refine ⟨sample (tokens coll.escapes false (term ++ ['%'])), ?_, fun hcontains => hplain ?_⟩
  · rw [ilike, tokens_wildcard, accepts_any_iff]
    exact ⟨[], _, rfl, accepts_sample _ _⟩
  · have hle := length_sample_le coll.escapes false term
    rw [Bool.toNat_false, Nat.add_zero] at hle
    refine plain_of_sample (hcontains.eq_of_length_le ?_).symm
    rwa [List.length_map, List.length_map]

end Like

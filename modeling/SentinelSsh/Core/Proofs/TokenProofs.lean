import SentinelSsh.Core.Proofs.AssessmentProofs
import SentinelSsh.Lib.Proofs.RegexProofs

/-!
# Whole tokens that a command rule names

The anchors of a rule are met around a whole token exactly when the token begins with a word character.
So the alternatives that begin with a dot or a slash are not found where they stand alone, unless the
pattern has no anchor in front.
-/

namespace SentinelSsh.Core

open Python Regex

variable {unicode : UnicodeDb} {rule : CommandRule} {pre w post : String}

/-! ## Rules and techniques -/

theorem branches_boundaryFree :
    ∀ rule ∈ commandRules, ∀ r ∈ rule.pattern.branches, boundaryFree r := by
  decide

theorem techniques_ne_nil : ∀ rule ∈ commandRules, rule.techniques ≠ [] := by
  decide

/-- No two rules share a technique. -/
theorem pattern_of_technique : ∀ rule ∈ commandRules, ∀ rule' ∈ commandRules, ∀ t ∈ rule.techniques,
    t ∈ rule'.techniques → rule'.pattern = rule.pattern := by
  decide

theorem mem_classifyCommand_iff (hrule : rule ∈ commandRules) {t cmd : String} (ht : t ∈ rule.techniques) :
    t ∈ classifyCommand unicode cmd ↔ search unicode rule.pattern cmd := by
  rw [classifyCommand_eq, mem_fromkeys, matchedTechniques, List.mem_flatMap]
  constructor
  · rintro ⟨rule', hrule', ht'⟩
    split_ifs at ht' with hsearch
    · rwa [← pattern_of_technique rule hrule rule' hrule' t ht ht']
    · simp at ht'
  · intro hsearch
    exact ⟨rule, hrule, by rwa [if_pos hsearch]⟩

theorem techniques_subset_iff (hrule : rule ∈ commandRules) {cmd : String} :
    (∀ t ∈ rule.techniques, t ∈ classifyCommand unicode cmd) ↔ search unicode rule.pattern cmd := by
  constructor
  · intro h
    obtain ⟨t, ht⟩ := List.exists_mem_of_ne_nil _ (techniques_ne_nil rule hrule)
    exact (mem_classifyCommand_iff hrule ht).mp (h t ht)
  · intro hsearch t ht
    exact (mem_classifyCommand_iff hrule ht).mpr hsearch

/-! ## Boundaries around a token -/

theorem not_isWord_of_delimiter {c : Char} (hc : delimiters.contains c) : isWord unicode c = false := by
  have hascii : c.toNat < 128 ∧ c.isAlphanum = false ∧ c ≠ '_' := by
    have hmem := List.contains_iff_mem.mp hc
    simp only [delimiters, List.mem_cons, List.not_mem_nil, or_false] at hmem
    rcases hmem with rfl | rfl | rfl | rfl <;> decide
  obtain ⟨hlt, halnum, hne⟩ := hascii
  simp [isWord, unicode.isalnum_ascii c hlt, halnum, hne]

theorem not_any_isWord {o : Option Char} (h : o.all (delimiters.contains ·)) :
    o.any (isWord unicode) = false := by
  cases o with
  | none => rfl
  | some c => exact not_isWord_of_delimiter h

namespace Named

variable (h : Named unicode rule pre w post)
include h

theorem ne_nil : w.toList ≠ [] := by
  intro hnil
  simpa [hnil] using h.word

/-- In front of the token there is a boundary exactly if it begins with a word character. -/
theorem atBoundary_before : atBoundary unicode ⟨pre.toList.getLast?, (w ++ post).toList⟩ ↔
    w.toList.head?.any (isWord unicode) := by
  have hhead : (w ++ post).toList.head? = w.toList.head? := by
    rw [String.toList_append, List.head?_append_of_ne_nil _ h.ne_nil]
  rw [atBoundary, hhead, not_any_isWord h.before, Bool.false_bne]

theorem atBoundary_after (htrailing : (anchored rule.pattern).trailing) :
    atBoundary unicode ⟨(pre ++ w).toList.getLast?, post.toList⟩ := by
  have hlast : (pre ++ w).toList.getLast? = w.toList.getLast? := by
    rw [String.toList_append, List.getLast?_append_of_ne_nil _ h.ne_nil]
  rw [atBoundary, hlast, h.word, not_any_isWord (h.after htrailing)]
  rfl

/-- The rule finds the token itself unless an anchor in front is not met. -/
theorem occurs_iff : Occurs unicode rule.pattern pre w post ↔
    (anchored rule.pattern).leading = false ∨ w.toList.head?.any (isWord unicode) := by
  constructor
  · intro hocc
    cases hlead : (anchored rule.pattern).leading with
    | false => exact Or.inl rfl
    | true => exact Or.inr (h.atBoundary_before.mp (hocc.leading hlead))
  · intro hor
    refine ⟨h.branch, fun hlead => h.atBoundary_before.mpr ?_, h.atBoundary_after⟩
    rcases hor with hfalse | hword
    · simp [hfalse] at hlead
    · exact hword

end Named

/-- Two ways of cutting a command at the same place. -/
theorem cut_eq {before v after : String} (heq : before ++ v ++ after = pre ++ w ++ post)
    (hlen : before.length = pre.length) : before = pre ∧ v ++ after = w ++ post := by
  have hlist : before.toList ++ (v ++ after).toList = pre.toList ++ (w ++ post).toList := by
    rw [← String.toList_append, ← String.toList_append, ← String.append_assoc, ← String.append_assoc, heq]
  obtain ⟨hbefore, hrest⟩ := List.append_inj hlist (by simpa only [String.length_toList] using hlen)
  exact ⟨String.toList_inj.mp hbefore, String.toList_inj.mp hrest⟩

/-- A command with a whole token that a rule names has the techniques of the rule exactly if the pattern
has no anchor in front, or the token begins with a word character, or the rule finds something else in
the command. -/
theorem classified_iff (h : Named unicode rule pre w post) :
    (∀ t ∈ rule.techniques, t ∈ classifyCommand unicode (pre ++ w ++ post)) ↔
      (anchored rule.pattern).leading = false ∨ w.toList.head?.any (isWord unicode) ∨
        NamedElsewhere unicode rule pre w post := by
  rw [techniques_subset_iff h.known, search_iff (branches_boundaryFree rule h.known), ← or_assoc,
    ← h.occurs_iff]
  constructor
  · rintro ⟨before, v, after, heq, hocc⟩
    by_cases hlen : before.length = pre.length
    · obtain ⟨rfl, hrest⟩ := cut_eq heq hlen
      refine Or.inl (h.occurs_iff.mpr ?_)
      cases hlead : (anchored rule.pattern).leading with
      | false => exact Or.inl rfl
      | true => exact Or.inr (h.atBoundary_before.mp (hrest ▸ hocc.leading hlead))
    · exact Or.inr ⟨before, v, after, heq, hlen, hocc⟩
  · rintro (hocc | ⟨before, v, after, heq, -, hocc⟩)
    · exact ⟨pre, w, post, rfl, hocc⟩
    · exact ⟨before, v, after, heq, hocc⟩

/-- The script is not found where it is run, but the `chmod +x` in front of it is. -/
theorem classified_iff_chmod :
    "T1059" ∈ classifyCommand .ascii ("chmod +x x.sh; " ++ "./x.sh" ++ "") := by
  have h : Named .ascii commandRules[8] "chmod +x x.sh; " "./x.sh" "" := by
    refine ⟨List.getElem_mem _, ?_, ?_, ?_, ?_⟩
    all_goals decide
  have hchmod : Occurs .ascii commandRules[8].pattern "" "chmod +x" " x.sh; ./x.sh" := by
    refine ⟨?_, ?_, ?_⟩
    all_goals decide
  have helsewhere : NamedElsewhere .ascii commandRules[8] "chmod +x x.sh; " "./x.sh" "" :=
    ⟨"", "chmod +x", " x.sh; ./x.sh", by decide, by decide, hchmod⟩
  exact (classified_iff h).mpr (Or.inr (Or.inr helsewhere)) "T1059" (by decide)

/-- A script that is run by its path and a file for cron are named by a rule, and classified as nothing. -/
theorem not_classified_script :
    (∃ rule, Named .ascii rule "" "./x.sh" "" ∧ rule.techniques = ["T1059"]) ∧
      classifyCommand .ascii "./x.sh" = [] ∧
      (∃ rule, Named .ascii rule "cat " "/etc/cron" ".d/x" ∧ rule.techniques = ["T1053.003"]) ∧
      classifyCommand .ascii "cat /etc/cron.d/x" = [] := by
  refine ⟨⟨commandRules[8], ⟨List.getElem_mem _, ?_, ?_, ?_, ?_⟩, rfl⟩, ?_,
    ⟨commandRules[5], ⟨List.getElem_mem _, ?_, ?_, ?_, ?_⟩, rfl⟩, ?_⟩
  all_goals decide

/-! ## Chains of commands -/

theorem mem_classifyCommand_extend (pre post : String) {t cmd : String}
    (hpre : pre.toList.getLast?.any (isWord unicode) = false)
    (hpost : post.toList.head?.any (isWord unicode) = false) (ht : t ∈ classifyCommand unicode cmd) :
    t ∈ classifyCommand unicode (pre ++ cmd ++ post) := by
  obtain ⟨rule, hrule, htrule⟩ := mem_classifyCommand ht
  have hsearch := (mem_classifyCommand_iff hrule htrule).mp ht
  have hextended := search_extend (branches_boundaryFree rule hrule) hpre hpost hsearch
  exact (mem_classifyCommand_iff hrule htrule).mpr hextended

/-- Every technique of one of two commands is a technique of their chain. -/
theorem classifyCommand_chain (c d s t : String) (hs : Separator unicode s)
    (ht : t ∈ classifyCommand unicode c ∨ t ∈ classifyCommand unicode d) :
    t ∈ classifyCommand unicode (c ++ s ++ d) := by
  obtain ⟨⟨ch, hhead, hch⟩, ⟨ch', hlast, hch'⟩⟩ := hs
  rcases ht with hc | hd
  · have hpost : (s ++ d).toList.head?.any (isWord unicode) = false := by
      rw [String.toList_append, List.head?_append, hhead]
      exact hch
    have hchain := mem_classifyCommand_extend "" (s ++ d) rfl hpost hc
    rwa [String.empty_append, ← String.append_assoc] at hchain
  · have hpre : (c ++ s).toList.getLast?.any (isWord unicode) = false := by
      rw [String.toList_append, List.getLast?_append, hlast]
      exact hch'
    have hchain := mem_classifyCommand_extend (c ++ s) "" hpre rfl hd
    rwa [String.append_empty] at hchain

/-- A download and the start of what it brought, typed as one line. -/
theorem classifyCommand_chain_download :
    "T1105" ∈ classifyCommand .ascii ("wget http://x/a" ++ " && " ++ "./a") := by
  have hs : Separator .ascii " && " := ⟨⟨' ', by decide, by decide⟩, ⟨' ', by decide, by decide⟩⟩
  exact classifyCommand_chain "wget http://x/a" "./a" " && " "T1105" hs (Or.inl (by decide))

end SentinelSsh.Core

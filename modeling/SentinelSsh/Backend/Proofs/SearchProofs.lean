import SentinelSsh.Backend.Proofs.ListingProofs
import SentinelSsh.Backend.Search
import SentinelSsh.Core.Ingestion
import SentinelSsh.Lib.Proofs.LikeProofs

/-!
# The search against containment

For a plain term the rows of the search are those that contain it, column by column. For any other term
there is a text its pattern accepts and that does not contain it, and a row with this text in all its
columns is found by mistake, whatever field was chosen.
-/

namespace SentinelSsh.Backend

open SentinelSsh.Core Python

variable {sql : Sql} {m : TextSearch} {term : String} {field : Option SearchField} {db : Db}

theorem toList_like (term : String) : ("%" ++ term ++ "%").toList = '%' :: (term.toList ++ ['%']) := by
  rw [String.toList_append, String.toList_append]
  rfl

/-- On each column the pattern of a plain term finds the values that contain it. -/
theorem ilike_eq_finds (hsql : sql.Evaluates m) (hplain : Like.Plain m.collation term.toList)
    (f : SearchField) (a : Attack) :
    sql.ilike ("%" ++ term ++ "%") (f.column a) = m.finds term.toList (f.column a) := by
  rw [hsql, toList_like, TextSearch.finds]
  cases m.chars (f.column a) with
  | none => rfl
  | some text =>
    have hiff := Like.ilike_iff_contains hplain text
    rw [Option.any_some, Option.any_some, Bool.eq_iff_iff, decide_eq_true_eq]
    exact hiff

theorem searchRows_eq_containing (hsql : sql.Evaluates m) (hplain : Like.Plain m.collation term.toList)
    (field : Option SearchField) (db : Db) : searchRows sql term field db = containing m term field db := by
  unfold searchRows containing
  refine List.filter_congr fun a _ => ?_
  cases field with
  | some f => exact ilike_eq_finds hsql hplain f a
  | none =>
    dsimp only
    simp only [ilike_eq_finds hsql hplain]

/-- The pages of the search put together. -/
theorem pages_search (hrows : searchRows sql term field db = containing m term field db) :
    SearchExact sql m term field db where
  counted _ _ _ := congrArg List.length hrows
  returned arrange perPage hpos harrange := by
    have hall := Paging.le_pages_mul hpos (containing m term field db).length
    have hperm := harrange (searchRows sql term field db)
    have hpages := Paging.flatMap_window perPage
      (Paging.pages (containing m term field db).length perPage) (arrange (searchRows sql term field db))
    simp only [AttackRepository.search, Nat.add_sub_cancel]
    rw [hpages, List.take_of_length_le (by rwa [hperm.length_eq, hrows])]
    rwa [hrows] at hperm ⊢

/-- A row with the same text in every column that is searched. -/
def Attack.filled (text : String) : Attack where
  timestamp := .utc 0
  sourceIp := text
  sourcePort := none
  country := some text
  asn := none
  isp := none
  reputation := none
  isMalicious := false
  username := some text
  password := some (.str text)
  sshVersion := none
  sessionId := text
  duration := 0
  authAttempts := 0
  riskScore := 0
  riskLevel := .low
  behaviors := none
  mitreTechniques := none
  id := 1
  incidentId := none

theorem column_filled (f : SearchField) (text : String) : f.column (Attack.filled text) = .text (.str text) := by
  cases f <;> rfl

theorem not_searchExact_filled (hsql : sql.Evaluates m) {text : String}
    (hfound : Like.ilike m.collation ('%' :: (term.toList ++ ['%'])) text.toList)
    (hnot : ¬ Like.Contains m.collation term.toList text.toList) (field : Option SearchField) :
    ¬ SearchExact sql m term field { attacks := [Attack.filled text] } := by
  have hilike : ∀ f : SearchField,
      sql.ilike ("%" ++ term ++ "%") (f.column (Attack.filled text)) = true := by
    intro f
    rw [hsql, toList_like, column_filled]
    exact hfound
  have hfinds : ∀ f : SearchField, m.finds term.toList (f.column (Attack.filled text)) = false := by
    intro f
    rw [column_filled]
    exact decide_eq_false hnot
  intro hexact
  have hcount := hexact.counted id 1 1
  unfold AttackRepository.search searchRows containing at hcount
  cases field with
  | some f => simp [hilike, hfinds] at hcount
  | none => simp [hilike, hfinds, searchFields] at hcount

/-- The search is exact on every table if and only if the stripped term has no character with a meaning
of its own in a pattern. -/
theorem search_exact_iff (hsql : sql.Evaluates m) (term : String) (field : Option SearchField) :
    (∀ db, SearchExact sql m (.ofList (strip term.toList)) field db) ↔
      Like.Plain m.collation (strip term.toList) := by
  have hlist : (String.ofList (strip term.toList)).toList = strip term.toList := String.toList_ofList
  constructor
  · intro hexact
    by_contra hplain
    obtain ⟨text, hfound, hnot⟩ := Like.exists_ilike_not_contains hplain
    have htext : (String.ofList text).toList = text := String.toList_ofList
    rw [← hlist, ← htext] at hfound hnot
    exact not_searchExact_filled hsql hfound hnot field (hexact _)
  · intro hplain db
    exact pages_search (searchRows_eq_containing hsql (by rwa [hlist]) field db)

/-- SQLite with its wildcards; texts are ordered as in `Sql.plain`. -/
def Sql.sqlite : Sql :=
  { Sql.plain with
    ilike := fun pattern v => (TextSearch.sqlite.chars v).any (Like.ilike .sqlite pattern.toList) }

theorem search_exact_iff_address :
    SearchExact .sqlite .sqlite (.ofList (strip " 8.8 ".toList)) (some .ip) .oneAttack := by
  refine (search_exact_iff ?_ " 8.8 " (some .ip)).mpr ?_ .oneAttack
  · intro pattern f a
    rfl
  · with_unfolding_all decide

/-- The password is `123456`: the term `1_3` finds it, and is not in it. -/
theorem not_searchExact_underscore :
    ¬ SearchExact .sqlite .sqlite (.ofList (strip "1_3".toList)) (some .password) .oneAttack := by
  intro hexact
  have hcount := hexact.counted id 1 25
  revert hcount
  with_unfolding_all decide

end SentinelSsh.Backend

import SentinelSsh.Backend.Listings
import SentinelSsh.Lib.Escapes
import SentinelSsh.Lib.Proofs.PagingProofs

/-!
# Pages of a listing show every row once

Between two requests the database may order tied rows differently, so a listing is exact when no page
boundary lies inside a group of tied rows, and only then (`listings_exact_iff`). The sort columns alone
do not order the rows, and no query adds the key to them.
-/

namespace SentinelSsh.Backend

open SentinelSsh.Core Python Paging

/-! ## Orders -/

theorem SortOrder.le_total (sql : Sql) (order : SortOrder) (x y : SqlValue) :
    order.le sql x y || order.le sql y x := by
  cases order with
  | asc => exact sql.le_total x y
  | desc => exact sql.le_total y x

theorem SortOrder.le_trans (sql : Sql) (order : SortOrder) (x y z : SqlValue)
    (hxy : order.le sql x y = true) (hyz : order.le sql y z = true) : order.le sql x z = true := by
  cases order with
  | asc => exact sql.le_trans x y z hxy hyz
  | desc => exact sql.le_trans z y x hyz hxy

/-! ## Listings -/

section Listing

variable {α : Type} {l : Listing α} {ok : α → Prop} {pageOf : Nat → Nat}

/-- A page shows the keys of its window, unless one of the rows cannot be shown. -/
def Listing.Shows (l : Listing α) (ok : α → Prop) [DecidablePred ok] (pageOf : Nat → Nat) : Prop :=
  ∀ f, ∀ k < l.pages, l.shown f (k + 1) =
    if ∀ a ∈ window (pageOf k * l.perPage) l.perPage (f l.rows), ok a then
      (window (pageOf k * l.perPage) l.perPage (f l.rows)).map l.key
    else []

theorem Listing.Shows.congr [DecidablePred ok] {pageOf' : Nat → Nat} (hshows : l.Shows ok pageOf)
    (h : ∀ k < l.pages, pageOf k = pageOf' k) : l.Shows ok pageOf' := by
  intro f k hk
  rw [← h k hk]
  exact hshows f k hk

theorem mem_window {offset limit : Nat} {rows : List α} {a : α} (h : a ∈ window offset limit rows) :
    a ∈ rows :=
  List.mem_of_mem_drop (List.mem_of_mem_take h)

/-- Rows can be told apart by their keys. -/
theorem eachOnce_map [DecidableEq α] {key : α → Nat} {rows returned : List α}
    (hnodup : (rows.map key).Nodup) (hsub : ∀ a ∈ returned, a ∈ rows) :
    EachOnce (rows.map key) (returned.map key) ↔ EachOnce rows returned := by
  have hcount : ∀ a ∈ rows, (returned.map key).count (key a) = returned.count a := by
    intro a ha
    rw [List.count, List.countP_map, List.count]
    refine List.countP_congr fun b hb => ?_
    simp only [Function.comp_apply, beq_iff_eq]
    exact ⟨fun h => List.inj_on_of_nodup_map hnodup (hsub b hb) ha h, fun h => h ▸ rfl⟩
  constructor
  · intro h a ha
    rw [← hcount a ha]
    exact h (key a) (List.mem_map_of_mem ha)
  · intro h k hk
    obtain ⟨a, ha, rfl⟩ := List.mem_map.mp hk
    rw [hcount a ha]
    exact h a ha

section

variable [DecidablePred ok] (hshows : l.Shows ok pageOf)

include hshows

theorem Listing.Shows.flatMap_eq (hok : ∀ a ∈ l.rows, ok a) {arrange : Nat → List α → List α}
    (harrange : ∀ k, Arranged l.orderBy l.rows (arrange k l.rows)) :
    ((List.range l.pages).flatMap fun k => l.shown (arrange k) (k + 1)) =
      ((List.range l.pages).flatMap fun k =>
        window (pageOf k * l.perPage) l.perPage (arrange k l.rows)).map l.key := by
  rw [List.map_flatMap]
  refine List.flatMap_congr fun k hk => ?_
  rw [hshows _ k (List.mem_range.mp hk), if_pos]
  exact fun a ha => hok a ((harrange k).perm.mem_iff.mp (mem_window ha))

/-- A row that cannot be shown is missing from every answer. -/
theorem Listing.Shows.ok_of_exact (hnodup : (l.rows.map l.key).Nodup)
    (htotal : ∀ x y, l.orderBy x y || l.orderBy y x)
    (htrans : ∀ x y z, l.orderBy x y = true → l.orderBy y z = true → l.orderBy x z = true)
    (hexact : l.Exact) : ∀ a ∈ l.rows, ok a := by
  intro a ha
  obtain ⟨arranged, harranged⟩ := exists_arranged htotal htrans l.rows
  have hone := hexact (fun _ _ => arranged) (fun _ => harranged) (l.key a) (List.mem_map_of_mem ha)
  have hmem : l.key a ∈ (List.range l.pages).flatMap fun k => l.shown (fun _ => arranged) (k + 1) :=
    List.count_pos_iff.mp (by omega)
  obtain ⟨k, hk, hmem⟩ := List.mem_flatMap.mp hmem
  rw [hshows _ k (List.mem_range.mp hk)] at hmem
  split at hmem
  · next hall =>
    obtain ⟨b, hb, hkey⟩ := List.mem_map.mp hmem
    have hbrows : b ∈ l.rows := harranged.perm.mem_iff.mp (mem_window hb)
    rw [← List.inj_on_of_nodup_map hnodup hbrows ha hkey]
    exact hall b hb
  · simp at hmem

end

/-- A listing that shows one window for each page. -/
theorem Listing.Shows.exact_iff [DecidableEq α] [DecidablePred ok] (hshows : l.Shows ok id)
    (hnodup : (l.rows.map l.key).Nodup) (hpos : 0 < l.perPage)
    (htotal : ∀ x y, l.orderBy x y || l.orderBy y x)
    (htrans : ∀ x y z, l.orderBy x y = true → l.orderBy y z = true → l.orderBy x z = true) :
    l.Exact ↔ l.Uncut ∧ ∀ a ∈ l.rows, ok a := by
  have hrows : l.rows.Nodup := hnodup.of_map
  have hwindows : (∀ a ∈ l.rows, ok a) → (l.Exact ↔ ∀ choice : Nat → List α,
      (∀ k, Arranged l.orderBy l.rows (choice k)) → EachOnce l.rows ((List.range l.pages).flatMap fun k =>
        window (k * l.perPage) l.perPage (choice k))) := by
    intro hok
    have hsub : ∀ arrange : Nat → List α, (∀ k, Arranged l.orderBy l.rows (arrange k)) →
        ∀ a ∈ (List.range l.pages).flatMap fun k => window (k * l.perPage) l.perPage (arrange k),
          a ∈ l.rows := by
      intro arrange harrange a ha
      obtain ⟨k, -, ha⟩ := List.mem_flatMap.mp ha
      exact (harrange k).perm.mem_iff.mp (mem_window ha)
    constructor
    · intro hexact choice hchoice
      have h := hexact (fun k _ => choice k) hchoice
      rw [hshows.flatMap_eq hok hchoice] at h
      exact (eachOnce_map hnodup (hsub choice hchoice)).mp h
    · intro honce arrange harrange
      rw [hshows.flatMap_eq hok harrange]
      exact (eachOnce_map hnodup (hsub (fun k => arrange k l.rows) harrange)).mpr
        (honce (fun k => arrange k l.rows) harrange)
  constructor
  · intro hexact
    have hok := hshows.ok_of_exact hnodup htotal htrans hexact
    exact ⟨(eachOnce_iff htotal htrans hrows hpos).mp ((hwindows hok).mp hexact), hok⟩
  · rintro ⟨huncut, hok⟩
    exact (hwindows hok).mpr ((eachOnce_iff htotal htrans hrows hpos).mpr huncut)

/-- Two requests that get the same page. -/
theorem Listing.Shows.not_exact [DecidableEq α] [DecidablePred ok] (hshows : l.Shows ok pageOf)
    (hnodup : (l.rows.map l.key).Nodup) (hpos : 0 < l.perPage)
    (htotal : ∀ x y, l.orderBy x y || l.orderBy y x)
    (htrans : ∀ x y z, l.orderBy x y = true → l.orderBy y z = true → l.orderBy x z = true) {i j : Nat}
    (hij : i < j) (hj : j < l.pages) (hsame : pageOf j = pageOf i) (hpage : pageOf i = i) : ¬ l.Exact := by
  intro hexact
  have hok := hshows.ok_of_exact hnodup htotal htrans hexact
  obtain ⟨arranged, harranged⟩ := exists_arranged htotal htrans l.rows
  have hlt : i * l.perPage < arranged.length := by
    rw [harranged.perm.length_eq]
    exact mul_lt_of_lt_pages (hij.trans hj)
  obtain ⟨a, hmem⟩ : ∃ a, a ∈ window (i * l.perPage) l.perPage arranged := by
    refine List.exists_mem_of_length_pos ?_
    rw [window, List.length_take, List.length_drop]
    omega
  have ha : a ∈ l.rows := harranged.perm.mem_iff.mp (mem_window hmem)
  have hone := hexact (fun _ _ => arranged) (fun _ => harranged) (l.key a) (List.mem_map_of_mem ha)
  have hshown : ∀ k < l.pages, pageOf k = i → l.key a ∈ l.shown (fun _ => arranged) (k + 1) := by
    intro k hk hki
    rw [hshows _ k hk, hki, if_pos fun b hb => hok b (harranged.perm.mem_iff.mp (mem_window hb))]
    exact List.mem_map_of_mem hmem
  have htwice := two_le_count (f := fun k => l.shown (fun _ => arranged) (k + 1)) hj
    (List.mem_flatMap.mpr ⟨i, List.mem_range.mpr hij, hshown i (hij.trans hj) hpage⟩)
    (hshown j hj (hsame.trans hpage))
  omega

end Listing

/-! ## What the endpoints show -/

section Endpoints

variable (dialect : Dialect) (sql : Sql) (db : Db)

instance : DecidablePred Serializable := fun a =>
  inferInstanceAs (Decidable ((validateStr a.password).isOk = true))

theorem isOk_serialize (a : Attack) (commands : Bool) :
    (serialize dialect db a commands).isOk = (validateStr a.password).isOk := by
  unfold serialize
  cases validateStr a.password with
  | error e => rfl
  | ok password => rfl

/-- What every form of an attack says of it. -/
theorem serialize_spec {a : Attack} {commands : Bool} {out : AttackOut}
    (h : serialize dialect db a commands = .ok out) :
    out.id = a.id ∧ out.mitre = resolve (parseJsonList a.mitreTechniques) := by
  obtain ⟨password, -, hout⟩ := Escapes.bind_eq_ok.mp h
  cases hout
  exact ⟨rfl, rfl⟩

/-- A page of attacks has a JSON form when each of them has. -/
theorem shownAttacks_mapM (rows : List Attack) (page perPage total : Nat) :
    shownAttacks (do
        let items ← rows.mapM fun a => serialize dialect db a false
        return paginated items page perPage total) =
      if ∀ a ∈ rows, Serializable a then rows.map (·.id) else [] := by
  have hisOk : (rows.mapM fun a => serialize dialect db a false).isOk = true ↔ ∀ a ∈ rows, Serializable a := by
    rw [Escapes.isOk_mapM, List.all_eq_true]
    simp only [isOk_serialize]
    exact Iff.rfl
  cases hitems : rows.mapM fun a => serialize dialect db a false with
  | error e =>
    rw [hitems] at hisOk
    rw [if_neg fun hall => Bool.false_ne_true (hisOk.mpr hall)]
    rfl
  | ok items =>
    rw [hitems] at hisOk
    rw [if_pos (hisOk.mp rfl)]
    exact Escapes.map_eq_of_mapM (fun a out hout => (serialize_spec dialect db hout).1) hitems

theorem AttackQuery.listing_shows (q : AttackQuery) :
    (q.listing dialect sql db).Shows Serializable id := by
  intro f k hk
  have hpage : max (k + 1) 1 - 1 = k := by omega
  show shownAttacks (listAttacks dialect sql f _ db) = _
  simp only [listAttacks, AttackService.list, AttackRepository.paginate, bind_assoc, pure_bind, hpage]
  exact shownAttacks_mapM dialect db _ _ _ _

theorem searchListing_shows {term : String} (hterm : String.ofList (strip term.toList) ≠ "")
    (field : Option String) {perPage : Nat} (hpos : 1 ≤ perPage) (hle : perPage ≤ 100) :
    (searchListing dialect sql db term field perPage).Shows Serializable (min · 999999) := by
  intro f k hk
  have hpage : (min (max ((k + 1 : Nat) : Int) 1) 1000000).toNat - 1 = min k 999999 := by omega
  have hperPage : (min (max (perPage : Int) 1) 100).toNat = perPage := by omega
  simp only [searchListing, search, AttackService.search, if_neg hterm, AttackRepository.search,
    bind_assoc, pure_bind, hpage, hperPage]
  exact shownAttacks_mapM dialect db _ _ _ _

theorem IncidentQuery.listing_shows (q : IncidentQuery) :
    (q.listing sql db).Shows (fun _ => True) id := by
  intro f k hk
  have hpage : max (k + 1) 1 - 1 = k := by omega
  rw [if_pos fun _ _ => trivial]
  simp only [IncidentQuery.listing, listIncidents, IncidentService.list, IncidentRepository.paginate,
    paginated, hpage, List.map_map]
  rfl

end Endpoints

/-! ## Main results -/

/-- A listing shows every row once, whatever orders the database chooses, exactly when no page boundary
separates tied rows; the attacks must have a JSON form besides, and the search serves no page after the
millionth. -/
theorem listings_exact_iff (dialect : Dialect) (sql : Sql) {db : Db}
    (hattacks : (db.attacks.map (·.id)).Nodup) (hincidents : (db.incidents.map (·.id)).Nodup) :
    (∀ q : AttackQuery, (q.listing dialect sql db).Exact ↔
        (q.listing dialect sql db).Uncut ∧ ∀ a ∈ q.rows sql db, Serializable a) ∧
      (∀ (term : String) (field : Option String) (perPage : Nat),
        String.ofList (strip term.toList) ≠ "" → 1 ≤ perPage → perPage ≤ 100 →
        ((searchListing dialect sql db term field perPage).Exact ↔
          (searchListing dialect sql db term field perPage).Uncut ∧
            (searchListing dialect sql db term field perPage).pages ≤ 1000000 ∧
            ∀ a ∈ (searchListing dialect sql db term field perPage).rows, Serializable a)) ∧
      ∀ q : IncidentQuery, (q.listing sql db).Exact ↔ (q.listing sql db).Uncut := by
  refine ⟨fun q => ?_, fun term field perPage hterm hpos hle => ?_, fun q => ?_⟩
  · exact (q.listing_shows dialect sql db).exact_iff (hattacks.sublist (List.filter_sublist.map _))
      q.one_le_perPage (fun _ _ => q.order.le_total sql _ _) (fun _ _ _ => q.order.le_trans sql _ _ _)
  · have hnodup : (((searchListing dialect sql db term field perPage).rows).map (·.id)).Nodup :=
      hattacks.sublist (List.filter_sublist.map _)
    have hshows := searchListing_shows dialect sql db hterm field hpos hle
    by_cases hpages : (searchListing dialect sql db term field perPage).pages ≤ 1000000
    · have hid : (searchListing dialect sql db term field perPage).Shows Serializable id :=
        hshows.congr fun k hk => by
          rw [id]
          omega
      simp only [hpages, true_and]
      exact hid.exact_iff hnodup hpos (fun _ _ => SortOrder.desc.le_total sql _ _)
        (fun _ _ _ => SortOrder.desc.le_trans sql _ _ _)
    · refine iff_of_false ?_ fun h => hpages h.2.1
      exact hshows.not_exact hnodup hpos (fun _ _ => SortOrder.desc.le_total sql _ _)
        (fun _ _ _ => SortOrder.desc.le_trans sql _ _ _) (i := 999999) (j := 1000000) (by decide)
        (by omega) rfl rfl
  · have h := (q.listing_shows sql db).exact_iff (hincidents.sublist (List.filter_sublist.map _))
      q.one_le_perPage (fun _ _ => q.order.le_total sql _ _) (fun _ _ _ => q.order.le_trans sql _ _ _)
    simpa using h

/-- The dictionary order. -/
def lexLe : List Int → List Int → Bool
  | [], _ => true
  | _ :: _, [] => false
  | x :: xs, y :: ys => x < y || (x = y && lexLe xs ys)

theorem lexLe_total : ∀ xs ys, lexLe xs ys || lexLe ys xs
  | [], _ => rfl
  | _ :: _, [] => by simp [lexLe]
  | x :: xs, y :: ys => by
    have ih := lexLe_total xs ys
    simp only [lexLe, Bool.or_eq_true, Bool.and_eq_true, decide_eq_true_eq] at ih ⊢
    rcases Int.lt_trichotomy x y with hlt | heq | hgt
    · exact Or.inl (Or.inl hlt)
    · exact ih.imp (fun h => Or.inr ⟨heq, h⟩) fun h => Or.inr ⟨heq.symm, h⟩
    · exact Or.inr (Or.inl hgt)

theorem lexLe_trans : ∀ xs ys zs, lexLe xs ys = true → lexLe ys zs = true → lexLe xs zs = true
  | [], _, _, _, _ => rfl
  | _ :: _, [], _, hxy, _ => by simp [lexLe] at hxy
  | _ :: _, _ :: _, [], _, hyz => by simp [lexLe] at hyz
  | x :: xs, y :: ys, z :: zs, hxy, hyz => by
    have ih := lexLe_trans xs ys zs
    simp only [lexLe, Bool.or_eq_true, Bool.and_eq_true, decide_eq_true_eq] at hxy hyz ⊢
    rcases hxy with hxy | ⟨rfl, hxy⟩
    · rcases hyz with hyz | ⟨rfl, -⟩
      · exact Or.inl (Int.lt_trans hxy hyz)
      · exact Or.inl hxy
    · rcases hyz with hyz | ⟨rfl, hyz⟩
      · exact Or.inl hyz
      · exact Or.inr ⟨rfl, ih hxy hyz⟩

/-- Nulls come last, text is ordered by code points. -/
def sortRank : SqlValue → List Int
  | .null => [1]
  | .text (.str s) => 0 :: s.toList.map fun c => (c.toNat : Int)
  | .text (.bytes b) => 0 :: b.map fun c => (c.toNat : Int)
  | .int i => [0, i]
  | .bool b => [0, b.toNat]
  | .float thousandths => [0, thousandths]
  | .datetime d => [0, d.instant]

/-- A database for patterns without wildcards between the outer ones. -/
def Sql.plain : Sql where
  le x y := lexLe (sortRank x) (sortRank y)
  ilike pattern
    | .text (.str s) => s.toLower.toList.tails.any fun rest =>
        (pattern.toLower.toList.drop 1).dropLast.isPrefixOf rest
    | _ => false
  le_total _ _ := lexLe_total _ _
  le_trans _ _ _ := lexLe_trans _ _ _

/-- Two sessions of different addresses, ten seconds apart. -/
def twoAttacks : Db :=
  (Runs.run (step .twoInstants .postgres) {} [.ingest (.guess "2026-01-01T00:00:10+00:00" "8.8.8.8"),
    .ingest (.guess "2026-01-01T00:00:20+00:00" "1.1.1.1")]).getD {}

/-- Only the boundaries inside the listing matter. -/
theorem Listing.uncut_iff {α : Type} {l : Listing α} (hpos : 0 < l.perPage) :
    l.Uncut ↔ ∀ k < l.pages, ¬ Cuts l.orderBy l.rows (k * l.perPage) := by
  refine ⟨fun h k _ => h k, fun h k hcut => ?_⟩
  obtain ⟨x, hx, hbefore, hupTo⟩ := hcut
  have hlt : k * l.perPage < l.rows.length := lt_of_lt_of_le hupTo List.countP_le_length
  exact h k (lt_pages hpos hlt) ⟨x, hx, hbefore, hupTo⟩

/-- One row a page, by timestamp: the two attacks do not tie. -/
theorem listings_exact_iff_timestamp :
    (AttackQuery.listing .sqlite .plain twoAttacks { perPage := 1 }).Exact ∧
      (searchListing .sqlite .plain twoAttacks " 8.8" (some "ip") 1).Exact := by
  have hkeys : (twoAttacks.attacks.map (·.id)).Nodup ∧ (twoAttacks.incidents.map (·.id)).Nodup := by
    with_unfolding_all decide
  obtain ⟨hlist, hsearch, -⟩ := listings_exact_iff .sqlite .plain hkeys.1 hkeys.2
  refine ⟨(hlist _).mpr ?_, (hsearch _ _ 1 (by decide) (by decide) (by decide)).mpr ?_⟩
  · rw [Listing.uncut_iff (by decide)]
    with_unfolding_all decide
  · rw [Listing.uncut_iff (by decide)]
    with_unfolding_all decide

/-- One row a page, by risk score: the two attacks tie, and the boundary of the pages lies between
them. -/
theorem not_exact_riskScore :
    ¬ (AttackQuery.listing .sqlite .plain twoAttacks { perPage := 1, sort := .riskScore }).Exact := by
  have hrows : Cuts (AttackQuery.orderBy .plain { perPage := 1, sort := .riskScore })
        (AttackQuery.rows .plain { perPage := 1, sort := .riskScore } twoAttacks) (1 * 1) ∧
      ((AttackQuery.rows .plain { perPage := 1, sort := .riskScore } twoAttacks).map (·.id)).Nodup := by
    with_unfolding_all decide
  obtain ⟨hcut, hnodup⟩ := hrows
  intro hexact
  have hiff := (AttackQuery.listing_shows .sqlite .plain twoAttacks
    { perPage := 1, sort := .riskScore }).exact_iff hnodup (by decide)
    (fun _ _ => SortOrder.desc.le_total .plain _ _) (fun _ _ _ => SortOrder.desc.le_trans .plain _ _ _)
  exact (hiff.mp hexact).1 1 hcut

/-! ## Following `has_next` -/

section Follow

variable {α : Type} {perPage total page : Nat}

theorem hasNext_iff (items : List α) (hpos : 1 ≤ perPage) :
    (paginated items page perPage total).pageMeta.hasNext = true ↔ page < Paging.pages total perPage := by
  have hne : perPage ≠ 0 := by omega
  unfold paginated
  dsimp only
  rw [if_pos hne, decide_eq_true_eq]

/-- Answers that show the window of their page, with the number of all rows. -/
theorem followed_of_window {rows : List α} {answer : Nat → Page α} (hpos : 1 ≤ perPage)
    (h : ∀ page, 1 ≤ page → answer page =
      paginated (window ((page - 1) * perPage) perPage rows) page perPage rows.length) :
    Followed rows perPage answer := by
  have hnext : ∀ page, 1 ≤ page →
      ((answer page).pageMeta.hasNext = true ↔ page < Paging.pages rows.length perPage) := by
    intro page hpage
    rw [h page hpage, hasNext_iff _ hpos]
  have hdata : ∀ page, 1 ≤ page → (answer page).data = window ((page - 1) * perPage) perPage rows := by
    intro page hpage
    rw [h page hpage]
    rfl
  refine
    { requests := fun asked => ?_
      covered := fun i hi => existsUnique_page hpos hi
      window := hdata
      pieces := ?_
      hasNext := fun page hpage => ?_
      hasPrev := fun page hpage => ?_ }
  · rw [walk_iff hnext, Nat.add_sub_cancel, pages_eq_ceilDiv]
  · have hall : rows.length ≤ max 1 (rows.length ⌈/⌉ perPage) * perPage :=
      (le_pages_mul hpos rows.length).trans (Nat.mul_le_mul_right perPage (le_max_right _ _))
    refine (List.flatMap_congr fun page hmem => ?_).trans (flatMap_pages hall)
    exact hdata page (List.mem_range'_1.mp hmem).1
  · rw [hnext page hpage, lt_pages_iff hpos]
  · rw [h page hpage]
    exact decide_eq_true_iff

/-- A client that follows `has_next` stops after the last page and has seen every row, for rows and page
sizes of any number, and so for the listings of attacks and incidents. -/
theorem listings_followed (sql : Sql) :
    (∀ (α : Type) (rows : List α) (perPage : Nat), 1 ≤ perPage → Followed rows perPage fun page =>
      paginated (window ((page - 1) * perPage) perPage rows) page perPage rows.length) ∧
    (∀ arrange (q : AttackQuery) db, (arrange (q.rows sql db)).Perm (q.rows sql db) →
      Followed (arrange (q.rows sql db)) q.perPage fun page =>
        let result := AttackRepository.paginate sql arrange
          { q with page := max page 1, one_le_page := le_max_right _ _ } db
        paginated result.1 page q.perPage result.2) ∧
    ∀ arrange (q : IncidentQuery) db, (arrange (q.rows db)).Perm (q.rows db) →
      Followed (arrange (q.rows db)) q.perPage fun page =>
        let result := IncidentRepository.paginate arrange
          { q with page := max page 1, one_le_page := le_max_right _ _ } db
        paginated result.1 page q.perPage result.2 := by
  refine ⟨fun α rows perPage hpos => followed_of_window hpos fun _ _ => rfl,
    fun arrange q db hperm => ?_, fun arrange q db hperm => ?_⟩
  · refine followed_of_window q.one_le_perPage fun page hpage => ?_
    show paginated (window ((max page 1 - 1) * q.perPage) q.perPage (arrange (q.rows sql db))) page q.perPage
      (q.rows sql db).length = _
    rw [max_eq_left hpage, hperm.length_eq]
  · refine followed_of_window q.one_le_perPage fun page hpage => ?_
    show paginated (window ((max page 1 - 1) * q.perPage) q.perPage (arrange (q.rows db))) page q.perPage
      (q.rows db).length = _
    rw [max_eq_left hpage, hperm.length_eq]

/-- Five rows on pages of two take three requests. -/
theorem listings_followed_five :
    Paging.Walk (fun page => (paginated (window ((page - 1) * 2) 2 [3, 1, 4, 1, 5]) page 2 5).pageMeta.hasNext) 1
      [1, 2, 3] :=
  (((listings_followed Sql.plain).1 Nat [3, 1, 4, 1, 5] 2 (by decide)).requests [1, 2, 3]).mpr (by decide)

end Follow

end SentinelSsh.Backend

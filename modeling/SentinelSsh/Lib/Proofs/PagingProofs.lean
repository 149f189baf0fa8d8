import Mathlib.Algebra.Order.Floor.Div
import Mathlib.Data.List.Perm.Basic
import Mathlib.Data.List.Sort
import SentinelSsh.Lib.Paging

/-!
# Pages without gaps and repetitions

What stands before a position that cuts no group of tied rows is the same in every arrangement
(`take_perm`). So pages of different arrangements fit together when no page boundary cuts a group
(`windows_perm`), and when one does, two arrangements show a row of that group twice
(`exists_arrangements`).
-/

namespace Paging

variable {α : Type*} {le : α → α → Bool} {rows l l' : List α}

/-! ## Windows -/

theorem flatMap_window (perPage n : Nat) (l : List α) :
    ((List.range n).flatMap fun k => window (k * perPage) perPage l) = l.take (n * perPage) := by
  induction n with
  | zero => simp
  | succ n ih =>
    rw [List.range_succ, List.flatMap_append, ih, Nat.add_mul, Nat.one_mul, List.take_add]
    simp [window]

theorem le_pages_mul {perPage : Nat} (h : 0 < perPage) (total : Nat) :
    total ≤ pages total perPage * perPage := by
  have hdiv := Nat.div_add_mod (total + perPage - 1) perPage
  have hmod := Nat.mod_lt (total + perPage - 1) h
  rw [pages, Nat.mul_comm]
  omega

theorem lt_pages {perPage total k : Nat} (h : 0 < perPage) (hk : k * perPage < total) :
    k < pages total perPage := by
  by_contra hge
  have hle := Nat.mul_le_mul_right perPage (not_lt.mp hge)
  have := le_pages_mul h total
  have hmul : pages total perPage * perPage ≤ total + perPage - 1 := Nat.div_mul_le_self _ _
  rcases Nat.eq_or_lt_of_le (not_lt.mp hge) with heq | hlt
  · rw [heq] at this
    omega
  · omega

theorem mul_lt_of_lt_pages {perPage total k : Nat} (hk : k < pages total perPage) : k * perPage < total := by
  by_contra hge
  have hle : total + perPage - 1 < (k + 1) * perPage := by
    have hpos : 0 < perPage := by
      by_contra hzero
      simp [pages, Nat.eq_zero_of_not_pos hzero] at hk
    rw [Nat.add_mul]
    omega
  exact absurd hk (not_lt.mpr (Nat.le_of_lt_succ (Nat.div_lt_of_lt_mul (Nat.mul_comm _ perPage ▸ hle))))

/-- The number of pages is the ceiling of the quotient. -/
theorem pages_eq_ceilDiv (total perPage : Nat) : pages total perPage = total ⌈/⌉ perPage :=
  rfl

/-- There is a page after `page` exactly if some row lies behind it. -/
theorem lt_pages_iff {perPage : Nat} (h : 0 < perPage) {total page : Nat} :
    page < pages total perPage ↔ ∃ i < total, page * perPage ≤ i := by
  constructor
  · intro hlt
    exact ⟨page * perPage, mul_lt_of_lt_pages hlt, Nat.le_refl _⟩
  · rintro ⟨i, hi, hle⟩
    exact lt_pages h (by omega)

/-- A position lies in the window of exactly one page. -/
theorem existsUnique_page {perPage total i : Nat} (h : 0 < perPage) (hi : i < total) :
    ∃! page, page ∈ List.range' 1 (max 1 (pages total perPage)) ∧ (page - 1) * perPage ≤ i ∧
      i < page * perPage := by
  have hquot : i / perPage * perPage ≤ i := Nat.div_mul_le_self i perPage
  have hnext : i < (i / perPage + 1) * perPage := by
    rw [Nat.add_mul, Nat.one_mul]
    have := Nat.div_add_mod' i perPage
    have := Nat.mod_lt i h
    omega
  have hlt : i / perPage < pages total perPage := lt_pages h (by omega)
  have hpos : 0 ≤ i / perPage := Nat.zero_le _
  refine ⟨i / perPage + 1, ⟨?_, hquot, hnext⟩, ?_⟩
  · rw [List.mem_range'_1]
    omega
  · rintro page ⟨hmem, hle, hgt⟩
    rw [List.mem_range'_1] at hmem
    have hlow : page - 1 ≤ i / perPage := (Nat.le_div_iff_mul_le h).mpr hle
    have hhigh : i / perPage < page := (Nat.div_lt_iff_lt_mul h).mpr hgt
    omega

/-- The pages up to the last one show all rows in their order. -/
theorem flatMap_pages {perPage n : Nat} {rows : List α} (hn : rows.length ≤ n * perPage) :
    ((List.range' 1 n).flatMap fun page => window ((page - 1) * perPage) perPage rows) = rows := by
  rw [List.range'_eq_map_range, List.flatMap_map]
  simp only [Nat.add_sub_cancel_left]
  rw [flatMap_window, List.take_of_length_le hn]

/-- A client that follows the answers asks for the pages up to the last one, one after the other. -/
theorem walk_iff {hasNext : Nat → Bool} {n first : Nat} {asked : List Nat}
    (h : ∀ page, first ≤ page → (hasNext page = true ↔ page < n)) :
    Walk hasNext first asked ↔ asked = List.range' first (max 1 (n + 1 - first)) := by
  induction hd : n - first generalizing first asked with
  | zero =>
    have hlast : hasNext first = false := by
      rw [← Bool.not_eq_true, h first (Nat.le_refl _)]
      omega
    have hone : max 1 (n + 1 - first) = 1 := by omega
    rw [hone, List.range'_one]
    constructor
    · intro hwalk
      cases hwalk with
      | last _ => rfl
      | next hnext _ => exact absurd (hlast.symm.trans hnext) (by decide)
    · rintro rfl
      exact Walk.last hlast
  | succ d ih =>
    have hnext : hasNext first = true := (h first (Nat.le_refl _)).mpr (by omega)
    have hrest : ∀ {rest}, Walk hasNext (first + 1) rest ↔ rest = List.range' (first + 1) _ :=
      ih (fun page hp => h page (by omega)) (by omega)
    have hcount : max 1 (n + 1 - first) = max 1 (n + 1 - (first + 1)) + 1 := by omega
    rw [hcount, List.range'_succ]
    constructor
    · intro hwalk
      cases hwalk with
      | last hlast => exact absurd (hnext.symm.trans hlast) (by decide)
      | next _ hwalk => rw [hrest.mp hwalk]
    · rintro rfl
      exact Walk.next hnext (hrest.mpr rfl)

/-- What one page shows and another one after it is shown twice. -/
theorem two_le_count [DecidableEq α] {f : Nat → List α} {n k : Nat} {x : α} (hk : k < n)
    (hbefore : x ∈ (List.range k).flatMap f) (hx : x ∈ f k) : 2 ≤ ((List.range n).flatMap f).count x := by
  obtain ⟨r, rfl⟩ := Nat.exists_eq_add_of_lt hk
  rw [show k + r + 1 = k + 1 + r by omega, List.range_add, List.range_succ, List.flatMap_append,
    List.flatMap_append, List.count_append, List.count_append, List.flatMap_singleton]
  have := List.count_pos_iff.mpr hbefore
  have := List.count_pos_iff.mpr hx
  omega

/-! ## What stands before a position -/

theorem Arranged.before_lt (h : Arranged le rows l) (htotal : ∀ x y, le x y || le y x) {m : Nat} {x : α}
    (hx : x ∈ l.take m) : before le rows x < m := by
  have hrefl : le x x = true := by simpa using htotal x x
  have hsplit := h.sorted
  rw [← List.take_append_drop m l, List.pairwise_append] at hsplit
  have hdrop : (l.drop m).countP (fun y => !le x y) = 0 := by
    rw [List.countP_eq_zero]
    intro y hy
    simp [hsplit.2.2 x hx y hy]
  have htake : (l.take m).countP (fun y => !le x y) < (l.take m).length := by
    refine lt_of_le_of_ne List.countP_le_length fun heq => ?_
    have := List.countP_eq_length.mp heq x hx
    simp [hrefl] at this
  rw [before, ← h.perm.countP_eq, ← List.take_append_drop m l, List.countP_append, hdrop]
  exact lt_of_lt_of_le htake (List.length_take_le _ _)

theorem Arranged.lt_upTo (h : Arranged le rows l) (htotal : ∀ x y, le x y || le y x) {m : Nat} {x : α}
    (hx : x ∈ l.drop m) : m < upTo le rows x := by
  have hrefl : le x x = true := by simpa using htotal x x
  have hsplit := h.sorted
  rw [← List.take_append_drop m l, List.pairwise_append] at hsplit
  have hlength : (l.take m).length = m := by
    rw [List.length_take]
    have := List.length_pos_of_mem hx
    rw [List.length_drop] at this
    omega
  have htake : (l.take m).countP (fun y => le y x) = m := by
    conv_rhs => rw [← hlength]
    exact List.countP_eq_length.mpr fun y hy => hsplit.2.2 y hy x hx
  have hdrop : 0 < (l.drop m).countP fun y => le y x :=
    List.countP_pos_iff.mpr ⟨x, hx, hrefl⟩
  rw [upTo, ← h.perm.countP_eq, ← List.take_append_drop m l, List.countP_append, htake]
  omega

/-- What stands before a position that cuts no group are the rows whose group ends there. -/
theorem Arranged.take_eq_filter (h : Arranged le rows l) (htotal : ∀ x y, le x y || le y x) {m : Nat}
    (hm : ¬ Cuts le rows m) : l.take m = l.filter fun x => upTo le rows x ≤ m := by
  have htake : (l.take m).filter (fun x => upTo le rows x ≤ m) = l.take m := by
    rw [List.filter_eq_self]
    intro x hx
    have hmem : x ∈ rows := h.perm.mem_iff.mp (List.mem_of_mem_take hx)
    by_contra hgt
    exact hm ⟨x, hmem, h.before_lt htotal hx, by simpa using hgt⟩
  have hdrop : (l.drop m).filter (fun x => upTo le rows x ≤ m) = [] := by
    rw [List.filter_eq_nil_iff]
    intro x hx
    simpa using h.lt_upTo htotal hx
  conv_rhs => rw [← List.take_append_drop m l, List.filter_append, htake, hdrop, List.append_nil]

theorem Arranged.take_perm (h : Arranged le rows l) (h' : Arranged le rows l')
    (htotal : ∀ x y, le x y || le y x) {m : Nat} (hm : ¬ Cuts le rows m) :
    (l.take m).Perm (l'.take m) := by
  rw [h.take_eq_filter htotal hm, h'.take_eq_filter htotal hm]
  exact (h.perm.trans h'.perm.symm).filter _

theorem Arranged.window_perm (h : Arranged le rows l) (h' : Arranged le rows l')
    (htotal : ∀ x y, le x y || le y x) {m n : Nat} (hm : ¬ Cuts le rows m) (hmn : ¬ Cuts le rows (m + n)) :
    (window m n l).Perm (window m n l') := by
  have htake := h.take_perm h' htotal hm
  have hlonger := h.take_perm h' htotal hmn
  rw [List.take_add, List.take_add] at hlonger
  exact (List.perm_append_left_iff _).mp ((htake.symm.append_right _).trans hlonger)

/-- Pages of different arrangements make up the rows when no boundary cuts a group. -/
theorem windows_perm (htotal : ∀ x y, le x y || le y x) {perPage : Nat} (hpos : 0 < perPage)
    (hcut : ∀ k, ¬ Cuts le rows (k * perPage)) {choice : Nat → List α}
    (hchoice : ∀ k, Arranged le rows (choice k)) :
    ((List.range (pages rows.length perPage)).flatMap fun k =>
      window (k * perPage) perPage (choice k)).Perm rows := by
  have hpages : ((List.range (pages rows.length perPage)).flatMap fun k =>
      window (k * perPage) perPage (choice k)).Perm
        ((List.range (pages rows.length perPage)).flatMap fun k =>
          window (k * perPage) perPage (choice 0)) := by
    refine List.Perm.flatMap_left _ fun k _ => ?_
    exact (hchoice k).window_perm (hchoice 0) htotal (hcut k) (by
      rw [← Nat.succ_mul]
      exact hcut (k + 1))
  refine hpages.trans ?_
  rw [flatMap_window, List.take_of_length_le]
  · exact (hchoice 0).perm
  · rw [(hchoice 0).perm.length_eq]
    exact le_pages_mul hpos _

/-! ## A boundary inside a group -/

theorem exists_arranged (htotal : ∀ x y, le x y || le y x)
    (htrans : ∀ x y z, le x y = true → le y z = true → le x z = true) (rows : List α) :
    ∃ l, Arranged le rows l :=
  ⟨rows.mergeSort le, List.mergeSort_perm _ _, List.pairwise_mergeSort htrans htotal _⟩

/-- A position that cuts a group has two tied rows of it at its sides, and these can change places. -/
theorem exists_arrangements (htotal : ∀ x y, le x y || le y x)
    (htrans : ∀ x y z, le x y = true → le y z = true → le x z = true) {m : Nat} (hm : Cuts le rows m) :
    ∃ pre u v post, pre.length + 1 = m ∧ Arranged le rows (pre ++ u :: v :: post) ∧
      Arranged le rows (pre ++ v :: u :: post) := by
  obtain ⟨l, hl⟩ := exists_arranged htotal htrans rows
  obtain ⟨x, hx, hbefore, hupTo⟩ := hm
  have hlt : m < l.length := by
    rw [hl.perm.length_eq]
    exact lt_of_lt_of_le hupTo List.countP_le_length
  obtain ⟨k, rfl⟩ : ∃ k, m = k + 1 := ⟨m - 1, by omega⟩
  have hsplit : l = l.take k ++ l[k] :: l[k + 1] :: l.drop (k + 2) := by
    rw [List.getElem_cons_drop, List.getElem_cons_drop, List.take_append_drop]
  have hlength : (l.take k).length = k := by
    rw [List.length_take]
    omega
  generalize l.take k = pre at hsplit hlength
  generalize l[k] = u at hsplit
  generalize l[k + 1] = v at hsplit
  generalize l.drop (k + 2) = post at hsplit
  subst hsplit
  obtain ⟨hpre, hrest, hcross⟩ := List.pairwise_append.mp hl.sorted
  obtain ⟨hu, hrest⟩ := List.pairwise_cons.mp hrest
  obtain ⟨hv, hpost⟩ := List.pairwise_cons.mp hrest
  -- `x` is not before `u` and not after `v`, or it would lie on one side of the position.
  have hxu : le x u = true := by
    by_contra hxu
    refine absurd hbefore (not_lt.mpr ?_)
    have hfalse : (!le x u) = true := by simpa using hxu
    rw [before, ← hl.perm.countP_eq, List.countP_append, List.countP_cons, if_pos hfalse]
    have hall : pre.countP (fun y => !le x y) = pre.length := by
      refine List.countP_eq_length.mpr fun y hy => ?_
      have : ¬ le x y = true := fun hxy => hxu (htrans x y u hxy (hcross y hy u (by simp)))
      simpa using this
    omega
  have hvx : le v x = true := by
    by_contra hvx
    refine absurd hupTo (not_lt.mpr ?_)
    rw [upTo, ← hl.perm.countP_eq, List.countP_append, List.countP_cons, List.countP_cons]
    have hnone : post.countP (fun y => le y x) = 0 := by
      refine List.countP_eq_zero.mpr fun y hy hyx => hvx (htrans v y x (hv y hy) hyx)
    have hle : pre.countP (fun y => le y x) ≤ pre.length := List.countP_le_length
    rw [hnone, if_neg hvx]
    split <;> omega
  have hvu : le v u = true := htrans v x u hvx hxu
  refine ⟨pre, u, v, post, by omega, hl, ?_, ?_⟩
  · exact ((List.Perm.swap u v post).append_left pre).trans hl.perm
  · refine List.pairwise_append.mpr ⟨hpre, ?_, fun y hy z hz => hcross y hy z ?_⟩
    · refine List.pairwise_cons.mpr ⟨fun y hy => ?_, List.pairwise_cons.mpr ⟨fun y hy => ?_, hpost⟩⟩
      · rcases List.mem_cons.mp hy with rfl | hy
        · exact hvu
        · exact hv y hy
      · exact hu y (List.mem_cons_of_mem _ hy)
    · simp only [List.mem_cons] at hz ⊢
      tauto

/-- Pages of arbitrary arrangements show every row once exactly when no boundary cuts a group of tied
rows. -/
theorem eachOnce_iff [DecidableEq α] (htotal : ∀ x y, le x y || le y x)
    (htrans : ∀ x y z, le x y = true → le y z = true → le x z = true) (hnodup : rows.Nodup)
    {perPage : Nat} (hpos : 0 < perPage) :
    (∀ choice : Nat → List α, (∀ k, Arranged le rows (choice k)) →
        EachOnce rows ((List.range (pages rows.length perPage)).flatMap fun k =>
          window (k * perPage) perPage (choice k))) ↔
      ∀ k, ¬ Cuts le rows (k * perPage) := by
  constructor
  · intro honce k hcut
    obtain ⟨pre, u, v, post, hlength, hl, hl'⟩ := exists_arrangements htotal htrans hcut
    have hmem : u ∈ rows := hl.perm.mem_iff.mp (by simp)
    have hcount := honce (fun j => if j < k then pre ++ u :: v :: post else pre ++ v :: u :: post)
      (fun j => by split <;> assumption) u hmem
    have hk : k < pages rows.length perPage := by
      refine lt_pages hpos ?_
      rw [← hl.perm.length_eq, List.length_append, List.length_cons, List.length_cons]
      omega
    have hbelow : ((List.range k).flatMap fun j => window (j * perPage) perPage
        (if j < k then pre ++ u :: v :: post else pre ++ v :: u :: post)) = pre ++ [u] := by
      have hfirst : ((List.range k).flatMap fun j => window (j * perPage) perPage
          (if j < k then pre ++ u :: v :: post else pre ++ v :: u :: post)) =
          (List.range k).flatMap fun j => window (j * perPage) perPage (pre ++ u :: v :: post) := by
        refine List.flatMap_congr fun j hj => ?_
        rw [if_pos (List.mem_range.mp hj)]
      rw [hfirst, flatMap_window, ← hlength, List.take_append, List.take_of_length_le (Nat.le_succ _)]
      simp
    have hnext : u ∈ window (k * perPage) perPage (pre ++ v :: u :: post) := by
      obtain ⟨q, hq⟩ := Nat.exists_eq_add_of_lt hpos
      rw [window, ← hlength, List.drop_append, List.drop_eq_nil_of_le (Nat.le_succ _)]
      simp [show perPage = q + 1 by omega]
    have htwice := two_le_count hk (hbelow ▸ List.mem_append_right pre (List.mem_singleton_self u))
      (show u ∈ window (k * perPage) perPage
        (if k < k then pre ++ u :: v :: post else pre ++ v :: u :: post) by
        rw [if_neg (lt_irrefl k)]
        exact hnext)
    omega
  · intro hcut choice hchoice x hx
    rw [(windows_perm htotal hpos hcut hchoice).count_eq]
    exact List.count_eq_one_of_mem hnodup hx

end Paging

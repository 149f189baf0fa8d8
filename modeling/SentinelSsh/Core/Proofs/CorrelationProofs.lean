import SentinelSsh.Core.Correlation
import SentinelSsh.Lib.Proofs.JsonReaderProofs
import Mathlib.Algebra.Order.BigOperators.Group.List
import Mathlib.Algebra.Order.Group.Int
import Mathlib.Data.List.Forall2
import Mathlib.Logic.Function.Basic

/-!
# Correlation keeps the incident table equal to the histories

Each running aggregate of an incident is the value of its piece (`absorb_incident`), so writing the
object `correlate` returns appends the attack to the current piece of its address
(`Correlated.put`), and every step of a run keeps the database correlated (`correlated_step`).
-/

namespace SentinelSsh.Core

open Python

/-! ## JSON columns -/

theorem dumps_ne_empty (xs : List String) : Json.dumps xs ≠ "" := by
  intro h
  have := congrArg String.toList h
  simp [Json.dumps] at this

@[simp] theorem parseJsonList_dumps (xs : List String) : parseJsonList (some (Json.dumps xs)) = xs := by
  simp [parseJsonList, truthy, dumps_ne_empty, Json.loads_dumps]

theorem mergeTechniques_dumps (xs new : List String) :
    mergeTechniques (some (Json.dumps xs)) new = fromkeys (xs ++ new) := by
  simp [mergeTechniques, truthy, dumps_ne_empty, Json.loads_dumps]

/-! ## The aggregates of a piece with one more attack -/

namespace Piece

variable (piece : Piece) (a : AttackCols)

@[simp] theorem attacks_snoc : (piece.snoc a).attacks = piece.attacks ++ [a] := rfl

@[simp] theorem first_snoc : (piece.snoc a).first = piece.first := rfl

theorem attempts_snoc : (piece.snoc a).attempts = piece.attempts + max 1 a.authAttempts := by
  simp [attempts]

theorem maxRisk_snoc : (piece.snoc a).maxRisk = max piece.maxRisk a.riskScore := by
  simp [maxRisk, snoc]

theorem techniques_snoc : (piece.snoc a).techniques =
    fromkeys (piece.techniques ++ parseJsonList a.mitreTechniques) := by
  rw [techniques, techniques, fromkeys_fromkeys_append]
  simp

theorem lastSeen_snoc (b : AttackCols) : (piece.snoc a).later.getLastD b = a := by
  simp [snoc]

theorem join_find_concat (cs : List (Option String)) (c : Option String) :
    ((cs ++ [c]).find? truthy).join = if truthy (cs.find? truthy).join then (cs.find? truthy).join
      else if truthy c then c else none := by
  rw [List.find?_append]
  rcases hf : cs.find? truthy with _ | d
  · by_cases hc : truthy c = true
    · simp [hc]
    · simp [hc]
  · have hd : truthy d = true := by simpa using List.find?_some hf
    simp [hd]

theorem country_snoc : (piece.snoc a).country =
    if truthy piece.country then piece.country else if truthy a.country then a.country else none := by
  unfold country
  rw [attacks_snoc, List.map_append]
  exact join_find_concat _ _

theorem country_singleton : (Piece.mk a []).country = if truthy a.country then a.country else none := by
  by_cases ha : truthy a.country = true
  · simp [country, attacks, ha]
  · simp [country, attacks, ha]

/-- The country an incident shows changes only from an empty one. -/
theorem shownCountry_snoc : (piece.snoc a).shownCountry =
    if truthy a.country && !truthy piece.shownCountry then a.country else piece.shownCountry := by
  have hfirst : truthy piece.country = false → truthy piece.first.country = false := by
    intro h
    by_contra hne
    rw [Bool.not_eq_false] at hne
    simp [country, attacks, hne] at h
  simp only [shownCountry, country_snoc, first_snoc]
  by_cases hp : truthy piece.country = true
  · simp [hp]
  · rw [Bool.not_eq_true] at hp
    by_cases ha : truthy a.country = true
    · simp [hp, ha, hfirst hp]
    · simp [hp, ha]

end Piece

/-! ## The aggregates in the terms of the rows -/

namespace Piece

variable (piece : Piece)

theorem nonEmpty_of_truthy {c : Option String} (h : truthy c = true) : nonEmpty c = c := by
  cases c with
  | none => rfl
  | some s => simpa [nonEmpty, truthy] using h

theorem nonEmpty_of_not_truthy {c : Option String} (h : ¬ truthy c = true) : nonEmpty c = none := by
  cases c with
  | none => rfl
  | some s => simpa [nonEmpty, truthy] using h

theorem join_find_truthy (cs : List (Option String)) :
    (cs.find? truthy).join = (cs.filterMap nonEmpty).head? := by
  induction cs with
  | nil => rfl
  | cons c cs ih =>
    by_cases hc : truthy c = true
    · rw [List.find?_cons_of_pos hc, List.filterMap_cons, nonEmpty_of_truthy hc]
      cases c with
      | none => simp at hc
      | some s => rfl
    · rw [List.find?_cons_of_neg hc, List.filterMap_cons, nonEmpty_of_not_truthy hc, ih]

/-- What an incident shows as country is the first non-empty one, if there is any. -/
theorem nonEmpty_shownCountry :
    nonEmpty piece.shownCountry = (piece.attacks.filterMap fun a => nonEmpty a.country).head? := by
  have hcountry : piece.country = (piece.attacks.filterMap fun a => nonEmpty a.country).head? := by
    rw [country, join_find_truthy, List.filterMap_map]
    rfl
  rw [← hcountry, shownCountry]
  by_cases hc : truthy piece.country = true
  · rw [if_pos hc, nonEmpty_of_truthy hc]
  · have hnone : piece.country = none := by
      rw [country, join_find_truthy] at hc ⊢
      rcases hh : ((piece.attacks.map (·.country)).filterMap nonEmpty).head? with _ | s
      · exact hh
      · rw [hh] at hc
        obtain ⟨c, -, hcs⟩ := List.mem_filterMap.mp (List.mem_of_mem_head? hh)
        have hs : s ≠ "" := by simpa using (Option.filter_eq_some_iff.mp hcs).2
        exact absurd (by simpa [truthy] using hs) hc
    have hfirst : ¬ truthy piece.first.country = true := by
      intro hf
      rw [country, attacks, List.map_cons, List.find?_cons_of_pos hf] at hnone
      cases hfc : piece.first.country with
      | none => rw [hfc] at hf; simp at hf
      | some s => rw [hfc] at hnone; simp at hnone
    rw [if_neg hc, nonEmpty_of_not_truthy hfirst, hnone]

theorem max?_riskScore : (piece.attacks.map (·.riskScore)).max? = some piece.maxRisk := by
  rw [attacks, List.map_cons, List.max?_cons', List.foldl_map]
  rfl

end Piece

/-! ## `correlate` on the attributes of an incident -/

/-- The arguments of `correlate` describe the attack they come with. -/
structure Describes (args : CorrelateArgs) (a : AttackCols) : Prop where
  sourceIp : args.sourceIp = a.sourceIp
  country : args.country = a.country
  riskScore : args.riskScore = a.riskScore
  attempts : args.attempts = max 1 a.authAttempts
  techniques : args.techniques = parseJsonList a.mitreTechniques
  timestamp : args.timestamp = a.timestamp
  nonneg : 0 ≤ a.riskScore

theorem draft_describes (p : IngestPipeline) (capture : Capture) (prior : Int) :
    Describes (p.draft capture prior).correlateArgs (p.draft capture prior).attack where
  sourceIp := rfl
  country := rfl
  riskScore := rfl
  attempts := rfl
  techniques := (parseJsonList_dumps _).symm
  timestamp := rfl
  nonneg := (riskScore_bounds _ _ _).1

/-- The assignments of `correlate` append the attack to the piece. -/
theorem absorb_incident {args : CorrelateArgs} {a : AttackCols} (h : Describes args a) (piece : Piece)
    (st : IncidentStatus) : (piece.incident st).absorb args = (piece.snoc a).incident st := by
  have hatt : max 1 args.attempts = max 1 a.authAttempts := by rw [h.attempts]; omega
  simp only [IncidentCols.absorb, Piece.incident, Piece.first_snoc, Piece.shownCountry_snoc,
    Piece.attempts_snoc, Piece.maxRisk_snoc, Piece.lastSeen_snoc, Piece.techniques_snoc,
    mergeTechniques_dumps, h.country, h.riskScore, h.techniques, h.timestamp, hatt]

theorem absorb_newIncident {args : CorrelateArgs} {a : AttackCols} (h : Describes args a) :
    (newIncident args).absorb args = (Piece.mk a []).incident .open := by
  have hatt : max 1 args.attempts = max 1 a.authAttempts := by rw [h.attempts]; omega
  have hmax : max 0 a.riskScore = a.riskScore := by have := h.nonneg; omega
  have hcountry : (if truthy a.country && !truthy a.country then a.country else a.country) =
      a.country := by split <;> rfl
  have hshown : (Piece.mk a []).shownCountry = a.country := by
    by_cases ha : truthy a.country = true <;> simp [Piece.shownCountry, Piece.country_singleton, ha]
  have htech : (Piece.mk a []).techniques = fromkeys (parseJsonList a.mitreTechniques) := by
    simp [Piece.techniques, Piece.attacks]
  simp only [IncidentCols.absorb, newIncident, Piece.incident, hshown, hcountry, htech, hatt, hmax,
    h.sourceIp, h.country, h.riskScore, h.techniques, h.timestamp, mergeTechniques_dumps]
  simp [Piece.attempts, Piece.attacks, Piece.maxRisk]

/-! ## The rows of one address -/

theorem forall₂_imp_of_mem {α β : Type*} {R S : α → β → Prop} {l : List α} {l' : List β}
    (h : List.Forall₂ R l l') (himp : ∀ x ∈ l, ∀ y, R x y → S x y) : List.Forall₂ S l l' := by
  induction h with
  | nil => exact .nil
  | cons hr _ ih =>
    exact .cons (himp _ (by simp) _ hr) (ih fun x hx => himp x (List.mem_cons_of_mem _ hx))

section Rows

variable {db : Db} {book : String → Ledger} {engine : Engine}

theorem mem_incidentsOf {ip : String} {i : Incident} :
    i ∈ db.incidentsOf ip ↔ i ∈ db.incidents ∧ i.sourceIp = ip := by
  simp [Db.incidentsOf]

/-- The rows of an address are the closed ones, then the one of the current piece if there is one. -/
theorem Correlated.rows_split (h : Correlated db book) (ip : String) :
    ∃ pre, List.Forall₂ (RowOf db) pre ((book ip).past.map (·, .closed)) ∧
      ((book ip).current = none ∧ db.incidentsOf ip = pre ∨
        ∃ piece i, (book ip).current = some piece ∧ db.incidentsOf ip = pre ++ [i] ∧
          RowOf db i (piece, (book ip).status)) := by
  have hrows := h.rows ip
  rw [Ledger.pieces] at hrows
  set n := ((book ip).past.map (·, IncidentStatus.closed)).length
  have hsplit : db.incidentsOf ip = (db.incidentsOf ip).take n ++ (db.incidentsOf ip).drop n :=
    (List.take_append_drop _ _).symm
  refine ⟨_, List.forall₂_take_append _ _ _ hrows, ?_⟩
  have hdrop := List.forall₂_drop_append _ _ _ hrows
  cases hc : (book ip).current with
  | none =>
    rw [hc, Option.toList_none, List.map_nil, List.forall₂_nil_right_iff] at hdrop
    left
    refine ⟨rfl, ?_⟩
    rw [hdrop, List.append_nil] at hsplit
    exact hsplit
  | some piece =>
    rw [hc, Option.toList_some, List.map_singleton] at hdrop
    right
    obtain ⟨i, rest, hi, hrest, hl⟩ := List.forall₂_cons_right_iff.mp hdrop
    rw [List.forall₂_nil_right_iff] at hrest
    rw [hl, hrest] at hsplit
    exact ⟨piece, i, rfl, hsplit, hi⟩

theorem closed_of_past {pre : List Incident} {past : List Piece}
    (h : List.Forall₂ (RowOf db) pre (past.map (·, .closed))) : ∀ i ∈ pre, i.status = .closed := by
  intro i hi
  obtain ⟨n, hn, rfl⟩ := List.getElem_of_mem hi
  have hlen := h.length_eq
  have hrow := h.get hn (by omega)
  simp only [List.get_eq_getElem, List.getElem_map] at hrow
  have := congrArg IncidentCols.status hrow.cols
  exact this

theorem status_ne_closed (l : Ledger) : l.status ≠ .closed := by
  unfold Ledger.status
  split <;> decide

theorem selectIncident_eq (ip : String) : selectIncident engine db.incidents ip =
    ((db.incidentsOf ip).filter (·.status ≠ .closed)).maxOn? (engine.key ·.lastSeen) := by
  rw [selectIncident, Db.incidentsOf, List.filter_filter]
  congr 1
  refine List.filter_congr fun i _ => ?_
  rw [Bool.and_comm]

/-- `correlate` finds the row of the current piece, or nothing when there is none. -/
theorem Correlated.select (h : Correlated db book) (engine : Engine) (ip : String) :
    ((book ip).current = none ∧ selectIncident engine db.incidents ip = none) ∨
      ∃ piece i pre, (book ip).current = some piece ∧ selectIncident engine db.incidents ip = some i ∧
        db.incidentsOf ip = pre ++ [i] ∧ RowOf db i (piece, (book ip).status) := by
  obtain ⟨pre, hpre, hcur⟩ := h.rows_split ip
  have hfilter : pre.filter (·.status ≠ .closed) = [] := by
    rw [List.filter_eq_nil_iff]
    intro i hi
    simp [closed_of_past hpre i hi]
  rcases hcur with ⟨hnone, hl⟩ | ⟨piece, i, hsome, hl, hi⟩
  · left
    refine ⟨hnone, ?_⟩
    rw [selectIncident_eq, hl, hfilter, List.maxOn?_nil]
  · right
    refine ⟨piece, i, pre, hsome, ?_, hl, hi⟩
    have hst : i.status ≠ .closed := by
      have := congrArg IncidentCols.status hi.cols
      rw [this]
      exact status_ne_closed _
    rw [selectIncident_eq, hl, List.filter_append, hfilter, List.nil_append]
    rw [List.filter_cons_of_pos (by simpa using hst), List.filter_nil]
    exact List.maxOn?_singleton

/-- A row that is not closed is the row of the current piece of its address. -/
theorem Correlated.current_of_open (h : Correlated db book) {i : Incident} (hi : i ∈ db.incidents)
    (hst : i.status ≠ .closed) : ∃ piece pre, (book i.sourceIp).current = some piece ∧
      db.incidentsOf i.sourceIp = pre ++ [i] ∧ RowOf db i (piece, (book i.sourceIp).status) ∧
      List.Forall₂ (RowOf db) pre ((book i.sourceIp).past.map (·, .closed)) := by
  obtain ⟨pre, hpre, hcur⟩ := h.rows_split i.sourceIp
  have hmem : i ∈ db.incidentsOf i.sourceIp := mem_incidentsOf.mpr ⟨hi, rfl⟩
  rcases hcur with ⟨-, hl⟩ | ⟨piece, j, hsome, hl, hj⟩
  · exact absurd (closed_of_past hpre i (hl ▸ hmem)) hst
  · rw [hl, List.mem_append, List.mem_singleton] at hmem
    rcases hmem with hm | rfl
    · exact absurd (closed_of_past hpre i hm) hst
    · exact ⟨piece, pre, hsome, hl, hj, hpre⟩

/-- A row that is not closed is the one a `SELECT` for its address returns. -/
theorem Correlated.select_of_open (h : Correlated db book) {i : Incident} (hi : i ∈ db.incidents)
    (hst : i.status ≠ .closed) : selectIncident engine db.incidents i.sourceIp = some i := by
  obtain ⟨piece, pre, hcur, hpre, -⟩ := h.current_of_open hi hst
  rcases h.select engine i.sourceIp with ⟨hnone, -⟩ | ⟨-, j, pre', -, hsel, hpre', -⟩
  · rw [hnone] at hcur
    exact absurd hcur (by simp)
  · have hij : [i] = [j] := (List.append_inj' (hpre.symm.trans hpre') rfl).2
    rw [hsel, List.singleton_inj.mp hij]

theorem Correlated.open_of_select (h : Correlated db book) {ip : String} {i : Incident}
    (hsel : selectIncident engine db.incidents ip = some i) :
    i ∈ db.incidents ∧ i.sourceIp = ip ∧ i.status ≠ .closed := by
  rcases h.select engine ip with ⟨-, hnone⟩ | ⟨piece, j, pre, -, hsel', hpre, hrow⟩
  · rw [hsel] at hnone
    exact absurd hnone (by simp)
  · obtain rfl : i = j := by simpa [hsel] using hsel'
    obtain ⟨hi, hip⟩ := mem_incidentsOf.mp (show i ∈ db.incidentsOf ip by rw [hpre]; simp)
    refine ⟨hi, hip, ?_⟩
    rw [congrArg IncidentCols.status hrow.cols]
    exact status_ne_closed _

theorem Correlated.eq_of_id (h : Correlated db book) {i j : Incident} (hi : i ∈ db.incidents)
    (hj : j ∈ db.incidents) (hij : i.id = j.id) : i = j :=
  List.inj_on_of_nodup_map h.keys_nodup hi hj hij

theorem Correlated.status_of_none (h : Correlated db book) {ip : String}
    (hnone : (book ip).current = none) : (book ip).status = .open := by
  have hfalse : ¬ (book ip).isTriaged = true := fun ht => by
    have := h.triaged ip ht
    rw [hnone] at this
    exact absurd this (by decide)
  rw [Ledger.status, if_neg hfalse]

theorem Correlated.row_of_mem (h : Correlated db book) {i : Incident} (hi : i ∈ db.incidents) :
    ∃ q ∈ (book i.sourceIp).pieces, RowOf db i q := by
  obtain ⟨n, hn, hni⟩ := List.getElem_of_mem (mem_incidentsOf.mpr ⟨hi, rfl⟩)
  have hlen := (h.rows i.sourceIp).length_eq
  have hrow := (h.rows i.sourceIp).get hn (by omega)
  rw [List.get_eq_getElem, hni] at hrow
  exact ⟨_, List.getElem_mem _, hrow⟩

theorem Correlated.attempts_nonneg (h : Correlated db book) {i : Incident} (hi : i ∈ db.incidents) :
    0 ≤ i.attemptCount := by
  obtain ⟨q, -, hrow⟩ := h.row_of_mem hi
  rw [hrow.cols]
  refine List.sum_nonneg fun x hx => ?_
  obtain ⟨a, -, rfl⟩ := List.mem_map.mp hx
  omega

/-! ### Replacing the row of the current piece -/

variable {loaded new : Incident} {pre : List Incident}

theorem ids_replace (hid : new.id = loaded.id) :
    (db.incidents.map fun i => if i = loaded then new else i).map (·.id) = db.incidents.map (·.id) := by
  rw [List.map_map]
  refine List.map_congr_left fun i _ => ?_
  simp only [Function.comp_apply]
  split
  · next hi => rw [hi, hid]
  · rfl

theorem exists_replace (hid : new.id = loaded.id) (hsrc : new.sourceIp = loaded.sourceIp) {i : Incident}
    (hi : i ∈ db.incidents) : ∃ j ∈ db.incidents.map fun i => if i = loaded then new else i,
      j.id = i.id ∧ j.sourceIp = i.sourceIp := by
  refine ⟨_, List.mem_map_of_mem hi, ?_⟩
  split
  · next heq => subst heq; exact ⟨hid, hsrc⟩
  · exact ⟨rfl, rfl⟩

theorem map_replace_of_notMem {rows : List Incident} (h : loaded ∉ rows) :
    (rows.map fun i => if i = loaded then new else i) = rows := by
  refine (List.map_congr_left fun i hi => ?_).trans (List.map_id rows)
  rw [if_neg fun (he : i = loaded) => h (he ▸ hi), id]

theorem filter_replace (hsrc : new.sourceIp = loaded.sourceIp) (ip : String) :
    (db.incidents.map fun i => if i = loaded then new else i).filter (·.sourceIp = ip) =
      (db.incidentsOf ip).map fun i => if i = loaded then new else i := by
  rw [List.filter_map, Db.incidentsOf]
  congr 1
  refine List.filter_congr fun i _ => ?_
  simp only [Function.comp_apply]
  split
  · next hi => subst hi; simp [hsrc]
  · rfl

/-- The table after a replacement of the row of a current piece by one whose piece and linked attacks
are known; the attacks of other rows stay. -/
theorem Correlated.replace (h : Correlated db book) {db' : Db} {l : Ledger} {piece : Piece}
    {pc : Piece × IncidentStatus} (hcur : (book loaded.sourceIp).current = some piece)
    (hpre : db.incidentsOf loaded.sourceIp = pre ++ [loaded])
    (hrow : RowOf db loaded (piece, (book loaded.sourceIp).status))
    (hsrc : new.sourceIp = loaded.sourceIp)
    (hdb' : db'.incidents = db.incidents.map fun i => if i = loaded then new else i)
    (hlinked : ∀ k, k ≠ loaded.id → db'.linked k = db.linked k) (hnew : RowOf db' new pc)
    (hpieces : l.pieces = (book loaded.sourceIp).past.map (·, .closed) ++ [pc]) (ip : String) :
    List.Forall₂ (RowOf db') (db'.incidentsOf ip)
      (Function.update book loaded.sourceIp l ip).pieces := by
  have hmem : loaded ∈ db.incidents := (mem_incidentsOf.mp (by rw [hpre]; simp)).1
  have hother : ∀ i ∈ db.incidents, i ≠ loaded → ∀ q, RowOf db i q → RowOf db' i q :=
    fun i hi hne q hr =>
      ⟨hr.cols, by rw [hlinked _ fun he => hne (h.eq_of_id hi hmem he)]; exact hr.linked⟩
  have hrows : db'.incidentsOf ip =
      (db.incidentsOf ip).map fun i => if i = loaded then new else i := by
    rw [Db.incidentsOf, hdb', filter_replace hsrc]
  rw [hrows]
  by_cases hip : ip = loaded.sourceIp
  · subst hip
    obtain ⟨pre', hpast, hsplit⟩ := h.rows_split loaded.sourceIp
    obtain rfl : pre' = pre := by
      rcases hsplit with ⟨hnone, -⟩ | ⟨_, _, _, hl, -⟩
      · rw [hcur] at hnone
        exact absurd hnone (by simp)
      · exact (List.append_inj' (hl.symm.trans hpre) rfl).1
    have hnotin : loaded ∉ pre' := fun hin => by
      have hclosed := closed_of_past hpast loaded hin
      rw [congrArg IncidentCols.status hrow.cols] at hclosed
      exact status_ne_closed _ hclosed
    have hin : ∀ i ∈ pre', i ∈ db.incidents := fun i hi =>
      (mem_incidentsOf.mp (by rw [hpre]; exact List.mem_append_left _ hi)).1
    rw [Function.update_self, hpieces, hpre, List.map_append, map_replace_of_notMem hnotin,
      List.map_singleton, if_pos rfl]
    exact List.rel_append (forall₂_imp_of_mem hpast fun i hi =>
      hother i (hin i hi) fun (he : i = loaded) => hnotin (he ▸ hi)) (.cons hnew .nil)
  · have hnotin : loaded ∉ db.incidentsOf ip := fun hin => hip (mem_incidentsOf.mp hin).2.symm
    rw [Function.update_of_ne hip, map_replace_of_notMem hnotin]
    exact forall₂_imp_of_mem (h.rows ip) fun i hi =>
      hother i (mem_incidentsOf.mp hi).1 fun (he : i = loaded) => hnotin (he ▸ hi)

end Rows

/-! ## Writing one attack -/

section Put

variable {db : Db} {book : String → Ledger} {a : AttackCols} {cmds : List CommandCols}
  {attackKey key : Nat}

/-- The row of an attack that was written. -/
def putRow (attackKey : Nat) (a : AttackCols) (key : Nat) : Attack :=
  { a with id := attackKey, incidentId := some key }

theorem linked_putAttack_self :
    (db.putAttack attackKey a cmds key).linked key = db.linked key ++ [putRow attackKey a key] := by
  simp [Db.linked, Db.putAttack, List.filter_append, putRow]

theorem linked_putAttack_of_ne {k : Nat} (hk : k ≠ key) :
    (db.putAttack attackKey a cmds key).linked k = db.linked k := by
  have hk' : key ≠ k := fun h => hk h.symm
  simp [Db.linked, Db.putAttack, List.filter_append, hk']

theorem attacksOf_putAttack_self : (db.putAttack attackKey a cmds key).attacksOf a.sourceIp =
    db.attacksOf a.sourceIp ++ [putRow attackKey a key] := by
  simp [Db.attacksOf, Db.putAttack, List.filter_append, putRow]

theorem attacksOf_putAttack_of_ne {ip : String} (hip : ip ≠ a.sourceIp) :
    (db.putAttack attackKey a cmds key).attacksOf ip = db.attacksOf ip := by
  have hip' : a.sourceIp ≠ ip := fun h => hip h.symm
  simp [Db.attacksOf, Db.putAttack, List.filter_append, hip']

@[simp] theorem incidentsOf_putAttack (ip : String) :
    (db.putAttack attackKey a cmds key).incidentsOf ip = db.incidentsOf ip := rfl

@[simp] theorem linked_putIncident (found : Option Incident) (cols : IncidentCols) (k : Nat) :
    (db.putIncident found key cols).linked k = db.linked k := by
  cases found <;> rfl

theorem incidentsOf_putNew_self {cols : IncidentCols} {ip : String} (hip : cols.sourceIp = ip) :
    (db.putIncident none key cols).incidentsOf ip = db.incidentsOf ip ++ [{ cols with id := key }] := by
  simp [Db.incidentsOf, Db.putIncident, List.filter_append, hip]

theorem incidentsOf_putNew_of_ne {cols : IncidentCols} {ip : String} (hip : ip ≠ cols.sourceIp) :
    (db.putIncident none key cols).incidentsOf ip = db.incidentsOf ip := by
  have hip' : cols.sourceIp ≠ ip := fun h => hip h.symm
  simp [Db.incidentsOf, Db.putIncident, List.filter_append, hip']

theorem RowOf.congr {db' : Db} {i : Incident} {piece : Piece × IncidentStatus} (h : RowOf db i piece)
    (hl : db'.linked i.id = db.linked i.id) : RowOf db' i piece :=
  ⟨h.cols, by rw [hl]; exact h.linked⟩

theorem Ledger.pieces_attack (l : Ledger) (a : AttackCols) : (l.apply (.attack a)).pieces =
    l.past.map (·, .closed) ++ [(l.current.elim ⟨a, []⟩ (·.snoc a), l.status)] := by
  simp only [Ledger.pieces, Ledger.apply, Option.toList_some, List.map_singleton]
  rfl

theorem Ledger.attacks_attack (l : Ledger) (a : AttackCols) :
    (l.apply (.attack a)).attacks = l.attacks ++ [a] := by
  rw [Ledger.attacks, Ledger.pieces_attack, Ledger.attacks, Ledger.pieces]
  cases l.current with
  | none => simp [Piece.attacks]
  | some piece => simp

theorem Correlated.linked_fresh (h : Correlated db book) (hkey : ∀ i ∈ db.incidents, i.id ≠ key) :
    db.linked key = [] := by
  rw [Db.linked, List.filter_eq_nil_iff]
  intro b hb
  obtain ⟨i, hi, hid, -⟩ := h.owned b hb
  simpa [hid] using hkey i hi

theorem attacks_put (h : Correlated db book) {db' : Db} (hdb' : db'.attacks = db.attacks) :
    ∀ ip, ((db'.putAttack attackKey a cmds key).attacksOf ip).map Attack.toAttackCols =
      (Function.update book a.sourceIp ((book a.sourceIp).apply (.attack a)) ip).attacks := by
  have hsame : ∀ ip, db'.attacksOf ip = db.attacksOf ip := fun ip => by
    rw [Db.attacksOf, Db.attacksOf, hdb']
  intro ip
  by_cases hip : ip = a.sourceIp
  · subst hip
    rw [attacksOf_putAttack_self, Function.update_self, Ledger.attacks_attack, List.map_append, hsame,
      h.attacks]
    rfl
  · rw [attacksOf_putAttack_of_ne hip, Function.update_of_ne hip, hsame, h.attacks]

theorem triaged_put (h : Correlated db book) : ∀ ip,
    (Function.update book a.sourceIp ((book a.sourceIp).apply (.attack a)) ip).isTriaged = true →
      (Function.update book a.sourceIp ((book a.sourceIp).apply (.attack a)) ip).current.isSome = true := by
  intro ip ht
  by_cases hip : ip = a.sourceIp
  · subst hip
    simp [Ledger.apply]
  · rw [Function.update_of_ne hip] at ht ⊢
    exact h.triaged ip ht

/-- Writing an attack together with a new incident begins a piece. -/
theorem Correlated.put_new (h : Correlated db book) (hkey : ∀ i ∈ db.incidents, i.id ≠ key)
    (hnone : (book a.sourceIp).current = none) :
    Correlated ((db.putIncident none key ((Piece.mk a []).incident .open)).putAttack attackKey a cmds key)
      (Function.update book a.sourceIp ((book a.sourceIp).apply (.attack a))) := by
  set new : Incident := { (Piece.mk a []).incident .open with id := key } with hnew
  have hold : ∀ i ∈ db.incidents, ∀ piece, RowOf db i piece →
      RowOf ((db.putIncident none key ((Piece.mk a []).incident .open)).putAttack attackKey a cmds key)
        i piece := fun i hi piece hr =>
    hr.congr (linked_putAttack_of_ne (hkey i hi))
  refine
    { keys_lt := ?_
      keys_nodup := ?_
      owned := ?_
      rows := ?_
      triaged := triaged_put h
      attacks := attacks_put h rfl }
  · intro i hi
    simp only [Db.putAttack, Db.putIncident, List.mem_append, List.mem_singleton] at hi ⊢
    rcases hi with hi | rfl
    · have := h.keys_lt i hi
      omega
    · show key < _
      omega
  · simp only [Db.putAttack, Db.putIncident, List.map_append, List.map_cons, List.map_nil]
    refine List.nodup_append.mpr ⟨h.keys_nodup, List.nodup_singleton _, ?_⟩
    intro k hk k' hk' heq
    obtain ⟨i, hi, rfl⟩ := List.mem_map.mp hk
    rw [List.mem_singleton] at hk'
    exact hkey i hi (heq.trans hk')
  · intro b hb
    simp only [Db.putAttack, Db.putIncident, List.mem_append, List.mem_singleton] at hb ⊢
    rcases hb with hb | rfl
    · obtain ⟨i, hi, hid⟩ := h.owned b hb
      exact ⟨i, Or.inl hi, hid⟩
    · exact ⟨new, Or.inr rfl, rfl, rfl⟩
  · intro ip
    by_cases hip : ip = a.sourceIp
    · subst hip
      have hrows := h.rows a.sourceIp
      rw [Ledger.pieces, hnone, Option.toList_none, List.map_nil, List.append_nil] at hrows
      rw [Function.update_self, Ledger.pieces_attack, hnone, incidentsOf_putAttack,
        incidentsOf_putNew_self (show a.sourceIp = a.sourceIp from rfl)]
      refine List.rel_append (forall₂_imp_of_mem hrows fun i hi => hold i (mem_incidentsOf.mp hi).1)
        (.cons ⟨?_, ?_⟩ .nil)
      · rw [h.status_of_none hnone]
        rfl
      · rw [linked_putAttack_self, List.map_append, linked_putIncident, h.linked_fresh hkey]
        rfl
    · rw [Function.update_of_ne hip, incidentsOf_putAttack, incidentsOf_putNew_of_ne hip]
      exact forall₂_imp_of_mem (h.rows ip) fun i hi => hold i (mem_incidentsOf.mp hi).1

theorem Correlated.patch_row (h : Correlated db book) {loaded : Incident} (hl : loaded ∈ db.incidents)
    {cols : IncidentCols} {i : Incident} (hi : i ∈ db.incidents) :
    (if i.id = loaded.id then
      ({ loaded.patch cols i.toIncidentCols with id := i.id } : Incident) else i) =
      if i = loaded then { cols with id := loaded.id } else i := by
  by_cases hid : i.id = loaded.id
  · obtain rfl := h.eq_of_id hi hl hid
    rw [if_pos rfl, if_pos rfl, IncidentCols.patch_self]
  · have hne : i ≠ loaded := fun he => hid (by rw [he])
    rw [if_neg hid, if_neg hne]

theorem Correlated.incidents_putFound (h : Correlated db book) {loaded : Incident}
    (hl : loaded ∈ db.incidents) (cols : IncidentCols) :
    (db.putIncident (some loaded) loaded.id cols).incidents =
      db.incidents.map fun i => if i = loaded then { cols with id := loaded.id } else i :=
  List.map_congr_left fun _ hi => h.patch_row hl hi

/-- Writing an attack together with the update of its incident extends the current piece. -/
theorem Correlated.put_found (h : Correlated db book) {loaded : Incident} {piece : Piece}
    {pre : List Incident} (hcur : (book a.sourceIp).current = some piece)
    (hpre : db.incidentsOf a.sourceIp = pre ++ [loaded])
    (hrow : RowOf db loaded (piece, (book a.sourceIp).status)) :
    Correlated ((db.putIncident (some loaded) loaded.id
        ((piece.snoc a).incident (book a.sourceIp).status)).putAttack attackKey a cmds loaded.id)
      (Function.update book a.sourceIp ((book a.sourceIp).apply (.attack a))) := by
  set cols := (piece.snoc a).incident (book a.sourceIp).status with hcols
  set new : Incident := { cols with id := loaded.id }
  obtain ⟨hmem, hip⟩ := mem_incidentsOf.mp
    (show loaded ∈ db.incidentsOf a.sourceIp by rw [hpre]; simp)
  have hnid : new.id = loaded.id := rfl
  have hsrc : new.sourceIp = loaded.sourceIp := by
    rw [congrArg IncidentCols.sourceIp hrow.cols]
    rfl
  have hdb' : (db.putIncident (some loaded) loaded.id cols).incidents =
      db.incidents.map fun i => if i = loaded then new else i := h.incidents_putFound hmem cols
  have hids : (db.putIncident (some loaded) loaded.id cols).incidents.map (·.id) =
      db.incidents.map (·.id) := by rw [hdb', ids_replace hnid]
  refine
    { keys_lt := ?_
      keys_nodup := ?_
      owned := ?_
      rows := ?_
      triaged := triaged_put h
      attacks := attacks_put h rfl }
  · intro i hi
    have hid : i.id ∈ db.incidents.map (·.id) := by
      rw [← hids]
      exact List.mem_map_of_mem hi
    obtain ⟨j, hj, hji⟩ := List.mem_map.mp hid
    rw [← hji]
    exact h.keys_lt j hj
  · show ((db.putIncident (some loaded) loaded.id cols).incidents.map (·.id)).Nodup
    rw [hids]
    exact h.keys_nodup
  · intro b hb
    simp only [Db.putAttack, List.mem_append, List.mem_singleton, hdb'] at hb ⊢
    rcases hb with hb | rfl
    · obtain ⟨i, hi, hid, hbi⟩ := h.owned b hb
      obtain ⟨j, hj, hji, hjs⟩ := exists_replace hnid hsrc hi
      exact ⟨j, hj, by rw [hji, hid], by rw [hjs, hbi]⟩
    · obtain ⟨j, hj, hji, hjs⟩ := exists_replace hnid hsrc hmem
      exact ⟨j, hj, by rw [hji], by rw [hjs, hip]⟩
  · rw [← hip] at hcur hpre hrow ⊢
    refine h.replace hcur hpre hrow hsrc hdb' (fun k hk => ?_) ⟨?_, ?_⟩
      (Ledger.pieces_attack _ _)
    · rw [linked_putAttack_of_ne hk, linked_putIncident]
    · rw [hcur, hip]
      rfl
    · rw [linked_putAttack_self, List.map_append, linked_putIncident, hrow.linked, hcur]
      rfl

end Put

/-! ## Steps and runs -/

section Steps

variable {db db' : Db} {book : String → Ledger} {p : IngestPipeline} {engine : Engine}

/-- The attributes `correlate` leaves the object with are those of the piece extended by the attack. -/
theorem Correlated.correlate_cols (h : Correlated db book) (engine : Engine) {args : CorrelateArgs} {a : AttackCols}
    (hd : Describes args a) : (correlate engine db.incidents args).1 = selectIncident engine db.incidents a.sourceIp ∧
      (correlate engine db.incidents args).2 =
        ((book a.sourceIp).current.elim ⟨a, []⟩ (·.snoc a)).incident (book a.sourceIp).status := by
  have hfound : (correlate engine db.incidents args).1 = selectIncident engine db.incidents a.sourceIp := by
    rw [correlate, hd.sourceIp]
  refine ⟨hfound, ?_⟩
  rcases h.select engine a.sourceIp with ⟨hnone, hsel⟩ | ⟨piece, i, pre, hcur, hsel, -, hrow⟩
  · rw [h.status_of_none hnone, hnone, Option.elim_none, ← absorb_newIncident hd, correlate, hd.sourceIp, hsel]
    rfl
  · rw [hcur, Option.elim_some, ← absorb_incident hd, ← hrow.cols, correlate, hd.sourceIp, hsel]
    rfl

/-- Writing the object of `correlate` and the attack appends the attack to the history of its
address; a new row may take any key that is not in use. -/
theorem Correlated.put (h : Correlated db book) {args : CorrelateArgs} {a : AttackCols}
    (hd : Describes args a) (key attackKey : Nat) (cmds : List CommandCols)
    (hkey : ∀ i, selectIncident engine db.incidents a.sourceIp = some i → key = i.id)
    (hfresh : selectIncident engine db.incidents a.sourceIp = none → ∀ i ∈ db.incidents, i.id ≠ key) :
    Correlated ((db.putIncident (correlate engine db.incidents args).1 key
        (correlate engine db.incidents args).2).putAttack attackKey a cmds key)
      (Function.update book a.sourceIp ((book a.sourceIp).apply (.attack a))) := by
  obtain ⟨hfound, hcols⟩ := h.correlate_cols engine hd
  rw [hfound, hcols]
  rcases h.select engine a.sourceIp with ⟨hnone, hsel⟩ | ⟨piece, i, pre, hcur, hsel, hpre, hrow⟩
  · rw [hsel, hnone, h.status_of_none hnone]
    exact h.put_new (hfresh hsel) hnone
  · rw [hsel, hcur, hkey i hsel]
    exact h.put_found hcur hpre hrow

/-- The prior attempts of an address are counted among its attacks. -/
theorem priorAttempts_attacksOf (ip : String) (before : Datetime) :
    p.priorAttempts engine db.attacks ip before =
      ((db.attacksOf ip).countP fun a => p.inHistory engine ip before a.toAttackCols : Nat) := by
  rw [IngestPipeline.priorAttempts, Db.attacksOf, List.countP_filter]
  congr 1
  refine List.countP_congr fun a _ => ?_
  simp only [IngestPipeline.inHistory, Bool.and_eq_true, decide_eq_true_eq]
  tauto

theorem countPriorAttempts_eq_some {attacks : List Attack} {ip : String} {before : Datetime} {prior : Int} :
    p.countPriorAttempts engine attacks ip before = some prior ↔
      (p.windowStart before).isSome = true ∧ p.priorAttempts engine attacks ip before = prior := by
  rw [IngestPipeline.countPriorAttempts]
  cases p.windowStart before <;> simp

/-- A completed call has computed the start of its history window. -/
theorem windowStart_of_process {capture : Capture} {snap : Snapshot}
    (h : p.process engine db capture = .ok (db', snap)) :
    (p.windowStart (p.captureTs capture)).isSome = true := by
  unfold IngestPipeline.process at h
  split at h
  · exact absurd h (by simp)
  · next prior hprior => exact (countPriorAttempts_eq_some.mp hprior).1

/-- What a completed call has done: its three statements were accepted, the rows are written, and the
snapshot is that of the new row. -/
theorem process_ok_snapshot {capture : Capture} {snap : Snapshot}
    (h : p.process engine db capture = .ok (db', snap)) :
    ∃ d key, d = p.draft capture (p.priorAttempts engine db.attacks capture.sourceIp (p.captureTs capture)) ∧
      key = db.incidentKey (correlate engine db.incidents d.correlateArgs).1 ∧
      db' = (db.putIncident (correlate engine db.incidents d.correlateArgs).1 key
          (correlate engine db.incidents d.correlateArgs).2).putAttack db.nextAttack d.attack d.commands key ∧
      snap = snapshot { d.attack with id := db.nextAttack, incidentId := some key } d.commands.length
        d.behavior.behaviors d.behavior.techniques d.risk ∧
      engine.acceptsAll (correlate engine db.incidents d.correlateArgs).2.columns = true ∧
      engine.acceptsAll d.attack.columns = true ∧
      d.commands.all (fun c => engine.acceptsAll c.columns) = true := by
  refine ⟨_, _, rfl, rfl, ?_⟩
  unfold IngestPipeline.process at h
  split at h
  · exact absurd h (by simp)
  · next prior hprior =>
    rw [(countPriorAttempts_eq_some.mp hprior).2]
    simp only at h
    split at h
    · exact absurd h (by simp)
    · split at h
      · exact absurd h (by simp)
      · split at h
        · exact absurd h (by simp)
        · next h1 h2 h3 =>
          simp only [Except.ok.injEq, Prod.mk.injEq] at h
          simp only [Bool.not_eq_true, Bool.not_eq_false'] at h1 h2 h3
          exact ⟨h.1.symm, h.2.symm, h1, h2, h3⟩

theorem process_ok {capture : Capture} {snap : Snapshot}
    (h : p.process engine db capture = .ok (db', snap)) :
    ∃ d, d = p.draft capture (p.priorAttempts engine db.attacks capture.sourceIp (p.captureTs capture)) ∧
      db' = (db.putIncident (correlate engine db.incidents d.correlateArgs).1
          (db.incidentKey (correlate engine db.incidents d.correlateArgs).1)
          (correlate engine db.incidents d.correlateArgs).2).putAttack db.nextAttack d.attack d.commands
        (db.incidentKey (correlate engine db.incidents d.correlateArgs).1) ∧
      engine.acceptsAll (correlate engine db.incidents d.correlateArgs).2.columns = true ∧
      engine.acceptsAll d.attack.columns = true ∧
      d.commands.all (fun c => engine.acceptsAll c.columns) = true := by
  obtain ⟨d, key, hd, rfl, hdb, -, hacc⟩ := process_ok_snapshot h
  exact ⟨d, hd, hdb, hacc⟩

@[simp] theorem attacks_putIncident (found : Option Incident) (key : Nat) (cols : IncidentCols) :
    (db.putIncident found key cols).attacks = db.attacks := by
  cases found <;> rfl

@[simp] theorem commands_putIncident (found : Option Incident) (key : Nat) (cols : IncidentCols) :
    (db.putIncident found key cols).commands = db.commands := by
  cases found <;> rfl

theorem process_of_accepts (db : Db) {capture : Capture} {d : IngestPipeline.Draft}
    (hwindow : (p.windowStart (p.captureTs capture)).isSome = true)
    (hd : d = p.draft capture (p.priorAttempts engine db.attacks capture.sourceIp (p.captureTs capture)))
    (hinc : engine.acceptsAll (correlate engine db.incidents d.correlateArgs).2.columns = true)
    (hatt : engine.acceptsAll d.attack.columns = true)
    (hcmd : d.commands.all (fun c => engine.acceptsAll c.columns) = true) :
    ∃ db' snap, p.process engine db capture = .ok (db', snap) := by
  subst hd
  have hcount : p.countPriorAttempts engine db.attacks capture.sourceIp (p.captureTs capture) =
      some (p.priorAttempts engine db.attacks capture.sourceIp (p.captureTs capture)) :=
    countPriorAttempts_eq_some.mpr ⟨hwindow, rfl⟩
  simp only [IngestPipeline.process, hcount, hinc, hatt, hcmd, Bool.not_true, Bool.false_eq_true, if_false]
  exact ⟨_, _, rfl⟩

/-- A call completes exactly when its history window can be computed and its three statements are
accepted. -/
theorem process_ok_iff {capture : Capture} {d : IngestPipeline.Draft}
    (hd : d = p.draft capture (p.priorAttempts engine db.attacks capture.sourceIp (p.captureTs capture))) :
    (∃ db' snap, p.process engine db capture = .ok (db', snap)) ↔
      (p.windowStart (p.captureTs capture)).isSome = true ∧
        engine.acceptsAll (correlate engine db.incidents d.correlateArgs).2.columns = true ∧
        engine.acceptsAll d.attack.columns = true ∧
        d.commands.all (fun c => engine.acceptsAll c.columns) = true := by
  constructor
  · rintro ⟨db', snap, h⟩
    obtain ⟨d', hd', -, hacc⟩ := process_ok h
    rw [hd, ← hd']
    exact ⟨windowStart_of_process h, hacc⟩
  · exact fun h => process_of_accepts db h.1 hd h.2.1 h.2.2.1 h.2.2.2

/-- A completed call appends its attack to the history of its address. -/
theorem Correlated.process (h : Correlated db book) {capture : Capture} {snap : Snapshot}
    (hp : p.process engine db capture = .ok (db', snap)) :
    ∃ a : AttackCols, a = (p.draft capture
          (p.priorAttempts engine db.attacks capture.sourceIp (p.captureTs capture))).attack ∧
      db'.attacks.getLast?.map Attack.toAttackCols = some a ∧
      Correlated db' (Function.update book a.sourceIp ((book a.sourceIp).apply (.attack a))) := by
  obtain ⟨d, rfl, rfl, -⟩ := process_ok hp
  refine ⟨_, rfl, ?_, ?_⟩
  · simp [Db.putAttack]
  · have hd := draft_describes p capture
      (p.priorAttempts engine db.attacks capture.sourceIp (p.captureTs capture))
    have hfound := (h.correlate_cols engine hd).1
    refine h.put hd _ _ _ (fun i hi => ?_) (fun hi i hmem => ?_)
    · rw [hfound, hi, Db.incidentKey, Option.elim_some]
    · rw [hfound, hi, Db.incidentKey, Option.elim_none]
      exact (h.keys_lt i hmem).ne

/-- A status change replaces the row of the current piece of its address, and nothing else. -/
theorem Correlated.setStatus (h : Correlated db book) {i : Incident} (hi : i ∈ db.incidents)
    (hst : i.status ≠ .closed) {st : IncidentStatus} {l : Ledger}
    (hl : ∀ piece, (book i.sourceIp).current = some piece →
      l.pieces = (book i.sourceIp).past.map (·, .closed) ++ [(piece, st)])
    (htri : l.isTriaged = true → l.current.isSome = true) :
    Correlated (db.setStatus i.id st) (Function.update book i.sourceIp l) := by
  obtain ⟨piece, pre, hcur, hpre, hrow, -⟩ := h.current_of_open hi hst
  have hpieces := hl piece hcur
  set new : Incident := { i with status := st }
  have hdb' : (db.setStatus i.id st).incidents =
      db.incidents.map fun j => if j = i then new else j := by
    refine List.map_congr_left fun j hj => ?_
    by_cases hid : j.id = i.id
    · obtain rfl := h.eq_of_id hj hi hid
      rw [if_pos rfl, if_pos rfl]
    · rw [if_neg hid, if_neg fun he => hid (by rw [he])]
  have hid : new.id = i.id := rfl
  have hsrc : new.sourceIp = i.sourceIp := rfl
  have hnew : RowOf (db.setStatus i.id st) new (piece, st) :=
    ⟨by show ({ i.toIncidentCols with status := st } : IncidentCols) = _
        rw [hrow.cols]
        rfl, hrow.linked⟩
  have hids : (db.setStatus i.id st).incidents.map (·.id) = db.incidents.map (·.id) := by
    rw [hdb', ids_replace hid]
  refine
    { keys_lt := fun j hj => ?_
      keys_nodup := by rw [hids]; exact h.keys_nodup
      owned := fun b hb => ?_
      rows := h.replace hcur hpre hrow hsrc hdb' (fun _ _ => rfl) hnew hpieces
      triaged := fun ip ht => ?_
      attacks := fun ip => ?_ }
  · obtain ⟨k, hk, hkj⟩ := List.mem_map.mp (hids ▸ List.mem_map_of_mem hj)
    rw [← hkj]
    exact h.keys_lt k hk
  · obtain ⟨j, hj, hjb, hip⟩ := h.owned b hb
    obtain ⟨k, hk, hkj, hks⟩ := exists_replace hid hsrc hj
    exact ⟨k, by rw [hdb']; exact hk, by rw [hkj, hjb], by rw [hks, hip]⟩
  · by_cases hip : ip = i.sourceIp
    · subst hip
      rw [Function.update_self] at ht ⊢
      exact htri ht
    · rw [Function.update_of_ne hip] at ht ⊢
      exact h.triaged ip ht
  · refine (h.attacks ip).trans ?_
    by_cases hip : ip = i.sourceIp
    · subst hip
      rw [Function.update_self, Ledger.attacks, Ledger.attacks, hpieces, Ledger.pieces, hcur]
      simp
    · rw [Function.update_of_ne hip]

/-- A row is found by its key. -/
theorem find?_key {α : Type} {key : α → Nat} {rows : List α} (hnodup : (rows.map key).Nodup) {x : α}
    (hx : x ∈ rows) : rows.find? (fun y => key y = key x) = some x := by
  have hsome : (rows.find? fun y => key y = key x).isSome = true :=
    List.find?_isSome.mpr ⟨x, hx, decide_eq_true rfl⟩
  obtain ⟨y, hy⟩ := Option.isSome_iff_exists.mp hsome
  have hkey : key y = key x := by simpa using List.find?_some hy
  rw [hy, List.inj_on_of_nodup_map hnodup (List.mem_of_find?_eq_some hy) hx hkey]

theorem Correlated.find_of_any (h : Correlated db book) {id : Nat} {q : Incident → Bool}
    (hany : (db.incidents.any fun i => i.id = id && q i) = true) :
    ∃ i ∈ db.incidents, i.id = id ∧ q i = true ∧ db.incidents.find? (·.id = id) = some i := by
  simp only [List.any_eq_true, Bool.and_eq_true, decide_eq_true_eq] at hany
  obtain ⟨i, hi, rfl, hq⟩ := hany
  exact ⟨i, hi, rfl, hq, find?_key h.keys_nodup hi⟩

theorem correlated_empty : Correlated {} fun _ => {} where
  keys_lt := by simp
  keys_nodup := by simp
  owned := by simp
  rows := fun _ => .nil
  triaged := by simp
  attacks := fun _ => rfl

theorem ledger_concat (log : Log) (ip : String) (e : Entry) :
    (log ++ [(ip, e)]).ledger = Function.update log.ledger ip ((log.ledger ip).apply e) := by
  funext ip'
  by_cases hip : ip' = ip
  · subst hip
    simp [Log.ledger, List.filter_append]
  · have hip' : ip ≠ ip' := fun h => hip h.symm
    simp [Log.ledger, List.filter_append, Function.update_of_ne hip, hip']

theorem process_of_toOption {capture : Capture}
    (h : (p.process engine db capture).toOption.map (·.1) = some db') :
    ∃ snap, p.process engine db capture = .ok (db', snap) := by
  obtain ⟨⟨db'', snap⟩, hproc, rfl⟩ := Option.map_eq_some_iff.mp h
  exact ⟨snap, Escapes.toOption_eq_some hproc⟩

/-- Every step appends the entry it is written down as to the history of one address. -/
theorem Correlated.after_step {e : Event} (h : Correlated db book) (hs : step p engine db e = some db') :
    ∃ ip en, entryOf db db' e = some (ip, en) ∧
      Correlated db' (Function.update book ip ((book ip).apply en)) := by
  cases e with
  | ingest capture =>
    obtain ⟨snap, hok⟩ := process_of_toOption hs
    obtain ⟨a, -, hlast, hcor⟩ := h.process hok
    obtain ⟨b, hb, rfl⟩ := Option.map_eq_some_iff.mp hlast
    exact ⟨_, _, by rw [entryOf, hb]; rfl, hcor⟩
  | triage id =>
    simp only [step, Option.ite_none_right_eq_some, Option.some.injEq] at hs
    obtain ⟨hany, rfl⟩ := hs
    obtain ⟨i, hi, rfl, hopen, hfind⟩ := h.find_of_any hany
    have hst : i.status ≠ .closed := by
      rw [of_decide_eq_true hopen]
      decide
    refine ⟨i.sourceIp, .triaged, by rw [entryOf, hfind]; rfl, ?_⟩
    refine h.setStatus hi hst (fun piece hcur => ?_) (fun ht => ht)
    simp [Ledger.pieces, Ledger.apply, Ledger.status, hcur]
  | close id =>
    simp only [step, Option.ite_none_right_eq_some, Option.some.injEq] at hs
    obtain ⟨hany, rfl⟩ := hs
    obtain ⟨i, hi, rfl, hopen, hfind⟩ := h.find_of_any hany
    refine ⟨i.sourceIp, .closed, by rw [entryOf, hfind]; rfl, ?_⟩
    refine h.setStatus hi (of_decide_eq_true hopen) (fun piece hcur => ?_) (by simp [Ledger.apply])
    simp [Ledger.pieces, Ledger.apply, hcur]

/-- A step that is written down keeps the database correlated with its log. -/
theorem correlated_step {s s' : Logged} {e : Event} (h : Correlated s.db s.log.ledger)
    (hs : loggedStep p engine s e = some s') : Correlated s'.db s'.log.ledger := by
  obtain ⟨db', hstep, rfl⟩ := Option.map_eq_some_iff.mp hs
  obtain ⟨ip, en, hentry, hcor⟩ := h.after_step hstep
  rw [hentry, Option.toList_some, ledger_concat]
  exact hcor

/-- Every run from the empty database ends in one that is correlated with what was done to it. -/
theorem correlated_run {es : List Event} {s : Logged}
    (hr : Runs.run (loggedStep p engine) {} es = some s) : Correlated s.db s.log.ledger :=
  Runs.run_invariant (I := fun s => Correlated s.db s.log.ledger) (fun _ _ _ => correlated_step)
    correlated_empty hr

/-- The title leaves an empty country out. -/
theorem buildTitle_eq (ip : String) (country : Option String) (attempts : Int) :
    buildTitle ip country attempts = "SSH activity from " ++ ip ++
      ((nonEmpty country).elim "" fun c => " (" ++ c ++ ")") ++ " — " ++ toString attempts ++ " attempts" := by
  have hloc : (if truthy country then " (" ++ country.getD "" ++ ")" else "") =
      (nonEmpty country).elim "" fun c => " (" ++ c ++ ")" := by
    by_cases h : truthy country = true
    · rw [if_pos h, Piece.nonEmpty_of_truthy h]
      cases country with
      | none => exact absurd h (by decide)
      | some c => rfl
    · rw [if_neg h, Piece.nonEmpty_of_not_truthy h]
      rfl
  unfold buildTitle
  dsimp only
  rw [hloc]

/-- A row of a correlated database sums up its piece. -/
theorem Correlated.summaryOf (h : Correlated db book) {i : Incident} (hi : i ∈ db.incidents)
    {piece : Piece × IncidentStatus} (hrow : RowOf db i piece) : SummaryOf db i piece := by
  obtain ⟨hcols, hlinked⟩ := hrow
  refine
    { status := by rw [hcols]; rfl
      sourceIp := fun a ha => ?_
      linked := hlinked
      attemptCount := by rw [hcols]; rfl
      maxRiskScore := by rw [hcols]; exact piece.1.max?_riskScore
      country := by rw [hcols]; exact piece.1.nonEmpty_shownCountry
      techniques := by rw [hcols]; exact parseJsonList_dumps _
      title := by rw [hcols]; exact congrArg some (buildTitle_eq _ _ _) }
  rw [← hlinked] at ha
  obtain ⟨b, hb, rfl⟩ := List.mem_map.mp ha
  obtain ⟨hbmem, hbid⟩ := List.mem_filter.mp hb
  obtain ⟨j, hj, hjb, hip⟩ := h.owned b hbmem
  have hid : j.id = i.id := by
    rw [hjb] at hbid
    simpa using hbid
  rw [← h.eq_of_id hj hi hid, hip]

theorem Correlated.open_length (h : Correlated db book) (ip : String) :
    ((db.incidentsOf ip).filter (·.status ≠ .closed)).length ≤ 1 := by
  obtain ⟨pre, hpre, hcur⟩ := h.rows_split ip
  have hfilter : pre.filter (·.status ≠ .closed) = [] := by
    rw [List.filter_eq_nil_iff]
    intro i hi
    simp [closed_of_past hpre i hi]
  rcases hcur with ⟨-, hl⟩ | ⟨piece, i, -, hl, -⟩
  · rw [hl, hfilter]
    exact Nat.zero_le 1
  · rw [hl, List.filter_append, hfilter, List.nil_append]
    exact List.length_filter_le _ [i]

/-- After every run from the empty database the incident table is the reference correlation of the
attack table: the attacks of an address, cut at its closings, form one incident a piece. -/
theorem incident_table_correlated {es : List Event} {s : Logged}
    (hr : Runs.run (loggedStep p engine) {} es = some s) :
    (∀ ip, List.Forall₂ (SummaryOf s.db) (s.db.incidentsOf ip) (s.log.ledger ip).pieces) ∧
      (∀ ip, (s.db.attacksOf ip).map Attack.toAttackCols = (s.log.ledger ip).attacks) ∧
      (∀ a ∈ s.db.attacks, ∃ i ∈ s.db.incidents,
        a.incidentId = some i.id ∧ i.sourceIp = a.sourceIp) ∧
      (s.db.incidents.map (·.id)).Nodup ∧
      ∀ ip, ((s.db.incidentsOf ip).filter (·.status ≠ .closed)).length ≤ 1 := by
  have h := correlated_run hr
  refine ⟨fun ip => ?_, h.attacks, h.owned, h.keys_nodup, h.open_length⟩
  refine forall₂_imp_of_mem (h.rows ip) fun i hi piece hrow => ?_
  exact h.summaryOf (mem_incidentsOf.mp hi).1 hrow

/-- Two sessions of one address, the second after the incident of the first was triaged and closed. -/
theorem incident_table_correlated_twoSessions :
    ∃ s, Runs.run (loggedStep .twoInstants .postgres) {}
        [.ingest (.guess "2026-01-01T00:00:10+00:00" "8.8.8.8"), .triage 1, .close 1,
          .ingest (.guess "2026-01-01T00:00:20+00:00" "8.8.8.8")] = some s ∧
      ∀ ip, List.Forall₂ (SummaryOf s.db) (s.db.incidentsOf ip) (s.log.ledger ip).pieces := by
  have hsome : (Runs.run (loggedStep .twoInstants .postgres) {}
      [.ingest (.guess "2026-01-01T00:00:10+00:00" "8.8.8.8"), .triage 1, .close 1,
        .ingest (.guess "2026-01-01T00:00:20+00:00" "8.8.8.8")]).isSome = true := by
    with_unfolding_all decide
  obtain ⟨s, hs⟩ := Option.isSome_iff_exists.mp hsome
  exact ⟨s, hs, (incident_table_correlated hs).1⟩

end Steps

end SentinelSsh.Core

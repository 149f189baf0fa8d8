import SentinelSsh.Backend.Proofs.ServiceProofs
import SentinelSsh.Backend.Proofs.StatsProofs

/-!
# The cards of the overview

The numbers on the dashboard come from separate queries on two tables. In every reachable database they
fit together: no address has two active incidents, none is without an attack, and the incidents counted
by score are those with such an attack (`overview_consistent`). What a `GROUP BY` query lists is the most
frequent values, whichever of several equally frequent ones the database prefers (`topColumn_exact`).
-/

namespace SentinelSsh.Backend

open SentinelSsh.Core Python

/-! ## Addresses -/

section Addresses

variable {db : Db} {book : String → Ledger}

/-- Every incident holds an attack of its address. -/
theorem exists_linked (h : Correlated db book) {i : Incident} (hi : i ∈ db.incidents) :
    ∃ a ∈ db.attacks, a.incidentId = some i.id ∧ a.sourceIp = i.sourceIp := by
  obtain ⟨hmem, -⟩ := List.max?_eq_some_iff.mp (max?_linked h hi)
  obtain ⟨a, ha, -⟩ := List.mem_map.mp hmem
  obtain ⟨hattack, hlink⟩ := List.mem_filter.mp ha
  have hid : a.incidentId = some i.id := of_decide_eq_true hlink
  obtain ⟨j, hj, hjid, hip⟩ := h.owned a hattack
  have hsame : j = i := h.eq_of_id hj hi (Option.some.inj (hjid.symm.trans hid))
  exact ⟨a, hattack, hid, hsame ▸ hip.symm⟩

theorem sourceIp_mem_addresses (h : Correlated db book) {i : Incident} (hi : i ∈ db.incidents) :
    i.sourceIp ∈ fromkeys (db.attacks.map (·.sourceIp)) := by
  obtain ⟨a, ha, -, hip⟩ := exists_linked h hi
  exact mem_fromkeys.mpr (hip ▸ List.mem_map_of_mem ha)

/-- The addresses of the incidents that are not closed are distinct. -/
theorem nodup_active (h : Correlated db book) :
    ((db.incidents.filter fun i => i.status ≠ .closed).map (·.sourceIp)).Nodup := by
  refine List.nodup_iff_count_le_one.mpr fun ip => ?_
  have hone := h.open_length ip
  rw [Db.incidentsOf, List.filter_filter] at hone
  rw [List.count_eq_countP, List.countP_map, List.countP_filter, List.countP_eq_length_filter]
  refine le_trans (le_of_eq (congrArg List.length (List.filter_congr fun i _ => ?_))) hone
  by_cases hip : i.sourceIp = ip
  · simp [hip]
  · simp [hip]

theorem active_le_addresses (h : Correlated db book) :
    countOpen db ≤ (fromkeys (db.attacks.map (·.sourceIp))).length := by
  have hsub : (db.incidents.filter fun i => i.status ≠ .closed).map (·.sourceIp) ⊆
      fromkeys (db.attacks.map (·.sourceIp)) := by
    intro ip hip
    obtain ⟨i, hi, rfl⟩ := List.mem_map.mp hip
    exact sourceIp_mem_addresses h (List.mem_filter.mp hi).1
  have hle := (nodup_active h).length_le_of_subset hsub
  rwa [List.length_map] at hle

theorem addresses_le_incidents (h : Correlated db book) :
    (fromkeys (db.attacks.map (·.sourceIp))).length ≤ db.incidents.length := by
  have hsub : fromkeys (db.attacks.map (·.sourceIp)) ⊆ db.incidents.map (·.sourceIp) := by
    intro ip hip
    obtain ⟨a, ha, rfl⟩ := List.mem_map.mp (mem_fromkeys.mp hip)
    obtain ⟨i, hi, -, hip⟩ := h.owned a ha
    exact hip ▸ List.mem_map_of_mem hi
  have hle := (nodup_fromkeys _).length_le_of_subset hsub
  rwa [List.length_map] at hle

theorem incidents_le_attacks (h : Correlated db book) : db.incidents.length ≤ db.attacks.length := by
  have hsub : db.incidents.map (·.id) ⊆ db.attacks.filterMap (·.incidentId) := by
    intro id hid
    obtain ⟨i, hi, rfl⟩ := List.mem_map.mp hid
    obtain ⟨a, ha, hlink, -⟩ := exists_linked h hi
    exact List.mem_filterMap.mpr ⟨a, ha, hlink⟩
  have hle := h.keys_nodup.length_le_of_subset hsub
  rw [List.length_map] at hle
  exact hle.trans (List.length_filterMap_le _ _)

/-! ## Scores -/

/-- An incident has reached a score exactly when one of its attacks has. -/
theorem le_maxRiskScore_iff (h : Correlated db book) {i : Incident} (hi : i ∈ db.incidents) (score : Int) :
    score ≤ i.maxRiskScore ↔ ∃ a ∈ db.linked i.id, score ≤ a.riskScore := by
  obtain ⟨hmem, hall⟩ := List.max?_eq_some_iff.mp (max?_linked h hi)
  constructor
  · intro hle
    obtain ⟨a, ha, heq⟩ := List.mem_map.mp hmem
    exact ⟨a, ha, heq ▸ hle⟩
  · rintro ⟨a, ha, hle⟩
    exact hle.trans (hall _ (List.mem_map_of_mem ha))

theorem countCritical_eq (h : Correlated db book) (threshold : Int) : countCritical db threshold =
    db.incidents.countP fun i => (db.linked i.id).any fun a => threshold ≤ a.riskScore := by
  rw [countCritical, ← List.countP_eq_length_filter]
  refine List.countP_congr fun i hi => ?_
  rw [decide_eq_true_eq, List.any_eq_true]
  refine (le_maxRiskScore_iff h hi threshold).trans (exists_congr fun a => and_congr_right fun _ => ?_)
  rw [decide_eq_true_eq]

theorem countHighRisk_eq (h : Correlated db book) (threshold : Int) : countHighRisk db threshold =
    db.incidents.countP fun i => (db.linked i.id).any fun a => threshold < a.riskScore := by
  rw [countHighRisk, highRisk, ← List.countP_eq_length_filter]
  refine List.countP_congr fun i hi => ?_
  rw [decide_eq_true_eq, List.any_eq_true]
  refine (le_maxRiskScore_iff h hi (threshold + 1)).trans (exists_congr fun a => and_congr_right fun _ => ?_)
  rw [decide_eq_true_eq, Int.lt_iff_add_one_le]

end Addresses

/-! ## Groups -/

/-- The most frequent values of a column in a window, counted by the attacks that have them. -/
theorem topColumn_exact {α : Type} [DecidableEq α] {arrange : List (α × Nat) → List (α × Nat)}
    (harrange : Counter.OrdersByCount arrange) (dialect : Dialect) (now : Int) (column : Attack → Option α)
    (limit : Nat) (hours : Option Int) (db : Db) :
    Counter.MostFrequent ((db.attacks.filter (dialect.inWindow (since now hours))).filterMap column)
      (fun v => (db.attacks.filter (dialect.inWindow (since now hours))).countP fun a => column a = some v)
      limit (topColumn arrange dialect now column limit hours db) := by
  obtain ⟨hperm, hsorted⟩ := harrange
    (Counter.ofList ((db.attacks.filter (dialect.inWindow (since now hours))).filterMap column))
  refine (Counter.mostFrequent_take hperm hsorted limit).congr fun v _ => ?_
  rw [List.count_eq_countP, List.countP_filterMap]
  refine List.countP_congr fun a _ => ?_
  cases column a with
  | none => simp
  | some w => simp

/-- The source of two of three sessions. -/
theorem topColumn_exact_threeAttacks :
    topColumn (fun groups => groups.mergeSort fun a b => b.2 ≤ a.2) .sqlite 1767225630000000
      (fun a => some a.sourceIp) 1 (some 24) .threeAttacks = [("8.8.8.8", 2)] := by
  have htop := topColumn_exact Counter.ordersByCount_mergeSort .sqlite 1767225630000000
    (fun a => some a.sourceIp) 1 (some 24) .threeAttacks
  have hsingle := htop.eq_singleton (x := "8.8.8.8") (by with_unfolding_all decide) (by decide +kernel)
  rw [hsingle]
  with_unfolding_all decide

/-! ## The overview -/

section Overview

variable {p : IngestPipeline} {engine : Engine} {db : Db}

/-- The country on the card is one no other country is ahead of, and it is missing only if no attack has
one. -/
theorem topCountry_exact {arrange : List (String × Nat) → List (String × Nat)}
    (harrange : Counter.OrdersByCount arrange) (dialect : Dialect) (now : Int) (db : Db) :
    ((attackOverview arrange dialect now db).topCountry = none ↔ ∀ a ∈ db.attacks, a.country = none) ∧
      ∀ c, (attackOverview arrange dialect now db).topCountry = some c →
        ∀ c', (db.attacks.countP fun a => a.country = some c') ≤ db.attacks.countP fun a => a.country = some c := by
  have hall : db.attacks.filter (dialect.inWindow (since now none)) = db.attacks :=
    List.filter_eq_self.mpr fun a _ => rfl
  have htop := topColumn_exact harrange dialect now (fun a => a.country) 1 none db
  rw [hall] at htop
  have hcard : (attackOverview arrange dialect now db).topCountry =
      (topColumn arrange dialect now (fun a => a.country) 1 none db).head?.map (·.1) := rfl
  rw [hcard]
  cases hlist : topColumn arrange dialect now (fun a => a.country) 1 none db with
  | nil =>
    rw [hlist] at htop
    have hempty : (db.attacks.filterMap fun a => a.country) = [] := by
      by_contra hne
      obtain ⟨c, hc⟩ := List.exists_mem_of_ne_nil _ hne
      have hpos : 0 < (db.attacks.filterMap fun a => a.country).dedup.length :=
        List.length_pos_of_mem (List.mem_dedup.mpr hc)
      have hlength := htop.length
      rw [List.length_nil] at hlength
      omega
    refine ⟨iff_of_true rfl fun a ha => ?_, fun c hc => nomatch hc⟩
    exact List.filterMap_eq_nil_iff.mp hempty a ha
  | cons e rest =>
    rw [hlist] at htop
    have hrest : rest = [] := by
      have hlength := htop.length
      rw [List.length_cons] at hlength
      exact List.length_eq_zero_iff.mp (by omega)
    subst hrest
    obtain ⟨hmem, hcount⟩ := htop.listed e (List.mem_singleton_self e)
    refine ⟨iff_of_false (by simp) fun hnone => ?_, fun c hc c' => ?_⟩
    · obtain ⟨a, ha, hac⟩ := List.mem_filterMap.mp hmem
      rw [hnone a ha] at hac
      cases hac
    · cases hc
      by_cases hin : c' ∈ db.attacks.filterMap fun a => a.country
      · by_cases hsame : c' = e.1
        · rw [hsame]
        · have hle := htop.omitted c' hin (by simpa using hsame) e (List.mem_singleton_self e)
          exact hle.trans hcount.le
      · have hzero : (db.attacks.countP fun a => a.country = some c') = 0 := by
          refine List.countP_eq_zero.mpr fun a ha hac => hin ?_
          exact List.mem_filterMap.mpr ⟨a, ha, of_decide_eq_true hac⟩
        rw [hzero]
        exact Nat.zero_le _

/-- In every reachable database the cards of the overview fit together. -/
theorem overview_consistent {es : List Event} (hr : Runs.run (step p engine) {} es = some db)
    {arrange : List (String × Nat) → List (String × Nat)} (harrange : Counter.OrdersByCount arrange)
    (dialect : Dialect) (now : Int) :
    (overview db).activeIncidents ≤ (attackOverview arrange dialect now db).uniqueIps ∧
      (attackOverview arrange dialect now db).uniqueIps ≤ (overview db).totalIncidents ∧
      (overview db).totalIncidents ≤ (attackOverview arrange dialect now db).totalAttacks ∧
      ((∀ i ∈ db.incidents, i.status ≠ .closed) →
        (overview db).activeIncidents = (overview db).totalIncidents ∧
          (overview db).totalIncidents = (attackOverview arrange dialect now db).uniqueIps) ∧
      (overview db).criticalIncidents =
        (db.incidents.countP fun i => (db.linked i.id).any fun a => 90 ≤ a.riskScore) ∧
      (overview db).highRiskIncidents =
        (db.incidents.countP fun i => (db.linked i.id).any fun a => 70 < a.riskScore) ∧
      ((attackOverview arrange dialect now db).topCountry = none ↔ ∀ a ∈ db.attacks, a.country = none) ∧
      ∀ c, (attackOverview arrange dialect now db).topCountry = some c →
        ∀ c', (db.attacks.countP fun a => a.country = some c') ≤ db.attacks.countP fun a => a.country = some c := by
  obtain ⟨-, book, h⟩ := drafted_correlated_run hr
  have hactive := active_le_addresses h
  have haddresses := addresses_le_incidents h
  refine ⟨hactive, haddresses, incidents_le_attacks h, fun hopen => ?_, countCritical_eq h 90,
    countHighRisk_eq h 70, topCountry_exact harrange dialect now db⟩
  have hall : countOpen db = db.incidents.length :=
    congrArg List.length (List.filter_eq_self.mpr fun i hi => decide_eq_true (hopen i hi))
  refine ⟨hall, le_antisymm ?_ haddresses⟩
  show db.incidents.length ≤ _
  rw [← hall]
  exact hactive

/-- Three sessions of two sources, and two open incidents. -/
theorem overview_consistent_threeAttacks :
    (overview .threeAttacks).activeIncidents = (overview .threeAttacks).totalIncidents ∧
      (overview .threeAttacks).totalIncidents =
        (attackOverview (fun groups => groups.mergeSort fun a b => b.2 ≤ a.2) .sqlite 1767225630000000
          .threeAttacks).uniqueIps :=
  (overview_consistent run_threeAttacks Counter.ordersByCount_mergeSort .sqlite 1767225630000000).2.2.2.1
    (by decide)

end Overview

end SentinelSsh.Backend

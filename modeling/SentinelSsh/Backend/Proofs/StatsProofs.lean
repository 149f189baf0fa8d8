import Mathlib.Data.List.Range
import SentinelSsh.Backend.Stats
import SentinelSsh.Core.Proofs.DetectionProofs
import SentinelSsh.Lib.Proofs.CounterProofs

/-!
# What the aggregates count

The hour slots of a chart are consecutive, and an attack is counted in a slot exactly when its instant
lies in that hour, because truncation to the hour and the subtraction of hours meet on the same values.
So the chart and the count of the window differ by the attacks between the cut-off of the query and the
first slot.
-/

namespace SentinelSsh.Backend

open SentinelSsh.Core Python

/-! ## Hours -/

section Hours

variable {dialect : Dialect} {now hours : Int} {db : Db}

theorem startOfHour_utc (instant : Int) :
    (Datetime.utc instant).startOfHour = .utc (instant / 3600000000 * 3600000000) :=
  rfl

theorem instant_utc (instant : Int) : (Datetime.utc instant).instant = instant :=
  Int.sub_zero instant

theorem mem_hourSlots {slot : Datetime} : slot ∈ hourSlots now hours ↔
    ∃ i : Nat, i < hours.toNat ∧ slot = .utc (now / 3600000000 * 3600000000 - i * 3600000000) := by
  unfold hourSlots
  rw [List.mem_map]
  constructor
  · rintro ⟨i, hi, rfl⟩
    exact ⟨i, List.mem_range.mp (List.mem_reverse.mp hi), rfl⟩
  · rintro ⟨i, hi, rfl⟩
    exact ⟨i, List.mem_reverse.mpr (List.mem_range.mpr hi), rfl⟩

/-- The slots of a chart are the hours up to the current one. -/
theorem hoursUntil_hourSlots (hpos : 1 ≤ hours) :
    HoursUntil now hours.toNat (hourSlots now hours) := by
  have hincreasing : (hourSlots now hours).Pairwise fun s t => s.instant < t.instant := by
    rw [hourSlots, List.pairwise_map, List.pairwise_reverse]
    refine List.pairwise_lt_range.imp fun {i j} hij => ?_
    rw [startOfHour_utc]
    dsimp only [Datetime.minusHours, Datetime.utc, Datetime.instant, Option.getD_some]
    omega
  refine ⟨?_, ?_, ?_, hincreasing, ?_⟩
  · rw [hourSlots, List.length_map, List.length_reverse, List.length_range]
  · intro slot hslot
    obtain ⟨i, -, rfl⟩ := mem_hourSlots.mp hslot
    rw [instant_utc]
    exact ⟨rfl, by omega⟩
  · rw [hourSlots, List.isChain_map, List.isChain_reverse, List.isChain_range]
    intro i _
    rw [startOfHour_utc]
    dsimp only [Datetime.minusHours, Datetime.utc, Datetime.instant, Option.getD_some]
    push_cast
    omega
  · refine ⟨.utc (now / 3600000000 * 3600000000), ?_, ?_, ?_⟩
    · have hne : hours.toNat ≠ 0 := by omega
      rw [hourSlots, List.getLast?_map, List.getLast?_reverse, List.head?_range, if_neg hne, startOfHour_utc]
      simp [Datetime.minusHours, Datetime.utc]
    · rw [instant_utc]
      omega
    · rw [instant_utc]
      omega

/-- Counting a list of slots adds to every entry how often its slot occurs. -/
theorem foldl_countSlot (slots : List Datetime) (index : List (Datetime × Nat)) :
    slots.foldl countSlot index = index.map fun (key, n) => (key, n + slots.count key) := by
  induction slots generalizing index with
  | nil => simp
  | cons slot slots ih =>
    rw [List.foldl_cons, ih, countSlot, List.map_map]
    refine List.map_congr_left fun ⟨key, n⟩ _ => ?_
    dsimp only [Function.comp_apply]
    rw [List.count_cons]
    by_cases hkey : key = slot
    · rw [if_pos hkey, hkey, beq_self_eq_true, if_pos rfl]
      dsimp only
      rw [Nat.add_assoc, Nat.add_comm 1]
    · have hne : (slot == key) = false := beq_false_of_ne fun he => hkey he.symm
      rw [if_neg hkey, hne, if_neg Bool.false_ne_true]
      rfl

/-- The hour of a row is that of a slot exactly if its instant lies in the slot. -/
theorem startOfHour_eq_iff (d : Datetime) (k : Int) :
    d.toUtc.startOfHour = .utc (k * 3600000000) ↔
      k * 3600000000 ≤ d.instant ∧ d.instant < k * 3600000000 + 3600000000 := by
  rw [Datetime.toUtc, startOfHour_utc, Datetime.utc, Datetime.utc, Datetime.mk.injEq]
  constructor
  · rintro ⟨h, -⟩
    omega
  · intro h
    exact ⟨by omega, rfl⟩

/-- The cut-off of the query removes no attack of a slot. -/
theorem count_startOfHour {slot : Datetime} (hslot : slot ∈ hourSlots now hours) :
    ((timestampsSince dialect now hours db).map fun ts => ts.toUtc.startOfHour).count slot =
      attacksIn dialect slot db := by
  obtain ⟨i, hi, rfl⟩ := mem_hourSlots.mp hslot
  rw [timestampsSince, List.map_map, List.count, List.countP_map, List.countP_filter, attacksIn]
  refine List.countP_congr fun a _ => ?_
  have heq : now / 3600000000 * 3600000000 - (i : Int) * 3600000000 =
      (now / 3600000000 - i) * 3600000000 := by
    omega
  have hiff := startOfHour_eq_iff (dialect.load a.timestamp) (now / 3600000000 - i)
  rw [instant_utc, heq]
  simp only [Function.comp_apply, beq_iff_eq, Bool.and_eq_true, decide_eq_true_eq, hiff]
  rw [Dialect.instant]
  omega

/-- The chart with the counts its entries end with. -/
theorem attacksPerHour_eq (dialect : Dialect) (now hours : Int) (db : Db) :
    attacksPerHour dialect now hours db = (hourSlots now (max 1 (min hours 168))).map fun slot =>
      ⟨hourLabel slot, slot.isoformat, attacksIn dialect slot db⟩ := by
  have hfold : ∀ (tss : List Datetime) (index : List (Datetime × Nat)),
      tss.foldl (fun index ts => countSlot index ts.toUtc.startOfHour) index =
        (tss.map fun ts => ts.toUtc.startOfHour).foldl countSlot index := by
    intro tss index
    rw [List.foldl_map]
  unfold attacksPerHour
  dsimp only
  rw [hfold, foldl_countSlot, List.map_map, List.map_map]
  refine List.map_congr_left fun slot hslot => ?_
  dsimp only [Function.comp_apply]
  rw [count_startOfHour hslot, Nat.zero_add]

/-- The chart has one bucket for each of the requested hours, between 1 and 168, up to the current one,
and each bucket counts the attacks of its hour. -/
theorem attacksPerHour_exact (dialect : Dialect) (now hours : Int) (db : Db) :
    ∃ slots : List Datetime, HoursUntil now (max 1 (min hours 168)).toNat slots ∧
      attacksPerHour dialect now hours db = slots.map fun slot =>
        ⟨hourLabel slot, slot.isoformat, attacksIn dialect slot db⟩ :=
  ⟨_, hoursUntil_hourSlots (by omega), attacksPerHour_eq dialect now hours db⟩

/-- The slot of an attack is one of the chart exactly if its instant is not before the first one and not
after the current hour. -/
theorem startOfHour_mem_hourSlots (d : Datetime) : d.toUtc.startOfHour ∈ hourSlots now hours ↔
    (now / 3600000000 - hours + 1) * 3600000000 ≤ d.instant ∧
      d.instant < (now / 3600000000 + 1) * 3600000000 := by
  rw [mem_hourSlots]
  constructor
  · rintro ⟨i, hi, heq⟩
    have hslot : now / 3600000000 * 3600000000 - (i : Int) * 3600000000 =
        (now / 3600000000 - i) * 3600000000 := by
      omega
    rw [hslot, startOfHour_eq_iff] at heq
    omega
  · intro hd
    refine ⟨(now / 3600000000 - d.instant / 3600000000).toNat, by omega, ?_⟩
    rw [Datetime.toUtc, startOfHour_utc]
    congr 1
    omega

theorem nodup_hourSlots (hpos : 1 ≤ hours) : (hourSlots now hours).Nodup :=
  (hoursUntil_hourSlots hpos).increasing.imp fun hlt heq => by rw [heq] at hlt; exact lt_irrefl _ hlt

/-- The counts of all slots together are the attacks whose hour is one of the slots. -/
theorem sum_attacksIn (hpos : 1 ≤ hours) :
    ((hourSlots now hours).map fun slot => attacksIn dialect slot db).sum =
      db.attacks.countP fun a => (dialect.load a.timestamp).toUtc.startOfHour ∈ hourSlots now hours := by
  have hclass : (hourSlots now hours).map (fun slot => attacksIn dialect slot db) =
      (hourSlots now hours).map fun slot =>
        db.attacks.countP fun a => slot == (dialect.load a.timestamp).toUtc.startOfHour := by
    refine List.map_congr_left fun slot hslot => ?_
    obtain ⟨k, hk⟩ : ∃ k : Int, slot = .utc (k * 3600000000) := by
      obtain ⟨i, -, rfl⟩ := mem_hourSlots.mp hslot
      exact ⟨now / 3600000000 - i, by congr 1; omega⟩
    refine List.countP_congr fun a _ => ?_
    have hiff := startOfHour_eq_iff (dialect.load a.timestamp) k
    rw [hk, instant_utc, beq_iff_eq, Bool.and_eq_true, decide_eq_true_eq, decide_eq_true_eq]
    exact (eq_comm.trans hiff).symm
  rw [hclass, Counter.sum_countP]
  have hone : ∀ a : Attack, ((hourSlots now hours).countP fun slot =>
      slot == (dialect.load a.timestamp).toUtc.startOfHour) =
        if (dialect.load a.timestamp).toUtc.startOfHour ∈ hourSlots now hours then 1 else 0 :=
    fun a => (nodup_hourSlots hpos).count
  simp only [hone]
  induction db.attacks with
  | nil => rfl
  | cons a rows ih =>
    rw [List.map_cons, List.sum_cons, ih, List.countP_cons, Nat.add_comm]
    simp only [decide_eq_true_eq]

/-- The chart of a window without future attacks shows all its attacks if and only if none of them is
older than the first slot; the count of the last day is that of the window of 24 hours. -/
theorem attacksPerHour_total_iff (dialect : Dialect) (now hours : Int) (db : Db) (hmin : 1 ≤ hours)
    (hmax : hours ≤ 168) (hpast : ∀ a ∈ db.attacks, dialect.instant a ≤ now) :
    (((attacksPerHour dialect now hours db).map (·.count)).sum = countSince dialect now hours db ↔
      ∀ a ∈ db.attacks, ¬ BeforeFirstSlot dialect now hours a) ∧
      ∀ arrange, hours = 24 →
        (attackOverview arrange dialect now db).last24h = countSince dialect now hours db := by
  refine ⟨?_, fun arrange h24 => by rw [h24]; rfl⟩
  have hclamp : max 1 (min hours 168) = hours := by omega
  have hsum : ((attacksPerHour dialect now hours db).map (·.count)).sum =
      db.attacks.countP fun a => (dialect.load a.timestamp).toUtc.startOfHour ∈ hourSlots now hours := by
    rw [attacksPerHour_eq, hclamp, List.map_map, ← sum_attacksIn hmin]
    rfl
  have hfirst : ((Datetime.utc now).startOfHour.minusHours (hours - 1)).instant =
      (now / 3600000000 - hours + 1) * 3600000000 := by
    rw [startOfHour_utc]
    dsimp only [Datetime.minusHours, Datetime.utc, Datetime.instant, Option.getD_some]
    omega
  rw [hsum, countSince, Counter.countP_eq_iff]
  · refine forall₂_congr fun a ha => ?_
    have hnow := hpast a ha
    rw [decide_eq_true_eq, decide_eq_true_eq, startOfHour_mem_hourSlots, BeforeFirstSlot, hfirst]
    unfold Dialect.instant at hnow ⊢
    omega
  · intro a _ hslot
    rw [decide_eq_true_eq, startOfHour_mem_hourSlots] at hslot
    rw [decide_eq_true_eq, Dialect.instant]
    omega

/-- A chart drawn ten seconds after the attack. -/
theorem attacksPerHour_total_recent :
    ((attacksPerHour .sqlite 1767225620000000 24 .oneAttack).map (·.count)).sum =
      countSince .sqlite 1767225620000000 24 .oneAttack := by
  refine (attacksPerHour_total_iff .sqlite 1767225620000000 24 .oneAttack ?_ ?_ ?_).1.mpr ?_
  · decide
  · decide
  · with_unfolding_all decide
  · with_unfolding_all decide

/-- A chart drawn five seconds before the attack is a day old: the window has it, the chart does not. -/
theorem attacksPerHour_loses_attack :
    (Db.oneAttack.attacks.all fun a => Dialect.sqlite.instant a ≤ 1767312005000000) = true ∧
      ((attacksPerHour .sqlite 1767312005000000 24 .oneAttack).map (·.count)).sum = 0 ∧
      countSince .sqlite 1767312005000000 24 .oneAttack = 1 := by
  refine ⟨?_, ?_, ?_⟩
  all_goals with_unfolding_all decide

end Hours

section Reached

variable {p : IngestPipeline} {engine : Engine} {es : List Event} {db : Db}

/-! ## Distributions -/

/-- The buckets cover the scores from 0 to 100 without overlapping. -/
theorem countP_buckets {score : Int} (h : 0 ≤ score ∧ score ≤ 100) :
    (buckets.countP fun bucket => inBucket bucket score) = 1 := by
  have hall : ∀ n : Nat, n < 101 → (buckets.countP fun bucket => inBucket bucket n) = 1 := by decide
  obtain ⟨n, rfl⟩ := Int.eq_ofNat_of_zero_le h.1
  exact hall n (by omega)

theorem countP_reportedLevels (level : RiskLevel) : (reportedLevels.countP fun l => level.text == l) = 1 := by
  cases level <;> decide

/-- In every reachable database the levels and the buckets of the distribution each have all attacks:
every level that is stored is reported, and every score falls in one bucket. -/
theorem riskDistribution_total (hr : Runs.run (step p engine) {} es = some db) :
    ((riskDistribution db).byLevel.map (·.count)).sum = db.attacks.length ∧
      ((riskDistribution db).byBucket.map (·.count)).sum = db.attacks.length ∧
      ∀ a ∈ db.attacks, (buckets.countP fun bucket => inBucket bucket a.riskScore) = 1 ∧
        a.riskLevel.text ∈ reportedLevels := by
  obtain ⟨hdrafted, -⟩ := drafted_correlated_run hr
  have hbucket : ∀ a ∈ db.attacks, (buckets.countP fun bucket => inBucket bucket a.riskScore) = 1 :=
    fun a ha => countP_buckets (hdrafted.riskScore_bounds ha)
  refine ⟨?_, ?_, fun a ha => ⟨hbucket a ha, ?_⟩⟩
  · have hcounts : (riskDistribution db).byLevel.map (·.count) =
        reportedLevels.map fun l => db.attacks.countP fun a => a.riskLevel.text == l := by
      unfold riskDistribution riskLevelCounts
      rw [List.map_map]
      refine List.map_congr_left fun l _ => ?_
      dsimp only [Function.comp_apply]
      rw [Counter.lookup_ofList, List.count, List.countP_map]
      rfl
    rw [hcounts]
    exact Counter.sum_countP_of_partition fun a _ => countP_reportedLevels a.riskLevel
  · have hcounts : (riskDistribution db).byBucket.map (·.count) =
        buckets.map fun bucket => db.attacks.countP fun a => inBucket bucket a.riskScore := by
      unfold riskDistribution
      rw [List.map_map]
      refine List.map_congr_left fun bucket _ => ?_
      dsimp only [Function.comp_apply]
      rw [List.countP_map]
      rfl
    rw [hcounts]
    exact Counter.sum_countP_of_partition hbucket
  · cases a.riskLevel <;> decide

/-- The distribution of three attacks of two levels. -/
theorem riskDistribution_total_threeAttacks :
    ((riskDistribution .threeAttacks).byLevel.map (·.count)).sum = 3 ∧
      ((riskDistribution .threeAttacks).byBucket.map (·.count)).sum = 3 := by
  obtain ⟨hlevels, hbuckets, -⟩ := riskDistribution_total run_threeAttacks
  rw [hlevels, hbuckets]
  exact ⟨rfl, rfl⟩

/-! ## The most frequent techniques and behaviours -/

theorem flatMap_fetchJsonColumn (dialect : Dialect) (now : Int) (column : Attack → Option String)
    (hours : Option Int) (db : Db) :
    ((fetchJsonColumn dialect now column hours db).flatMap fun blob => parseJsonList (some blob)) =
      (db.attacks.filter (dialect.inWindow (since now hours))).flatMap fun a => parseJsonList (column a) := by
  unfold fetchJsonColumn
  induction db.attacks.filter (dialect.inWindow (since now hours)) with
  | nil => rfl
  | cons a rows ih =>
    rw [List.flatMap_cons, ← ih]
    cases hcolumn : column a with
    | none => rw [List.filterMap_cons_none hcolumn]; rfl
    | some blob =>
      rw [List.filterMap_cons_some hcolumn]
      by_cases hempty : blob = ""
      · rw [List.filter_cons_of_neg (by simpa using hempty), hempty]
        rfl
      · rw [List.filter_cons_of_pos (by simpa using hempty), List.flatMap_cons]

/-- The most common entries of a column whose lists have no repeated entries, each counted by the rows
that have it. -/
theorem mostFrequent_column (dialect : Dialect) (now : Int) (column : Attack → Option String)
    (hours : Option Int) (limit : Nat) (hnodup : ∀ a ∈ db.attacks, (parseJsonList (column a)).Nodup) :
    let rows := db.attacks.filter (dialect.inWindow (since now hours))
    let raw := fetchJsonColumn dialect now column hours db
    Counter.MostFrequent (rows.flatMap fun a => parseJsonList (column a))
      (fun entry => rows.countP fun a => entry ∈ parseJsonList (column a)) limit
      (Counter.mostCommon (Counter.ofList (raw.flatMap fun blob => parseJsonList (some blob))) limit) := by
  dsimp only
  rw [flatMap_fetchJsonColumn]
  refine (Counter.mostFrequent_mostCommon _ limit).congr fun entry _ => ?_
  exact Counter.count_flatMap (fun a ha => hnodup a (List.mem_of_mem_filter ha)) entry

/-- In every reachable database the top techniques and behaviours of a window are the most frequent ones,
counted by the attacks of the window that have them among the lists stored when their sessions were
ingested. -/
theorem top_exact (hr : Runs.run (step p engine) {} es = some db) (dialect : Dialect) (now : Int)
    (limit : Nat) (hours : Option Int) : ∃ found : Attack → BehaviorResult,
      (∀ a ∈ db.attacks, DetectedIn p a (found a)) ∧
      Counter.MostFrequent
        ((db.attacks.filter (dialect.inWindow (since now hours))).flatMap fun a => (found a).techniques)
        (fun tid => (db.attacks.filter (dialect.inWindow (since now hours))).countP fun a =>
          tid ∈ (found a).techniques) limit
        ((topMitre dialect now limit hours db).map fun e => (e.id, e.count)) ∧
      Counter.MostFrequent
        ((db.attacks.filter (dialect.inWindow (since now hours))).flatMap fun a => (found a).behaviors)
        (fun tag => (db.attacks.filter (dialect.inWindow (since now hours))).countP fun a =>
          tag ∈ (found a).behaviors) limit
        ((topBehaviors dialect now limit hours db).map fun e => (e.value, e.count)) := by
  obtain ⟨hdrafted, -⟩ := drafted_correlated_run hr
  -- the lists that are read are those that were written
  have hdetected : ∀ a ∈ db.attacks,
      DetectedIn p a ⟨parseJsonList a.behaviors, parseJsonList a.mitreTechniques⟩ := fun a ha => by
    obtain ⟨found, hfound⟩ := hdrafted.exists_detectedIn ha
    obtain ⟨htechniques, hbehaviors⟩ := hfound.parseJsonList
    rwa [htechniques, hbehaviors]
  have hmitre := mostFrequent_column dialect now (fun a => a.mitreTechniques) hours limit
    fun a ha => (hdrafted.nodup_lists ha).2
  have hbehaviors := mostFrequent_column dialect now (fun a => a.behaviors) hours limit
    fun a ha => (hdrafted.nodup_lists ha).1
  dsimp only at hmitre hbehaviors
  refine ⟨fun a => ⟨parseJsonList a.behaviors, parseJsonList a.mitreTechniques⟩, hdetected, ?_, ?_⟩
  · rw [topMitre, List.map_map]
    exact (List.map_id _).symm ▸ hmitre
  · rw [topBehaviors, List.map_map]
    exact (List.map_id _).symm ▸ hbehaviors

/-- The technique of all three sessions is ahead of the five that one of them has. -/
theorem top_exact_threeAttacks : ((topMitre .sqlite 1767225630000000 1 (some 24) .threeAttacks).map
    fun e => (e.id, e.count)) = [("T1078", 3)] := by
  obtain ⟨found, hfound, htop, -⟩ := top_exact run_threeAttacks .sqlite 1767225630000000 1 (some 24)
  have hlists : ∀ a ∈ Db.threeAttacks.attacks.filter (Dialect.sqlite.inWindow (since 1767225630000000 (some 24))),
      (found a).techniques = parseJsonList a.mitreTechniques := fun a ha =>
    (hfound a (List.mem_of_mem_filter ha)).parseJsonList.1.symm
  rw [List.flatMap_congr hlists] at htop
  replace htop := htop.congr fun tid _ => List.countP_congr fun a ha => by rw [hlists a ha]
  have hsingle := htop.eq_singleton (x := "T1078") (by with_unfolding_all decide) (by decide +kernel)
  rw [hsingle]
  with_unfolding_all decide

end Reached

end SentinelSsh.Backend

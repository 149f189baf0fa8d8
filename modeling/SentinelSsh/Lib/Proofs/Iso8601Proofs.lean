import Mathlib.Algebra.Group.Nat.Defs
import SentinelSsh.Lib.Iso8601

/-!
# Timestamps can be read back

`readIso` inverts both printers (`readIso_isoformat`, `readIso_jsonFormat`). The calendar is the hard
part: `civil` finds the year of a day with a division that corrects for leap days, and
`yearOfEra_eq` says that it finds the right one.
-/

namespace Python

/-! ## The calendar -/

/-- A day of an era is a century, a group of four years, a year and a day of this year. -/
theorem exists_yearOfEra {doe : Nat} (h : doe < 146097) :
    ∃ c b a d, doe = 36524 * c + 1461 * b + 365 * a + d ∧ c ≤ 3 ∧ b ≤ 24 ∧ a ≤ 3 ∧ d ≤ 365 ∧
      (d = 365 → a = 3 ∧ (b = 24 → c = 3)) := by
  obtain ⟨c, hc⟩ : ∃ c, c = min 3 (doe / 36524) := ⟨_, rfl⟩
  obtain ⟨b, hb⟩ : ∃ b, b = min 24 ((doe - 36524 * c) / 1461) := ⟨_, rfl⟩
  obtain ⟨a, ha⟩ : ∃ a, a = min 3 ((doe - 36524 * c - 1461 * b) / 365) := ⟨_, rfl⟩
  have hdoe : 36524 * c ≤ doe ∧ (c < 3 → doe - 36524 * c < 36524) := by omega
  have hcentury : 1461 * b ≤ doe - 36524 * c ∧ doe - 36524 * c - 1461 * b < 1461 := by omega
  exact ⟨c, b, a, doe - 36524 * c - 1461 * b - 365 * a, by omega, by omega, by omega, by omega, by omega,
    by omega⟩

theorem yearOfEra_eq {c b a d : Nat} (hc : c ≤ 3) (hb : b ≤ 24) (ha : a ≤ 3) (hd : d ≤ 365)
    (hleap : d = 365 → a = 3 ∧ (b = 24 → c = 3)) {doe : Nat}
    (hdoe : doe = 36524 * c + 1461 * b + 365 * a + d) :
    (doe - doe / 1460 + doe / 36524 - doe / 146096) / 365 = 100 * c + 4 * b + a := by
  obtain ⟨e, he⟩ : ∃ e, e = (24 * c + b + 365 * a + d) / 1460 := ⟨_, rfl⟩
  have hquad : doe / 1460 = 25 * c + b + e := by omega
  -- The last day of an era is the only one that the divisions by 36524 and 146096 correct twice.
  by_cases hlast : doe = 146096
  · omega
  · have hcent : doe / 36524 = c := by omega
    have hera : doe / 146096 = 0 := by omega
    have hday : e ≤ d ∧ d - e ≤ 364 := by omega
    rw [hquad, hcent, hera]
    omega

/-- The year of an era and the day of this year, from the day of the era. -/
theorem exists_yoe_doy {doe : Nat} (h : doe < 146097) : ∃ yoe doy,
    (doe - doe / 1460 + doe / 36524 - doe / 146096) / 365 = yoe ∧
      doe - (365 * yoe + yoe / 4 - yoe / 100) = doy ∧ 365 * yoe + yoe / 4 - yoe / 100 + doy = doe ∧
      yoe ≤ 399 ∧ doy ≤ 365 := by
  obtain ⟨c, b, a, d, hsum, hc, hb, ha, hd, hleap⟩ := exists_yearOfEra h
  have hfour : (100 * c + 4 * b + a) / 4 = 25 * c + b := by omega
  have hcent : (100 * c + 4 * b + a) / 100 = c := by omega
  refine ⟨_, d, yearOfEra_eq hc hb ha hd hleap hsum, ?_, ?_, by omega, hd⟩
  · rw [hfour, hcent]
    omega
  · rw [hfour, hcent]
    omega

/-- The era, the year of the era and the day of the year that `civil` finds. -/
theorem exists_civil (day : Int) : ∃ (era : Int) (yoe doy : Nat), yoe ≤ 399 ∧ doy ≤ 365 ∧
    day = era * 146097 + (365 * yoe + yoe / 4 - yoe / 100 + doy : Nat) - 719468 ∧
    civil day = (yoe + era * 400 + (if (5 * doy + 2) / 153 < 10 then 0 else 1),
      if (5 * doy + 2) / 153 < 10 then (5 * doy + 2) / 153 + 3 else (5 * doy + 2) / 153 - 9,
      doy - (153 * ((5 * doy + 2) / 153) + 2) / 5 + 1) := by
  have hmod := Int.emod_nonneg (day + 719468) (show (146097 : Int) ≠ 0 by decide)
  have hlt := Int.emod_lt_of_pos (day + 719468) (show (0 : Int) < 146097 by decide)
  have hday := Int.mul_ediv_add_emod (day + 719468) 146097
  obtain ⟨doe, hdoe⟩ := Int.eq_ofNat_of_zero_le hmod
  have hdoe' : doe < 146097 := by omega
  obtain ⟨yoe, doy, hyear, hdoy, hsum, hyoe, hle⟩ := exists_yoe_doy hdoe'
  refine ⟨(day + 719468) / 146097, yoe, doy, hyoe, hle, ?_, ?_⟩
  · rw [hsum]
    omega
  · have hmonth : (if (5 * doy + 2) / 153 < 10 then (5 * doy + 2) / 153 + 3 else (5 * doy + 2) / 153 - 9) ≤ 2
        ↔ ¬ (5 * doy + 2) / 153 < 10 := by
      split <;> omega
    simp only [civil, hdoe, Int.toNat_natCast, hyear, hdoy, hmonth, ite_not]

theorem civil_month_day (day : Int) :
    1 ≤ (civil day).2.1 ∧ (civil day).2.1 ≤ 12 ∧ 1 ≤ (civil day).2.2 ∧ (civil day).2.2 ≤ 31 := by
  obtain ⟨era, yoe, doy, hyoe, hdoy, hday, hcivil⟩ := exists_civil day
  rw [hcivil]
  dsimp only
  split <;> omega

theorem fromCivil_civil (day : Int) :
    fromCivil (civil day).1 (civil day).2.1 (civil day).2.2 = day := by
  obtain ⟨era, yoe, doy, hyoe, hdoy, hday, hcivil⟩ := exists_civil day
  rw [hcivil]
  simp only [fromCivil]
  by_cases hmp : (5 * doy + 2) / 153 < 10
  · have hmonth : ¬ (5 * doy + 2) / 153 + 3 ≤ 2 := by omega
    have hera : ((yoe : Int) + era * 400 + 0) / 400 = era := by omega
    have hyear : (((yoe : Int) + era * 400 + 0) % 400).toNat = yoe := by omega
    simp only [if_pos hmp, if_neg hmonth, hera, hyear]
    omega
  · have hmonth : (5 * doy + 2) / 153 - 9 ≤ 2 := by omega
    have hera : ((yoe : Int) + era * 400 + 1 - 1) / 400 = era := by omega
    have hyear : (((yoe : Int) + era * 400 + 1 - 1) % 400).toNat = yoe := by omega
    simp only [if_neg hmp, if_pos hmonth, hera, hyear]
    omega

/-! ## Numbers -/

theorem readNat_append {width : Nat} {digits : List Char} (hlength : digits.length = width)
    (hdigits : digits.all Char.isDigit = true) (cs : List Char) :
    readNat width (digits ++ cs) = some (Nat.ofDigitChars 10 digits 0, cs) := by
  subst hlength
  simpa [readNat] using hdigits

theorem readNat_pad {width n : Nat} (hwidth : 0 < width) (hn : n < 10 ^ width) (cs : List Char) :
    readNat width ((pad width n).toList ++ cs) = some (n, cs) := by
  have hlength : (Nat.toDigits 10 n).length ≤ width :=
    (Nat.length_toDigits_le_iff (by decide) hwidth).mpr hn
  have hpad : (pad width n).toList =
      List.replicate (width - (Nat.toDigits 10 n).length) '0' ++ Nat.toDigits 10 n := by
    rw [pad, Nat.toString_eq_ofList_toDigits, String.toList_append, String.toList_ofList,
      String.toList_ofList, String.length_ofList]
  have hdigits : (List.replicate (width - (Nat.toDigits 10 n).length) '0' ++ Nat.toDigits 10 n).all
      Char.isDigit = true := by
    rw [List.all_append, Bool.and_eq_true, List.all_eq_true, List.all_eq_true]
    refine ⟨fun c hc => ?_, fun c hc => Nat.isDigit_of_mem_toDigits (by decide) (by decide) hc⟩
    rw [List.eq_of_mem_replicate hc]
    rfl
  rw [hpad, readNat_append _ hdigits, Nat.ofDigitChars_append, Nat.ofDigitChars_replicate_zero,
    Nat.mul_zero, Nat.ofDigitChars_ten_toDigits]
  rw [List.length_append, List.length_replicate]
  omega

/-! ## Timestamps -/

variable {d : Datetime}

theorem isoformat_eq (d : Datetime) : d.isoformat = d.stamp ++ match d.utcoffset with
    | none => ""
    | some o => offsetText o ++ if o.natAbs % 60000000 = 0 then ""
        else ":" ++ pad 2 (o.natAbs / 1000000 % 60) ++
          if o.natAbs % 1000000 = 0 then "" else "." ++ pad 6 (o.natAbs % 1000000) := by
  cases h : d.utcoffset <;> simp [Datetime.isoformat, Datetime.stamp, offsetText, h, String.append_assoc]

theorem readChar_cons (c : Char) (cs : List Char) : readChar c (c :: cs) = some cs := by
  simp [readChar]

theorem readOffset_offsetText {o : Int} (hminutes : o % 60000000 = 0) (hday : o.natAbs < 86400000000) :
    readOffset (offsetText o).toList = some (some o) := by
  have hhours : o.natAbs / 3600000000 < 10 ^ 2 := by omega
  have hmins : o.natAbs / 60000000 % 60 < 10 ^ 2 := by omega
  have htail : ∀ sign, readOffset (sign :: ((pad 2 (o.natAbs / 3600000000)).toList ++
      ':' :: ((pad 2 (o.natAbs / 60000000 % 60)).toList ++ []))) =
      if sign = '+' then some (some (o.natAbs : Int)) else
        if sign = '-' then some (some (-(o.natAbs : Int))) else none := by
    intro sign
    rw [readOffset, readNat_pad (by decide) hhours]
    · simp only [Option.bind_eq_bind, Option.bind_some, readChar_cons]
      rw [readNat_pad (by decide) hmins]
      have hvalue : ((o.natAbs / 3600000000 : Nat) * 60 + (o.natAbs / 60000000 % 60 : Nat)) * 60000000 =
          (o.natAbs : Int) := by omega
      simp only [Option.bind_some, hvalue, ne_eq, not_true_eq_false, if_false]
    · intro _ h
      simp at h
  have htext : (offsetText o).toList = (if o < 0 then '-' else '+') ::
      ((pad 2 (o.natAbs / 3600000000)).toList ++ ':' ::
        ((pad 2 (o.natAbs / 60000000 % 60)).toList ++ [])) := by
    rw [offsetText]
    split <;> simp
  rw [htext, htail]
  by_cases hneg : o < 0
  · have habs : -(o.natAbs : Int) = o := by omega
    rw [if_pos hneg, if_neg (by decide), if_pos rfl, habs]
  · have habs : (o.natAbs : Int) = o := by omega
    rw [if_neg hneg, if_pos rfl, habs]

theorem readIso_stamp (hd : d.Valid) {t : String} (ht : t.toList.head? ≠ some '.') :
    readIso (d.stamp ++ t) = (readOffset t.toList).map fun o => ⟨d.wall, o⟩ := by
  obtain ⟨hyear₁, hyear₂⟩ := hd.year
  obtain ⟨hmonth₁, hmonth₂, hday₁, hday₂⟩ := civil_month_day (d.wall / 86400000000)
  have hdays := fromCivil_civil (d.wall / 86400000000)
  obtain ⟨us, hus⟩ : ∃ us, us = (d.wall % 86400000000).toNat := ⟨_, rfl⟩
  have hlt : us < 86400000000 := by omega
  have hwall : d.wall = d.wall / 86400000000 * 86400000000 + us := by omega
  have htext : (d.stamp ++ t).toList =
      (pad 4 (civil (d.wall / 86400000000)).1.toNat).toList ++ '-' ::
        ((pad 2 (civil (d.wall / 86400000000)).2.1).toList ++ '-' ::
          ((pad 2 (civil (d.wall / 86400000000)).2.2).toList ++ 'T' ::
            ((pad 2 (us / 3600000000)).toList ++ ':' ::
              ((pad 2 (us / 60000000 % 60)).toList ++ ':' ::
                ((pad 2 (us / 1000000 % 60)).toList ++
                  ((if us % 1000000 = 0 then "" else "." ++ pad 6 (us % 1000000)).toList ++ t.toList)))))) := by
    simp [Datetime.stamp, ← hus]
  have hfraction : readFraction
      ((if us % 1000000 = 0 then "" else "." ++ pad 6 (us % 1000000)).toList ++ t.toList) =
      some (us % 1000000, t.toList) := by
    split
    · next h0 =>
      rw [h0, String.toList_empty, List.nil_append]
      rcases hchars : t.toList with _ | ⟨c, cs⟩
      · rfl
      · rw [readFraction]
        rintro rest h
        rw [hchars, (List.cons.inj h).1] at ht
        exact ht rfl
    · have : ("." ++ pad 6 (us % 1000000)).toList ++ t.toList =
          '.' :: ((pad 6 (us % 1000000)).toList ++ t.toList) := by simp
      rw [this, readFraction, readNat_pad (by decide) (by omega)]
  have hnat : ((civil (d.wall / 86400000000)).1.toNat : Int) = (civil (d.wall / 86400000000)).1 := by omega
  generalize (civil (d.wall / 86400000000)).1 = year at *
  rw [readIso, htext, readNat_pad (by decide) (by omega)]
  simp only [Option.bind_eq_bind, Option.bind_some, readChar_cons]
  rw [readNat_pad (by decide) (by omega)]
  simp only [Option.bind_some, readChar_cons]
  rw [readNat_pad (by decide) (by omega)]
  simp only [Option.bind_some, readChar_cons]
  rw [readNat_pad (by decide) (by omega)]
  simp only [Option.bind_some, readChar_cons]
  rw [readNat_pad (by decide) (by omega)]
  simp only [Option.bind_some, readChar_cons]
  rw [readNat_pad (by decide) (by omega)]
  have hsum : (((d.wall / 86400000000 * 24 + (us / 3600000000 : Nat)) * 60 + (us / 60000000 % 60 : Nat)) * 60 +
      (us / 1000000 % 60 : Nat)) * 1000000 + (us % 1000000 : Nat) = d.wall := by omega
  simp only [Option.bind_some, hfraction, hnat, hdays, hsum]
  exact (Option.map_eq_bind).symm

theorem head_offsetText (o : Int) : (offsetText o).toList.head? ≠ some '.' := by
  rw [offsetText]
  split <;> simp

theorem readIso_isoformat (hd : d.Valid) : readIso d.isoformat = some d := by
  rw [isoformat_eq]
  obtain ⟨wall, utcoffset⟩ := d
  cases utcoffset with
  | none =>
    rw [readIso_stamp hd (by simp)]
    rfl
  | some o =>
    obtain ⟨hminutes, hday⟩ := hd.offset o rfl
    have hwhole : o.natAbs % 60000000 = 0 := by omega
    simp only [hwhole, if_true, String.append_empty]
    rw [readIso_stamp hd (head_offsetText o), readOffset_offsetText hminutes hday]
    rfl

theorem readIso_jsonFormat (hd : d.Valid) : readIso d.jsonFormat = some d := by
  rw [Datetime.jsonFormat]
  obtain ⟨wall, utcoffset⟩ := d
  cases utcoffset with
  | none =>
    rw [readIso_stamp hd (by simp)]
    rfl
  | some o =>
    obtain ⟨hminutes, hday⟩ := hd.offset o rfl
    by_cases hzero : o = 0
    · subst hzero
      simp only [if_true]
      rw [readIso_stamp hd (by simp)]
      rfl
    · simp only [if_neg hzero]
      rw [readIso_stamp hd (head_offsetText o), readOffset_offsetText hminutes hday]
      rfl

/-- Timestamps that can be read denote the same instant when the `datetime`s do and are aware. -/
theorem sameInstant_iff {s t : String} {d' : Datetime} (hs : readIso s = some d) (ht : readIso t = some d') :
    SameInstant s t ↔ d.utcoffset.isSome = true ∧ d'.utcoffset.isSome = true ∧ d.instant = d'.instant := by
  constructor
  · rintro ⟨e, e', he, he', h⟩
    obtain rfl := Option.some.inj (hs.symm.trans he)
    obtain rfl := Option.some.inj (ht.symm.trans he')
    exact h
  · exact fun h => ⟨d, d', hs, ht, h⟩

end Python

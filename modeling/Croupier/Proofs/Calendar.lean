import Croupier.Calendar
import Croupier.Proofs.Numeral.Places

/-!
# Croupier.Proofs.Calendar

Months and days of the calendar have two places. With years of four places, dates in writing stand
in the order of the calendar: `InPlaces.padded_lt`.
-/

namespace Croupier
namespace Date

open Numeral

/-- Earlier in the calendar. -/
def Before (d e : Date) : Prop :=
  d.year < e.year ∨
    d.year = e.year ∧ (d.month < e.month ∨ d.month = e.month ∧ d.day < e.day)

instance (d e : Date) : Decidable (d.Before e) :=
  inferInstanceAs (Decidable (_ ∨ _))

theorem before_or_eq_or_before (d e : Date) : d.Before e ∨ d = e ∨ e.Before d := by
  obtain ⟨year, month, day⟩ := d
  obtain ⟨year', month', day'⟩ := e
  simp only [Before, Date.mk.injEq]
  omega

/-- The year is written in four places, month and day in two. -/
structure IsRegular (d : Date) : Prop where
  year_ge : 1000 ≤ d.year
  year_le : d.year ≤ 9999
  month_nonneg : 0 ≤ d.month
  month_lt : d.month < 100
  day_nonneg : 0 ≤ d.day
  day_lt : d.day < 100

/-! ## Counting days -/

/-- Day `n` of an era falls into year `y` of the era, and is at most the 366th of that year. -/
theorem dayOfYear_bounds {n y : Int} (hlow : 0 ≤ n) (hhigh : n < daysPerEra)
    (hy : y = (n - n / 1460 + n / 36524 - n / 146096) / 365) :
    0 ≤ y ∧ y ≤ 399 ∧ 0 ≤ n - (365 * y + y / 4 - y / 100) ∧
      n - (365 * y + y / 4 - y / 100) ≤ 365 := by
  rw [daysPerEra] at hhigh
  have hyear : 365 * y ≤ n - n / 1460 + n / 36524 - n / 146096 ∧
      n - n / 1460 + n / 36524 - n / 146096 < 365 * y + 365 := by omega
  clear hy
  -- the last day of an era is the only one that the centuries do not account for
  have hcentury : y / 100 = n / 36524 - n / 146096 := by
    have : n / 36524 = 0 ∨ n / 36524 = 1 ∨ n / 36524 = 2 ∨ n / 36524 = 3 ∨ n / 36524 = 4 := by
      omega
    rcases this with h | h | h | h | h <;> omega
  have hleap : y / 4 ≤ n / 1460 ∧ n / 1460 ≤ y / 4 + 1 := by omega
  have hrange : 0 ≤ y ∧ y ≤ 399 := by omega
  refine ⟨hrange.1, hrange.2, ?_, ?_⟩ <;> omega

/-- What there is to know of the date of a day: era, year of the era and day of the year. -/
theorem exists_ofDays (days : Int) :
    ∃ era y doy : Int,
      era * 146097 ≤ days + 719468 ∧ days + 719468 < era * 146097 + 146097 ∧
        0 ≤ y ∧ y ≤ 399 ∧ 0 ≤ doy ∧ doy ≤ 365 ∧
        (ofDays days).month =
          (if (5 * doy + 2) / 153 < 10 then (5 * doy + 2) / 153 + 3 else (5 * doy + 2) / 153 - 9) ∧
        (ofDays days).day = doy - (153 * ((5 * doy + 2) / 153) + 2) / 5 + 1 ∧
        (ofDays days).year = y + era * 400 + if (ofDays days).month ≤ 2 then 1 else 0 := by
  have hlow := Int.emod_nonneg (days + epochOffset) (b := daysPerEra) (by decide)
  have hhigh := Int.emod_lt_of_pos (days + epochOffset) (b := daysPerEra) (by decide)
  obtain ⟨hy, hy', hdoy, hdoy'⟩ := dayOfYear_bounds hlow hhigh rfl
  refine ⟨(days + epochOffset) / daysPerEra, _, _, ?_, ?_, hy, hy', hdoy, hdoy', rfl, rfl, rfl⟩ <;>
    rw [epochOffset, daysPerEra] <;> omega

theorem isRegular_ofDays {days : Int} (hlow : 1000 ≤ (ofDays days).year)
    (hhigh : (ofDays days).year ≤ 9999) : (ofDays days).IsRegular := by
  obtain ⟨era, y, doy, -, -, -, -, hdoy, hdoy', hmonth, hday, -⟩ := exists_ofDays days
  refine ⟨hlow, hhigh, ?_, ?_, ?_, ?_⟩
  · rw [hmonth]; split <;> omega
  · rw [hmonth]; split <;> omega
  · rw [hday]; omega
  · rw [hday]; omega

/-- There is a clock for every year of four places. -/
theorem ofSeconds?_eq {seconds : Int} (hlow : 1000 ≤ (ofDays (seconds / secondsPerDay)).year)
    (hhigh : (ofDays (seconds / secondsPerDay)).year ≤ 9999) :
    ofSeconds? seconds = .ok (ofDays (seconds / secondsPerDay)) := by
  have hclock : ¬ (seconds < -9223372036854775808 ∨ 9223372036854775807 < seconds) := by
    obtain ⟨era, y, doy, hera, hera', hy, hy', -, -, -, -, hyear⟩ :=
      exists_ofDays (seconds / secondsPerDay)
    rw [hyear] at hlow hhigh
    rw [secondsPerDay] at hera hera'
    split at hlow <;> split at hhigh <;> omega
  rw [ofSeconds?, if_neg hclock]
  simp only
  rw [if_neg (by omega), if_neg (by omega)]

/-! ## Dates in writing -/

/-- The year fits into four places, month and day into two. -/
structure InPlaces (d : Date) : Prop where
  year_nonneg : 0 ≤ d.year
  year_le : d.year ≤ 9999
  month_nonneg : 0 ≤ d.month
  month_lt : d.month < 100
  day_nonneg : 0 ≤ d.day
  day_lt : d.day < 100

/-- `YYYY-MM-DD`, with zeros in front of a year that has less than four digits. -/
def padded (d : Date) : List Char :=
  places 4 d.year.toNat ++ '-' :: (places 2 d.month.toNat ++ '-' :: places 2 d.day.toNat)

theorem length_padded (d : Date) : d.padded.length = 10 := by
  simp [padded, length_places]

theorem InPlaces.padded_lt {d e : Date} (hd : d.InPlaces) (he : e.InPlaces) (h : d.Before e) :
    d.padded < e.padded := by
  have hplaces : ∀ {k : Nat} {m n : Int} {front front' : List Char}, 0 ≤ m → m < n → n.toNat < 10 ^ k →
      places k m.toNat ++ front < places k n.toNat ++ front' := fun hm hlt hn =>
    append_lt_append (by rw [length_places, length_places])
      (places_lt_places (by omega) (by omega))
  have := he.year_le
  have := he.month_lt
  have := he.day_lt
  rw [padded, padded]
  rcases h with hyear | ⟨hyear, hmonth | ⟨hmonth, hday⟩⟩
  · exact hplaces hd.year_nonneg hyear (by omega)
  · rw [hyear]
    refine List.append_left_lt (List.cons_lt_cons_iff.2 (.inr ⟨rfl, ?_⟩))
    exact hplaces hd.month_nonneg hmonth (by omega)
  · rw [hyear, hmonth]
    refine List.append_left_lt (List.cons_lt_cons_iff.2 (.inr ⟨rfl, ?_⟩))
    refine List.append_left_lt (List.cons_lt_cons_iff.2 (.inr ⟨rfl, ?_⟩))
    exact places_lt_places (by have := hd.day_nonneg; omega) (by omega)

namespace IsRegular

variable {d : Date}

theorem inPlaces (h : d.IsRegular) : d.InPlaces where
  year_nonneg := by have := h.year_ge; omega
  year_le := h.year_le
  month_nonneg := h.month_nonneg
  month_lt := h.month_lt
  day_nonneg := h.day_nonneg
  day_lt := h.day_lt

theorem toList_text (h : d.IsRegular) : d.text.toList = d.padded := by
  have hyear : (ofInt d.year).toList = places 4 d.year.toNat :=
    toList_ofInt (by have := h.year_ge; omega) (by have := h.year_le; omega)
  rw [text, String.toList_append, String.toList_append, String.toList_append, String.toList_append,
    hyear, toList_twoPlaces h.month_nonneg h.month_lt, toList_twoPlaces h.day_nonneg h.day_lt]
  simp [padded]

end IsRegular
end Date
end Croupier

import ShishiTodo.Zones.Conversions

/-!
# Local times survive the round trip

A local time of four-digit years that exists in the zone is read back from the instant that `zonedDateTimeToUtc` gives for it; from one in a gap the clocks at that instant are not further off than the gap is long.
-/

namespace ShishiTodo.Zones

open Lib Lib.Calendar Lib.Offsets Recurring

/-! ### Local times -/

/-- A date of four digits and a time of the day. -/
structure LocalTime where
  day : Int
  hour : Int
  minute : Int
  fourDigits : monthStart 12000 ≤ day ∧ day < monthStart 120000
  hourOfDay : 0 ≤ hour ∧ hour < 24
  minuteOfHour : 0 ≤ minute ∧ minute < 60

namespace LocalTime

variable (time : LocalTime)

/-- `YYYY-MM-DDTHH:mm` -/
def text : String :=
  s!"{toDateOnly time.day}T{padStart 2 (toString time.hour)}:{padStart 2 (toString time.minute)}"

/-- The time value that the local time would have in UTC. -/
def reading : Int := time.day * msPerDay + time.hour * 3600000 + time.minute * 60000

end LocalTime

section

variable (zone : Zone) (time : LocalTime)

/-! ### The parts of what the clocks show -/

theorem timeOfDay_eq {wall : Int} (hsecond : wall % 1000 = 0) :
    wall / msPerDay * msPerDay + wall % msPerDay / 3600000 * 3600000
      + wall % msPerDay / 60000 % 60 * 60000 + wall % msPerDay / 1000 % 60 * 1000 = wall := by
  simp only [msPerDay]
  omega

theorem formatToParts_eq {t month : Int} (h : InMonth (zone.wall t / msPerDay) month) (hmonth : 12 ≤ month) :
    formatToParts zone t = {
      year := month / 12
      month := month % 12 + 1
      day := zone.wall t / msPerDay - monthStart month + 1
      hour := zone.wall t % msPerDay / 3600000
      minute := zone.wall t % msPerDay / 60000 % 60
      second := zone.wall t % msPerDay / 1000 % 60 } := by
  have hyear : shownYear (month / 12) = month / 12 := by
    rw [shownYear, if_neg (by omega)]
  have hinYear : (((month % 12).toNat + 1 : Nat) : Int) = month % 12 + 1 := by omega
  have hinMonth : ((zone.wall t / msPerDay - monthStart month + 1).toNat : Int) =
      zone.wall t / msPerDay - monthStart month + 1 :=
    Int.toNat_of_nonneg (by have := h.1; omega)
  simp only [formatToParts, civil_eq h, hyear, hinYear, hinMonth]

/-- What is shown at a whole second is represented exactly. -/
theorem represented_eq {t : Int} (hsecond : t % 1000 = 0)
    (hyear : monthStart 1200 ≤ zone.wall t / msPerDay ∧ zone.wall t / msPerDay < monthStart 130000) :
    utcTime (formatToParts zone t).year ((formatToParts zone t).month - 1) (formatToParts zone t).day
      (formatToParts zone t).hour (formatToParts zone t).minute (formatToParts zone t).second
      = some (zone.wall t) := by
  obtain ⟨month, hmonth⟩ := exists_inMonth (zone.wall t / msPerDay)
  have hfirst := monthStart_lt.mp (Int.lt_of_le_of_lt hyear.1 hmonth.2)
  have hlast := monthStart_lt.mp (Int.lt_of_le_of_lt hmonth.1 hyear.2)
  have hwhole : zone.wall t % 1000 = 0 := by
    rw [Zone.wall]
    omega
  have hfits := monthStart_fits 130000 (by decide) (by decide)
  have hearly := monthStart_fits 1200 (by decide) (by decide)
  have htime := timeOfDay_eq hwhole
  have hindex : 12 * (month / 12) + (month % 12 + 1 - 1) = month := by omega
  have hdays : utc (month / 12) (month % 12 + 1 - 1) (zone.wall t / msPerDay - monthStart month + 1) =
      some (zone.wall t / msPerDay) := by
    have hsum : monthStart month + (zone.wall t / msPerDay - monthStart month + 1) - 1 =
        zone.wall t / msPerDay := by
      omega
    have hyears : 100 ≤ month / 12 := by omega
    have hutc := utc_eq hyears (month % 12 + 1 - 1) (zone.wall t / msPerDay - monthStart month + 1)
    rw [hindex, hsum] at hutc
    exact hutc (by omega) (by omega)
  have hclip : -8640000000000000 ≤ zone.wall t ∧ zone.wall t ≤ 8640000000000000 := by
    simp only [msPerDay] at hyear
    omega
  rw [formatToParts_eq zone hmonth (by omega), utcTime, hdays, Option.bind_eq_bind, Option.bind_some, htime,
    if_pos hclip]

/-! ### The corrections -/

/-- The offset in milliseconds. -/
def Zone.shift (t : Int) : Int := 1000 * zone.offset t

theorem clock_shift (t : Int) : clock zone.shift t = zone.wall t := rfl

/-- The instants that the loop can come to. -/
structure Reachable (t : Int) : Prop where
  second : t % 1000 = 0
  near : -msPerDay ≤ t - time.reading ∧ t - time.reading ≤ msPerDay

theorem reading_second : time.reading % 1000 = 0 := by
  simp only [LocalTime.reading, msPerDay]
  omega

theorem reachable_reading : Reachable time time.reading :=
  ⟨reading_second time, by simp only [msPerDay]; omega⟩

theorem reachable_correct (t : Int) : Reachable time (correct zone.shift time.reading t) := by
  have hsecond := reading_second time
  have hoffset := zone.lessThanDay t
  refine ⟨?_, ?_⟩
  · rw [correct, Zone.shift]
    omega
  · simp only [correct, Zone.shift, msPerDay]
    omega

theorem yearStart_bounds : monthStart 1200 + 4 ≤ monthStart 12000 ∧ monthStart 120000 + 4 ≤ monthStart 130000 := by
  decide

variable {time}

theorem Reachable.represented {t : Int} (h : Reachable time t) :
    utcTime (formatToParts zone t).year ((formatToParts zone t).month - 1) (formatToParts zone t).day
      (formatToParts zone t).hour (formatToParts zone t).minute (formatToParts zone t).second
      = some (zone.wall t) := by
  refine represented_eq zone h.second ?_
  obtain ⟨hfirst, hlast⟩ := time.fourDigits
  obtain ⟨hlow, hhigh⟩ := yearStart_bounds
  have hhour := time.hourOfDay
  have hminute := time.minuteOfHour
  have hnear := h.near
  have hoffset := zone.lessThanDay t
  simp only [Zone.wall, LocalTime.reading, msPerDay] at *
  omega

theorem corrections_succ {t : Int} (h : Reachable time t) (left : Nat) :
    corrections zone time.reading (left + 1) t =
      if |time.reading - zone.wall t| < 1000 then some (correct zone.shift time.reading t)
      else corrections zone time.reading left (correct zone.shift time.reading t) := by
  have hcorrect : time.reading - (zone.wall t - t) = correct zone.shift time.reading t := by
    rw [correct, Zone.shift, Zone.wall]
    omega
  rw [corrections]
  simp only
  rw [h.represented zone, Option.bind_eq_bind, Option.bind_some, hcorrect]

/-- An instant that shows the local time is left alone. -/
theorem corrections_settled {t : Int} (h : Reachable time t) (hshown : zone.wall t = time.reading)
    (left : Nat) : corrections zone time.reading left t = some t := by
  cases left with
  | zero => rfl
  | succ left =>
      have hsame : correct zone.shift time.reading t = t := correct_eq_self.mpr hshown
      have hclose : |time.reading - zone.wall t| < 1000 := by
        rw [hshown, Int.sub_self, abs_zero]
        decide
      rw [corrections_succ zone h, if_pos hclose, hsame]

/-- Stopping early makes no difference. -/
theorem corrections_next {t : Int} (h : Reachable time t) (left : Nat) :
    corrections zone time.reading (left + 1) t =
      corrections zone time.reading left (correct zone.shift time.reading t) := by
  rw [corrections_succ zone h]
  by_cases hclose : |time.reading - zone.wall t| < 1000
  · have hshown : zone.wall t = time.reading := by
      have hsecond := h.second
      have hreading := reading_second time
      rw [abs_lt, Zone.wall] at hclose
      rw [Zone.wall]
      omega
    have hsame : correct zone.shift time.reading t = t := correct_eq_self.mpr hshown
    rw [if_pos hclose, hsame, corrections_settled zone h hshown]
  · rw [if_neg hclose]

theorem corrections_eq :
    corrections zone time.reading 3 time.reading = some (correct zone.shift time.reading
      (correct zone.shift time.reading (correct zone.shift time.reading time.reading))) := by
  rw [corrections_next zone (reachable_reading time), corrections_next zone (reachable_correct zone time _),
    corrections_next zone (reachable_correct zone time _)]
  rfl

/-! ### The texts -/

theorem two_digits {n : Int} (h : 0 ≤ n ∧ n < 100) :
    ∃ c₁ c₂, (padStart 2 (toString n)).toList = [c₁, c₂] ∧ jsNumber [c₁, c₂] = some n := by
  obtain ⟨value, rfl⟩ := Int.eq_ofNat_of_zero_le h.1
  have hsmall : value < 10 ^ (1 + 1) := by omega
  have hdigits := padStart_eq_digitChars hsmall
  have hread := jsNumber_padStart 2 value
  rw [hdigits] at hread
  exact ⟨_, _, hdigits, hread⟩

theorem four_digits {n : Int} (h : 0 ≤ n ∧ n < 10000) :
    ∃ c₁ c₂ c₃ c₄, (padStart 4 (toString n)).toList = [c₁, c₂, c₃, c₄] ∧
      jsNumber [c₁, c₂, c₃, c₄] = some n := by
  obtain ⟨value, rfl⟩ := Int.eq_ofNat_of_zero_le h.1
  have hsmall : value < 10 ^ (3 + 1) := by omega
  have hdigits := padStart_eq_digitChars hsmall
  have hread := jsNumber_padStart 4 value
  rw [hdigits] at hread
  exact ⟨_, _, _, _, hdigits, hread⟩

/-- A number of four digits needs no padding. -/
theorem padStart_four {n : Int} (h : 1000 ≤ n) : padStart 4 (toString n) = toString n := by
  obtain ⟨value, rfl⟩ := Int.eq_ofNat_of_zero_le (show 0 ≤ n by omega)
  have hlong : 4 ≤ (Nat.toDigits 10 value).length := by
    by_contra hshort
    have hsmall := (Nat.length_toDigits_le_iff (by decide : 1 < 10) (by decide : 0 < 3)).mp
      (show (Nat.toDigits 10 value).length ≤ 3 by omega)
    omega
  have htext : toString (value : Int) = String.ofList (Nat.toDigits 10 value) := rfl
  apply String.toList_inj.mp
  rw [padStart_toList, htext, String.toList_ofList, Nat.sub_eq_zero_of_le hlong]
  rfl

theorem toDateOnly_spelled {day month : Int} (h : InMonth day month) (hmonth : 0 ≤ month) :
    toDateOnly day = spelled (month / 12) (month % 12 + 1) (day - monthStart month + 1) := by
  obtain ⟨number, hfirst, hlast, hday⟩ := inMonth_iff.mp h
  have hnumber : day - monthStart month + 1 = number := by omega
  rw [hnumber, spelled_eq hmonth hfirst hlast, ← hday]

variable (time)

theorem LocalTime.inMonth : ∃ month, InMonth time.day month ∧ 12000 ≤ month ∧ month < 120000 := by
  obtain ⟨month, hmonth⟩ := exists_inMonth time.day
  have hfirst := monthStart_lt.mp (Int.lt_of_le_of_lt time.fourDigits.1 hmonth.2)
  have hlast := monthStart_lt.mp (Int.lt_of_le_of_lt hmonth.1 time.fourDigits.2)
  exact ⟨month, hmonth, by omega, hlast⟩

/-- The text of a local time is read, and its parts give its reading. -/
theorem readLocal_text : ∃ y mo d h mi, readLocal time.text.toList = some (y, mo, d, h, mi) ∧
    utcTime y (mo - 1) d h mi 0 = some time.reading := by
  obtain ⟨month, hmonth, hfirst, hlast⟩ := time.inMonth
  have hday : 0 ≤ time.day - monthStart month + 1 ∧ time.day - monthStart month + 1 < 100 := by
    have hlength := monthLength_pos month
    have hinside := hmonth.2
    have hstart := hmonth.1
    rw [monthStart_succ] at hinside
    omega
  obtain ⟨y₁, y₂, y₃, y₄, hyears, hyear⟩ := four_digits (show 0 ≤ month / 12 ∧ month / 12 < 10000 by omega)
  obtain ⟨m₁, m₂, hmonths, hnumber⟩ := two_digits (show 0 ≤ month % 12 + 1 ∧ month % 12 + 1 < 100 by omega)
  obtain ⟨d₁, d₂, hdays, hdayOf⟩ := two_digits hday
  obtain ⟨h₁, h₂, hhours, hhour⟩ := two_digits
    (show 0 ≤ time.hour ∧ time.hour < 100 by have := time.hourOfDay; omega)
  obtain ⟨n₁, n₂, hminutes, hminute⟩ := two_digits
    (show 0 ≤ time.minute ∧ time.minute < 100 by have := time.minuteOfHour; omega)
  have htext : time.text.toList = [y₁, y₂, y₃, y₄, '-', m₁, m₂, '-', d₁, d₂, 'T', h₁, h₂, ':', n₁, n₂] := by
    have hparts : time.text.toList = (padStart 4 (toString (month / 12))).toList ++
        '-' :: ((padStart 2 (toString (month % 12 + 1))).toList ++
        '-' :: ((padStart 2 (toString (time.day - monthStart month + 1))).toList ++
        'T' :: ((padStart 2 (toString time.hour)).toList ++
        ':' :: (padStart 2 (toString time.minute)).toList))) := by
      rw [LocalTime.text, toDateOnly_spelled hmonth (by omega), spelled]
      simp [toString]
    rw [hparts, hyears, hmonths, hdays, hhours, hminutes]
    rfl
  refine ⟨month / 12, month % 12 + 1, time.day - monthStart month + 1, time.hour, time.minute, ?_, ?_⟩
  · rw [htext]
    simp only [readLocal, hyear, hnumber, hdayOf, hhour, hminute, Option.bind_eq_bind, Option.bind_some]
    rfl
  · have hfits := monthStart_fits month (by omega) (by omega)
    have hindex : 12 * (month / 12) + (month % 12 + 1 - 1) = month := by omega
    have hsum : monthStart month + (time.day - monthStart month + 1) - 1 = time.day := by omega
    have hyears : 100 ≤ month / 12 := by omega
    have hutc := utc_eq hyears (month % 12 + 1 - 1) (time.day - monthStart month + 1)
    rw [hindex, hsum] at hutc
    have hstart := hmonth.1
    have hreading : time.day * msPerDay + time.hour * 3600000 + time.minute * 60000 + 0 * 1000 =
        time.reading := by
      rw [LocalTime.reading]
      omega
    have hclip : -8640000000000000 ≤ time.reading ∧ time.reading ≤ 8640000000000000 := by
      have hhours := time.hourOfDay
      have hminutes := time.minuteOfHour
      simp only [LocalTime.reading, msPerDay]
      omega
    rw [utcTime, hutc (by omega) (by omega), Option.bind_eq_bind, Option.bind_some, hreading, if_pos hclip]

/-- Where the clocks show the reading, the local time is printed. -/
theorem localText_reading {t : Int} (h : zone.wall t = time.reading) :
    localText (formatToParts zone t) = time.text := by
  obtain ⟨month, hmonth, hfirst, hlast⟩ := time.inMonth
  have hhours := time.hourOfDay
  have hminutes := time.minuteOfHour
  have hday : zone.wall t / msPerDay = time.day := by
    rw [h, LocalTime.reading]
    simp only [msPerDay]
    omega
  have hhour : zone.wall t % msPerDay / 3600000 = time.hour := by
    rw [h, LocalTime.reading]
    simp only [msPerDay]
    omega
  have hminute : zone.wall t % msPerDay / 60000 % 60 = time.minute := by
    rw [h, LocalTime.reading]
    simp only [msPerDay]
    omega
  have hinMonth : InMonth (zone.wall t / msPerDay) month := by
    rw [hday]
    exact hmonth
  rw [formatToParts_eq zone hinMonth (by omega), hday, hhour, hminute, LocalTime.text,
    toDateOnly_spelled hmonth (by omega), spelled, padStart_four (by omega)]
  simp [localText, toString]

/-! ### The round trip -/

/-- Around the reading the zone changes its offset once at most. -/
theorem exists_oneJump_shift : ∃ jump before after,
    OneJump zone.shift (time.reading - msPerDay) (time.reading + msPerDay) jump before after := by
  have hjumps : ∀ t, Jumps zone.shift t → Jumps zone.offset t := by
    intro t hjump hsame
    exact hjump (congrArg (fun offset => 1000 * offset) hsame)
  have hapart : ∀ s t, s < t → Jumps zone.shift s → Jumps zone.shift t → s + 2 * msPerDay < t :=
    fun s t hless hs ht => zone.apart s t hless (hjumps s hs) (hjumps t ht)
  exact exists_oneJump hapart (by omega)

theorem shift_bound (t : Int) : -msPerDay < zone.shift t ∧ zone.shift t < msPerDay := by
  have hoffset := zone.lessThanDay t
  simp only [Zone.shift, msPerDay]
  omega

end

/-- A local time that exists is read back. One that does not lies in a gap, and the clocks at the instant are not further off than the gap is long. -/
theorem zonedDateTimeToUtc_round_trip (zone : Zone) (time : LocalTime) :
    ∃ instant, zonedDateTimeToUtc time.text zone = .ok instant ∧
      ((∃ t, zone.wall t = time.reading) → instantToLocalInput zone (some instant) = time.text) ∧
      ((∀ t, zone.wall t ≠ time.reading) → ∃ jump,
        jump + 1000 * zone.offset (jump - 1) ≤ time.reading ∧
        time.reading < jump + 1000 * zone.offset jump ∧
        |zone.wall instant - time.reading| ≤ 1000 * (zone.offset jump - zone.offset (jump - 1))) := by
  obtain ⟨y, mo, d, h, mi, hread, hguess⟩ := readLocal_text time
  obtain ⟨jump, before, after, hjump⟩ := exists_oneJump_shift zone time
  obtain ⟨instant, hinstant⟩ : ∃ instant, instant = correct zone.shift time.reading
      (correct zone.shift time.reading (correct zone.shift time.reading time.reading)) := ⟨_, rfl⟩
  refine ⟨instant, ?_, ?_, ?_⟩
  · rw [zonedDateTimeToUtc, hread]
    simp only [hguess, Option.bind_some, corrections_eq zone, hinstant]
  · intro hshown
    have hfound := clock_corrected (shift_bound zone) hjump hshown
    rw [← hinstant, clock_shift] at hfound
    exact localText_reading zone time hfound
  · intro hskipped
    obtain ⟨hbefore, hafter, hfrom, hto, hnear⟩ := clock_corrected_gap (shift_bound zone) hjump hskipped
    rw [← hinstant, clock_shift] at hnear
    rw [Zone.shift] at hbefore hafter
    refine ⟨jump, by omega, by omega, ?_⟩
    have hgap : 1000 * (zone.offset jump - zone.offset (jump - 1)) = after - before := by omega
    rw [hgap]
    exact hnear

theorem summer_lessThanDay (t : Int) :
    -86400 < (if t < 1774746000000 then (3600 : Int) else 7200) ∧
      (if t < 1774746000000 then (3600 : Int) else 7200) < 86400 := by
  split <;> omega

theorem summer_smallJumps (t : Int) :
    |(if t < 1774746000000 then (3600 : Int) else 7200) - (if t - 1 < 1774746000000 then 3600 else 7200)| < 86400 := by
  rw [abs_lt]
  split <;> split <;> omega

theorem summer_apart (s t : Int) (hless : s < t)
    (hs : Jumps (fun t : Int => if t < 1774746000000 then (3600 : Int) else 7200) s)
    (ht : Jumps (fun t : Int => if t < 1774746000000 then (3600 : Int) else 7200) t) : s + 2 * msPerDay < t := by
  have honly : ∀ t, Jumps (fun t : Int => if t < 1774746000000 then (3600 : Int) else 7200) t →
      t = 1774746000000 := by
    intro t hjump
    simp only [Jumps] at hjump
    split at hjump <;> split at hjump <;> omega
  have hfirst := honly s hs
  have hsecond := honly t ht
  omega

/-- Clocks that are put forward by an hour on 2026-03-29 at one o'clock. -/
def summerTime : Zone where
  offset t := if t < 1774746000000 then 3600 else 7200
  lessThanDay := summer_lessThanDay
  smallJumps := summer_smallJumps
  apart := summer_apart

/-- Half past two in the morning of that day. -/
def skippedHour : LocalTime where
  day := 20541
  hour := 2
  minute := 30
  fourDigits := by decide
  hourOfDay := by decide
  minuteOfHour := by decide

theorem zonedDateTimeToUtc_skippedHour :
    ∃ instant, zonedDateTimeToUtc skippedHour.text summerTime = .ok instant ∧
      |summerTime.wall instant - skippedHour.reading| ≤ 3600000 := by
  obtain ⟨instant, hinstant, -, hgap⟩ := zonedDateTimeToUtc_round_trip summerTime skippedHour
  have hskipped : ∀ t, summerTime.wall t ≠ skippedHour.reading := by
    intro t hshown
    simp only [Zone.wall, summerTime, LocalTime.reading, skippedHour, msPerDay] at hshown
    split at hshown <;> omega
  obtain ⟨jump, -, -, hnear⟩ := hgap hskipped
  have hsize : summerTime.offset jump - summerTime.offset (jump - 1) ≤ 3600 := by
    simp only [summerTime]
    split <;> split <;> omega
  exact ⟨instant, hinstant, by omega⟩

example : (zonedDateTimeToUtc skippedHour.text summerTime).toOption = some 1774744200000 := by
  decide

end ShishiTodo.Zones

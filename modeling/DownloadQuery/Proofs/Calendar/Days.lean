import DownloadQuery.Calendar.Date
import Mathlib

/-!
# Dates and their days

The number of days grows by one from each day of the calendar to the next, which `Date.ofDays`
inverts (`Date.toDays_ofDays`, `Date.ofDays_toDays`). The calendar is told month by month: the first
of a month comes as many days after the first of the month before as that month has.
-/

namespace DownloadQuery
namespace Date

/-- Whether the day exists in its year, whichever year it is. -/
structure IsDay (d : Date) : Prop where
  month_pos : 1 ≤ d.month
  month_le : d.month ≤ 12
  day_pos : 1 ≤ d.day
  day_le : d.day ≤ daysInMonth d.year d.month

/-- Months counted through all years. -/
def monthNumber (d : Date) : Int := 12 * d.year + d.month

/-- The first day of a month, which is given by its number less one. -/
def firstOf (n : Int) : Date := ⟨n / 12, (n % 12).toNat + 1, 1⟩

/-- The days of a month, which is given by its number less one. -/
def lengthOf (n : Int) : Nat := daysInMonth (n / 12) ((n % 12).toNat + 1)

theorem isLeap_iff (year : Int) :
    isLeap year = true ↔ year % 4 = 0 ∧ (year % 100 ≠ 0 ∨ year % 400 = 0) := by
  simp [isLeap]

theorem daysInMonth_bounds (year : Int) (month : Nat) :
    28 ≤ daysInMonth year month ∧ daysInMonth year month ≤ 31 := by
  unfold daysInMonth
  split_ifs <;> omega

/-- The days from 1 March of year zero to 1 March of a year. -/
def marchDays (year : Int) : Int := 365 * year + year / 4 - year / 100 + year / 400

theorem marchDays_succ (year : Int) :
    marchDays (year + 1) = marchDays year + if isLeap (year + 1) then 366 else 365 := by
  simp only [marchDays, isLeap_iff]
  split_ifs <;> omega

theorem marchDays_add_cycles (year cycles : Int) :
    marchDays (year + cycles * 400) = marchDays year + cycle * cycles := by
  unfold marchDays cycle
  omega

/-- The day whose year and month are counted from March; the months are 0 to 11. -/
def ofMarch (year month : Int) (day : Nat) : Date :=
  if month < 10 then ⟨year, (month + 3).toNat, day⟩ else ⟨year + 1, (month - 9).toNat, day⟩

theorem toDays_eq (d : Date) : d.toDays =
    marchDays (if d.month ≤ 2 then d.year - 1 else d.year) +
      (153 * (if d.month ≤ 2 then (d.month : Int) + 9 else d.month - 3) + 2) / 5 + d.day - 1 -
      epochShift := by
  simp only [toDays, marchDays, cycle]
  generalize (if d.month ≤ 2 then d.year - 1 else d.year) = year
  omega

theorem toDays_ofMarch (year : Int) {month : Int} (hpos : 0 ≤ month) (hle : month ≤ 11)
    (day : Nat) : (ofMarch year month day).toDays =
      marchDays year + (153 * month + 2) / 5 + day - 1 - epochShift := by
  by_cases hmonth : month < 10
  · have hafter : ¬ (month + 3).toNat ≤ 2 := by omega
    have hcast : ((month + 3).toNat : Int) = month + 3 := by omega
    rw [ofMarch, if_pos hmonth, toDays_eq, if_neg hafter, if_neg hafter, hcast,
      add_sub_cancel_right]
  · have hbefore : (month - 9).toNat ≤ 2 := by omega
    have hcast : ((month - 9).toNat : Int) = month - 9 := by omega
    rw [ofMarch, if_neg hmonth, toDays_eq, if_pos hbefore, if_pos hbefore, hcast,
      add_sub_cancel_right, sub_add_cancel]

/-! ## The first of the month -/

theorem toDays_next_month (year : Int) {month : Nat} (hpos : 1 ≤ month) (hlt : month < 12) :
    (Date.mk year (month + 1) 1).toDays =
      (Date.mk year month 1).toDays + daysInMonth year month := by
  simp only [toDays_eq, marchDays, daysInMonth, isLeap_iff]
  interval_cases month
  case «2» =>
    norm_num
    split_ifs <;> omega
  all_goals
    norm_num
    omega

theorem toDays_next_year (year : Int) :
    (Date.mk (year + 1) 1 1).toDays = (Date.mk year 12 1).toDays + daysInMonth year 12 := by
  simp only [toDays_eq, daysInMonth]
  norm_num
  omega

/-- The first of a month is one month's length before the first of the next. -/
theorem toDays_firstOf_succ (n : Int) :
    (firstOf (n + 1)).toDays = (firstOf n).toDays + lengthOf n := by
  by_cases hdecember : n % 12 = 11
  · have hyear : (n + 1) / 12 = n / 12 + 1 := by omega
    have hmonth : (n + 1) % 12 = 0 := by omega
    rw [firstOf, firstOf, lengthOf, hyear, hmonth, hdecember]
    exact toDays_next_year _
  · have hyear : (n + 1) / 12 = n / 12 := by omega
    have hmonth : ((n + 1) % 12).toNat = (n % 12).toNat + 1 := by omega
    rw [firstOf, firstOf, lengthOf, hyear, hmonth]
    exact toDays_next_month _ (by omega) (by omega)

/-! ## From a number of days -/

/-- The year of a cycle of 400 years that `ofDays` finds for a day of the cycle has begun by this
day, and the next has not. -/
theorem yearOfCycle_spec {c y : Int} (hpos : 0 ≤ c) (hlt : c < cycle)
    (hy : y = (c - c / 1460 + c / 36524 - c / 146096) / 365) :
    365 * y + y / 4 - y / 100 = marchDays y ∧ marchDays y ≤ c ∧ c < marchDays (y + 1) := by
  unfold cycle at hlt
  unfold marchDays
  by_cases hlast : c = 146096
  · subst hlast
    norm_num at hy
    subst hy
    norm_num
  obtain ⟨century, r, hc, hr, hr', hcentury, hcentury'⟩ :
      ∃ century r, c = 36524 * century + r ∧ 0 ≤ r ∧ r < 36524 ∧ 0 ≤ century ∧ century < 4 :=
    ⟨c / 36524, c % 36524, by omega, by omega, by omega, by omega, by omega⟩
  obtain ⟨four, s, hrs, hs, hs', hfour, hfour'⟩ :
      ∃ four s, r = 1461 * four + s ∧ 0 ≤ s ∧ s < 1461 ∧ 0 ≤ four ∧ four ≤ 24 :=
    ⟨r / 1461, r % 1461, by omega, by omega, by omega, by omega, by omega⟩
  obtain ⟨t, ht, ht', hts, hst⟩ :
      ∃ t, 0 ≤ t ∧ t ≤ 3 ∧ 365 * t ≤ s ∧ (s < 365 * (t + 1) ∨ t = 3) :=
    ⟨min (s / 365) 3, by omega, by omega, by omega, by omega⟩
  have hyear : y = 100 * century + 4 * four + t := by
    have hfours : c / 1460 = 25 * century + four + (four + s + 24 * century) / 1460 := by omega
    have hcenturies : c / 36524 = century := by omega
    have hcycles : c / 146096 = 0 := by omega
    have hcarry : (four + s + 24 * century) / 1460 = 0 ∨ (four + s + 24 * century) / 1460 = 1 := by
      omega
    rw [hfours, hcenturies, hcycles] at hy
    omega
  clear hy
  have hfours : y / 4 = 25 * century + four := by omega
  have hcenturies : y / 100 = century := by omega
  have hcycles : 0 ≤ (y + 1) / 400 := by omega
  refine ⟨by omega, by omega, ?_⟩
  -- the next year ends one of four years, a century or the cycle, or none of these
  rcases lt_or_eq_of_le ht' with hplain | rfl
  · have hfours' : (y + 1) / 4 = 25 * century + four := by omega
    have hcenturies' : (y + 1) / 100 = century := by omega
    omega
  · have hfours' : (y + 1) / 4 = 25 * century + four + 1 := by omega
    rcases lt_or_eq_of_le hfour' with hshort | rfl
    · have hcenturies' : (y + 1) / 100 = century := by omega
      omega
    · have hcenturies' : (y + 1) / 100 = century + 1 := by omega
      omega

/-- Each number of days stands for a day of a month that is counted from March. -/
theorem exists_ofMarch (days : Int) : ∃ (year month : Int) (day : Nat),
    0 ≤ month ∧ month ≤ 11 ∧ 1 ≤ day ∧ (5 * ((153 * month + 2) / 5 + day - 1) + 2) / 153 = month ∧
      days + epochShift = marchDays year + (153 * month + 2) / 5 + day - 1 ∧
      days + epochShift < marchDays (year + 1) ∧ ofDays days = ofMarch year month day := by
  have hcycle : 0 ≤ (days + epochShift) % cycle ∧ (days + epochShift) % cycle < cycle := by
    unfold cycle
    omega
  generalize hc : (days + epochShift) % cycle = c at hcycle
  generalize hy : (c - c / 1460 + c / 36524 - c / 146096) / 365 = y
  obtain ⟨hyear, hbegun, hnext⟩ := yearOfCycle_spec hcycle.1 hcycle.2 hy.symm
  have hshift : days + epochShift = cycle * ((days + epochShift) / cycle) + c := by
    rw [← hc]
    exact (Int.mul_ediv_add_emod _ _).symm
  generalize hera : (days + epochShift) / cycle = era at hshift
  generalize hd : c - marchDays y = d
  generalize hm : (5 * d + 2) / 153 = m
  have hdays : 0 ≤ d ∧ d ≤ 365 := by
    have hlength := marchDays_succ y
    split_ifs at hlength <;> omega
  have hofDays : ofDays days =
      ⟨if (if m < 10 then m + 3 else m - 9) ≤ 2 then y + era * 400 + 1 else y + era * 400,
        (if m < 10 then m + 3 else m - 9).toNat, (d - (153 * m + 2) / 5 + 1).toNat⟩ := by
    rw [ofDays]
    simp only [hc, hy, hyear, hd, hm, hera]
  have hstart := marchDays_add_cycles y era
  have hend := marchDays_add_cycles (y + 1) era
  rw [add_right_comm] at hend
  refine ⟨y + era * 400, m, (d - (153 * m + 2) / 5 + 1).toNat, ?_, ?_, ?_, ?_, ?_, ?_, ?_⟩
  · omega
  · omega
  · omega
  · omega
  · omega
  · omega
  · rw [hofDays, ofMarch]
    split_ifs <;> first | rfl | omega

theorem isDay_ofMarch {year month : Int} {day : Nat} (hpos : 0 ≤ month) (hle : month ≤ 11)
    (hday : 1 ≤ day) (hmonth : (5 * ((153 * month + 2) / 5 + day - 1) + 2) / 153 = month)
    (hyear : marchDays year + (153 * month + 2) / 5 + day - 1 < marchDays (year + 1)) :
    (ofMarch year month day).IsDay := by
  rw [marchDays_succ] at hyear
  have hlength : day ≤ daysInMonth (ofMarch year month day).year
      (ofMarch year month day).month := by
    interval_cases month
    case «11» =>
      simp only [ofMarch, daysInMonth]
      norm_num
      split_ifs at hyear ⊢ <;> omega
    all_goals
      simp [ofMarch, daysInMonth]
      omega
  have hday' : (ofMarch year month day).day = day := by
    unfold ofMarch
    split_ifs <;> rfl
  refine ⟨?_, ?_, by rwa [hday'], by rwa [hday']⟩
  all_goals
    unfold ofMarch
    split_ifs <;> simp only <;> omega

theorem isDay_ofDays (days : Int) : (ofDays days).IsDay := by
  obtain ⟨year, month, day, hpos, hle, hday, hmonth, hdays, hyear, hofDays⟩ := exists_ofMarch days
  rw [hofDays]
  exact isDay_ofMarch hpos hle hday hmonth (hdays ▸ hyear)

theorem toDays_ofDays (days : Int) : (ofDays days).toDays = days := by
  obtain ⟨year, month, day, hpos, hle, -, -, hdays, -, hofDays⟩ := exists_ofMarch days
  rw [hofDays, toDays_ofMarch year hpos hle]
  omega

/-! ## The order of days -/

theorem IsDay.firstOf_eq {d : Date} (h : d.IsDay) :
    firstOf (d.monthNumber - 1) = ⟨d.year, d.month, 1⟩ := by
  obtain ⟨hpos, hle, -, -⟩ := h
  have hyear : (d.monthNumber - 1) / 12 = d.year := by unfold monthNumber; omega
  have hmonth : ((d.monthNumber - 1) % 12).toNat + 1 = d.month := by unfold monthNumber; omega
  rw [firstOf, hyear, hmonth]

theorem IsDay.lengthOf_eq {d : Date} (h : d.IsDay) :
    lengthOf (d.monthNumber - 1) = daysInMonth d.year d.month := by
  have hfirst := h.firstOf_eq
  simp only [firstOf, mk.injEq, and_true] at hfirst
  rw [lengthOf, hfirst.1, hfirst.2]

theorem IsDay.toDays_eq_firstOf {d : Date} (h : d.IsDay) :
    d.toDays = (firstOf (d.monthNumber - 1)).toDays + d.day - 1 := by
  rw [h.firstOf_eq, toDays_eq, toDays_eq]
  simp only
  omega

/-- Each month has at least 28 days. -/
theorem toDays_firstOf_add (n : Int) (months : Nat) :
    (firstOf n).toDays + 28 * months ≤ (firstOf (n + months)).toDays := by
  induction months with
  | zero => simp
  | succ months ih =>
    have hstep := toDays_firstOf_succ (n + months)
    have hlength : 28 ≤ lengthOf (n + months) := (daysInMonth_bounds _ _).1
    rw [Nat.cast_succ, ← add_assoc, hstep]
    omega

theorem toDays_firstOf_mono {m n : Int} (h : m ≤ n) : (firstOf m).toDays ≤ (firstOf n).toDays := by
  obtain ⟨months, rfl⟩ := Int.le.dest h
  have hadd := toDays_firstOf_add m months
  omega

/-- Days of earlier months come earlier. -/
theorem toDays_lt_of_monthNumber {a b : Date} (ha : a.IsDay) (hb : b.IsDay)
    (h : a.monthNumber < b.monthNumber) : a.toDays < b.toDays := by
  have hnext := toDays_firstOf_succ (a.monthNumber - 1)
  have hmono : (firstOf (a.monthNumber - 1 + 1)).toDays ≤ (firstOf (b.monthNumber - 1)).toDays :=
    toDays_firstOf_mono (by omega)
  have hday : a.day ≤ lengthOf (a.monthNumber - 1) := ha.lengthOf_eq ▸ ha.day_le
  have hfirst := hb.day_pos
  rw [ha.toDays_eq_firstOf, hb.toDays_eq_firstOf]
  omega

/-- Days of one month come in their order. -/
theorem toDays_sub_of_monthNumber {a b : Date} (ha : a.IsDay) (hb : b.IsDay)
    (h : a.monthNumber = b.monthNumber) : a.toDays - b.toDays = a.day - b.day := by
  rw [ha.toDays_eq_firstOf, hb.toDays_eq_firstOf, h]
  omega

theorem eq_of_monthNumber {a b : Date} (ha : a.IsDay) (hb : b.IsDay)
    (hmonth : a.monthNumber = b.monthNumber) (hday : a.day = b.day) : a = b := by
  have hmonth_a := ha.month_le
  have hmonth_b := hb.month_le
  have hpos_a := ha.month_pos
  have hpos_b := hb.month_pos
  unfold monthNumber at hmonth
  obtain ⟨year, month, day⟩ := a
  obtain ⟨year', month', day'⟩ := b
  simp only at *
  obtain rfl : year = year' := by omega
  obtain rfl : month = month' := by omega
  rw [hday]

/-- Different days have different numbers. -/
theorem toDays_injective {a b : Date} (ha : a.IsDay) (hb : b.IsDay) (h : a.toDays = b.toDays) :
    a = b := by
  rcases lt_trichotomy a.monthNumber b.monthNumber with hlt | heq | hlt
  · exact absurd h (toDays_lt_of_monthNumber ha hb hlt).ne
  · have hday := toDays_sub_of_monthNumber ha hb heq
    exact eq_of_monthNumber ha hb heq (by omega)
  · exact absurd h.symm (toDays_lt_of_monthNumber hb ha hlt).ne

theorem ofDays_toDays {d : Date} (h : d.IsDay) : ofDays d.toDays = d :=
  toDays_injective (isDay_ofDays _) h (toDays_ofDays _)

end Date
end DownloadQuery

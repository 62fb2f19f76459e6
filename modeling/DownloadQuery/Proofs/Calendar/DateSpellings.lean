import DownloadQuery.Proofs.Calendar.Shift
import DownloadQuery.Proofs.Calendar.WrittenDates
import Mathlib

/-!
# The three spellings of a date

In a zone of fixed offset all spellings of a date and a time of day are read as the same timestamp,
or none is read. Those of days that exist and of times of these days are read, and timestamps are
in the order of what is written, from the year down to the second (`DateLiteral.readsDates`).
-/

namespace DownloadQuery

namespace Date

/-- A day in a year of four digits is not far from 1970. -/
theorem IsDay.natAbs_toDays {d : Date} (h : d.IsDay) (hpos : 0 ≤ d.year) (hlt : d.year < 10000) :
    d.toDays.natAbs ≤ 4000000 := by
  have hday := h.day_le.trans (daysInMonth_bounds d.year d.month).2
  have hmonth := h.month_le
  rw [toDays_eq]
  unfold marchDays epochShift
  split_ifs <;> omega

end Date

namespace DateLiteral
namespace Written

variable {w w' : Written}

theorem IsMoment.natAbs_localTime (h : w.IsMoment) : w.localTime.natAbs ≤ 2 ^ 40 := by
  have hdays := h.isDay.natAbs_toDays (Int.natCast_nonneg w.year) (Int.ofNat_lt.2 w.year_lt)
  have hhour := h.hour_lt
  have hminute := h.minute_lt
  have hsecond := h.second_lt
  unfold localTime daySeconds
  omega

/-! ## Order -/

/-- Days come in the order of their years, months and days. -/
theorem toDays_lt (h : w.date.IsDay) (h' : w'.date.IsDay)
    (hlt : w.year < w'.year ∨ w.year = w'.year ∧
      (w.month < w'.month ∨ w.month = w'.month ∧ w.day < w'.day)) :
    w.date.toDays < w'.date.toDays := by
  have hmonth : w.month ≤ 12 := h.month_le
  have hmonth' : 1 ≤ w'.month := h'.month_pos
  have hnumber : w.date.monthNumber = 12 * w.year + w.month := rfl
  have hnumber' : w'.date.monthNumber = 12 * w'.year + w'.month := rfl
  rcases hlt with hyear | ⟨hyear, hlt | ⟨heq, hday⟩⟩
  · exact Date.toDays_lt_of_monthNumber h h' (by omega)
  · exact Date.toDays_lt_of_monthNumber h h' (by omega)
  · have hdays : w.date.toDays - w'.date.toDays = w.day - w'.day :=
      Date.toDays_sub_of_monthNumber h h' (by omega)
    omega

/-- Moments come in the order of what is written. -/
theorem IsMoment.localTime_lt (h : w.IsMoment) (h' : w'.IsMoment) (hlt : w.numbers < w'.numbers) :
    w.localTime < w'.localTime := by
  have hhour := h.hour_lt
  have hminute := h.minute_lt
  have hsecond := h.second_lt
  have hminute' := h'.minute_lt
  have hsecond' := h'.second_lt
  have hbefore (hdays : w.date.toDays < w'.date.toDays) : w.localTime < w'.localTime := by
    unfold localTime daySeconds
    omega
  have hsame (hdate : w.date = w'.date) (htime : w.hour < w'.hour ∨ w.hour = w'.hour ∧
      (w.minute < w'.minute ∨ w.minute = w'.minute ∧ w.second < w'.second)) :
      w.localTime < w'.localTime := by
    rw [localTime, localTime, hdate]
    omega
  simp only [numbers, List.cons_lt_cons_iff, List.lt_irrefl, and_false, or_false] at hlt
  rcases hlt with hyear | ⟨hyear, hmonth | ⟨hmonth, hday | ⟨hday, htime⟩⟩⟩
  · exact hbefore (toDays_lt h.isDay h'.isDay (.inl hyear))
  · exact hbefore (toDays_lt h.isDay h'.isDay (.inr ⟨hyear, .inl hmonth⟩))
  · exact hbefore (toDays_lt h.isDay h'.isDay (.inr ⟨hyear, .inr ⟨hmonth, hday⟩⟩))
  · exact hsame (by rw [date, date, hyear, hmonth, hday]) htime

theorem localTime_congr (h : w.numbers = w'.numbers) : w.localTime = w'.localTime := by
  simp only [numbers, List.cons.injEq, and_true] at h
  obtain ⟨hyear, hmonth, hday, hhour, hminute, hsecond⟩ := h
  rw [localTime, localTime, date, date, hyear, hmonth, hday, hhour, hminute, hsecond]

theorem IsMoment.localTime_lt_iff (h : w.IsMoment) (h' : w'.IsMoment) :
    w.localTime < w'.localTime ↔ w.numbers < w'.numbers := by
  refine ⟨fun hlt => ?_, h.localTime_lt h'⟩
  rcases lt_trichotomy w.numbers w'.numbers with hnumbers | hnumbers | hnumbers
  · exact hnumbers
  · exact absurd (localTime_congr hnumbers) hlt.ne
  · exact absurd (h'.localTime_lt h hnumbers) hlt.not_gt

end Written

/-! ## Timestamps -/

variable {offset : Int}

theorem isCovered_of_natAbs {instant : Int} (h : instant.natAbs ≤ 2 ^ 42) :
    Zone.isCovered instant = true := by
  have hleast : (Date.mk Date.leastYear 1 1).toDays * daySeconds ≤ -2 ^ 42 := by decide
  have hgreatest : 2 ^ 42 < ((Date.mk Date.greatestYear 12 31).toDays + 1) * daySeconds := by decide
  simp only [Zone.isCovered, Bool.and_eq_true, decide_eq_true_eq]
  omega

/-- What is read of a literal is the exact timestamp of its moment, if it is one. -/
theorem read_text (hoffset : offset.natAbs ≤ 2 ^ 31) (w : Written) {s : Spelling}
    (hs : s ∈ spellings) {mark : Char} (hmark : mark ∈ ['T', 't', ' ']) (t : Binary64) :
    read (.fixed offset) (w.text s mark) = .ok t ↔
      w.IsMoment ∧ t = .ofInt (w.localTime - offset) := by
  have hcovered (h : w.IsMoment) : Zone.isCovered (w.localTime - offset) = true := by
    have htime := h.natAbs_localTime
    exact isCovered_of_natAbs (by omega)
  have hinstant (h : w.IsMoment) :
      (Zone.fixed offset).earliest? w.localTime = some (w.localTime - offset) :=
    if_pos (hcovered h)
  have hexact (h : w.IsMoment) :
      Binary64.ofInt ((w.localTime - offset) * 1000) / 1000 = .ofInt (w.localTime - offset) :=
    Delta.timestampOfMillis_whole (hcovered h)
  constructor
  · intro h
    obtain ⟨instant, hread, rfl⟩ := exists_of_map_ok h
    obtain ⟨localTime, hlocal, hread⟩ := exists_of_bind_ok hread
    obtain ⟨hmoment, rfl⟩ := (w.readLocal_text hs hmark localTime).1 hlocal
    rw [hinstant hmoment] at hread
    cases hread
    exact ⟨hmoment, hexact hmoment⟩
  · rintro ⟨hmoment, ht⟩
    have hlocal := (w.readLocal_text hs hmark _).2 ⟨hmoment, rfl⟩
    rw [ht, read, readInstant, hlocal, ok_bind, hinstant hmoment]
    exact congrArg Except.ok (hexact hmoment)

/-- What is read of dates as they are written: whichever spelling and mark they have, those that
are moments are read, those that have the same numbers alike, and timestamps are in the order of
these numbers. A part of the time of day that is left out counts as zero. -/
structure ReadsDates (zone : Zone) : Prop where
  accepted : ∀ (w : Written), ∀ s ∈ spellings, ∀ mark ∈ ['T', 't', ' '],
    (∃ t, read zone (w.text s mark) = .ok t) ↔ w.IsMoment
  agree : ∀ (w w' : Written), ∀ s ∈ spellings, ∀ s' ∈ spellings, ∀ mark ∈ ['T', 't', ' '],
    ∀ mark' ∈ ['T', 't', ' '], ∀ t t', read zone (w.text s mark) = .ok t →
      read zone (w'.text s' mark') = .ok t' → w.numbers = w'.numbers → t = t'
  increasing : ∀ (w w' : Written), ∀ s ∈ spellings, ∀ s' ∈ spellings, ∀ mark ∈ ['T', 't', ' '],
    ∀ mark' ∈ ['T', 't', ' '], ∀ t t', read zone (w.text s mark) = .ok t →
      read zone (w'.text s' mark') = .ok t' → (t.lt t' = true ↔ w.numbers < w'.numbers)

/-- In universal time and in every zone of fixed offset. -/
theorem readsDates (hoffset : offset.natAbs ≤ 2 ^ 31) : ReadsDates (.fixed offset) where
  accepted w s hs mark hmark := by
    simp only [read_text hoffset w hs hmark, exists_and_left, exists_eq, and_true]
  agree w w' s hs s' hs' mark hmark mark' hmark' t t' ht ht' hnumbers := by
    have hvalue := ((read_text hoffset w hs hmark t).1 ht).2
    have hvalue' := ((read_text hoffset w' hs' hmark' t').1 ht').2
    rw [hvalue, hvalue', Written.localTime_congr hnumbers]
  increasing w w' s hs s' hs' mark hmark mark' hmark' t t' ht ht' := by
    obtain ⟨hmoment, hvalue⟩ := (read_text hoffset w hs hmark t).1 ht
    obtain ⟨hmoment', hvalue'⟩ := (read_text hoffset w' hs' hmark' t').1 ht'
    have htime := hmoment.natAbs_localTime
    have htime' := hmoment'.natAbs_localTime
    rw [hvalue, hvalue', Binary64.lt_ofInt (by omega) (by omega), decide_eq_true_eq,
      sub_lt_sub_iff_right, hmoment.localTime_lt_iff hmoment']

/-- Noon of the leap day of 2024 is read an hour ahead of universal time, and comes before the day
after it, while 2023 has no such day. -/
theorem readsDates_leap_day :
    ∃ t t', read (.fixed 3600) "29.02.2024 12" = .ok t ∧ read (.fixed 3600) "03/01/2024" = .ok t' ∧
      t.lt t' = true ∧ ∀ t, read (.fixed 3600) "2023-02-29T12:00" ≠ .ok t := by
  have hreads : ReadsDates (.fixed 3600) := readsDates (by decide)
  let noon : Written := ⟨2024, 2, 29, [12], by decide, by decide, by decide, by decide, by decide⟩
  let next : Written := ⟨2024, 3, 1, [], by decide, by decide, by decide, by decide, by decide⟩
  let never : Written :=
    ⟨2023, 2, 29, [12, 0], by decide, by decide, by decide, by decide, by decide⟩
  have hnoon : noon.IsMoment := ⟨⟨by decide, by decide, by decide, by decide⟩, by decide,
    by decide, by decide⟩
  have hnext : next.IsMoment := ⟨⟨by decide, by decide, by decide, by decide⟩, by decide,
    by decide, by decide⟩
  have hnoonText : noon.text .dotted ' ' = "29.02.2024 12" := by decide
  have hnextText : next.text .slashed 'T' = "03/01/2024" := by decide
  have hneverText : never.text .dashed 'T' = "2023-02-29T12:00" := by decide
  obtain ⟨t, ht⟩ := (hreads.accepted noon .dotted (by simp [spellings]) ' ' (by decide)).2 hnoon
  obtain ⟨t', ht'⟩ := (hreads.accepted next .slashed (by simp [spellings]) 'T' (by decide)).2 hnext
  refine ⟨t, t', hnoonText ▸ ht, hnextText ▸ ht', ?_, fun t ht => ?_⟩
  · exact (hreads.increasing noon next .dotted (by simp [spellings]) .slashed (by simp [spellings])
      ' ' (by decide) 'T' (by decide) t t' ht ht').2 (by decide)
  · rw [← hneverText] at ht
    have hnever := (hreads.accepted never .dashed (by simp [spellings]) 'T' (by decide)).1 ⟨t, ht⟩
    exact absurd hnever.isDay.day_le (by decide)

end DateLiteral
end DownloadQuery

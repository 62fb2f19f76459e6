import DownloadQuery.Proofs.Calendar.Days
import DownloadQuery.Proofs.Calendar.DeltaText

/-!
# Spans as shifts of the calendar

In a zone of fixed offset a span before now is an exact shift: by its months at the same time of
day, to the same day or the last of a shorter month, and then by its seconds
(`Delta.before_calendar`). Later months hold later days, also where a day is held back to the end of
its month, so longer spans reach further back (`Delta.before_antitone`).
-/

namespace DownloadQuery
namespace Date

/-- The day of a month, which is given by its number less one, or the last day of a shorter one. -/
def inMonth (n : Int) (day : Nat) : Date := ⟨n / 12, (n % 12).toNat + 1, min day (lengthOf n)⟩

theorem isDay_inMonth (n : Int) {day : Nat} (hday : 1 ≤ day) : (inMonth n day).IsDay := by
  have hlength : 28 ≤ lengthOf n := (daysInMonth_bounds _ _).1
  refine ⟨?_, ?_, ?_, Nat.min_le_right _ _⟩
  · exact Nat.le_add_left _ _
  · simp only [inMonth]
    omega
  · simp only [inMonth]
    omega

theorem monthNumber_inMonth (n : Int) (day : Nat) : (inMonth n day).monthNumber = n + 1 := by
  simp only [monthNumber, inMonth]
  omega

theorem toDays_inMonth_mono {m n : Int} (h : m ≤ n) {day : Nat} (hday : 1 ≤ day) :
    (inMonth m day).toDays ≤ (inMonth n day).toDays := by
  rcases h.lt_or_eq with hlt | rfl
  · refine (toDays_lt_of_monthNumber (isDay_inMonth m hday) (isDay_inMonth n hday) ?_).le
    rw [monthNumber_inMonth, monthNumber_inMonth]
    omega
  · exact le_rfl

/-- Whether a year is one the calendar covers. -/
def InCalendar (d : Date) : Prop := leastYear ≤ d.year ∧ d.year ≤ greatestYear

instance (d : Date) : Decidable d.InCalendar := inferInstanceAs (Decidable (_ ∧ _))

theorem exists_iff {d : Date} : d.Exists ↔ d.InCalendar ∧ d.IsDay := by
  constructor
  · rintro ⟨hleast, hgreatest, hmonth, hmonth', hday, hday'⟩
    exact ⟨⟨hleast, hgreatest⟩, hmonth, hmonth', hday, hday'⟩
  · rintro ⟨⟨hleast, hgreatest⟩, hmonth, hmonth', hday, hday'⟩
    exact ⟨hleast, hgreatest, hmonth, hmonth', hday, hday'⟩

theorem monthsBefore?_eq {d : Date} (h : d.IsDay) (months : Nat) :
    d.monthsBefore? months =
      if (inMonth (d.monthNumber - 1 - months) d.day).InCalendar then
        some (inMonth (d.monthNumber - 1 - months) d.day)
      else none := by
  have htotal : d.year * 12 + (d.month : Int) - 1 - months = d.monthNumber - 1 - months := by
    unfold monthNumber
    omega
  have hmonth : (inMonth (d.monthNumber - 1 - months) d.day).IsDay := isDay_inMonth _ h.day_pos
  simp only [monthsBefore?, ofParts?, htotal]
  show (if (inMonth (d.monthNumber - 1 - months) d.day).Exists then _ else _) = _
  simp only [exists_iff, hmonth, and_true]
  rfl

end Date

namespace Delta

/-- The date of a time on the clock, in seconds from 1970-01-01 there. -/
def dateAt (time : Int) : Date := Date.ofDays (time / daySeconds)

/-- Whether a time on the clock is some months earlier than another: at the same time of day, and on
the same day of the month or the last one of a shorter month. -/
structure IsMonthsEarlier (months : Nat) (time earlier : Int) : Prop where
  timeOfDay : earlier % daySeconds = time % daySeconds
  month : (dateAt earlier).monthNumber = (dateAt time).monthNumber - months
  day : (dateAt earlier).day =
    min (dateAt time).day (Date.daysInMonth (dateAt earlier).year (dateAt earlier).month)

/-- The time on the clock some months earlier. -/
def monthsEarlier (months : Nat) (time : Int) : Int :=
  (Date.inMonth ((dateAt time).monthNumber - 1 - months) (dateAt time).day).toDays * daySeconds +
    time % daySeconds

theorem dateAt_monthsEarlier (months : Nat) (time : Int) : dateAt (monthsEarlier months time) =
    Date.inMonth ((dateAt time).monthNumber - 1 - months) (dateAt time).day := by
  have hdays : monthsEarlier months time / daySeconds =
      (Date.inMonth ((dateAt time).monthNumber - 1 - months) (dateAt time).day).toDays := by
    unfold monthsEarlier daySeconds
    omega
  rw [dateAt, hdays]
  exact Date.ofDays_toDays (Date.isDay_inMonth _ (Date.isDay_ofDays _).day_pos)

theorem isMonthsEarlier_iff {months : Nat} {time earlier : Int} :
    IsMonthsEarlier months time earlier ↔ earlier = monthsEarlier months time := by
  constructor
  · rintro ⟨htimeOfDay, hmonth, hday⟩
    have hisDay : (dateAt earlier).IsDay := Date.isDay_ofDays _
    have hpos : 1 ≤ (dateAt time).day := (Date.isDay_ofDays _).day_pos
    have hnumber : (dateAt time).monthNumber - 1 - months = (dateAt earlier).monthNumber - 1 := by
      omega
    have hdate : dateAt earlier =
        Date.inMonth ((dateAt time).monthNumber - 1 - months) (dateAt time).day := by
      refine Date.eq_of_monthNumber hisDay (Date.isDay_inMonth _ hpos) ?_ ?_
      · rw [Date.monthNumber_inMonth]
        omega
      · rw [hday, hnumber, ← hisDay.lengthOf_eq]
        rfl
    have hdays : (dateAt earlier).toDays = earlier / daySeconds := Date.toDays_ofDays _
    rw [monthsEarlier, ← hdate, hdays, ← htimeOfDay]
    exact (Int.ediv_mul_add_emod earlier daySeconds).symm
  · rintro rfl
    have hdate := dateAt_monthsEarlier months time
    refine ⟨?_, ?_, ?_⟩
    · unfold monthsEarlier daySeconds
      omega
    · rw [hdate, Date.monthNumber_inMonth]
      omega
    · rw [hdate]
      rfl

/-- More months earlier is earlier. -/
theorem monthsEarlier_antitone {m n : Nat} (h : m ≤ n) (time : Int) :
    monthsEarlier n time ≤ monthsEarlier m time := by
  have hdays : (Date.inMonth ((dateAt time).monthNumber - 1 - n) (dateAt time).day).toDays ≤
      (Date.inMonth ((dateAt time).monthNumber - 1 - m) (dateAt time).day).toDays :=
    Date.toDays_inMonth_mono (by omega) (Date.isDay_ofDays _).day_pos
  unfold monthsEarlier daySeconds
  omega

/-- Going back a month takes at least 28 days, but for those that the end of a month takes off. -/
theorem monthsEarlier_le (months : Nat) (time : Int) :
    monthsEarlier months time + (28 * months - 31) * daySeconds ≤ time := by
  have hisDay : (dateAt time).IsDay := Date.isDay_ofDays _
  have hisDay' := Date.isDay_inMonth ((dateAt time).monthNumber - 1 - months) hisDay.day_pos
  have hfirst := Date.toDays_firstOf_add ((dateAt time).monthNumber - 1 - months) months
  have hday := hisDay'.day_le.trans (Date.daysInMonth_bounds _ _).2
  have hearlier := hisDay'.toDays_eq_firstOf
  have hlater := hisDay.toDays_eq_firstOf
  have hdays : (dateAt time).toDays = time / daySeconds := Date.toDays_ofDays _
  rw [Date.monthNumber_inMonth, add_sub_cancel_right] at hearlier
  rw [sub_add_cancel] at hfirst
  have hpos := hisDay.day_pos
  unfold monthsEarlier daySeconds
  unfold daySeconds at hdays
  omega

/-! ## Instants of a zone of fixed offset -/

variable {offset now : Int} {months : Nat}

/-- Whether the calendar covers an instant and its date on a clock that is ahead by an offset. -/
def IsCovered (offset instant : Int) : Prop :=
  Zone.isCovered instant = true ∧ (dateAt (instant + offset)).InCalendar

instance (offset instant : Int) : Decidable (IsCovered offset instant) :=
  inferInstanceAs (Decidable (_ ∧ _))

theorem natAbs_of_isCovered {instant : Int} (h : Zone.isCovered instant = true) :
    instant.natAbs < 2 ^ 43 := by
  have hleast : -2 ^ 43 < (Date.mk Date.leastYear 1 1).toDays * daySeconds := by decide
  have hgreatest : ((Date.mk Date.greatestYear 12 31).toDays + 1) * daySeconds < 2 ^ 43 := by decide
  simp only [Zone.isCovered, Bool.and_eq_true, decide_eq_true_eq] at h
  omega

/-- In a zone of fixed offset the instant some months earlier is that of the earlier time on the
clock, if it is covered. -/
theorem monthsBefore?_fixed {shifted : Int} :
    monthsBefore? (.fixed offset) now months = some shifted ↔
      IsCovered offset (monthsEarlier months (now / 1000 + offset) - offset) ∧
        shifted = (monthsEarlier months (now / 1000 + offset) - offset) * 1000 + now % 1000 := by
  have hclock : (Zone.fixed offset).localTime (now / 1000) = now / 1000 + offset := rfl
  generalize now / 1000 + offset = time at hclock ⊢
  have hdate := dateAt_monthsEarlier months time
  have hback : (dateAt time).monthsBefore? months =
      if (dateAt (monthsEarlier months time)).InCalendar then
        some (dateAt (monthsEarlier months time))
      else none := by
    rw [hdate]
    exact Date.monthsBefore?_eq (Date.isDay_ofDays _) months
  have hinstant : (dateAt (monthsEarlier months time)).toDays * daySeconds + time % daySeconds =
      monthsEarlier months time := by
    rw [hdate, monthsEarlier]
  have honly : (Zone.fixed offset).only? (monthsEarlier months time) =
      if Zone.isCovered (monthsEarlier months time - offset) then
        some (monthsEarlier months time - offset)
      else none := rfl
  unfold dateAt at hback hinstant
  simp only [monthsBefore?, hclock, hback, IsCovered, sub_add_cancel, dateAt]
  by_cases hcalendar : (Date.ofDays (monthsEarlier months time / daySeconds)).InCalendar
  · by_cases hcovered : Zone.isCovered (monthsEarlier months time - offset) = true
    · simp [hcalendar, hinstant, honly, hcovered, eq_comm]
    · simp [hcalendar, hinstant, honly, hcovered]
  · simp [hcalendar]

/-! ## Timestamps -/

theorem isCovered_of_only? {zone : Zone} {time instant : Int} (h : zone.only? time = some instant) :
    Zone.isCovered instant = true := by
  unfold Zone.only? at h
  split at h
  · split at h
    · next hcovered =>
      cases h
      exact hcovered
    · cases h
  · cases h

/-- A span is never taken back to a NaN. -/
theorem before_ne_nan {d : Delta} {zone : Zone} {now : Int} {literal : String}
    {timestamp : Binary64} (hdigits : d.HasDigits)
    (h : d.before zone now literal = .ok timestamp) : timestamp ≠ .nan := by
  obtain ⟨-, shifted, hshifted, htimestamp⟩ := (hdigits.isCounted h).before_eq_ok_iff.1 h
  obtain ⟨date, -, hshifted⟩ := Option.bind_eq_some_iff.1 hshifted
  obtain ⟨instant, hinstant, hshifted⟩ := Option.bind_eq_some_iff.1 hshifted
  cases hshifted
  have hcovered := natAbs_of_isCovered (isCovered_of_only? hinstant)
  obtain ⟨negative, units, hmillis⟩ := Binary64.ofInt_div_finite (n := 1000)
    (i := instant * 1000 + now % 1000) (by omega) (by decide) (by decide)
  have hfinite : timestampOfMillis (instant * 1000 + now % 1000) = .finite negative units := hmillis
  rw [htimestamp, hfinite]
  exact Binary64.sub_ne_nan _ _ (isSpan_fixedSum d).1

variable {d : Delta} {literal : String} {timestamp : Binary64}

/-- The instant that the months of a span lead back to, before a reference in milliseconds. -/
def instantBefore (offset now : Int) (months : Nat) : Int :=
  monthsEarlier months (now / 1000 + offset) - offset

theorem timestampOfMillis_whole {instant : Int} (h : Zone.isCovered instant = true) :
    timestampOfMillis (instant * 1000) = .ofInt instant := by
  have hbound := natAbs_of_isCovered h
  exact Binary64.ofInt_div (n := 1000) (by decide) (by decide) (by omega)

/-- What it takes for a span to be taken back from a whole second, and the exact timestamp then. -/
theorem before_whole (h : d.IsCounted) (hwhole : now % 1000 = 0) (hbound : d.secondTotal < 2 ^ 52) :
    d.before (.fixed offset) now literal = .ok timestamp ↔
      d.monthTotal < 2 ^ 32 ∧ IsCovered offset (instantBefore offset now d.monthTotal) ∧
        timestamp = .ofInt (instantBefore offset now d.monthTotal - d.secondTotal) := by
  have hexact (hcovered : Zone.isCovered (instantBefore offset now d.monthTotal) = true) :
      timestampOfMillis (instantBefore offset now d.monthTotal * 1000) - d.fixedSum =
        .ofInt (instantBefore offset now d.monthTotal - d.secondTotal) := by
    have hinstant := natAbs_of_isCovered hcovered
    rw [timestampOfMillis_whole hcovered, fixedSum_whole hbound]
    exact Binary64.ofInt_sub (by omega) (by omega) (by omega)
  simp only [h.before_eq_ok_iff, monthsBefore?_fixed, hwhole, add_zero]
  constructor
  · rintro ⟨hmonths, _, ⟨hcovered, rfl⟩, htimestamp⟩
    exact ⟨hmonths, hcovered, htimestamp.trans (hexact hcovered.1)⟩
  · rintro ⟨hmonths, hcovered, htimestamp⟩
    exact ⟨hmonths, _, ⟨hcovered, rfl⟩, htimestamp.trans (hexact hcovered.1).symm⟩

/-- A span whose months lead from a covered instant to a covered one has few months. -/
theorem monthTotal_lt (hnow : Zone.isCovered (now / 1000) = true)
    (hcovered : Zone.isCovered (instantBefore offset now months) = true) : months < 2 ^ 32 := by
  have hle := monthsEarlier_le months (now / 1000 + offset)
  have hnow' := natAbs_of_isCovered hnow
  have hinstant := natAbs_of_isCovered hcovered
  unfold instantBefore at hinstant
  unfold daySeconds at hle
  omega

theorem HasAsciiDigits.isCounted_of_lt (h : d.HasAsciiDigits) (hmonths : d.monthTotal < 2 ^ 32)
    (hbound : d.secondTotal < 2 ^ 52) : d.IsCounted := by
  refine h.isCounted fun unit => ?_
  unfold monthTotal at hmonths
  unfold secondTotal at hbound
  cases unit <;> omega

/-- A span before a whole second, in a zone of fixed offset. There is exactly one instant as many
months earlier; if the calendar covers it, the span is taken back and its timestamp is that many
seconds before this instant, exactly. Only the totals of the span count. -/
theorem before_calendar (offset now : Int) {text : List Char} (hascii : d.HasAsciiDigits)
    (hspells : d.Spells text) (hwhole : now % 1000 = 0) (hnow : Zone.isCovered (now / 1000) = true)
    (hbound : d.secondTotal < 2 ^ 52) :
    read? text = some d ∧
      (∃! instant, IsMonthsEarlier d.monthTotal (now / 1000 + offset) (instant + offset)) ∧
      ∀ instant, IsMonthsEarlier d.monthTotal (now / 1000 + offset) (instant + offset) →
        IsCovered offset instant →
        ∃ timestamp, d.before (.fixed offset) now (String.ofList text) = .ok timestamp ∧
          timestamp.place = some ((instant - d.secondTotal) * Binary64.one) ∧
          ∀ (other : Delta) (text' : List Char), other.HasAsciiDigits → other.Spells text' →
            other.monthTotal = d.monthTotal → other.secondTotal = d.secondTotal →
            read? text' = some other ∧
              other.before (.fixed offset) now (String.ofList text') = .ok timestamp := by
  refine ⟨read?_eq_some_iff.2 ⟨hascii.hasDigits, hspells⟩, ?_, ?_⟩
  · refine ⟨instantBefore offset now d.monthTotal, ?_, ?_⟩
    · exact isMonthsEarlier_iff.2 (sub_add_cancel _ _)
    · intro instant hinstant
      exact eq_sub_of_add_eq (isMonthsEarlier_iff.1 hinstant)
  · intro instant hinstant hcovered
    obtain rfl : instant = instantBefore offset now d.monthTotal :=
      eq_sub_of_add_eq (isMonthsEarlier_iff.1 hinstant)
    have hmonths := monthTotal_lt hnow hcovered.1
    have hplace := natAbs_of_isCovered hcovered.1
    have same {other : Delta} (literal : String) (h : other.HasAsciiDigits)
        (hmonthTotal : other.monthTotal = d.monthTotal)
        (hsecondTotal : other.secondTotal = d.secondTotal) :
        other.before (.fixed offset) now literal =
          .ok (.ofInt (instantBefore offset now d.monthTotal - d.secondTotal)) := by
      rw [← hmonthTotal] at hmonths hcovered ⊢
      rw [← hsecondTotal] at hbound ⊢
      exact (before_whole (h.isCounted_of_lt hmonths hbound) hwhole hbound).2
        ⟨hmonths, hcovered, rfl⟩
    refine ⟨_, same _ hascii rfl rfl, Binary64.place_ofInt (by omega), ?_⟩
    intro other text' hother hspells' hmonthTotal hsecondTotal
    exact ⟨read?_eq_some_iff.2 ⟨hother.hasDigits, hspells'⟩,
      same _ hother hmonthTotal hsecondTotal⟩

/-- A month and a week before noon of 31 March 2024: the day after 28 February, less seven days. -/
theorem before_calendar_leap_day :
    let d : Delta := ⟨none, some ['1'], some ['1'], none, none, none, none⟩
    ∃ timestamp, read? "1M1w".toList = some d ∧
      d.before (.fixed 0) 1711886400000 "1M1w" = .ok timestamp ∧
      timestamp.place = some (((1709208000 : Int) - d.secondTotal) * Binary64.one) ∧
      dateAt 1709208000 = ⟨2024, 2, 29⟩ := by
  intro d
  have hone : ∀ c ∈ ['1'], Whole.isDigit c = true := List.all_eq_true.1 rfl
  have hascii : d.HasAsciiDigits := by
    intro unit digits hdigits
    cases unit <;> cases hdigits <;> exact ⟨List.cons_ne_nil _ _, hone⟩
  have hspells : d.Spells "1M1w".toList := ⟨fun unit => unit = .months, by decide⟩
  obtain ⟨hread, -, hbefore⟩ := before_calendar 0 1711886400000 hascii hspells (by decide)
    (by decide) (by decide)
  obtain ⟨timestamp, hok, hplace, -⟩ := hbefore 1709208000 ⟨by decide, by decide, by decide⟩
    ⟨by decide, by decide⟩
  exact ⟨timestamp, hread, hok, hplace, by decide⟩

/-- A span of which another has at least as many of each unit reaches at least as far back. -/
theorem before_antitone {d₁ d₂ : Delta} (hdigits₁ : d₁.HasDigits) (hdigits₂ : d₂.HasDigits)
    {literal₁ literal₂ : String} {timestamp₁ timestamp₂ : Binary64} (hwhole : now % 1000 = 0)
    (h₁ : d₁.before (.fixed offset) now literal₁ = .ok timestamp₁)
    (h₂ : d₂.before (.fixed offset) now literal₂ = .ok timestamp₂)
    (hle : ∀ unit, d₂.amount unit ≤ d₁.amount unit) (hbound : d₁.secondTotal < 2 ^ 52) :
    timestamp₁.le timestamp₂ = true := by
  have hmonths : d₂.monthTotal ≤ d₁.monthTotal :=
    Nat.add_le_add (Nat.mul_le_mul_left 12 (hle .years)) (hle .months)
  have hseconds : d₂.secondTotal ≤ d₁.secondTotal := by
    have hweeks := hle .weeks
    have hdays := hle .days
    have hhours := hle .hours
    have hminutes := hle .minutes
    have hrest := hle .seconds
    unfold secondTotal
    omega
  obtain ⟨-, hcovered₁, htimestamp₁⟩ := (before_whole (hdigits₁.isCounted h₁) hwhole hbound).1 h₁
  obtain ⟨-, hcovered₂, htimestamp₂⟩ :=
    (before_whole (hdigits₂.isCounted h₂) hwhole (hseconds.trans_lt hbound)).1 h₂
  have hinstant₁ := natAbs_of_isCovered hcovered₁.1
  have hinstant₂ := natAbs_of_isCovered hcovered₂.1
  have hearlier := monthsEarlier_antitone hmonths (now / 1000 + offset)
  rw [htimestamp₁, htimestamp₂]
  refine Binary64.le_ofInt (by omega) (by omega) ?_
  unfold instantBefore
  omega

end Delta
end DownloadQuery

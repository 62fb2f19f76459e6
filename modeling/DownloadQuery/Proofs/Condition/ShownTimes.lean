import DownloadQuery.Display.Moment
import DownloadQuery.Proofs.Calendar.DateSpellings
import DownloadQuery.Proofs.Condition.TimeLiterals
import Mathlib

/-!
# Times as they are shown

The text that shows a timestamp is a literal of this timestamp, in a zone of fixed offset and for
years of four digits: the date is written with dashes, and the time of day with all its parts. As
the literal of a condition it is never taken for a bare number or a span
(`Leaf.read_shown`).
-/

namespace DownloadQuery

namespace DateLiteral.Written

variable {seconds : Int} (h : 0 ≤ (Date.ofDays (seconds / daySeconds)).year ∧
  (Date.ofDays (seconds / daySeconds)).year ≤ 9999)

/-- A local time, in seconds from local 1970-01-01, with all that is written of it. -/
def ofLocal : Written where
  year := (Date.ofDays (seconds / daySeconds)).year.toNat
  month := (Date.ofDays (seconds / daySeconds)).month
  day := (Date.ofDays (seconds / daySeconds)).day
  clock :=
    let rest := (seconds % daySeconds).toNat
    [rest / 3600, rest / 60 % 60, rest % 60]
  year_lt := by omega
  month_lt := (Date.isDay_ofDays _).month_le.trans_lt (by decide)
  day_lt := by
    have hday := (Date.isDay_ofDays (seconds / daySeconds)).day_le
    have hlength := (Date.daysInMonth_bounds (Date.ofDays (seconds / daySeconds)).year
      (Date.ofDays (seconds / daySeconds)).month).2
    omega
  clock_length := le_rfl
  clock_lt := by
    have hrest : (seconds % daySeconds).toNat < 86400 := by unfold daySeconds; omega
    simp only [List.forall_mem_cons]
    exact ⟨by omega, by omega, by omega, nofun⟩

theorem date_ofLocal : (ofLocal h).date = Date.ofDays (seconds / daySeconds) := by
  have hyear : (((Date.ofDays (seconds / daySeconds)).year.toNat : Nat) : Int) =
    (Date.ofDays (seconds / daySeconds)).year := Int.toNat_of_nonneg h.1
  rw [date, ofLocal, hyear]

theorem isMoment_ofLocal : (ofLocal h).IsMoment where
  isDay := date_ofLocal h ▸ Date.isDay_ofDays _
  hour_lt := by
    show (seconds % daySeconds).toNat / 3600 < 24
    unfold daySeconds
    omega
  minute_lt := Nat.mod_lt _ (by decide)
  second_lt := Nat.mod_lt _ (by decide)

theorem localTime_ofLocal : (ofLocal h).localTime = seconds := by
  have hdays : (ofLocal h).date.toDays = seconds / daySeconds := by
    rw [date_ofLocal, Date.toDays_ofDays]
  have hhour : (ofLocal h).hour = (seconds % daySeconds).toNat / 3600 := rfl
  have hminute : (ofLocal h).minute = (seconds % daySeconds).toNat / 60 % 60 := rfl
  have hsecond : (ofLocal h).second = (seconds % daySeconds).toNat % 60 := rfl
  rw [localTime, hdays, hhour, hminute, hsecond]
  unfold daySeconds
  omega

/-- What is shown of a local time is the literal with dashes and a blank before the time of day. -/
theorem text_ofLocal : (ofLocal h).text .dashed ' ' = Display.localTime seconds := by
  have hyear : Display.year (Date.ofDays (seconds / daySeconds)).year =
      Display.zeroPadded 4 (Date.ofDays (seconds / daySeconds)).year.toNat := if_pos h
  apply String.toList_injective
  simp only [Display.localTime, Display.date, Display.timeOfDay, hyear, String.toList_append]
  simp [text, dateText, clockText, partText, ofLocal, Spelling.dashed, List.intercalate_cons_cons]

include h in
/-- What is shown starts with the year. -/
theorem exists_cons_localTime :
    ∃ c rest, (Display.localTime seconds).toList = c :: rest ∧ Whole.isDigit c = true := by
  obtain ⟨c, digits, hdigits, hc⟩ :=
    (Display.isNumeral_zeroPadded 4 (Date.ofDays (seconds / daySeconds)).year.toNat).exists_cons
  have hyear : Display.year (Date.ofDays (seconds / daySeconds)).year =
      Display.zeroPadded 4 (Date.ofDays (seconds / daySeconds)).year.toNat := if_pos h
  simp only [Display.localTime, Display.date, hyear, String.toList_append, hdigits,
    List.cons_append]
  exact ⟨c, _, rfl, hc⟩

end DateLiteral.Written

variable {offset t : Int}

theorem Display.moment_eq (hoffset : offset.natAbs ≤ 2 ^ 31)
    (h : 0 ≤ (Date.ofDays ((t + offset) / daySeconds)).year ∧
      (Date.ofDays ((t + offset) / daySeconds)).year ≤ 9999) :
    moment (.fixed offset) (.ofInt t) = localTime (t + offset) := by
  have hbound := (DateLiteral.Written.isMoment_ofLocal h).natAbs_localTime
  rw [DateLiteral.Written.localTime_ofLocal] at hbound
  have hcovered : Zone.isCovered t = true := DateLiteral.isCovered_of_natAbs (by omega)
  rw [moment, Binary64.toInt64_ofInt (by omega), if_pos hcovered]
  rfl

/-- The text that shows a timestamp is read as it. -/
theorem DateLiteral.read_moment (hoffset : offset.natAbs ≤ 2 ^ 31)
    (h : 0 ≤ (Date.ofDays ((t + offset) / daySeconds)).year ∧
      (Date.ofDays ((t + offset) / daySeconds)).year ≤ 9999) :
    read (.fixed offset) (Display.moment (.fixed offset) (.ofInt t)) = .ok (.ofInt t) := by
  rw [Display.moment_eq hoffset h, ← Written.text_ofLocal h,
    read_text hoffset _ (by simp [spellings]) (by decide), Written.localTime_ofLocal,
    Int.add_sub_cancel]
  exact ⟨Written.isMoment_ofLocal h, rfl⟩

/-- A text that starts with a digit has no sign. -/
theorem Comparison.splitSign_of_isDigit {text : List Char} {c : Char} {rest : List Char}
    (htext : text = c :: rest) (hc : Whole.isDigit c = true) : splitSign text = (.equal, text) := by
  subst htext
  unfold splitSign
  split
  · next heq =>
    cases heq
    exact absurd hc (by decide)
  · next heq =>
    cases heq
    exact absurd hc (by decide)
  · rfl

/-- A date without a sign is the literal of a condition that asks for just this time. -/
theorem Leaf.read_date {zone : Zone} {text : String} {time : Binary64}
    (hsign : Comparison.splitSign text.toList = (.equal, text.toList))
    (hread : DateLiteral.read zone text = .ok time) (now : Int) (field : Field) {family : Family}
    (hfamily : family ∈ [Family.time, .timeNotNull]) : Leaf.read ⟨zone, now⟩ family field text =
      .ok ⟨field, text, .time .equal time (family == .timeNotNull), false⟩ := by
  have hpoint : Test.readPoint ⟨zone, now⟩ text.toList = .ok (.date time) :=
    Test.readPoint_date (by rwa [String.ofList_toList])
  simp only [List.mem_cons, List.not_mem_nil, or_false] at hfamily
  rcases hfamily with rfl | rfl
  all_goals
    simp only [Leaf.read, Test.ofLiteral, hsign, hpoint, Except.map, Test.timeOf]
    rfl

/-- The text that shows a timestamp of a year of four digits is a literal of this timestamp: as a
date, and as the literal of a condition that asks for just this time, whatever time it is now. -/
theorem Leaf.read_shown (hoffset : offset.natAbs ≤ 2 ^ 31)
    (h : 0 ≤ (Date.ofDays ((t + offset) / daySeconds)).year ∧
      (Date.ofDays ((t + offset) / daySeconds)).year ≤ 9999) :
    let text := Display.moment (.fixed offset) (.ofInt t)
    DateLiteral.read (.fixed offset) text = .ok (.ofInt t) ∧
      ∀ (now : Int) (field : Field), ∀ family ∈ [Family.time, .timeNotNull],
        Leaf.read ⟨.fixed offset, now⟩ family field text =
          .ok ⟨field, text, .time .equal (.ofInt t) (family == .timeNotNull), false⟩ := by
  intro text
  have hread : DateLiteral.read (.fixed offset) text = .ok (.ofInt t) :=
    DateLiteral.read_moment hoffset h
  have hsign : Comparison.splitSign text.toList = (.equal, text.toList) := by
    obtain ⟨c, rest, htext, hc⟩ := DateLiteral.Written.exists_cons_localTime h
    rw [← Display.moment_eq hoffset h] at htext
    exact Comparison.splitSign_of_isDigit htext hc
  exact ⟨hread, fun now field family hfamily => Leaf.read_date hsign hread now field hfamily⟩

/-- Half a minute before 1970 in universal time, on a clock one hour behind it. -/
theorem Leaf.read_shown_evening :
    let text := Display.moment (.fixed (-3600)) (.ofInt (-30))
    text = "1969-12-31 22:59:30" ∧ DateLiteral.read (.fixed (-3600)) text = .ok (.ofInt (-30)) ∧
      ∀ (now : Int) (field : Field), ∀ family ∈ [Family.time, .timeNotNull],
        Leaf.read ⟨.fixed (-3600), now⟩ family field text =
          .ok ⟨field, text, .time .equal (.ofInt (-30)) (family == .timeNotNull), false⟩ := by
  have hoffset : (-3600 : Int).natAbs ≤ 2 ^ 31 := by decide
  have hyear : 0 ≤ (Date.ofDays ((-30 + -3600) / daySeconds)).year ∧
      (Date.ofDays ((-30 + -3600) / daySeconds)).year ≤ 9999 := by decide
  have hshown : Display.moment (.fixed (-3600)) (.ofInt (-30)) = "1969-12-31 22:59:30" := by
    rw [Display.moment_eq hoffset hyear]
    decide
  exact ⟨hshown, Leaf.read_shown hoffset hyear⟩

end DownloadQuery

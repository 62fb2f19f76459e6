import DownloadQuery.Calendar.Delta
import DownloadQuery.Number.Decimal
import DownloadQuery.Proofs.Number.Digits
import DownloadQuery.Proofs.Number.WholeNumbers
import DownloadQuery.Proofs.Steps
import Mathlib

/-!
# The texts of spans

A text is read as a span just when it spells it: the counts of the units that are given, each with
its letter in either case, in the order of the units (`Delta.read?_eq_some_iff`). A span whose
counts are ASCII digits has an amount of each unit, and its months and its seconds are the totals of
these.
-/

namespace DownloadQuery

/-- The units of a span. -/
inductive TimeUnit where
  | years
  | months
  | weeks
  | days
  | hours
  | minutes
  | seconds
  deriving DecidableEq, Repr

namespace TimeUnit

def letter : TimeUnit → Char
  | .years => 'y'
  | .months => 'm'
  | .weeks => 'w'
  | .days => 'd'
  | .hours => 'h'
  | .minutes => 'i'
  | .seconds => 's'

/-- The units in the order they are written. -/
def all : List TimeUnit := [.years, .months, .weeks, .days, .hours, .minutes, .seconds]

/-- Whether a character stands for the unit. -/
def IsNamedBy (unit : TimeUnit) (c : Char) : Prop := c = unit.letter ∨ c = unit.letter.toUpper

instance (unit : TimeUnit) (c : Char) : Decidable (unit.IsNamedBy c) :=
  inferInstanceAs (Decidable (_ ∨ _))

/-- The letter of a unit in either case. -/
def name (unit : TimeUnit) (capital : Bool) : Char :=
  if capital then unit.letter.toUpper else unit.letter

theorem isNamedBy_iff {unit : TimeUnit} {c : Char} :
    unit.IsNamedBy c ↔ ∃ capital, c = unit.name capital := by
  simp [IsNamedBy, name]

/-- No letter stands for two units. -/
theorem isNamedBy_name {unit other : TimeUnit} (h : unit ≠ other) (capital : Bool) :
    ¬ unit.IsNamedBy (other.name capital) := by
  have hall : ∀ unit other : TimeUnit, unit ≠ other → ∀ capital,
      ¬ unit.IsNamedBy (other.name capital) := by
    intro unit other
    cases unit <;> cases other <;> decide
  exact hall unit other h capital

end TimeUnit

namespace Delta

/-- The digits given for a unit, if any. -/
def digits (d : Delta) : TimeUnit → Option (List Char)
  | .years => d.years
  | .months => d.months
  | .weeks => d.weeks
  | .days => d.days
  | .hours => d.hours
  | .minutes => d.minutes
  | .seconds => d.seconds

/-- How many of a unit a span has; a missing count is zero. -/
def amount (d : Delta) (unit : TimeUnit) : Nat := ((d.digits unit).map Decimal.natOfDigits).getD 0

/-- The years and months of a span in months. -/
def monthTotal (d : Delta) : Nat := 12 * d.amount .years + d.amount .months

/-- The weeks, days, hours, minutes and seconds of a span in seconds. -/
def secondTotal (d : Delta) : Nat :=
  604800 * d.amount .weeks + 86400 * d.amount .days + 3600 * d.amount .hours +
    60 * d.amount .minutes + d.amount .seconds

/-- A count as it is written. -/
def part (unit : TimeUnit) (capital : Bool) : Option (List Char) → List Char
  | none => []
  | some digits => digits ++ [unit.name capital]

/-- The counts of some units as they are written. -/
def spelling (d : Delta) (capital : TimeUnit → Bool) (units : List TimeUnit) : List Char :=
  units.flatMap fun unit => part unit (capital unit) (d.digits unit)

/-- Whether each count that is given is a run of digits, of any script. -/
def HasDigits (d : Delta) : Prop :=
  ∀ unit digits, d.digits unit = some digits →
    digits ≠ [] ∧ ∀ c ∈ digits, Text.isDecimalDigit c = true

/-- Whether each count that is given is a run of ASCII digits. -/
def HasAsciiDigits (d : Delta) : Prop :=
  ∀ unit digits, d.digits unit = some digits → digits ≠ [] ∧ ∀ c ∈ digits, Whole.isDigit c = true

/-- Whether a text writes a span out, its letters in either case. -/
def Spells (d : Delta) (text : List Char) : Prop :=
  ∃ capital, text = d.spelling capital TimeUnit.all

/-! ## Reading -/

theorem isDecimalDigit_name (unit : TimeUnit) (capital : Bool) :
    Text.isDecimalDigit (unit.name capital) = false := by
  cases unit <;> cases capital <;> decide

/-- Whether a text does not start with a count of the unit. -/
def IsForeign (unit : TimeUnit) (text : List Char) : Prop :=
  ∀ c, (text.dropWhile Text.isDecimalDigit).head? = some c → ¬ unit.IsNamedBy c

theorem readUnit_foreign {unit : TimeUnit} {text : List Char} (h : IsForeign unit text) :
    readUnit unit.letter text = (none, text) := by
  unfold readUnit
  split
  · rfl
  · next c rest hdrop =>
    have hc : ¬ unit.IsNamedBy c := h c (by rw [hdrop]; rfl)
    exact if_neg fun hnamed => hc hnamed.2

theorem readUnit_digits {unit : TimeUnit} {digits : List Char} (hne : digits ≠ [])
    (hdigits : ∀ c ∈ digits, Text.isDecimalDigit c = true) (capital : Bool) (rest : List Char) :
    readUnit unit.letter (digits ++ unit.name capital :: rest) = (some digits, rest) := by
  have hname : unit.IsNamedBy (unit.name capital) := TimeUnit.isNamedBy_iff.2 ⟨capital, rfl⟩
  have htake : (digits ++ unit.name capital :: rest).takeWhile Text.isDecimalDigit = digits := by
    rw [List.takeWhile_append_of_pos hdigits,
      List.takeWhile_cons_of_neg (by simp [isDecimalDigit_name]), List.append_nil]
  have hdrop : (digits ++ unit.name capital :: rest).dropWhile Text.isDecimalDigit =
      unit.name capital :: rest := by
    rw [List.dropWhile_append_of_pos hdigits,
      List.dropWhile_cons_of_neg (by simp [isDecimalDigit_name])]
  simp only [readUnit, htake, hdrop]
  exact if_pos ⟨hne, hname⟩

variable {d : Delta} {capital : TimeUnit → Bool}

theorem spelling_none {unit : TimeUnit} (h : d.digits unit = none) (units : List TimeUnit) :
    d.spelling capital (unit :: units) = d.spelling capital units := by
  simp [spelling, h, part]

theorem spelling_some {unit : TimeUnit} {digits : List Char} (h : d.digits unit = some digits)
    (units : List TimeUnit) : d.spelling capital (unit :: units) =
      digits ++ unit.name (capital unit) :: d.spelling capital units := by
  simp [spelling, h, part]

/-- Later units do not start with a count of an earlier one. -/
theorem isForeign_spelling (h : d.HasDigits) {unit : TimeUnit} {units : List TimeUnit}
    (hunit : unit ∉ units) : IsForeign unit (d.spelling capital units) := by
  induction units with
  | nil => exact fun c hc => by simp [spelling] at hc
  | cons other units ih =>
    obtain ⟨hne, hrest⟩ : unit ≠ other ∧ unit ∉ units := by simpa using hunit
    cases hdigits : d.digits other with
    | none =>
      rw [spelling_none hdigits]
      exact ih hrest
    | some digits =>
      intro c hc
      rw [spelling_some hdigits, List.dropWhile_append_of_pos (h other digits hdigits).2,
        List.dropWhile_cons_of_neg (by simp [isDecimalDigit_name])] at hc
      cases hc
      exact TimeUnit.isNamedBy_name hne _

theorem readUnit_spelling (h : d.HasDigits) {unit : TimeUnit} {units : List TimeUnit}
    (hunit : unit ∉ units) : readUnit unit.letter (d.spelling capital (unit :: units)) =
      (d.digits unit, d.spelling capital units) := by
  cases hdigits : d.digits unit with
  | none =>
    rw [spelling_none hdigits]
    exact readUnit_foreign (isForeign_spelling h hunit)
  | some digits =>
    obtain ⟨hne, hall⟩ := h unit digits hdigits
    rw [spelling_some hdigits]
    exact readUnit_digits hne hall _ _

/-- What is taken off the front of a text is a count of the unit. -/
theorem readUnit_eq (unit : TimeUnit) {text rest : List Char} {count : Option (List Char)}
    (h : readUnit unit.letter text = (count, rest)) :
    (∃ capital, text = part unit capital count ++ rest) ∧
      ∀ digits, count = some digits → digits ≠ [] ∧ ∀ c ∈ digits, Text.isDecimalDigit c = true := by
  unfold readUnit at h
  split at h
  · cases h
    exact ⟨⟨false, rfl⟩, by simp⟩
  · next c rest' hdrop =>
    by_cases hcount : text.takeWhile Text.isDecimalDigit ≠ [] ∧
        (c = unit.letter ∨ c = unit.letter.toUpper)
    · rw [if_pos hcount] at h
      cases h
      obtain ⟨capital, rfl⟩ := TimeUnit.isNamedBy_iff.1 hcount.2
      refine ⟨⟨capital, ?_⟩, ?_⟩
      · conv_lhs => rw [← List.takeWhile_append_dropWhile (p := Text.isDecimalDigit) (l := text)]
        rw [hdrop, part, List.append_assoc]
        rfl
      · rintro digits ⟨⟩
        exact ⟨hcount.1, fun c hc => List.mem_takeWhile_imp hc⟩
    · rw [if_neg hcount] at h
      cases h
      exact ⟨⟨false, rfl⟩, by simp⟩

theorem read?_spelling (h : d.HasDigits) : read? (d.spelling capital TimeUnit.all) = some d := by
  have hyears : readUnit 'y' (d.spelling capital TimeUnit.all) =
      (d.years, d.spelling capital [.months, .weeks, .days, .hours, .minutes, .seconds]) :=
    readUnit_spelling h (by decide)
  have hmonths : readUnit 'm'
      (d.spelling capital [.months, .weeks, .days, .hours, .minutes, .seconds]) =
      (d.months, d.spelling capital [.weeks, .days, .hours, .minutes, .seconds]) :=
    readUnit_spelling h (by decide)
  have hweeks : readUnit 'w' (d.spelling capital [.weeks, .days, .hours, .minutes, .seconds]) =
      (d.weeks, d.spelling capital [.days, .hours, .minutes, .seconds]) :=
    readUnit_spelling h (by decide)
  have hdays : readUnit 'd' (d.spelling capital [.days, .hours, .minutes, .seconds]) =
      (d.days, d.spelling capital [.hours, .minutes, .seconds]) :=
    readUnit_spelling h (by decide)
  have hhours : readUnit 'h' (d.spelling capital [.hours, .minutes, .seconds]) =
      (d.hours, d.spelling capital [.minutes, .seconds]) :=
    readUnit_spelling h (by decide)
  have hminutes : readUnit 'i' (d.spelling capital [.minutes, .seconds]) =
      (d.minutes, d.spelling capital [.seconds]) :=
    readUnit_spelling h (by decide)
  have hseconds : readUnit 's' (d.spelling capital [.seconds]) = (d.seconds, []) :=
    readUnit_spelling h (by decide)
  simp only [read?, hyears, hmonths, hweeks, hdays, hhours, hminutes, hseconds, if_true]

theorem spells_of_read? {text : List Char} (h : read? text = some d) :
    d.HasDigits ∧ d.Spells text := by
  rcases hyears : readUnit 'y' text with ⟨years, afterYears⟩
  rcases hmonths : readUnit 'm' afterYears with ⟨months, afterMonths⟩
  rcases hweeks : readUnit 'w' afterMonths with ⟨weeks, afterWeeks⟩
  rcases hdays : readUnit 'd' afterWeeks with ⟨days, afterDays⟩
  rcases hhours : readUnit 'h' afterDays with ⟨hours, afterHours⟩
  rcases hminutes : readUnit 'i' afterHours with ⟨minutes, afterMinutes⟩
  rcases hseconds : readUnit 's' afterMinutes with ⟨seconds, afterSeconds⟩
  simp only [read?, hyears, hmonths, hweeks, hdays, hhours, hminutes, hseconds] at h
  split at h
  case isFalse => cases h
  case isTrue hend =>
    cases h
    obtain ⟨⟨y, rfl⟩, hyears⟩ := readUnit_eq .years hyears
    obtain ⟨⟨m, rfl⟩, hmonths⟩ := readUnit_eq .months hmonths
    obtain ⟨⟨w, rfl⟩, hweeks⟩ := readUnit_eq .weeks hweeks
    obtain ⟨⟨d, rfl⟩, hdays⟩ := readUnit_eq .days hdays
    obtain ⟨⟨h, rfl⟩, hhours⟩ := readUnit_eq .hours hhours
    obtain ⟨⟨i, rfl⟩, hminutes⟩ := readUnit_eq .minutes hminutes
    obtain ⟨⟨s, rfl⟩, hseconds⟩ := readUnit_eq .seconds hseconds
    subst hend
    refine ⟨fun unit => by cases unit <;> assumption, fun
      | .years => y
      | .months => m
      | .weeks => w
      | .days => d
      | .hours => h
      | .minutes => i
      | .seconds => s, ?_⟩
    rfl

/-- A text is read as a span just when it spells it. -/
theorem read?_eq_some_iff {text : List Char} :
    read? text = some d ↔ d.HasDigits ∧ d.Spells text := by
  refine ⟨spells_of_read?, ?_⟩
  rintro ⟨h, capital, rfl⟩
  exact read?_spelling h

/-! ## Characters -/

theorem mem_spelling {units : List TimeUnit} {c : Char} :
    c ∈ d.spelling capital units ↔
      ∃ unit ∈ units, ∃ digits, d.digits unit = some digits ∧
        (c ∈ digits ∨ c = unit.name (capital unit)) := by
  simp only [spelling, List.mem_flatMap]
  refine exists_congr fun unit => and_congr_right fun _ => ?_
  cases d.digits unit <;> simp [part]

/-- The characters of a span are digits and the letters of units. -/
theorem chars_of_read? {text : List Char} (h : read? text = some d) {c : Char} (hc : c ∈ text) :
    Text.isDecimalDigit c = true ∨ ∃ unit capital, c = TimeUnit.name unit capital := by
  obtain ⟨hdigits, capital, rfl⟩ := read?_eq_some_iff.1 h
  obtain ⟨unit, -, digits, hunit, hmem | rfl⟩ := mem_spelling.1 hc
  · exact .inl ((hdigits unit digits hunit).2 c hmem)
  · exact .inr ⟨unit, _, rfl⟩

/-- A span with a unit is no bare number. -/
theorem exists_name_of_read? {text : List Char} (h : read? text = some d) (hne : text ≠ []) :
    ∃ unit capital, TimeUnit.name unit capital ∈ text := by
  obtain ⟨hdigits, capital, rfl⟩ := read?_eq_some_iff.1 h
  obtain ⟨c, hc⟩ := List.exists_mem_of_ne_nil _ hne
  obtain ⟨unit, hunit, digits, hsome, -⟩ := mem_spelling.1 hc
  exact ⟨unit, capital unit, mem_spelling.2 ⟨unit, hunit, digits, hsome, .inr rfl⟩⟩

/-! ## Amounts -/

/-- Whether the counts of a span are its amounts: none is refused. -/
def IsCounted (d : Delta) : Prop := ∀ unit, count (d.digits unit) = .ok (d.amount unit)

theorem HasAsciiDigits.hasDigits (h : d.HasAsciiDigits) : d.HasDigits := by
  intro unit digits hdigits
  obtain ⟨hne, hall⟩ := h unit digits hdigits
  exact ⟨hne, fun c hc => Whole.isDecimalDigit_of_isDigit (hall c hc)⟩

theorem HasDigits.readNat_eq (h : d.HasDigits) {unit : TimeUnit} {digits : List Char}
    (hdigits : d.digits unit = some digits) (bound : Nat) :
    Whole.readNat bound digits = Whole.readDigits bound .tooLarge 0 digits := by
  obtain ⟨hne, hall⟩ := h unit digits hdigits
  refine Whole.readNat_of_head hne fun hplus => ?_
  have hdigit := hall '+' (List.mem_of_head? hplus)
  revert hdigit
  decide

theorem HasDigits.eq_amount (h : d.HasDigits) {unit : TimeUnit} {n : Nat}
    (hn : count (d.digits unit) = .ok n) : n = d.amount unit := by
  unfold amount
  cases hdigits : d.digits unit with
  | none =>
    rw [hdigits] at hn
    cases hn
    rfl
  | some digits =>
    rw [hdigits, count, h.readNat_eq hdigits] at hn
    cases hread : Whole.readDigits (Nat.pow 2 64 - 1) .tooLarge 0 digits with
    | error fault =>
      rw [hread] at hn
      cases hn
    | ok m =>
      rw [hread] at hn
      cases hn
      exact (Whole.readDigits_ok hread).2

theorem HasAsciiDigits.isCounted (h : d.HasAsciiDigits) (hbound : ∀ unit, d.amount unit < 2 ^ 64) :
    d.IsCounted := by
  intro unit
  have hamount := hbound unit
  unfold amount at hamount ⊢
  cases hdigits : d.digits unit with
  | none => rfl
  | some digits =>
    rw [hdigits] at hamount
    have hread : Whole.readDigits (Nat.pow 2 64 - 1) .tooLarge 0 digits =
        .ok (Decimal.natOfDigits digits) :=
      Whole.readDigits_of_le (h unit digits hdigits).2 (Nat.le_sub_one_of_lt hamount)
    rw [count, h.hasDigits.readNat_eq hdigits, hread]
    rfl

/-! ## Totals -/

theorem IsCounted.monthCount_eq (h : d.IsCounted) (literal : String) :
    d.monthCount literal =
      if d.monthTotal < 2 ^ 32 then .ok d.monthTotal else .error (.outOfRange literal) := by
  have hyears : count d.years = .ok (d.amount .years) := h .years
  have hmonths : count d.months = .ok (d.amount .months) := h .months
  have htotal : d.amount .years * 12 + d.amount .months = d.monthTotal := by
    unfold monthTotal
    omega
  simp only [monthCount, hyears, hmonths, bind, Except.bind, pure, Except.pure, throw, throwThe,
    MonadExceptOf.throw, htotal, Nat.pow_eq]
  by_cases hyearsBound : 2 ^ 64 ≤ d.amount .years * 12
  · have hbound : ¬ d.monthTotal < 2 ^ 32 := by omega
    rw [if_pos hyearsBound, if_neg hbound]
  · rw [if_neg hyearsBound]

/-- The fixed part of a span as its amounts are added up. -/
def fixedSum (d : Delta) : Binary64 :=
  .ofInt (d.amount .weeks) * 7 * 86400 + .ofInt (d.amount .days) * 86400 +
    .ofInt (d.amount .hours) * 3600 + .ofInt (d.amount .minutes) * 60 + .ofInt (d.amount .seconds)

theorem IsCounted.fixedSeconds_eq (h : d.IsCounted) : d.fixedSeconds = .ok d.fixedSum := by
  have hweeks : count d.weeks = .ok (d.amount .weeks) := h .weeks
  have hdays : count d.days = .ok (d.amount .days) := h .days
  have hhours : count d.hours = .ok (d.amount .hours) := h .hours
  have hminutes : count d.minutes = .ok (d.amount .minutes) := h .minutes
  have hseconds : count d.seconds = .ok (d.amount .seconds) := h .seconds
  simp only [fixedSeconds, hweeks, hdays, hhours, hminutes, hseconds, bind, Except.bind, pure,
    Except.pure, fixedSum]

/-- Below 2⁵² the fixed part of a span is exact. -/
theorem fixedSum_whole (hbound : d.secondTotal < 2 ^ 52) : d.fixedSum = .ofInt d.secondTotal := by
  have times (m n : Nat) (hn : 0 < n) (hn' : n < 2 ^ 53) (hm : m * n < 2 ^ 53) :
      Binary64.ofInt m * (OfNat.ofNat n) = .ofInt (m * n : Nat) :=
    Binary64.ofInt_mul hn hn'.le hm.le
  unfold secondTotal at hbound
  rw [fixedSum, secondTotal, times _ 7 (by decide) (by decide) (by omega),
    times _ 86400 (by decide) (by decide) (by omega),
    times _ 86400 (by decide) (by decide) (by omega),
    times _ 3600 (by decide) (by decide) (by omega), times _ 60 (by decide) (by decide) (by omega),
    Binary64.ofInt_add_natCast (by omega), Binary64.ofInt_add_natCast (by omega),
    Binary64.ofInt_add_natCast (by omega), Binary64.ofInt_add_natCast (by omega)]
  congr 2
  omega

theorem isSpan_fixedSum (d : Delta) : d.fixedSum.IsSpan := by
  have times {x : Binary64} (n : Nat) (hn : 0 < n) (hn' : n < 2 ^ 53) (hx : x.IsSpan) :
      (x * (OfNat.ofNat n)).IsSpan := hx.mul_ofInt hn hn'.le
  have amounts (unit : TimeUnit) := Binary64.isSpan_ofInt (d.amount unit)
  have hsevens := times 7 (by decide) (by decide) (amounts .weeks)
  have hweeks := times 86400 (by decide) (by decide) hsevens
  have hdays := times 86400 (by decide) (by decide) (amounts .days)
  have hhours := times 3600 (by decide) (by decide) (amounts .hours)
  have hminutes := times 60 (by decide) (by decide) (amounts .minutes)
  exact (((hweeks.add hdays).add hhours).add hminutes).add (amounts .seconds)

/-! ## Going back -/

variable {zone : Zone} {now : Int} {literal : String} {timestamp : Binary64}

/-- The counts of a span that is taken back are its amounts. -/
theorem HasDigits.isCounted (h : d.HasDigits)
    (hbefore : d.before zone now literal = .ok timestamp) : d.IsCounted := by
  have amounts {unit : TimeUnit} (hok : ∃ n, count (d.digits unit) = .ok n) :
      count (d.digits unit) = .ok (d.amount unit) := by
    obtain ⟨n, hn⟩ := hok
    rw [hn, h.eq_amount hn]
  obtain ⟨months, hmonthCount, hbefore⟩ := exists_of_bind_ok hbefore
  obtain ⟨years, hyears, hmonthCount⟩ := exists_of_bind_ok hmonthCount
  obtain ⟨n, hmonths⟩ : ∃ n, count d.months = .ok n := by
    cases hcount : count d.months with
    | ok n => exact ⟨n, rfl⟩
    | error fault =>
      rw [hcount] at hmonthCount
      dsimp only at hmonthCount
      split at hmonthCount <;> cases hmonthCount
  obtain ⟨fixed, hfixed⟩ : ∃ fixed, d.fixedSeconds = .ok fixed := by
    cases hshifted : monthsBefore? zone now months with
    | none =>
      rw [hshifted] at hbefore
      cases hbefore
    | some shifted =>
      rw [hshifted] at hbefore
      obtain ⟨fixed, hfixed, -⟩ := exists_of_bind_ok hbefore
      exact ⟨fixed, hfixed⟩
  obtain ⟨weeks, hweeks, hfixed⟩ := exists_of_bind_ok hfixed
  obtain ⟨days, hdays, hfixed⟩ := exists_of_bind_ok hfixed
  obtain ⟨hours, hhours, hfixed⟩ := exists_of_bind_ok hfixed
  obtain ⟨minutes, hminutes, hfixed⟩ := exists_of_bind_ok hfixed
  obtain ⟨seconds, hseconds, -⟩ := exists_of_bind_ok hfixed
  intro unit
  cases unit with
  | years => exact amounts ⟨years, hyears⟩
  | months => exact amounts ⟨n, hmonths⟩
  | weeks => exact amounts ⟨weeks, hweeks⟩
  | days => exact amounts ⟨days, hdays⟩
  | hours => exact amounts ⟨hours, hhours⟩
  | minutes => exact amounts ⟨minutes, hminutes⟩
  | seconds => exact amounts ⟨seconds, hseconds⟩

theorem IsCounted.before_eq_ok_iff (h : d.IsCounted) :
    d.before zone now literal = .ok timestamp ↔
      d.monthTotal < 2 ^ 32 ∧ ∃ shifted, monthsBefore? zone now d.monthTotal = some shifted ∧
        timestamp = timestampOfMillis shifted - d.fixedSum := by
  simp only [before, h.monthCount_eq, h.fixedSeconds_eq, bind, Except.bind, pure, Except.pure,
    throw, throwThe, MonadExceptOf.throw]
  by_cases hmonths : d.monthTotal < 2 ^ 32
  · rw [if_pos hmonths]
    dsimp only
    cases monthsBefore? zone now d.monthTotal with
    | none => exact ⟨nofun, fun ⟨_, _, hnone, _⟩ => nomatch hnone⟩
    | some shifted =>
      refine ⟨fun hok => ⟨hmonths, shifted, rfl, (Except.ok.inj hok).symm⟩, ?_⟩
      rintro ⟨-, _, ⟨⟩, htimestamp⟩
      rw [htimestamp]
  · rw [if_neg hmonths]
    exact ⟨nofun, fun hall => absurd hall.1 hmonths⟩

end Delta
end DownloadQuery

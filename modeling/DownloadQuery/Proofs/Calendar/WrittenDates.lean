import DownloadQuery.Calendar.DateLiteral
import DownloadQuery.Proofs.Calendar.DateText
import DownloadQuery.Proofs.Calendar.Days
import DownloadQuery.Proofs.Number.Numerals
import Mathlib

/-!
# Dates as they are written

A date of the years 0 to 9999 is written in three spellings, with all its digits, and a time of day
of up to three parts may follow.
-/

namespace DownloadQuery

namespace DateLiteral

/-! ## Reading numbers of fixed width -/

theorem readDigits_append {value : Nat} {digits : List Char}
    (hdigits : ∀ c ∈ digits, Whole.isDigit c = true) (hvalue : Whole.shifted value digits < 2 ^ 63)
    (rest : List Char) : readDigits digits.length value (digits ++ rest) =
      .ok (Whole.shifted value digits, rest) := by
  induction digits generalizing value with
  | nil => rfl
  | cons c digits ih =>
    obtain ⟨hc, hdigits⟩ := List.forall_mem_cons.1 hdigits
    have hdigit : Whole.digit? c = some (c.toNat - '0'.toNat) :=
      Whole.digit?_eq_some_iff.2 ⟨hc, rfl⟩
    have hnext : 10 * value + (c.toNat - '0'.toNat) < Nat.pow 2 63 :=
      (Whole.le_shifted _ digits).trans_lt hvalue
    simp only [List.length_cons, List.cons_append, readDigits, hdigit, if_pos hnext]
    exact ih hdigits hvalue

theorem readNumber_append {n : Nat} {digits : List Char} (h : Whole.IsNumeral n digits)
    (hn : n < 2 ^ 63) (rest : List Char) :
    readNumber digits.length (digits ++ rest) = .ok (n, rest) := by
  have hdigits := readDigits_append h.digits (h.value.trans_lt hn) rest
  obtain ⟨c, digits, rfl, hc⟩ := h.exists_cons
  rw [List.cons_append, readNumber, if_pos hc, ← List.cons_append, hdigits, h.value]

variable {n : Nat}

theorem readNumber_zeroPadded {width : Nat} (hwidth : 0 < width) (hn : n < 10 ^ width)
    (hword : n < 2 ^ 63) (rest : List Char) :
    readNumber width ((Display.zeroPadded width n).toList ++ rest) = .ok (n, rest) := by
  have hnumber := readNumber_append (Display.isNumeral_zeroPadded width n) hword rest
  rwa [Display.length_zeroPadded hwidth hn] at hnumber

/-- A year without a sign has at most four digits. -/
theorem readYear_zeroPadded (hn : n < 10000) (rest : List Char) :
    readYear ((Display.zeroPadded 4 n).toList ++ rest) = .ok ((n : Int), rest) := by
  have hwidth : 0 < 4 := by decide
  have hnumber := readNumber_zeroPadded hwidth hn (by omega) rest
  have hrange : -Int.pow 2 31 ≤ (n : Int) ∧ (n : Int) < Int.pow 2 31 := by
    have hpow : Int.pow 2 31 = 2147483648 := by decide
    omega
  obtain ⟨c, digits, hdigits, hc⟩ := (Display.isNumeral_zeroPadded 4 n).exists_cons
  rw [hdigits, List.cons_append] at hnumber ⊢
  unfold readYear
  split
  · next heq =>
    cases heq
    exact absurd hc (by decide)
  · next heq =>
    cases heq
    exact absurd hc (by decide)
  · rw [hnumber, ok_bind]
    simp only [pure_bind]
    rw [if_pos hrange]
    rfl

theorem readBounded_zeroPadded (greatest : Nat) (hn : n < 100) (rest : List Char)
    (r : Nat × List Char) :
    readBounded greatest ((Display.zeroPadded 2 n).toList ++ rest) = .ok r ↔
      (1 ≤ n ∧ n ≤ greatest) ∧ r = (n, rest) := by
  have hwidth : 0 < 2 := by decide
  rw [readBounded, readNumber_zeroPadded hwidth hn (by omega), ok_bind]
  dsimp only
  split
  · next h => simp [h, pure, Except.pure, eq_comm]
  · next h => simp [h, throw, throwThe, MonadExceptOf.throw]

/-- Digits are no blanks. -/
theorem isBlank_of_isDigit {c : Char} (h : Whole.isDigit c = true) : Text.isBlank c = false := by
  have hrange : 48 ≤ c.toNat ∧ c.toNat ≤ 57 := Whole.isDigit_iff.1 h
  simp only [Text.isBlank, Bool.or_eq_false_iff, Bool.and_eq_false_iff, beq_eq_false_iff_ne,
    decide_eq_false_iff_not]
  omega

theorem dropWhile_isBlank {n : Nat} {digits : List Char} (h : Whole.IsNumeral n digits)
    (rest : List Char) : (digits ++ rest).dropWhile Text.isBlank = digits ++ rest := by
  obtain ⟨c, digits, rfl, hc⟩ := h.exists_cons
  rw [List.cons_append, List.dropWhile_cons_of_neg (by simp [isBlank_of_isDigit hc])]

/-! ## The two parts of a literal -/

theorem flatMap_capital {text : List Char} (h : ∀ c ∈ text, IsCapital c) :
    text.flatMap capital = text := by
  have hsame : ∀ c ∈ text, capital c = [c] := by
    intro c hc
    have hcapital := h c hc
    simp only [IsCapital, List.mem_cons, List.not_mem_nil, or_false, not_or] at hcapital
    simp [capital, hcapital]
  rw [List.flatMap_congr hsame, List.flatMap_singleton']

theorem ne_T {text : List Char} (h : ∀ c ∈ text, IsCapital c) :
    ∀ c ∈ text, (c != 'T') = true := by
  intro c hc
  rw [bne_iff_ne]
  rintro rfl
  exact absurd (h _ hc) (by decide)

/-- Without a time of day, all of a literal is the date. -/
theorem split_date {date : List Char} (h : ∀ c ∈ date, IsCapital c) :
    split (String.ofList date) = (date, none) := by
  have hdrop : date.dropWhile (· != 'T') = [] := List.dropWhile_eq_nil_iff.2 (ne_T h)
  unfold split
  simp only [String.toList_ofList, flatMap_capital h, hdrop]

theorem split_time {date time : List Char} {mark : Char} (hmark : mark ∈ ['T', 't', ' '])
    (hdate : ∀ c ∈ date, IsCapital c) (htime : ∀ c ∈ time, IsCapital c) :
    split (String.ofList (date ++ mark :: time)) = (date, some time) := by
  have hcapital : capital mark = ['T'] := by fin_cases hmark <;> rfl
  have hdrop : (date ++ 'T' :: time).dropWhile (· != 'T') = 'T' :: time := by
    rw [List.dropWhile_append_of_pos (ne_T hdate), List.dropWhile_cons_of_neg (by decide)]
  have htake : (date ++ 'T' :: time).takeWhile (· != 'T') = date := by
    rw [List.takeWhile_append_of_pos (ne_T hdate), List.takeWhile_cons_of_neg (by decide),
      List.append_nil]
  unfold split
  simp only [String.toList_ofList, List.flatMap_append, List.flatMap_cons, hcapital,
    flatMap_capital hdate, flatMap_capital htime, List.singleton_append, hdrop, htake]

theorem isCapital_of_isDigit {c : Char} (h : Whole.isDigit c = true) : IsCapital c := by
  intro hmem
  revert h
  fin_cases hmem <;> decide

/-! ## Dates and times of day -/

/-- As in `2024-01-31`. -/
def Spelling.dashed : Spelling := ⟨'-', [.year, .month, .day]⟩

/-- As in `01/31/2024`. -/
def Spelling.slashed : Spelling := ⟨'/', [.month, .day, .year]⟩

/-- As in `31.01.2024`. -/
def Spelling.dotted : Spelling := ⟨'.', [.day, .month, .year]⟩

/-- The spellings of dates. -/
def spellings : List Spelling := [.dashed, .slashed, .dotted]

theorem spellingOf_eq (text : List Char) : spellingOf text =
    if '/' ∈ text then .slashed else if '.' ∈ text then .dotted else .dashed := by
  simp only [spellingOf, List.contains_iff_mem]
  rfl

/-- A date and a time of day as they are written, whether or not they exist: a year of four digits,
and other parts of two. The last parts of the time of day may be left out. -/
structure Written where
  year : Nat
  month : Nat
  day : Nat
  clock : List Nat
  year_lt : year < 10000
  month_lt : month < 100
  day_lt : day < 100
  clock_length : clock.length ≤ 3
  clock_lt : ∀ n ∈ clock, n < 100

namespace Written

variable (w : Written)

def hour : Nat := w.clock.getD 0 0

def minute : Nat := w.clock.getD 1 0

def second : Nat := w.clock.getD 2 0

def date : Date := ⟨w.year, w.month, w.day⟩

/-- The year, the month and so on down to the second, of which those left out are zero. -/
def numbers : List Nat := [w.year, w.month, w.day, w.hour, w.minute, w.second]

/-- Whether the day exists and has this time. -/
structure IsMoment : Prop where
  isDay : w.date.IsDay
  hour_lt : w.hour < 24
  minute_lt : w.minute < 60
  second_lt : w.second < 60

/-- The seconds from local 1970-01-01. -/
def localTime : Int := w.date.toDays * daySeconds + (w.hour * 3600 + w.minute * 60 + w.second)

def partText : Part → List Char
  | .year => (Display.zeroPadded 4 w.year).toList
  | .month => (Display.zeroPadded 2 w.month).toList
  | .day => (Display.zeroPadded 2 w.day).toList

def dateText (s : Spelling) : List Char := [s.mark].intercalate (s.parts.map w.partText)

def clockText : List Char :=
  [':'].intercalate (w.clock.map fun n => (Display.zeroPadded 2 n).toList)

/-- The literal in a spelling. A mark stands before the time of day, unless all of it is left
out. -/
def text (s : Spelling) (mark : Char) : String :=
  String.ofList (w.dateText s ++ if w.clock = [] then [] else mark :: w.clockText)

/-! ## Reading the date -/

/-- Whether a part of the date is one in some month of some year. -/
def InRange : Part → Prop
  | .year => True
  | .month => 1 ≤ w.month ∧ w.month ≤ 12
  | .day => 1 ≤ w.day ∧ w.day ≤ 31

/-- Sets one part of a date. -/
def put (d : Date) : Part → Date
  | .year => ⟨w.year, d.month, d.day⟩
  | .month => ⟨d.year, w.month, d.day⟩
  | .day => ⟨d.year, d.month, w.day⟩

theorem isNumeral_partText (part : Part) : ∃ n, Whole.IsNumeral n (w.partText part) := by
  cases part <;> exact ⟨_, Display.isNumeral_zeroPadded _ _⟩

theorem readPart_partText (part : Part) (d : Date) (rest : List Char) (r : Date × List Char) :
    readPart part d (w.partText part ++ rest) = .ok r ↔
      w.InRange part ∧ r = (w.put d part, rest) := by
  obtain ⟨n, hn⟩ := w.isNumeral_partText part
  unfold readPart
  dsimp only
  rw [dropWhile_isBlank hn]
  cases part with
  | year =>
    rw [partText, readYear_zeroPadded w.year_lt]
    simp [ok_bind, InRange, put, pure, Except.pure, eq_comm]
  | month =>
    simp only [partText, bind_eq_ok_iff, readBounded_zeroPadded _ w.month_lt]
    simp [InRange, put, pure, Except.pure, eq_comm]
  | day =>
    simp only [partText, bind_eq_ok_iff, readBounded_zeroPadded _ w.day_lt]
    simp [InRange, put, pure, Except.pure, eq_comm]

theorem readParts_dateText (mark : Char) (parts : List Part) (d : Date) (r : Date × List Char) :
    readParts mark parts d ([mark].intercalate (parts.map w.partText)) = .ok r ↔
      (∀ part ∈ parts, w.InRange part) ∧ r = (parts.foldl w.put d, []) := by
  induction parts generalizing d with
  | nil => simp [readParts, eq_comm]
  | cons part parts ih =>
    cases parts with
    | nil =>
      have hpart := w.readPart_partText part d [] r
      rw [List.append_nil] at hpart
      simpa [readParts] using hpart
    | cons next parts =>
      have hmark (rest : List Char) : readMark mark (mark :: rest) = .ok rest := if_pos rfl
      rw [List.map_cons, List.map_cons, List.intercalate_cons_cons, List.append_assoc,
        List.singleton_append, readParts, bind_eq_ok_iff, List.forall_mem_cons, and_assoc]
      · constructor
        · rintro ⟨_, hpart, hrest⟩
          obtain ⟨hrange, rfl⟩ := (w.readPart_partText part d _ _).1 hpart
          dsimp only at hrest
          rw [hmark, ok_bind] at hrest
          exact ⟨hrange, (ih _).1 hrest⟩
        · rintro ⟨hrange, hrest⟩
          refine ⟨_, (w.readPart_partText part d _ _).2 ⟨hrange, rfl⟩, ?_⟩
          dsimp only
          rw [hmark, ok_bind]
          exact (ih _).2 hrest
      · exact nofun

variable {s : Spelling}

/-- A date has digits and its mark. -/
theorem chars_of_dateText {c : Char} (hc : c ∈ w.dateText s) :
    c = s.mark ∨ Whole.isDigit c = true := by
  rcases Text.mem_intercalate hc with hmark | ⟨piece, hpiece, hmem⟩
  · exact .inl hmark
  · obtain ⟨part, -, rfl⟩ := List.mem_map.1 hpiece
    obtain ⟨n, hn⟩ := w.isNumeral_partText part
    exact .inr (hn.digits c hmem)

theorem mark_mem_dateText (hs : s ∈ spellings) : s.mark ∈ w.dateText s := by
  fin_cases hs
  all_goals
    simp [dateText, Spelling.dashed, Spelling.slashed, Spelling.dotted, List.intercalate_cons_cons]

/-- The spelling of a date is told by its mark. -/
theorem spellingOf_dateText (hs : s ∈ spellings) : spellingOf (w.dateText s) = s := by
  have hmark := w.mark_mem_dateText hs
  have hother {c : Char} (hne : c ≠ s.mark) (hdigit : Whole.isDigit c = false) :
      c ∉ w.dateText s := by
    intro hc
    rcases w.chars_of_dateText hc with rfl | hc
    · exact hne rfl
    · rw [hc] at hdigit
      cases hdigit
  rw [spellingOf_eq]
  simp only [spellings, List.mem_cons, List.not_mem_nil, or_false] at hs
  rcases hs with rfl | rfl | rfl
  · rw [if_neg (hother (by decide) (by decide)), if_neg (hother (by decide) (by decide))]
  · exact if_pos hmark
  · rw [if_neg (hother (by decide) (by decide))]
    exact if_pos hmark

theorem isDay_iff : w.date.IsDay ↔ (w.InRange .month ∧ w.InRange .day) ∧ w.date.Exists := by
  have hyear := w.year_lt
  have hlength := (Date.daysInMonth_bounds w.year w.month).2
  constructor
  · rintro ⟨hmonth, hmonth', hday, hday'⟩
    refine ⟨⟨⟨hmonth, hmonth'⟩, hday, hday'.trans hlength⟩, ?_, ?_, hmonth, hmonth', hday, hday'⟩
    · show -262143 ≤ (w.year : Int)
      omega
    · show (w.year : Int) ≤ 262142
      omega
  · rintro ⟨-, -, -, hmonth, hmonth', hday, hday'⟩
    exact ⟨hmonth, hmonth', hday, hday'⟩

theorem readDate_dateText (hs : s ∈ spellings) (d : Date) :
    readDate (w.dateText s) = .ok d ↔ w.date.IsDay ∧ d = w.date := by
  have hparts : (∀ part ∈ s.parts, w.InRange part) ↔ w.InRange .month ∧ w.InRange .day := by
    fin_cases hs
    all_goals
      simp [InRange, Spelling.dashed, Spelling.slashed, Spelling.dotted, and_comm]
  have hput : s.parts.foldl w.put ⟨0, 1, 1⟩ = w.date := by
    fin_cases hs <;> rfl
  have hread (r : Date × List Char) : readParts s.mark s.parts ⟨0, 1, 1⟩ (w.dateText s) = .ok r ↔
      (w.InRange .month ∧ w.InRange .day) ∧ r = (w.date, []) := by
    rw [dateText, readParts_dateText, hparts, hput]
  unfold readDate
  rw [w.spellingOf_dateText hs, isDay_iff, bind_eq_ok_iff]
  constructor
  · rintro ⟨r, hr, hd⟩
    obtain ⟨hrange, rfl⟩ := (hread r).1 hr
    by_cases hexists : w.date.Exists
    · simp [hexists, pure, Except.pure] at hd
      exact ⟨⟨hrange, hexists⟩, hd.symm⟩
    · simp [hexists, throw, throwThe, MonadExceptOf.throw] at hd
  · rintro ⟨⟨hrange, hexists⟩, rfl⟩
    refine ⟨_, (hread _).2 ⟨hrange, rfl⟩, ?_⟩
    simp [hexists, pure, Except.pure]

/-! ## Reading the time of day -/

theorem readTimeParts_map {clock : List Nat} (h : ∀ n ∈ clock, n < 100) :
    readTimeParts (clock.map fun n => (Display.zeroPadded 2 n).toList) = .ok clock := by
  induction clock with
  | nil => rfl
  | cons n clock ih =>
    obtain ⟨hn, hclock⟩ := List.forall_mem_cons.1 h
    have hbound : n ≤ Nat.pow 2 32 - 1 := by
      have hpow : Nat.pow 2 32 - 1 = 4294967295 := by decide
      omega
    rw [List.map_cons, readTimeParts, (Display.isNumeral_zeroPadded 2 n).readNat hbound]
    simp only [ih hclock, Except.map]

theorem splitAt_clockText (h : w.clock ≠ []) : Text.splitAt ':' w.clockText =
    w.clock.map fun n => (Display.zeroPadded 2 n).toList := by
  refine Text.splitAt_intercalate (by simpa using h) fun piece hpiece => ?_
  obtain ⟨n, -, rfl⟩ := List.mem_map.1 hpiece
  exact (Display.isNumeral_zeroPadded 2 n).not_mem (by decide)

theorem readTime_clockText (h : w.clock ≠ []) (t : Int) : readTime w.clockText = .ok t ↔
    (w.hour < 24 ∧ w.minute < 60 ∧ w.second < 60) ∧
      t = w.hour * 3600 + w.minute * 60 + w.second := by
  have hlength : ¬ 3 < w.clock.length := not_lt.2 w.clock_length
  unfold readTime
  rw [w.splitAt_clockText h, readTimeParts_map w.clock_lt, ok_bind, if_neg hlength]
  show (if w.hour < 24 ∧ w.minute < 60 ∧ w.second < 60 then
    Except.ok ((w.hour : Int) * 3600 + w.minute * 60 + w.second)
      else .error (DateError.noSuchTime _)) = _ ↔ _
  by_cases htime : w.hour < 24 ∧ w.minute < 60 ∧ w.second < 60
  · simp [htime, eq_comm]
  · simp [htime]

/-! ## Reading the literal -/

theorem isCapital_dateText (hs : s ∈ spellings) : ∀ c ∈ w.dateText s, IsCapital c := by
  intro c hc
  rcases w.chars_of_dateText hc with rfl | hdigit
  · fin_cases hs <;> decide
  · exact isCapital_of_isDigit hdigit

theorem isCapital_clockText : ∀ c ∈ w.clockText, IsCapital c := by
  intro c hc
  rcases Text.mem_intercalate hc with rfl | ⟨piece, hpiece, hmem⟩
  · decide
  · obtain ⟨n, -, rfl⟩ := List.mem_map.1 hpiece
    exact isCapital_of_isDigit ((Display.isNumeral_zeroPadded 2 n).digits c hmem)

theorem isMoment_iff : w.IsMoment ↔ w.date.IsDay ∧ w.hour < 24 ∧ w.minute < 60 ∧ w.second < 60 :=
  ⟨fun ⟨hday, hhour, hminute, hsecond⟩ => ⟨hday, hhour, hminute, hsecond⟩,
    fun ⟨hday, hhour, hminute, hsecond⟩ => ⟨hday, hhour, hminute, hsecond⟩⟩

theorem split_text (hs : s ∈ spellings) {mark : Char} (hmark : mark ∈ ['T', 't', ' ']) :
    split (w.text s mark) = (w.dateText s, if w.clock = [] then none else some w.clockText) := by
  have hdate := w.isCapital_dateText hs
  rw [text]
  by_cases hclock : w.clock = []
  · rw [if_pos hclock, if_pos hclock, List.append_nil, split_date hdate]
  · rw [if_neg hclock, if_neg hclock, split_time hmark hdate w.isCapital_clockText]

/-- A time of day that is left out is midnight. -/
theorem readTime_none (h : w.clock = []) (t : Int) : (pure 0 : Except DateError Int) = .ok t ↔
    (w.hour < 24 ∧ w.minute < 60 ∧ w.second < 60) ∧
      t = w.hour * 3600 + w.minute * 60 + w.second := by
  simp [hour, minute, second, h, pure, Except.pure, eq_comm]

/-- What is read of a literal is its local time, if it is one. -/
theorem readLocal_text (hs : s ∈ spellings) {mark : Char} (hmark : mark ∈ ['T', 't', ' '])
    (t : Int) : readLocal (w.text s mark) = .ok t ↔ w.IsMoment ∧ t = w.localTime := by
  have hdate (d : Date) : (readDate (w.dateText s)).mapError DateError.date = .ok d ↔
      w.date.IsDay ∧ d = w.date := by
    rw [← w.readDate_dateText hs]
    cases readDate (w.dateText s) <;> simp [Except.mapError]
  -- the seconds of the day are read from the time of day, or are zero
  have hseconds {x : Except DateError Int} {days : Int} (hx : ∀ seconds, x = .ok seconds ↔
      (w.hour < 24 ∧ w.minute < 60 ∧ w.second < 60) ∧
        seconds = w.hour * 3600 + w.minute * 60 + w.second) (t : Int) :
      (x >>= fun seconds => pure (days * daySeconds + seconds)) = .ok t ↔
        (w.hour < 24 ∧ w.minute < 60 ∧ w.second < 60) ∧
          t = days * daySeconds + (w.hour * 3600 + w.minute * 60 + w.second) := by
    simp only [bind_eq_ok_iff, hx, and_assoc, exists_and_left, exists_eq_left]
    simp [pure, Except.pure, eq_comm]
  unfold readLocal
  rw [w.split_text hs hmark, isMoment_iff]
  dsimp only
  simp only [bind_eq_ok_iff (x := Except.mapError _ _), hdate]
  by_cases hclock : w.clock = []
  · rw [if_pos hclock]
    simp only [hseconds (w.readTime_none hclock), and_assoc, exists_and_left, exists_eq_left,
      localTime]
  · rw [if_neg hclock]
    simp only [hseconds (w.readTime_clockText hclock), and_assoc, exists_and_left, exists_eq_left,
      localTime]

end Written
end DateLiteral
end DownloadQuery

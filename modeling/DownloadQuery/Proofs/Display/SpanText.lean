import DownloadQuery.Display.Span
import DownloadQuery.Proofs.Number.Numerals
import DownloadQuery.Proofs.Steps
import DownloadQuery.Proofs.Text.Splitting
import Mathlib

/-!
# The parts of a shown span

A shown span is read part by part, each part a count with the letter of its unit
(`ShownSpan.read?`). The units of an amount of seconds form a mixed radix, so the counts down to a
unit add up to the amount rounded down to whole ones of that unit (`totalSeconds_counted`). Leaving
units without a count out at the front takes nothing away, and what is cut off at the end decides
the unit of the rounding (`exists_cut`). Together they say what the text of a span tells
(`exists_tells`).
-/

namespace DownloadQuery
namespace Display

/-- The units of a shown span. -/
inductive SpanUnit where
  | weeks
  | days
  | hours
  | minutes
  | seconds
  deriving DecidableEq, Repr

namespace SpanUnit

def letter : SpanUnit → Char
  | .weeks => 'w'
  | .days => 'd'
  | .hours => 'h'
  | .minutes => 'm'
  | .seconds => 's'

/-- The seconds in one of a unit. -/
def size : SpanUnit → Nat
  | .weeks => 604800
  | .days => 86400
  | .hours => 3600
  | .minutes => 60
  | .seconds => 1

/-- The units in the order in which they are shown. -/
def all : List SpanUnit := [.weeks, .days, .hours, .minutes, .seconds]

/-- How many of a unit make one of the unit before it. -/
def radix? : SpanUnit → Option Nat
  | .weeks => none
  | .days => some 7
  | .hours => some 24
  | .minutes => some 60
  | .seconds => some 60

/-- The unit that a letter stands for. -/
def ofLetter? (c : Char) : Option SpanUnit := all.find? fun unit => unit.letter == c

/-- What the unit counts of an amount of seconds that the units before it leave. -/
def count (amount : Nat) (unit : SpanUnit) : Nat :=
  match unit.radix? with
  | none => amount / unit.size
  | some radix => amount / unit.size % radix

/-- Whether a unit is the next smaller one. -/
def Divides (larger unit : SpanUnit) : Prop :=
  ∃ radix, unit.radix? = some radix ∧ larger.size = unit.size * radix

theorem ofLetter?_letter (unit : SpanUnit) : ofLetter? unit.letter = some unit := by
  cases unit <;> decide

theorem letter_ne_blank (unit : SpanUnit) : unit.letter ≠ ' ' := by
  cases unit <;> decide

theorem nodup_all : all.Nodup := by decide

theorem isChain_all : all.IsChain Divides := by
  refine .cons_cons ⟨7, rfl, rfl⟩ (.cons_cons ⟨24, rfl, rfl⟩ (.cons_cons ⟨60, rfl, rfl⟩
    (.cons_cons ⟨60, rfl, rfl⟩ (.singleton _))))

theorem radix_pos {unit : SpanUnit} {radix : Nat} (h : unit.radix? = some radix) : 0 < radix := by
  cases unit <;> cases h <;> decide

theorem count_lt (amount : Nat) {unit : SpanUnit} {radix : Nat} (h : unit.radix? = some radix) :
    unit.count amount < radix := by
  simp only [count, h]
  exact Nat.mod_lt _ (radix_pos h)

theorem count_le (amount : Nat) (unit : SpanUnit) : unit.count amount ≤ amount := by
  rw [count]
  split
  · exact Nat.div_le_self _ _
  · exact (Nat.mod_le _ _).trans (Nat.div_le_self _ _)

end SpanUnit

/-! ## Amounts -/

/-- The seconds that counted units make together. -/
def totalSeconds (parts : List (SpanUnit × Nat)) : Nat :=
  (parts.map fun part => part.2 * part.1.size).sum

/-- Some units with what they count of an amount. -/
def counted (amount : Nat) (units : List SpanUnit) : List (SpanUnit × Nat) :=
  units.map fun unit => (unit, unit.count amount)

theorem totalSeconds_append (parts parts' : List (SpanUnit × Nat)) :
    totalSeconds (parts ++ parts') = totalSeconds parts + totalSeconds parts' := by
  simp [totalSeconds]

theorem totalSeconds_counted_singleton (amount : Nat) (unit : SpanUnit) :
    totalSeconds (counted amount [unit]) = unit.count amount * unit.size := by
  simp [totalSeconds, counted]

/-- Units that count nothing add nothing. -/
theorem totalSeconds_idle {amount : Nat} {units : List SpanUnit}
    (h : ∀ unit ∈ units, unit.count amount = 0) : totalSeconds (counted amount units) = 0 := by
  apply List.sum_eq_zero
  intro seconds hseconds
  obtain ⟨part, hpart, rfl⟩ := List.mem_map.1 hseconds
  obtain ⟨unit, hunit, rfl⟩ := List.mem_map.1 hpart
  rw [h unit hunit, Nat.zero_mul]

/-- What a unit counts completes an amount that is rounded to the next larger unit. -/
theorem round_add_count (amount : Nat) {larger unit : SpanUnit} (h : larger.Divides unit) :
    amount / larger.size * larger.size + unit.count amount * unit.size =
      amount / unit.size * unit.size := by
  obtain ⟨radix, hradix, hseconds⟩ := h
  have hcount : unit.count amount = amount / unit.size % radix := by
    simp only [SpanUnit.count, hradix]
  calc amount / larger.size * larger.size + unit.count amount * unit.size
      = (radix * (amount / unit.size / radix) + amount / unit.size % radix) *
          unit.size := by rw [hcount, hseconds, ← Nat.div_div_eq_div_mul]; ring
    _ = amount / unit.size * unit.size := by rw [Nat.div_add_mod]

/-- The counts of the units down to one of them make the amount, rounded down to that unit. -/
theorem totalSeconds_counted (amount : Nat) {units : List SpanUnit} {last : SpanUnit}
    (hchain : (units ++ [last]).IsChain SpanUnit.Divides)
    (hfirst : (units ++ [last]).head? = some .weeks) :
    totalSeconds (counted amount (units ++ [last])) = amount / last.size * last.size := by
  induction units using List.reverseRecOn generalizing last with
  | nil =>
    cases hfirst
    exact totalSeconds_counted_singleton amount .weeks
  | append_singleton units unit ih =>
    obtain ⟨hfront, -, hlink⟩ := List.isChain_append.1 hchain
    have hdivides : unit.Divides last := hlink unit (by simp) last rfl
    have hfirst' : (units ++ [unit]).head? = some .weeks := by
      rwa [List.head?_append_of_ne_nil _ (by simp)] at hfirst
    rw [counted, List.map_append, totalSeconds_append, ← counted, ih hfront hfirst', ← counted,
      totalSeconds_counted_singleton, round_add_count amount hdivides]

/-! ## The parts that are shown -/

/-- A part as the program holds it. -/
def lettered (amount : Nat) (unit : SpanUnit) : Char × Nat := (unit.letter, unit.count amount)

theorem spanParts_eq (amount : Nat) :
    spanParts amount = SpanUnit.all.map (lettered amount) := by
  simp [spanParts, SpanUnit.all, lettered, SpanUnit.letter, SpanUnit.count, SpanUnit.radix?,
    SpanUnit.size]

/-- Parts are left out at the front as long as they count nothing and are not the last. -/
theorem exists_dropIdle (amount : Nat) (units : List SpanUnit) (hne : units ≠ []) :
    ∃ before after, units = before ++ after ∧ after ≠ [] ∧
      dropIdle (units.map (lettered amount)) = after.map (lettered amount) ∧
      (∀ unit ∈ before, unit.count amount = 0) ∧
      ∀ unit, after.head? = some unit → unit.count amount ≠ 0 ∨ after = [unit] := by
  induction units with
  | nil => exact absurd rfl hne
  | cons unit rest ih =>
    cases rest with
    | nil => exact ⟨[], [unit], rfl, hne, rfl, by simp, fun _ h => .inr (by cases h; rfl)⟩
    | cons next rest =>
      by_cases hzero : unit.count amount = 0
      · obtain ⟨before, after, hunits, hafter, hdrop, hbefore, hhead⟩ := ih (List.cons_ne_nil _ _)
        refine ⟨unit :: before, after, by rw [hunits, List.cons_append], hafter, ?_,
          List.forall_mem_cons.2 ⟨hzero, hbefore⟩, hhead⟩
        rw [← hdrop]
        simp [dropIdle, lettered, hzero]
      · refine ⟨[], unit :: next :: rest, rfl, hne, ?_, by simp, ?_⟩
        · simp [dropIdle, lettered, hzero]
        · intro first hfirst
          cases hfirst
          exact .inl hzero

/-- How the units of an amount are cut: what is left out before and after the shown ones. -/
structure Cut (amount precision : Nat) (before shown after : List SpanUnit) : Prop where
  all_eq : SpanUnit.all = before ++ shown ++ after
  ne_nil : shown ≠ []
  parts : shownParts precision amount = shown.map (lettered amount)
  idle : ∀ unit ∈ before, unit.count amount = 0
  length_le : 0 < precision → shown.length ≤ precision
  after_eq : precision = 0 → after = []
  head : ∀ unit, shown.head? = some unit → unit.count amount ≠ 0 ∨ shown = [.seconds]

theorem exists_cut (amount precision : Nat) :
    ∃ before shown after, Cut amount precision before shown after := by
  obtain ⟨before, rest, hall, hrest, hdrop, hidle, hhead⟩ :=
    exists_dropIdle amount SpanUnit.all (List.cons_ne_nil _ _)
  rw [← spanParts_eq] at hdrop
  have hlone (unit : SpanUnit) (h : rest = [unit]) : rest = [.seconds] := by
    have hlast : SpanUnit.all.getLast? = some unit := by rw [hall, h, List.getLast?_concat]
    cases hlast
    exact h
  have hhead' (unit : SpanUnit) (h : rest.head? = some unit) :
      unit.count amount ≠ 0 ∨ rest = [.seconds] := (hhead unit h).imp_right (hlone unit)
  rcases Nat.eq_zero_or_pos precision with rfl | hprecision
  · exact ⟨before, rest, [], {
      all_eq := by rw [List.append_nil, hall]
      ne_nil := hrest
      parts := by simp [shownParts, hdrop]
      idle := hidle
      length_le := fun h => absurd h (Nat.lt_irrefl 0)
      after_eq := fun _ => rfl
      head := hhead' }⟩
  · have htake : rest.take precision ≠ [] := by
      simp [List.take_eq_nil_iff, hprecision.ne', hrest]
    refine ⟨before, rest.take precision, rest.drop precision, {
      all_eq := by rw [List.append_assoc, List.take_append_drop, hall]
      ne_nil := htake
      parts := by simp [shownParts, hdrop, hprecision.ne']
      idle := hidle
      length_le := fun _ => List.length_take_le _ _
      after_eq := fun h => absurd h hprecision.ne'
      head := ?_ }⟩
    intro unit hunit
    rw [List.head?_take, if_neg hprecision.ne'] at hunit
    refine (hhead' unit hunit).imp_right fun h => ?_
    rw [h, List.take_of_length_le hprecision]

namespace Cut

variable {amount precision : Nat} {before shown after : List SpanUnit}

theorem totalSeconds_eq (h : Cut amount precision before shown after) {last : SpanUnit}
    (hlast : shown.getLast? = some last) :
    totalSeconds (counted amount shown) = amount / last.size * last.size := by
  obtain ⟨front, rfl⟩ := List.getLast?_eq_some_iff.1 hlast
  have hprefix : before ++ (front ++ [last]) <+: SpanUnit.all := ⟨after, h.all_eq.symm⟩
  have hchain : (before ++ front ++ [last]).IsChain SpanUnit.Divides := by
    rw [List.append_assoc]
    exact SpanUnit.isChain_all.prefix hprefix
  have hfirst : (before ++ front ++ [last]).head? = some .weeks := by
    have hhead : SpanUnit.all.head? = some .weeks := rfl
    rwa [h.all_eq, List.head?_append_of_ne_nil _ (by simp), ← List.append_assoc] at hhead
  have htotal := totalSeconds_counted amount hchain hfirst
  rwa [List.append_assoc, counted, List.map_append, totalSeconds_append, ← counted, ← counted,
    totalSeconds_idle h.idle, Nat.zero_add] at htotal

/-- Seconds are shown last. -/
theorem getLast?_of_mem (h : Cut amount precision before shown after) (hmem : .seconds ∈ shown) :
    shown.getLast? = some .seconds := by
  have hlast : SpanUnit.all.getLast? = some .seconds := rfl
  rw [h.all_eq] at hlast
  rcases List.eq_nil_or_concat after with rfl | ⟨front, unit, rfl⟩
  · rwa [List.append_nil, List.getLast?_append_of_ne_nil _ h.ne_nil] at hlast
  · -- A last unit that is cut off would be a second one of the seconds.
    rw [List.concat_eq_append, ← List.append_assoc, List.getLast?_concat] at hlast
    cases hlast
    have hnodup := SpanUnit.nodup_all
    rw [h.all_eq] at hnodup
    exact absurd rfl ((List.nodup_append.1 hnodup).2.2 _ (List.mem_append_right before hmem)
      _ (by simp))

theorem getLast?_of_zero (h : Cut amount 0 before shown after) :
    shown.getLast? = some .seconds := by
  have hlast : SpanUnit.all.getLast? = some .seconds := rfl
  rwa [h.all_eq, h.after_eq rfl, List.append_nil, List.getLast?_append_of_ne_nil _ h.ne_nil]
    at hlast

theorem totalSeconds_exact (h : Cut amount precision before shown after)
    (hexact : precision = 0 ∨ .seconds ∈ shown) : totalSeconds (counted amount shown) = amount := by
  have hlast : shown.getLast? = some .seconds := by
    rcases hexact with rfl | hmem
    · exact h.getLast?_of_zero
    · exact h.getLast?_of_mem hmem
  rw [h.totalSeconds_eq hlast, SpanUnit.size, Nat.div_one, Nat.mul_one]

end Cut

/-! ## Reading a shown span -/

/-- A count with the letter of its unit. -/
def readPart? (text : List Char) : Option (SpanUnit × Nat) :=
  match text.getLast?.bind SpanUnit.ofLetter?, Whole.readNat (Nat.pow 2 64 - 1) text.dropLast with
  | some unit, .ok count => some (unit, count)
  | _, _ => none

/-- What a shown span says. -/
structure ShownSpan where
  negative : Bool
  parts : List (SpanUnit × Nat)
  deriving DecidableEq, Repr

/-- A sign, and parts with a blank between each two. -/
def ShownSpan.read? (text : String) : Option ShownSpan :=
  let (negative, rest) := Decimal.splitSign text.toList
  ((Text.splitAt ' ' rest).mapM readPart?).map (⟨negative, ·⟩)

/-- A part as it is shown. -/
def partChars (amount : Nat) (unit : SpanUnit) : List Char :=
  Nat.toDigits 10 (unit.count amount) ++ [unit.letter]

theorem toList_partText (amount : Nat) (unit : SpanUnit) :
    (partText (lettered amount unit)).toList = partChars amount unit := by
  simp [partText, lettered, partChars]

theorem blank_not_mem_partChars (amount : Nat) (unit : SpanUnit) :
    ' ' ∉ partChars amount unit := by
  intro hblank
  rcases List.mem_append.1 hblank with hdigit | hletter
  · have hc := Whole.isDigit_of_mem_toDigits hdigit
    exact absurd hc (by decide)
  · exact unit.letter_ne_blank (List.mem_singleton.1 hletter).symm

theorem readPart?_partChars {amount : Nat} (hamount : amount ≤ Nat.pow 2 64 - 1)
    (unit : SpanUnit) : readPart? (partChars amount unit) = some (unit, unit.count amount) := by
  have hnumeral : Whole.IsNumeral (unit.count amount) (Nat.toDigits 10 (unit.count amount)) :=
    Whole.isNumeral_replicate_zero 0 _
  have hcount := hnumeral.readNat ((unit.count_le amount).trans hamount)
  rw [readPart?, partChars, List.getLast?_concat, List.dropLast_concat, hcount, Option.bind_some,
    SpanUnit.ofLetter?_letter]

/-- The text of parts is read part by part. -/
theorem mapM_splitAt_partChars {amount : Nat} (hamount : amount ≤ Nat.pow 2 64 - 1)
    {units : List SpanUnit} (hne : units ≠ []) :
    (Text.splitAt ' ' ([' '].intercalate (units.map (partChars amount)))).mapM readPart? =
      some (counted amount units) := by
  have hpieces : ∀ piece ∈ units.map (partChars amount), ' ' ∉ piece := by
    intro piece hpiece
    obtain ⟨unit, -, rfl⟩ := List.mem_map.1 hpiece
    exact blank_not_mem_partChars amount unit
  rw [Text.splitAt_intercalate (by simpa using hne) hpieces, mapM_eq_some_iff, counted,
    List.forall₂_map_left_iff, List.forall₂_map_right_iff, List.forall₂_same]
  exact fun unit _ => readPart?_partChars hamount unit

/-! ## The text of a whole number of seconds -/

theorem toNat64_abs_ofInt {n : Int} (hn : n.natAbs ≤ 2 ^ 53) :
    (Binary64.ofInt n).abs.toNat64 = n.natAbs := by
  have hhigh : Int.pow 2 64 - 1 = 18446744073709551615 := by decide
  have hsigned : Binary64.signed false (n.natAbs * Binary64.one / Binary64.one) = n.natAbs := by
    rw [Nat.mul_div_cancel _ Binary64.one_pos]
    rfl
  rw [Binary64.ofInt_eq hn, Binary64.abs, Binary64.toNat64, Binary64.clampInt, hsigned, hhigh]
  omega

/-- The sign of a span and the parts after it. -/
theorem toList_span {n : Int} (hn : n.natAbs ≤ 2 ^ 53) {precision : Nat}
    {before shown after : List SpanUnit} (hcut : Cut n.natAbs precision before shown after) :
    (span (.ofInt n) precision).toList =
      (if n < 0 then ['-'] else []) ++ [' '].intercalate (shown.map (partChars n.natAbs)) := by
  have hlt : (Binary64.ofInt n).lt 0 = decide (n < 0) := Binary64.lt_ofInt hn (by decide)
  have hparts : ((shownParts precision n.natAbs).map partText).map String.toList =
      shown.map (partChars n.natAbs) := by
    rw [hcut.parts, List.map_map, List.map_map]
    exact List.map_congr_left fun unit _ => toList_partText _ unit
  rw [span, hlt, toNat64_abs_ofInt hn, String.toList_append, String.toList_intercalate, hparts]
  by_cases hneg : n < 0 <;> simp [hneg]

theorem exists_digit_partChars (amount : Nat) {units : List SpanUnit} (hne : units ≠ []) :
    ∃ c rest, [' '].intercalate (units.map (partChars amount)) = c :: rest ∧
      Whole.isDigit c = true := by
  obtain ⟨unit, units, rfl⟩ := List.exists_cons_of_ne_nil hne
  have hnumeral : Whole.IsNumeral (unit.count amount) (Nat.toDigits 10 (unit.count amount)) :=
    Whole.isNumeral_replicate_zero 0 _
  obtain ⟨c, digits, hdigits, hc⟩ := hnumeral.exists_cons
  obtain ⟨rest, hrest⟩ : ∃ rest, [' '].intercalate ((unit :: units).map (partChars amount)) =
      partChars amount unit ++ rest := by
    cases units with
    | nil => exact ⟨[], by simp⟩
    | cons next units =>
      rw [List.map_cons, List.map_cons, List.intercalate_cons_cons, List.append_assoc]
      exact ⟨_, rfl⟩
  refine ⟨c, digits ++ [unit.letter] ++ rest, ?_, hc⟩
  rw [hrest, partChars, hdigits, List.cons_append, List.cons_append]

/-- What the text of a span says of the number of seconds that it shows. -/
structure Tells (seconds : Int) (precision : Nat) (text : String)
    (parts : List (SpanUnit × Nat)) : Prop where
  read : ShownSpan.read? text = some ⟨decide (seconds < 0), parts⟩
  sign : text.toList.head? = some '-' ↔ seconds < 0
  ne_nil : parts ≠ []
  consecutive : parts.map Prod.fst <:+: SpanUnit.all
  length_le : 0 < precision → parts.length ≤ precision
  leading : ∀ part, parts.head? = some part → part.2 ≠ 0 ∨ text = "0s"
  bounded : ∀ part ∈ parts, ∀ radix, part.1.radix? = some radix → part.2 < radix
  rounded : ∀ part, parts.getLast? = some part →
    totalSeconds parts = seconds.natAbs / part.1.size * part.1.size
  exact : precision = 0 ∨ .seconds ∈ parts.map Prod.fst → totalSeconds parts = seconds.natAbs

section
variable {n : Int} {precision : Nat} {before shown after : List SpanUnit}

theorem read?_span (hn : n.natAbs ≤ 2 ^ 53) (hcut : Cut n.natAbs precision before shown after) :
    ShownSpan.read? (span (.ofInt n) precision) =
      some ⟨decide (n < 0), counted n.natAbs shown⟩ := by
  have hamount : n.natAbs ≤ Nat.pow 2 64 - 1 := hn.trans (by decide)
  have hparts := mapM_splitAt_partChars hamount hcut.ne_nil
  obtain ⟨c, rest, hchars, hc⟩ := exists_digit_partChars n.natAbs hcut.ne_nil
  have hsign : Decimal.splitSign (span (.ofInt n) precision).toList =
      (decide (n < 0), [' '].intercalate (shown.map (partChars n.natAbs))) := by
    rw [toList_span hn hcut]
    by_cases hneg : n < 0
    · rw [if_pos hneg, decide_eq_true hneg]
      rfl
    · have hne (d : Char) (hd : Whole.isDigit d = false) : (c :: rest).head? ≠ some d := by
        rintro ⟨⟩
        rw [hc] at hd
        cases hd
      rw [if_neg hneg, decide_eq_false hneg, List.nil_append, hchars]
      exact Decimal.splitSign_unsigned (hne '-' (by decide)) (hne '+' (by decide))
  rw [ShownSpan.read?, hsign]
  simp only [hparts, Option.map_some]

theorem head?_span (hn : n.natAbs ≤ 2 ^ 53) (hcut : Cut n.natAbs precision before shown after) :
    (span (.ofInt n) precision).toList.head? = some '-' ↔ n < 0 := by
  obtain ⟨c, rest, hchars, hc⟩ := exists_digit_partChars n.natAbs hcut.ne_nil
  rw [toList_span hn hcut, hchars]
  by_cases hneg : n < 0
  · simp [hneg]
  · have hminus : c ≠ '-' := by
      rintro rfl
      exact absurd hc (by decide)
    simp [hneg, hminus]

/-- Only of no seconds at all a part without a count is shown first. -/
theorem span_of_idle (hn : n.natAbs ≤ 2 ^ 53)
    (hcut : Cut n.natAbs precision before [.seconds] after)
    (hidle : SpanUnit.seconds.count n.natAbs = 0) : span (.ofInt n) precision = "0s" := by
  have htotal := hcut.totalSeconds_exact (.inr List.mem_cons_self)
  rw [totalSeconds_counted_singleton, hidle, Nat.zero_mul] at htotal
  have hzero : n = 0 := Int.natAbs_eq_zero.1 htotal.symm
  apply String.toList_inj.1
  rw [toList_span hn hcut, hzero]
  decide

/-- For whole numbers of seconds that are held exactly, the text of a span shows consecutive units,
as many as the precision allows, and tells the amount rounded down to the last of them. -/
theorem exists_tells (n : Int) (hn : n.natAbs < 2 ^ 53) (precision : Nat) :
    ∃ parts, Tells n precision (span (.ofInt n) precision) parts := by
  obtain ⟨before, shown, after, hcut⟩ := exists_cut n.natAbs precision
  have hunits : (counted n.natAbs shown).map Prod.fst = shown := by
    simp [counted, Function.comp_def]
  refine ⟨counted n.natAbs shown, {
    read := read?_span hn.le hcut
    sign := head?_span hn.le hcut
    ne_nil := by simpa [counted] using hcut.ne_nil
    consecutive := ⟨before, after, by rw [hunits, hcut.all_eq]⟩
    length_le := by simpa [counted] using hcut.length_le
    leading := ?_
    bounded := ?_
    rounded := ?_
    exact := by rw [hunits]; exact hcut.totalSeconds_exact }⟩
  · intro part hpart
    rw [counted, List.head?_map, Option.map_eq_some_iff] at hpart
    obtain ⟨unit, hunit, rfl⟩ := hpart
    by_cases hidle : unit.count n.natAbs = 0
    · rcases hcut.head unit hunit with hcount | rfl
      · exact absurd hidle hcount
      · cases hunit
        exact .inr (span_of_idle hn.le hcut hidle)
    · exact .inl hidle
  · intro part hpart radix hradix
    obtain ⟨unit, -, rfl⟩ := List.mem_map.1 hpart
    exact SpanUnit.count_lt n.natAbs hradix
  · intro part hpart
    rw [counted, List.getLast?_map, Option.map_eq_some_iff] at hpart
    obtain ⟨unit, hunit, rfl⟩ := hpart
    exact hcut.totalSeconds_eq hunit

/-- Nine days, three hours, four minutes and five seconds before, to two parts. -/
theorem exists_tells_two_parts : Int.natAbs (-788645) < 2 ^ 53 ∧
    ∃ parts, Tells (-788645) 2 (span (.ofInt (-788645)) 2) parts :=
  ⟨by decide, exists_tells (-788645) (by decide) 2⟩

end

end Display
end DownloadQuery

import DownloadQuery.Calendar.DateLiteral
import DownloadQuery.Proofs.Calendar.DeltaText
import DownloadQuery.Proofs.Text.Splitting
import Mathlib

/-!
# The texts of dates

A text that is read as a date has marks between the parts of its date, which consists of digits,
blanks, signs and these marks. A T and a time of day of digits, plus signs and colons may follow. So
an accepted date has a mark, no comma, and starts with a blank, a digit or a sign
(`DateLiteral.chars_of_read`).
-/

namespace DownloadQuery

namespace DateLiteral

/-- Whether a character may stand in the date of a literal. -/
def InDate (c : Char) : Prop :=
  Whole.isDigit c = true ∨ Text.isBlank c = true ∨ c ∈ ['+', '-', '/', '.']

instance (c : Char) : Decidable (InDate c) := inferInstanceAs (Decidable (_ ∨ _))

/-- Whether a reader takes characters of dates off the front of a text, up to the rest. -/
def Takes (text rest : List Char) : Prop := rest <:+ text ∧ ∀ c ∈ text, c ∈ rest ∨ InDate c

theorem Takes.refl (text : List Char) : Takes text text := ⟨List.suffix_rfl, fun _ hc => .inl hc⟩

theorem Takes.trans {text middle rest : List Char} (h : Takes text middle)
    (h' : Takes middle rest) : Takes text rest := by
  refine ⟨h'.1.trans h.1, fun c hc => ?_⟩
  rcases h.2 c hc with hmem | hdate
  · exact h'.2 c hmem
  · exact .inr hdate

theorem takes_cons {c : Char} (hc : InDate c) (rest : List Char) : Takes (c :: rest) rest := by
  refine ⟨List.suffix_cons c rest, fun d hd => ?_⟩
  rcases List.mem_cons.1 hd with rfl | hmem
  · exact .inr hc
  · exact .inl hmem

theorem takes_dropWhile_blank (text : List Char) : Takes text (text.dropWhile Text.isBlank) := by
  induction text with
  | nil => exact .refl []
  | cons c rest ih =>
    by_cases hc : Text.isBlank c = true
    · rw [List.dropWhile_cons_of_pos hc]
      exact (takes_cons (.inr (.inl hc)) rest).trans ih
    · rw [List.dropWhile_cons_of_neg hc]
      exact .refl _

theorem takes_readDigits {width value n : Nat} {text rest : List Char}
    (h : readDigits width value text = .ok (n, rest)) : Takes text rest := by
  fun_induction readDigits width value text with
  | case1 => cases h; exact .refl _
  | case2 => cases h; exact .refl _
  | case3 => cases h; exact .refl _
  | case4 width value c text d hd hbound ih =>
    refine (takes_cons (.inl ?_) text).trans (ih h)
    rw [Whole.isDigit, hd]
    rfl
  | case5 => cases h

/-- Whether a text starts like a number: with a digit or a sign. -/
def StartsNumber (text : List Char) : Prop :=
  ∃ c rest, text = c :: rest ∧ (Whole.isDigit c = true ∨ c = '+' ∨ c = '-')

theorem takes_readNumber {width n : Nat} {text rest : List Char}
    (h : readNumber width text = .ok (n, rest)) : Takes text rest ∧ StartsNumber text := by
  cases text with
  | nil => cases h
  | cons c text =>
    rw [readNumber] at h
    split at h
    case isTrue hc => exact ⟨takes_readDigits h, c, text, rfl, .inl hc⟩
    case isFalse => cases h

theorem takes_readYear {year : Int} {text rest : List Char} (h : readYear text = .ok (year, rest)) :
    Takes text rest ∧ StartsNumber text := by
  have checked {y : Int} {left : List Char} (hok : (if -Int.pow 2 31 ≤ y ∧ y < Int.pow 2 31 then
      pure (y, left) else throw DateFault.outOfRange : Except DateFault _) = .ok (year, rest)) :
      left = rest := by
    split at hok <;> cases hok
    rfl
  unfold readYear at h
  dsimp only at h
  split at h
  · obtain ⟨⟨n, left⟩, hn, hok⟩ := exists_of_bind_ok h
    simp only [pure_bind] at hok
    obtain rfl := checked hok
    exact ⟨(takes_cons (.inr (.inr (by simp))) _).trans (takes_readNumber hn).1, _, _, rfl,
      .inr (.inr rfl)⟩
  · obtain ⟨⟨n, left⟩, hn, hok⟩ := exists_of_bind_ok h
    simp only [pure_bind] at hok
    obtain rfl := checked hok
    exact ⟨(takes_cons (.inr (.inr (by simp))) _).trans (takes_readNumber hn).1, _, _, rfl,
      .inr (.inl rfl)⟩
  · obtain ⟨⟨n, left⟩, hn, hok⟩ := exists_of_bind_ok h
    simp only [pure_bind] at hok
    obtain rfl := checked hok
    exact takes_readNumber hn

theorem takes_readBounded {greatest n : Nat} {text rest : List Char}
    (h : readBounded greatest text = .ok (n, rest)) : Takes text rest ∧ StartsNumber text := by
  obtain ⟨⟨m, left⟩, hnumber, h⟩ := exists_of_bind_ok h
  dsimp only at h
  split at h
  · cases h
    exact takes_readNumber hnumber
  · cases h

theorem takes_readPart {part : Part} {date date' : Date} {text rest : List Char}
    (h : readPart part date text = .ok (date', rest)) :
    Takes text rest ∧ StartsNumber (text.dropWhile Text.isBlank) := by
  have hblank := takes_dropWhile_blank text
  cases part with
  | year =>
    obtain ⟨⟨year, left⟩, hyear, hpure⟩ := exists_of_bind_ok h
    cases hpure
    exact ⟨hblank.trans (takes_readYear hyear).1, (takes_readYear hyear).2⟩
  | month =>
    obtain ⟨⟨month, left⟩, hmonth, hpure⟩ := exists_of_bind_ok h
    cases hpure
    exact ⟨hblank.trans (takes_readBounded hmonth).1, (takes_readBounded hmonth).2⟩
  | day =>
    obtain ⟨⟨day, left⟩, hday, hpure⟩ := exists_of_bind_ok h
    cases hpure
    exact ⟨hblank.trans (takes_readBounded hday).1, (takes_readBounded hday).2⟩

theorem readMark_ok {mark : Char} {text rest : List Char} (h : readMark mark text = .ok rest) :
    text = mark :: rest := by
  cases text with
  | nil => cases h
  | cons c text =>
    rw [readMark] at h
    split at h
    · next hc =>
      cases h
      rw [hc]
    · cases h

/-- Parts with marks between them hold a mark. -/
theorem takes_readParts {mark : Char} (hmark : InDate mark) {part : Part} {parts : List Part}
    {date date' : Date} {text rest : List Char}
    (h : readParts mark (part :: parts) date text = .ok (date', rest)) :
    Takes text rest ∧ StartsNumber (text.dropWhile Text.isBlank) ∧
      (parts ≠ [] → mark ∈ text) := by
  induction parts generalizing part date text with
  | nil =>
    obtain ⟨htakes, hstarts⟩ := takes_readPart h
    exact ⟨htakes, hstarts, fun hne => absurd rfl hne⟩
  | cons next parts ih =>
    obtain ⟨⟨date₁, after⟩, hpart, hmarked⟩ := exists_of_bind_ok h
    obtain ⟨afterMark, hafter, hrest⟩ := exists_of_bind_ok hmarked
    obtain ⟨htakes, hstarts⟩ := takes_readPart hpart
    obtain rfl := readMark_ok hafter
    refine ⟨htakes.trans ((takes_cons hmark _).trans (ih hrest).1), hstarts, fun _ => ?_⟩
    exact htakes.1.mem List.mem_cons_self

theorem spellingOf_mark (text : List Char) : (spellingOf text).mark ∈ ['-', '/', '.'] := by
  unfold spellingOf
  split_ifs <;> simp

theorem chars_of_readDate {date : Date} {text : List Char} (h : readDate text = .ok date) :
    (∀ c ∈ text, InDate c) ∧ StartsNumber (text.dropWhile Text.isBlank) ∧
      ∃ mark ∈ ['-', '/', '.'], mark ∈ text := by
  have hmark := spellingOf_mark text
  have hparts : ∃ part next parts, (spellingOf text).parts = part :: next :: parts := by
    unfold spellingOf
    split_ifs <;> exact ⟨_, _, _, rfl⟩
  obtain ⟨⟨date', rest⟩, hread, h⟩ := exists_of_bind_ok h
  obtain ⟨part, next, parts, hparts⟩ := hparts
  rw [hparts] at hread
  have hinDate : InDate (spellingOf text).mark := by
    refine .inr (.inr ?_)
    simp only [List.mem_cons, List.not_mem_nil] at hmark ⊢
    tauto
  obtain ⟨htakes, hstarts, hmem⟩ := takes_readParts hinDate hread
  have hend : rest = [] := by
    by_contra hne
    dsimp only at h
    rw [if_pos hne] at h
    cases h
  subst hend
  refine ⟨fun c hc => ?_, hstarts, _, hmark, hmem (List.cons_ne_nil _ _)⟩
  exact (htakes.2 c hc).resolve_left List.not_mem_nil

theorem chars_of_readTimeParts {pieces : List (List Char)} {parts : List Nat}
    (h : readTimeParts pieces = .ok parts) :
    ∀ piece ∈ pieces, ∀ c ∈ piece, c = '+' ∨ Whole.isDigit c = true := by
  induction pieces generalizing parts with
  | nil => exact nofun
  | cons piece pieces ih =>
    rw [readTimeParts] at h
    split at h
    · cases h
    · next n hn =>
      obtain ⟨rest, hrest, -⟩ := exists_of_map_ok h
      exact List.forall_mem_cons.2 ⟨Whole.chars_of_readNat hn, ih hrest⟩

theorem chars_of_readTime {text : List Char} {seconds : Int} (h : readTime text = .ok seconds) :
    ∀ c ∈ text, c = ':' ∨ c = '+' ∨ Whole.isDigit c = true := by
  obtain ⟨parts, hparts, -⟩ := exists_of_bind_ok h
  intro c hc
  by_cases hcolon : c = ':'
  · exact .inl hcolon
  · obtain ⟨piece, hpiece, hmem⟩ := Text.exists_piece hc hcolon
    exact .inr (chars_of_readTimeParts hparts piece hpiece c hmem)

/-- What is read of the two parts of a literal. -/
theorem parts_of_readLocal {literal : String} {localTime : Int}
    (h : readLocal literal = .ok localTime) {datePart : List Char} {timePart : Option (List Char)}
    (hsplit : split literal = (datePart, timePart)) :
    (∃ date, readDate datePart = .ok date) ∧
      ∀ time, timePart = some time → ∃ seconds, readTime time = .ok seconds := by
  unfold readLocal at h
  rw [hsplit] at h
  obtain ⟨date, hdate, h⟩ := exists_of_bind_ok h
  refine ⟨⟨date, eq_ok_of_mapError_ok hdate⟩, ?_⟩
  rintro time rfl
  obtain ⟨seconds, hseconds, -⟩ := exists_of_bind_ok h
  exact ⟨seconds, hseconds⟩

/-! ## The text of a literal -/

/-- Characters that no capital form brings in or takes away. -/
def IsCapital (c : Char) : Prop :=
  c ∉ [' ', 't', 'T', 'S', '\u0308', '\ufb05', '\ufb06', '\u1e97']

instance (c : Char) : Decidable (IsCapital c) := inferInstanceAs (Decidable (_ ∉ _))

theorem mem_capital {c : Char} (hc : IsCapital c) (d : Char) : c ∈ capital d ↔ c = d := by
  simp only [IsCapital, List.mem_cons, List.not_mem_nil, or_false, not_or] at hc
  obtain ⟨hblank, ht, hT, hS, hmark, hlong, hst, hdiaeresis⟩ := hc
  unfold capital
  split_ifs with hd hd hd
  · rcases hd with rfl | rfl <;> simp [*]
  · rcases hd with rfl | rfl <;> simp [*]
  · subst hd
    simp [*]
  · simp

theorem mem_capitals {c : Char} (hc : IsCapital c) {text : List Char} :
    c ∈ text.flatMap capital ↔ c ∈ text := by
  simp [List.mem_flatMap, mem_capital hc]

/-- A text splits at its first T, if it has one. -/
theorem split_eq (literal : String) :
    split literal = (literal.toList.flatMap capital, none) ∨
      ∃ date time, literal.toList.flatMap capital = date ++ 'T' :: time ∧
        split literal = (date, some time) := by
  unfold split
  dsimp only
  generalize literal.toList.flatMap capital = text
  cases hdrop : text.dropWhile (· != 'T') with
  | nil => exact .inl rfl
  | cons c time =>
    have hc : c = 'T' := by
      have hhead := List.head?_dropWhile_not (· != 'T') text
      simpa [hdrop] using hhead
    refine .inr ⟨text.takeWhile (· != 'T'), time, ?_, rfl⟩
    subst hc
    rw [← hdrop, List.takeWhile_append_dropWhile]

/-- A text whose capital form starts with no letter starts as this form does. -/
theorem head_of_capitals {text : List Char} {c : Char} {rest : List Char} (hc : c ∉ ['T', 'S'])
    (h : text.flatMap capital = c :: rest) : ∃ rest', text = c :: rest' := by
  cases text with
  | nil => cases h
  | cons d text =>
    refine ⟨text, ?_⟩
    simp only [List.mem_cons, List.not_mem_nil, or_false, not_or] at hc
    rw [List.flatMap_cons] at h
    unfold capital at h
    split_ifs at h <;> cases h <;> simp_all

/-- An accepted date has a mark, no comma, and starts with a blank, a digit or a sign. -/
theorem chars_of_read {zone : Zone} {literal : String} {timestamp : Binary64}
    (h : read zone literal = .ok timestamp) :
    (∃ mark ∈ ['-', '/', '.'], mark ∈ literal.toList) ∧ ',' ∉ literal.toList ∧
      ∃ c rest, literal.toList = c :: rest ∧
        (Text.isBlank c = true ∨ Whole.isDigit c = true ∨ c = '+' ∨ c = '-') := by
  obtain ⟨instant, hinstant, -⟩ := exists_of_map_ok h
  obtain ⟨localTime, hlocal, -⟩ := exists_of_bind_ok hinstant
  rcases hsplit : split literal with ⟨datePart, timePart⟩
  obtain ⟨⟨date, hdate⟩, htime⟩ := parts_of_readLocal hlocal hsplit
  obtain ⟨hchars, hstarts, mark, hmark, hmem⟩ := chars_of_readDate hdate
  -- the capital form is the date, and perhaps a T and the time of day
  obtain ⟨after, hform, hafter⟩ : ∃ after, literal.toList.flatMap capital = datePart ++ after ∧
      ∀ c ∈ after, c = 'T' ∨ c = ':' ∨ c = '+' ∨ Whole.isDigit c = true := by
    rcases split_eq literal with hnone | ⟨date', time, hform, hsome⟩
    · cases hsplit.symm.trans hnone
      exact ⟨[], (List.append_nil _).symm, nofun⟩
    · cases hsplit.symm.trans hsome
      obtain ⟨seconds, hseconds⟩ := htime time rfl
      refine ⟨'T' :: time, hform, fun c hc => ?_⟩
      rcases List.mem_cons.1 hc with rfl | hc
      · exact .inl rfl
      · exact .inr (chars_of_readTime hseconds c hc)
  refine ⟨⟨mark, hmark, ?_⟩, ?_, ?_⟩
  · have hcapital : IsCapital mark := by
      fin_cases hmark <;> decide
    rw [← mem_capitals hcapital, hform]
    exact List.mem_append_left _ hmem
  · intro hcomma
    rw [← mem_capitals (by decide : IsCapital ','), hform, List.mem_append] at hcomma
    rcases hcomma with hcomma | hcomma
    · exact absurd (hchars ',' hcomma) (by decide)
    · exact absurd (hafter ',' hcomma) (by decide)
  · obtain ⟨c, rest, rfl⟩ : ∃ c rest, datePart = c :: rest := by
      obtain ⟨c, rest, hdrop, -⟩ := hstarts
      refine List.exists_cons_of_ne_nil ?_
      rintro rfl
      cases hdrop
    have hhead : Text.isBlank c = true ∨ Whole.isDigit c = true ∨ c = '+' ∨ c = '-' := by
      by_cases hblank : Text.isBlank c = true
      · exact .inl hblank
      · obtain ⟨first, rest', hdrop, hfirst⟩ := hstarts
        rw [List.dropWhile_cons_of_neg hblank] at hdrop
        cases hdrop
        exact .inr hfirst
    have hletter : c ∉ ['T', 'S'] := by
      intro hletter
      fin_cases hletter <;> exact absurd hhead (by decide)
    obtain ⟨rest', hliteral⟩ := head_of_capitals hletter hform
    exact ⟨c, rest', hliteral, hhead⟩

/-- A date is never a NaN. -/
theorem read_ne_nan {zone : Zone} {literal : String} {timestamp : Binary64}
    (h : read zone literal = .ok timestamp) : timestamp ≠ .nan := by
  obtain ⟨instant, -, rfl⟩ := exists_of_map_ok h
  exact Binary64.div_ofInt_ne_nan (n := 1000) (Binary64.ofInt_ne_nan _) (by decide) (by decide)

end DateLiteral
end DownloadQuery

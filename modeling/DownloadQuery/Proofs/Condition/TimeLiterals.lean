import DownloadQuery.Filter.Leaf
import DownloadQuery.Proofs.Calendar.DateText
import DownloadQuery.Proofs.Calendar.DeltaText
import DownloadQuery.Proofs.Condition.BareValues
import DownloadQuery.Proofs.Number.WholeNumbers
import Mathlib

/-!
# Literals of times

A literal of a time is a bare number, a span before now or a date. Spans end in a letter and dates
have a mark that no span has, so no literal is two of these, and each is read as what it is
(`Test.readPoint_digits`, `Test.readPoint_span`, `Test.readPoint_date`). None of them can be taken
for a part of the operator in front of it or for a list (`Values.IsBare`).
-/

namespace DownloadQuery

/-! ## Literals -/

namespace Values

theorem isBare_digits {value : List Char} (hne : value ≠ [])
    (hdigits : value.all Whole.isDigit = true) : IsBare value := by
  rw [List.all_eq_true] at hdigits
  obtain ⟨c, rest, rfl⟩ := List.exists_cons_of_ne_nil hne
  refine isBare_cons (hdigits c List.mem_cons_self) (fun hcomma => ?_) (fun hline => ?_)
  · exact absurd (hdigits _ hcomma) (by decide)
  · exact absurd (hdigits _ hline) (by decide)

theorem not_mem_span {value : List Char} {d : Delta} (hread : Delta.read? value = some d) {c : Char}
    (hc : c ∈ ['+', '-', '!', '=', '>', '/', '.', ',', '\n']) : c ∉ value := by
  intro hmem
  rcases Delta.chars_of_read? hread hmem with hdigit | ⟨unit, capital, hname⟩
  · revert hdigit
    fin_cases hc <;> decide
  · revert hname
    fin_cases hc <;> cases unit <;> cases capital <;> decide

theorem isBare_span {value : List Char} {d : Delta} (hne : value ≠ [])
    (hread : Delta.read? value = some d) : IsBare value := by
  refine ⟨hne, fun mark hmark hhead => ?_, not_mem_span hread (by simp),
    not_mem_span hread (by simp)⟩
  refine not_mem_span hread ?_ (List.mem_of_head? hhead)
  fin_cases hmark <;> decide

theorem isBare_date {zone : Zone} {literal : String} {timestamp : Binary64}
    (h : DateLiteral.read zone literal = .ok timestamp) (hline : '\n' ∉ literal.toList)
    (hsign : literal.toList.head? ≠ some '+' ∧ literal.toList.head? ≠ some '-') :
    IsBare literal.toList := by
  obtain ⟨-, hcomma, c, rest, htext, hc⟩ := DateLiteral.chars_of_read h
  refine ⟨by simp [htext], fun mark hmark hhead => ?_, hcomma, hline⟩
  have hmark' : mark = c := by
    rw [htext] at hhead
    cases hhead
    rfl
  subst hmark'
  rcases List.mem_cons.1 hmark with rfl | hmark
  · exact hsign.1 hhead
  · rcases List.mem_cons.1 hmark with rfl | hmark
    · exact hsign.2 hhead
    · revert hc
      fin_cases hmark <;> decide

end Values

namespace Test

variable {clock : Clock} {text : List Char} {timestamp : Binary64}

theorem readPoint_digits (hne : text ≠ []) (hdigits : text.all Whole.isDigit = true)
    (h : Decimal.read text = .ok timestamp) : readPoint clock text = .ok (.seconds timestamp) := by
  have hbare : (text != [] && text.all Whole.isDigit) = true := by simp [hne, hdigits]
  rw [readPoint, if_pos hbare, readNumber, h]
  rfl

theorem isDigit_name (unit : TimeUnit) (capital : Bool) :
    Whole.isDigit (unit.name capital) = false := by
  cases unit <;> cases capital <;> decide

theorem readPoint_span {d : Delta} (hread : Delta.read? text = some d)
    (h : d.before clock.zone clock.now (String.ofList text) = .ok timestamp) :
    readPoint clock text = .ok (.ago timestamp) := by
  have hbare : ¬ (text != [] && text.all Whole.isDigit) = true := by
    rw [Bool.and_eq_true, bne_iff_ne, List.all_eq_true]
    rintro ⟨hne, hall⟩
    obtain ⟨unit, capital, hname⟩ := Delta.exists_name_of_read? hread hne
    have hdigit := hall _ hname
    rw [isDigit_name] at hdigit
    cases hdigit
  rw [readPoint, if_neg hbare]
  simp only [hread, h]

/-- The marks of dates are no digits and no letters of units. -/
theorem readPoint_date (h : DateLiteral.read clock.zone (String.ofList text) = .ok timestamp) :
    readPoint clock text = .ok (.date timestamp) := by
  obtain ⟨⟨mark, hmark, hmem⟩, -, -⟩ := DateLiteral.chars_of_read h
  rw [String.toList_ofList] at hmem
  have hbare : ¬ (text != [] && text.all Whole.isDigit) = true := by
    rw [Bool.and_eq_true, List.all_eq_true]
    rintro ⟨-, hall⟩
    have hdigit := hall mark hmem
    revert hdigit
    fin_cases hmark <;> decide
  have hspan : Delta.read? text = none := by
    cases hread : Delta.read? text with
    | none => rfl
    | some d =>
      refine absurd hmem (Values.not_mem_span hread ?_)
      fin_cases hmark <;> decide
  rw [readPoint, if_neg hbare]
  simp only [hspan, h]

end Test

end DownloadQuery

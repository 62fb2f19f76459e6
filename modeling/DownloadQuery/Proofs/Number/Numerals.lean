import DownloadQuery.Display.Moment
import DownloadQuery.Proofs.Number.Digits
import Mathlib

/-!
# Numerals

A numeral is a run of digits, perhaps with leading zeros. It is read back as the number it stands
for, as a bounded number (`Whole.IsNumeral.readNat`) and as a decimal one
(`Decimal.read_of_isNumeral`). A number with leading zeros is a numeral of the width asked for, if
it has no more digits than that.
-/

namespace DownloadQuery

namespace Whole

/-- Whether a text stands for a number in decimal digits. -/
structure IsNumeral (n : Nat) (text : List Char) : Prop where
  ne_nil : text ≠ []
  digits : ∀ c ∈ text, isDigit c = true
  value : shifted 0 text = n

namespace IsNumeral

variable {n : Nat} {text : List Char}

theorem not_mem (h : IsNumeral n text) {c : Char} (hc : isDigit c = false) : c ∉ text := by
  intro hmem
  rw [h.digits c hmem] at hc
  cases hc

theorem head?_ne (h : IsNumeral n text) {c : Char} (hc : isDigit c = false) :
    text.head? ≠ some c :=
  fun hhead => h.not_mem hc (List.mem_of_head? hhead)

theorem exists_cons (h : IsNumeral n text) :
    ∃ c digits, text = c :: digits ∧ isDigit c = true := by
  obtain ⟨c, digits, rfl⟩ := List.exists_cons_of_ne_nil h.ne_nil
  exact ⟨c, digits, rfl, h.digits c List.mem_cons_self⟩

theorem readNat (h : IsNumeral n text) {bound : Nat} (hbound : n ≤ bound) :
    readNat bound text = .ok n := by
  rw [readNat_of_head h.ne_nil (h.head?_ne (by decide)), ← h.value]
  exact readDigits_of_le h.digits (h.value.trans_le hbound)

/-- A number out of range is not read, however many digits it has. -/
theorem exists_readNat_error (h : IsNumeral n text) {bound : Nat} (hbound : bound < n) :
    ∃ e, Whole.readNat bound text = .error e := by
  cases hread : Whole.readNat bound text with
  | error e => exact ⟨e, rfl⟩
  | ok m =>
    have hle : m ≤ bound := readNat_le hread
    rw [readNat_of_head h.ne_nil (h.head?_ne (by decide))] at hread
    have hvalue : m = n := (readDigits_ok hread).2.trans h.value
    omega

end IsNumeral

theorem isDigit_of_mem_toDigits {n : Nat} {c : Char} (h : c ∈ Nat.toDigits 10 n) :
    isDigit c = true := by
  have hc := Nat.isDigit_of_mem_toDigits (by decide) (by decide) h
  rw [Char.isDigit, Bool.and_eq_true, decide_eq_true_eq, decide_eq_true_eq] at hc
  exact isDigit_iff.2 hc

/-- Leading zeros count for nothing. -/
theorem isNumeral_replicate_zero (zeros n : Nat) :
    IsNumeral n (List.replicate zeros '0' ++ Nat.toDigits 10 n) where
  ne_nil := List.append_ne_nil_of_right_ne_nil _ Nat.toDigits_ne_nil
  digits c hc := by
    rcases List.mem_append.1 hc with hzero | hdigit
    · rw [List.eq_of_mem_replicate hzero]
      decide
    · exact isDigit_of_mem_toDigits hdigit
  value := by
    show Nat.ofDigitChars 10 _ 0 = n
    rw [Nat.ofDigitChars_append, Nat.ofDigitChars_replicate_zero, Nat.mul_zero,
      Nat.ofDigitChars_toDigits (by decide) (by decide)]

end Whole

namespace Binary64

/-- A whole number with few enough digits is not taken for an infinite one. -/
theorem ofDecimal_zero {n : Nat} (h : (Nat.toDigits 10 n).length ≤ 310) :
    ofDecimal false n 0 = ofInt n := by
  rcases Nat.eq_zero_or_pos n with rfl | hpos
  · have hzero : ofInt (0 : Nat) = .finite false 0 := by
      rw [ofInt_natCast (by decide), Nat.zero_mul]
    rw [hzero, ofDecimal, if_pos rfl]
  · have hlarge : ¬ (((Nat.toDigits 10 n).length : Int) + 0 > 310) := by omega
    have hsmall : ¬ (((Nat.toDigits 10 n).length : Int) + 0 < -330) := by omega
    have hsign : decide ((n : Int) < 0) = false := decide_eq_false (by omega)
    rw [ofDecimal, if_neg hpos.ne']
    simp only [if_neg hlarge, if_neg hsmall, le_refl, if_true]
    rw [ofInt, hsign, Int.natAbs_natCast]
    simp

end Binary64

namespace Decimal

open Whole

variable {n : Nat} {text : List Char}

theorem natOfDigits_zeros_append (j : Nat) (digits : List Char) :
    natOfDigits (List.replicate j '0' ++ digits) = natOfDigits digits := by
  show Nat.ofDigitChars 10 _ 0 = Nat.ofDigitChars 10 _ 0
  rw [Nat.ofDigitChars_append, Nat.ofDigitChars_replicate_zero, Nat.mul_zero]

theorem natOfDigits_append_zeros (digits : List Char) (j : Nat) :
    natOfDigits (digits ++ List.replicate j '0') = natOfDigits digits * 10 ^ j := by
  show Nat.ofDigitChars 10 _ 0 = Nat.ofDigitChars 10 _ 0 * _
  rw [Nat.ofDigitChars_append, Nat.ofDigitChars_replicate_zero, Nat.mul_comm]

theorem natOfDigits_toDigits (n : Nat) : natOfDigits (Nat.toDigits 10 n) = n :=
  Nat.ofDigitChars_ten_toDigits

theorem splitSign_unsigned {text : List Char} (hminus : text.head? ≠ some '-')
    (hplus : text.head? ≠ some '+') : splitSign text = (false, text) := by
  unfold splitSign
  split <;> simp_all

theorem splitSign_of_isNumeral (h : IsNumeral n text) : splitSign text = (false, text) :=
  splitSign_unsigned (h.head?_ne (by decide)) (h.head?_ne (by decide))

/-- Digits make no name of a number. -/
theorem map_toLower_of_isNumeral (h : IsNumeral n text) : text.map Char.toLower = text := by
  rw [List.map_congr_left fun c hc => toLower_digit (h.digits c hc), List.map_id']

theorem readUnsigned_of_isNumeral (h : IsNumeral n text) :
    readUnsigned false text = some (.ofDecimal false n 0) := by
  have htake : text.takeWhile isDigit = text := List.takeWhile_eq_self_iff.2 h.digits
  have hdrop : text.dropWhile isDigit = [] := List.dropWhile_eq_nil_iff.2 h.digits
  have hvalue : natOfDigits text = n := h.value
  simp [readUnsigned, htake, hdrop, h.ne_nil, readExponent, hvalue]

/-- A whole number is read exactly, rounded once if it has to be. -/
theorem read_of_isNumeral (h : IsNumeral n text) (hlength : (Nat.toDigits 10 n).length ≤ 310) :
    read text = .ok (.ofInt n) := by
  have hname {name : List Char} {c : Char} (hc : c ∈ name) (hdigit : isDigit c = false) :
      ¬ text = name := by
    rintro rfl
    exact h.not_mem hdigit hc
  have hinf : ¬ text = "inf".toList := hname (c := 'i') (by decide) (by decide)
  have hinfinity : ¬ text = "infinity".toList := hname (c := 'i') (by decide) (by decide)
  have hnan : ¬ text = "nan".toList := hname (c := 'n') (by decide) (by decide)
  rw [read, if_neg h.ne_nil, splitSign_of_isNumeral h]
  simp only [map_toLower_of_isNumeral h, hinf, hinfinity, hnan, or_self, if_false,
    readUnsigned_of_isNumeral h, Binary64.ofDecimal_zero hlength]

end Decimal

namespace Display

theorem zeroPadded_eq (width n : Nat) : (zeroPadded width n).toList =
    List.replicate (width - (Nat.toDigits 10 n).length) '0' ++ Nat.toDigits 10 n := by
  unfold zeroPadded
  simp only [Nat.toString_eq_ofList_toDigits, String.toList_append, String.toList_ofList,
    String.length_ofList]

theorem isNumeral_zeroPadded (width n : Nat) : Whole.IsNumeral n (zeroPadded width n).toList := by
  rw [zeroPadded_eq]
  exact Whole.isNumeral_replicate_zero _ n

theorem length_zeroPadded {width n : Nat} (hwidth : 0 < width) (h : n < 10 ^ width) :
    (zeroPadded width n).toList.length = width := by
  have hlength : (Nat.toDigits 10 n).length ≤ width :=
    (Nat.length_toDigits_le_iff (by decide) hwidth).2 h
  rw [zeroPadded_eq, List.length_append, List.length_replicate, Nat.sub_add_cancel hlength]

end Display

end DownloadQuery

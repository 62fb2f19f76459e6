import DownloadQuery.Number.Decimal
import DownloadQuery.Proofs.Number.WholeNumbers
import DownloadQuery.Proofs.Steps
import DownloadQuery.Text.Classes
import Mathlib

/-!
# Runs of digits

What is read of a run of digits as a whole number is the number they make, if it is in range, and
nothing but digits is read (`Whole.readDigits_ok`, `Whole.readDigits_of_le`). As a decimal number,
digits are never a NaN.
-/

namespace DownloadQuery

namespace Whole

theorem isDigit_iff {c : Char} : isDigit c = true ↔ '0' ≤ c ∧ c ≤ '9' := by
  unfold isDigit digit?
  split <;> simp_all

theorem digit?_eq_some_iff {c : Char} {n : Nat} :
    digit? c = some n ↔ isDigit c = true ∧ n = c.toNat - '0'.toNat := by
  unfold isDigit digit?
  split <;> simp [eq_comm]

/-- The number that digits make when they are put behind a number. -/
def shifted (value : Nat) (digits : List Char) : Nat :=
  digits.foldl (fun n c => 10 * n + (c.toNat - '0'.toNat)) value

theorem le_shifted (value : Nat) (digits : List Char) : value ≤ shifted value digits := by
  induction digits generalizing value with
  | nil => exact le_rfl
  | cons c digits ih =>
    have hstep : value ≤ 10 * value + (c.toNat - '0'.toNat) := by omega
    exact hstep.trans (ih _)

/-- What is read is the number the digits make, and they all are ASCII digits. -/
theorem readDigits_ok {bound value n : Nat} {fault : WholeError} {digits : List Char}
    (h : readDigits bound fault value digits = .ok n) :
    (∀ c ∈ digits, isDigit c = true) ∧ n = shifted value digits := by
  induction digits generalizing value with
  | nil =>
    cases h
    exact ⟨nofun, rfl⟩
  | cons c digits ih =>
    rw [readDigits] at h
    cases hc : digit? c with
    | none =>
      rw [hc] at h
      cases h
    | some d =>
      obtain ⟨hdigit, rfl⟩ := digit?_eq_some_iff.1 hc
      simp only [hc] at h
      split at h
      · obtain ⟨hdigits, hn⟩ := ih h
        exact ⟨List.forall_mem_cons.2 ⟨hdigit, hdigits⟩, hn⟩
      · cases h

theorem readDigits_of_le {bound value : Nat} {fault : WholeError} {digits : List Char}
    (h : ∀ c ∈ digits, isDigit c = true) (hbound : shifted value digits ≤ bound) :
    readDigits bound fault value digits = .ok (shifted value digits) := by
  induction digits generalizing value with
  | nil => rfl
  | cons c digits ih =>
    have hc : digit? c = some (c.toNat - '0'.toNat) :=
      digit?_eq_some_iff.2 ⟨h c List.mem_cons_self, rfl⟩
    have hnext : 10 * value + (c.toNat - '0'.toNat) ≤ bound := (le_shifted _ digits).trans hbound
    simp only [readDigits, hc, if_pos hnext]
    exact ih (fun c' hc' => h c' (List.mem_cons_of_mem c hc')) hbound

/-- The number of digits stays within the bound. -/
theorem readDigits_le {bound value n : Nat} {fault : WholeError} {digits : List Char}
    (hvalue : value ≤ bound) (h : readDigits bound fault value digits = .ok n) : n ≤ bound := by
  induction digits generalizing value with
  | nil =>
    cases h
    exact hvalue
  | cons c digits ih =>
    rw [readDigits] at h
    split at h
    · cases h
    · dsimp only at h
      split_ifs at h with hnext
      exact ih hnext h

theorem readNat_le {bound n : Nat} {text : List Char} (h : readNat bound text = .ok n) :
    n ≤ bound := by
  unfold readNat at h
  split at h
  · cases h
  · cases h
  · exact readDigits_le (Nat.zero_le _) h
  · exact readDigits_le (Nat.zero_le _) h

theorem readInt64_lt {text : List Char} {i : Int} (h : readInt64 text = .ok i) :
    i < Int.pow 2 63 := by
  unfold readInt64 at h
  split at h
  · cases h
  · cases h
  · obtain ⟨_, hm, rfl⟩ := exists_of_map_ok h
    obtain ⟨n, -, ⟨⟩⟩ := exists_of_bind_ok hm
    exact (Int.neg_nonpos_of_nonneg (Int.natCast_nonneg n)).trans_lt (by decide)
  · obtain ⟨n, hn, rfl⟩ := exists_of_map_ok h
    have hle := readNat_le hn
    have hbound : Nat.pow 2 63 - 1 < Int.pow 2 63 := by decide
    exact (Int.ofNat_le.2 hle).trans_lt hbound

theorem le_readInt64 {text : List Char} {i : Int} (h : readInt64 text = .ok i) :
    -Int.pow 2 63 ≤ i := by
  unfold readInt64 at h
  split at h
  · cases h
  · cases h
  · obtain ⟨_, hm, rfl⟩ := exists_of_map_ok h
    obtain ⟨n, hn, ⟨⟩⟩ := exists_of_bind_ok hm
    exact Int.neg_le_neg (Int.ofNat_le.2 (readDigits_le (Nat.zero_le _) hn))
  · obtain ⟨n, -, rfl⟩ := exists_of_map_ok h
    exact (show -Int.pow 2 63 ≤ 0 by decide).trans (Int.natCast_nonneg n)

theorem readNat_of_head {bound : Nat} {digits : List Char} (hne : digits ≠ [])
    (hplus : digits.head? ≠ some '+') :
    readNat bound digits = readDigits bound .tooLarge 0 digits := by
  unfold readNat
  split <;> simp_all

theorem isDecimalDigit_of_isDigit {c : Char} (h : isDigit c = true) :
    Text.isDecimalDigit c = true := by
  have hrange := isDigit_iff.1 h
  have hascii : c.toNat < 0x80 := Nat.lt_of_le_of_lt hrange.2 (by decide)
  rw [Text.isDecimalDigit, if_pos hascii]
  simp only [Char.isDigit, Bool.and_eq_true, decide_eq_true_eq]
  exact hrange

theorem toLower_digit {c : Char} (h : isDigit c = true) : c.toLower = c := by
  have hnine := (isDigit_iff.1 h).2
  have hcapital : ¬ 'A'.val ≤ c.val := fun hA => absurd (hA.trans hnine) (by decide)
  exact dif_neg fun hrange => hcapital hrange.1

/-- Numbers hold digits, and perhaps a plus sign. -/
theorem chars_of_readNat {bound n : Nat} {text : List Char} (h : readNat bound text = .ok n) :
    ∀ c ∈ text, c = '+' ∨ isDigit c = true := by
  unfold readNat at h
  split at h
  · cases h
  · cases h
  · intro c hc
    rcases List.mem_cons.1 hc with rfl | hrest
    · exact .inl rfl
    · exact .inr ((readDigits_ok h).1 c hrest)
  · exact fun c hc => .inr ((readDigits_ok h).1 c hc)

end Whole

namespace Decimal

/-- Digits make no name of a number. -/
theorem read_ne_nan {text : List Char} (hdigits : text.all Whole.isDigit = true) {x : Binary64}
    (h : read text = .ok x) : x ≠ .nan := by
  have hname : ¬ (splitSign text).2.map Char.toLower = "nan".toList := by
    intro hnan
    have hn : 'n' ∈ (splitSign text).2.map Char.toLower := by
      rw [hnan]
      decide
    obtain ⟨c, hc, hlower⟩ := List.mem_map.1 hn
    have hmem : c ∈ text := by
      unfold splitSign at hc
      split at hc
      · exact List.mem_cons_of_mem _ hc
      · exact List.mem_cons_of_mem _ hc
      · exact hc
    have hdigit := List.all_eq_true.1 hdigits c hmem
    rw [Whole.toLower_digit hdigit] at hlower
    rw [hlower] at hdigit
    exact absurd hdigit (by decide)
  unfold read at h
  dsimp only at h
  split_ifs at h with hempty hinf
  · cases h
    exact Binary64.infinite_ne_nan _
  · split at h
    · next y hy =>
      cases h
      unfold readUnsigned at hy
      dsimp only at hy
      split_ifs at hy
      obtain ⟨exponent, -, rfl⟩ := Option.map_eq_some_iff.1 hy
      exact Binary64.ofDecimal_ne_nan _ _ _
    · cases h

end Decimal

end DownloadQuery

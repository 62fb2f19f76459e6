import DownloadQuery.Number.Decimal
import DownloadQuery.Proofs.Number.WholeNumbers

/-!
# Rounded numbers

A quotient is rounded to the nearest natural, of two the even one (`isNearestEven_roundDiv`). What
has been rounded is not rounded again (`nearest_nearest`). So the results of rounding are the
numbers that binary64 has (`IsRounded`), and among these a whole one within the signed 64-bit words
is told by its integer (`ofInt_toInt64`).
-/

namespace DownloadQuery
namespace Binary64

/-! ## Rounding a quotient -/

/-- Whether a natural is nearest to a quotient, and even if another one is as near. -/
structure IsNearestEven (num den q : Nat) : Prop where
  le : 2 * (q * den) ≤ 2 * num + den
  ge : 2 * num ≤ 2 * (q * den) + den
  even_of_tie : 2 * (q * den) = 2 * num + den ∨ 2 * num = 2 * (q * den) + den → q % 2 = 0

theorem isNearestEven_roundDiv (num : Nat) {den : Nat} (hden : 0 < den) :
    IsNearestEven num den (roundDiv num den) := by
  have hnum : num / den * den + num % den = num := Nat.div_add_mod' num den
  have hsucc : (num / den + 1) * den = num / den * den + den := Nat.succ_mul _ _
  have hlt : num % den < den := Nat.mod_lt num hden
  rw [roundDiv]
  split_ifs with hdown hup
  · exact ⟨by omega, by omega, by omega⟩
  · exact ⟨by omega, by omega, by omega⟩
  · have htie : 2 * (num % den) = den := by omega
    rcases Nat.mod_two_eq_zero_or_one (num / den) with heven | hodd
    · rw [heven, Nat.add_zero]
      exact ⟨by omega, by omega, fun _ => heven⟩
    · rw [hodd]
      exact ⟨by omega, by omega, fun _ => by omega⟩

namespace IsNearestEven

variable {num den q m : Nat}

theorem ge_of_le (h : IsNearestEven num den q) (hden : 0 < den) (hm : m * den ≤ num) : m ≤ q := by
  by_contra hlt
  have hstep : (q + 1) * den ≤ m * den := Nat.mul_le_mul_right den (Nat.not_le.1 hlt)
  have hge := h.ge
  rw [Nat.succ_mul] at hstep
  omega

theorem le_of_le (h : IsNearestEven num den q) (hden : 0 < den) (hm : num ≤ m * den) : q ≤ m := by
  by_contra hlt
  have hstep : (m + 1) * den ≤ q * den := Nat.mul_le_mul_right den (Nat.not_le.1 hlt)
  have hle := h.le
  rw [Nat.succ_mul] at hstep
  omega

/-- A quotient is rounded up to an even number from half of one below it. -/
theorem eq_iff_of_le (h : IsNearestEven num den q) (hden : 0 < den) (hm : num ≤ m * den)
    (heven : m % 2 = 0) : q = m ↔ 2 * (m * den) ≤ 2 * num + den := by
  constructor
  · rintro rfl
    exact h.le
  · intro hhalf
    rcases (h.le_of_le hden hm).lt_or_eq with hlt | heq
    · have hstep : (q + 1) * den ≤ m * den := Nat.mul_le_mul_right den hlt
      have hge := h.ge
      rw [Nat.succ_mul] at hstep
      have hnext : m * den = (q + 1) * den := by
        rw [Nat.succ_mul]
        omega
      have hm' : m = q + 1 := Nat.eq_of_mul_eq_mul_right hden hnext
      have hq : q % 2 = 0 := h.even_of_tie (.inr (by omega))
      omega
    · exact heq

theorem unique {q' : Nat} (h : IsNearestEven num den q) (h' : IsNearestEven num den q')
    (hden : 0 < den) : q = q' := by
  have hnot {a b : Nat} (ha : IsNearestEven num den a) (hb : IsNearestEven num den b) :
      ¬ a < b := by
    intro hlt
    have hstep : (a + 1) * den ≤ b * den := Nat.mul_le_mul_right den hlt
    have hge := ha.ge
    have hle := hb.le
    rw [Nat.succ_mul] at hstep
    have hnext : b * den = (a + 1) * den := by
      rw [Nat.succ_mul]
      omega
    have hb' : b = a + 1 := Nat.eq_of_mul_eq_mul_right hden hnext
    have hevena := ha.even_of_tie (.inr (by omega))
    have hevenb := hb.even_of_tie (.inl (by omega))
    omega
  exact Nat.le_antisymm (Nat.not_lt.1 (hnot h' h)) (Nat.not_lt.1 (hnot h h'))

end IsNearestEven

theorem roundDiv_mul_right (num den : Nat) {c : Nat} (hc : 0 < c) :
    roundDiv (num * c) (den * c) = roundDiv num den := by
  have hrem : num * c % (den * c) = num % den * c := Nat.mul_mod_mul_right c num den
  have hlt (a b : Nat) : a * c < b * c ↔ a < b := Nat.mul_lt_mul_right hc
  rw [roundDiv, roundDiv, Nat.mul_div_mul_right _ _ hc, hrem]
  simp only [← Nat.mul_assoc, hlt]

/-! ## Rounding to a number of binary digits -/

theorem spacing_le {m k : Nat} (hm : m < 2 ^ (53 + k)) : spacing m ≤ k := by
  rcases Nat.eq_zero_or_pos m with rfl | hpos
  · exact Nat.zero_le k
  · have hlog : m.log2 < 53 + k := (Nat.log2_lt hpos.ne').2 hm
    unfold spacing
    omega

theorem lt_pow_spacing (q : Nat) : q < 2 ^ (53 + spacing q) := by
  rcases Nat.eq_zero_or_pos q with rfl | hpos
  · decide
  · rw [← Nat.log2_lt hpos.ne', spacing]
    omega

/-- The nearest count of units is a multiple of the spacing around it. -/
theorem spacing_dvd_nearest (num den : Nat) :
    Nat.pow 2 (spacing (nearest num den)) ∣ nearest num den := by
  rw [nearest]
  generalize hk : spacing (num / den) = k
  have hround : roundDiv num (den * Nat.pow 2 k) ≤ 2 ^ 53 := by
    have hquotient : num / den < 2 ^ k * 2 ^ 53 := by
      rw [← Nat.pow_add, Nat.add_comm, ← hk]
      exact lt_pow_spacing _
    have hle := roundDiv_le num (den * Nat.pow 2 k)
    rw [← Nat.div_div_eq_div_mul] at hle
    exact hle.trans (Nat.div_lt_of_lt_mul hquotient)
  generalize roundDiv num (den * Nat.pow 2 k) = q at hround
  -- Rounding up to a power of two is the one case in which the spacing grows.
  rcases hround.lt_or_eq with hlt | rfl
  · have hbound : q * Nat.pow 2 k < 2 ^ (53 + k) := by
      rw [Nat.pow_add]
      exact Nat.mul_lt_mul_of_pos_right hlt (Nat.pow_pos (by decide))
    exact Dvd.dvd.mul_left (Nat.pow_dvd_pow 2 (spacing_le hbound)) q
  · have hpow : 2 ^ 53 * Nat.pow 2 k = 2 ^ (53 + k) := (Nat.pow_add 2 53 k).symm
    rw [hpow]
    exact Nat.pow_dvd_pow 2 ((spacing_le (Nat.pow_lt_pow_right (by decide) (by omega))).trans
      (show k + 1 ≤ 53 + k by omega))

theorem nearest_nearest (num den : Nat) : nearest (nearest num den) 1 = nearest num den := by
  have hmul := nearest_mul Nat.one_pos (spacing_dvd_nearest num den)
  rwa [Nat.mul_one] at hmul

/-- Whether a number is one that binary64 has: rounding leaves it as it is. -/
def IsRounded (x : Binary64) : Prop :=
  ∀ negative units, x = .finite negative units → ofUnits negative units 1 = x

/-- Whether a number is neither infinite nor NaN. -/
def IsFinite (x : Binary64) : Prop := ∃ negative units, x = .finite negative units

theorem isRounded_nan : IsRounded .nan := nofun

theorem isRounded_infinite (negative : Bool) : IsRounded (.infinite negative) := nofun

/-- A number that binary64 has is in range, and a multiple of the spacing around it. -/
theorem IsRounded.bounds {negative : Bool} {units : Nat} (h : (finite negative units).IsRounded) :
    2 ^ spacing units ∣ units ∧ units < limit := by
  have hround := h negative units rfl
  rw [ofUnits] at hround
  split_ifs at hround with hlimit
  have hnearest : nearest units 1 = units := by injection hround
  have hdvd := spacing_dvd_nearest units 1
  rw [hnearest] at hdvd hlimit
  exact ⟨hdvd, hlimit⟩

theorem isRounded_ofUnits (negative : Bool) (num den : Nat) :
    (ofUnits negative num den).IsRounded := by
  rw [ofUnits]
  by_cases h : nearest num den < limit
  · rw [if_pos h]
    rintro _ _ ⟨⟩
    rw [ofUnits, nearest_nearest, if_pos h]
  · rw [if_neg h]
    exact isRounded_infinite negative

theorem isRounded_ofRatio (negative : Bool) (num den : Nat) :
    (ofRatio negative num den).IsRounded :=
  isRounded_ofUnits _ _ _

theorem isRounded_ofInt (i : Int) : (ofInt i).IsRounded := by
  rw [ofInt]
  exact isRounded_ofRatio _ _ _

theorem isRounded_literal (n : Nat) : (OfNat.ofNat n : Binary64).IsRounded := isRounded_ofInt n

theorem isRounded_zero (negative : Bool) : (finite negative 0).IsRounded := by
  have hzero : ofUnits negative (0 * one * 1) 1 = .finite negative (0 * one) :=
    ofUnits_whole negative Nat.one_pos (Nat.zero_le _)
  rw [Nat.zero_mul, Nat.zero_mul] at hzero
  rintro _ _ ⟨⟩
  exact hzero

theorem isRounded_ofDecimal (negative : Bool) (digits : Nat) (exponent : Int) :
    (ofDecimal negative digits exponent).IsRounded := by
  rw [ofDecimal]
  dsimp only
  split_ifs
  · exact isRounded_zero negative
  · exact isRounded_infinite negative
  · exact isRounded_zero negative
  · exact isRounded_ofRatio _ _ _
  · exact isRounded_ofRatio _ _ _

theorem isRounded_add (x y : Binary64) : (x + y).IsRounded := by
  change (add x y).IsRounded
  unfold add
  split
  · exact isRounded_nan
  · exact isRounded_nan
  · split_ifs
    · exact isRounded_infinite _
    · exact isRounded_nan
  · exact isRounded_infinite _
  · exact isRounded_infinite _
  · dsimp only
    split_ifs
    · exact isRounded_zero _
    · exact isRounded_ofUnits _ _ _

theorem isRounded_sub (x y : Binary64) : (x - y).IsRounded := isRounded_add x y.neg

theorem isRounded_div (x y : Binary64) : (x / y).IsRounded := by
  change (div x y).IsRounded
  unfold div
  split
  · exact isRounded_nan
  · exact isRounded_nan
  · exact isRounded_nan
  · exact isRounded_infinite _
  · exact isRounded_zero _
  · split_ifs
    · exact isRounded_nan
    · exact isRounded_infinite _
    · exact isRounded_ofUnits _ _ _

theorem finite_eq_zero (negative : Bool) (units : Nat) :
    (finite negative units).eq 0 = decide (units = 0) := by
  have hzero : (0 : Binary64).place = some ((0 : Int) * (one : Nat)) :=
    place_ofInt (i := 0) (Nat.zero_le _)
  have hsigned : signed negative units = 0 ↔ units = 0 := by
    cases negative <;> simp [signed]
  rw [eq, place, hzero, Int.zero_mul]
  exact decide_eq_decide.2 hsigned

/-- An integer with a sign of its own is the number of its amount. -/
theorem ofInt_signed (negative : Bool) {n : Nat} (hn : n ≠ 0) :
    ofInt (signed negative n) = ofUnits negative (n * one) 1 := by
  have hnegative : decide (signed negative n < 0) = negative := by
    cases negative with
    | false => exact decide_eq_false (by rw [signed, if_neg Bool.false_ne_true]; omega)
    | true => exact decide_eq_true (by rw [signed, if_pos rfl]; omega)
  have hamount : (signed negative n).natAbs = n := by
    cases negative <;> simp [signed]
  rw [ofInt, hnegative, hamount, ofRatio]

/-- The integer of a whole number gives the number back, unless it is held at an end of the
range. -/
theorem ofInt_toInt64 {x : Binary64} (hx : x.IsRounded) (hwhole : x.isWhole = true)
    (hne : x.eq 0 = false) :
    ofInt x.toInt64 = x ∨ x.toInt64 = Int.pow 2 63 - 1 ∨ x.toInt64 = -Int.pow 2 63 := by
  rcases x with _ | negative | ⟨negative, units⟩
  · cases hwhole
  · cases hwhole
  rw [isWhole, beq_iff_eq] at hwhole
  obtain ⟨n, hunits⟩ : one ∣ units := Nat.dvd_of_mod_eq_zero hwhole
  have hn : n ≠ 0 := by
    intro hzero
    rw [finite_eq_zero, decide_eq_false_iff_not] at hne
    rw [hzero, Nat.mul_zero] at hunits
    exact hne hunits
  rw [toInt64, clampInt, hunits, Nat.mul_div_cancel_left n one_pos, ← hunits]
  generalize hlow : -Int.pow 2 63 = lo
  generalize hhigh : Int.pow 2 63 - 1 = hi
  have hends : lo ≤ hi := by
    rw [← hlow, ← hhigh]
    decide
  by_cases hrange : lo ≤ signed negative n ∧ signed negative n ≤ hi
  · have hclamp : max lo (min hi (signed negative n)) = signed negative n := by omega
    rw [hclamp, ofInt_signed negative hn, Nat.mul_comm n, ← hunits]
    exact .inl (hx _ _ rfl)
  · exact .inr (by omega)

theorem toInt64_lt (x : Binary64) : x.toInt64 < Int.pow 2 63 := by
  have hlow : -Int.pow 2 63 = -9223372036854775808 := by decide
  have hhigh : Int.pow 2 63 = 9223372036854775808 := by decide
  rw [toInt64, hlow, hhigh]
  rcases x with _ | negative | ⟨negative, units⟩
  · rw [clampInt]
    omega
  · rw [clampInt]
    split_ifs <;> omega
  · rw [clampInt]
    omega

theorem le_toInt64 (x : Binary64) : -Int.pow 2 63 ≤ x.toInt64 := by
  have hlow : -Int.pow 2 63 = -9223372036854775808 := by decide
  have hhigh : Int.pow 2 63 = 9223372036854775808 := by decide
  rw [toInt64, hlow, hhigh]
  rcases x with _ | negative | ⟨negative, units⟩
  · rw [clampInt]
    omega
  · rw [clampInt]
    split_ifs <;> omega
  · rw [clampInt]
    omega

end Binary64

namespace Decimal

theorem isRounded_of_readUnsigned {negative : Bool} {text : List Char} {x : Binary64}
    (h : readUnsigned negative text = some x) : x.IsRounded := by
  rw [readUnsigned] at h
  dsimp only at h
  split_ifs at h
  obtain ⟨exponent, -, rfl⟩ := Option.map_eq_some_iff.1 h
  exact Binary64.isRounded_ofDecimal _ _ _

/-- A number that is read from decimal text is rounded. -/
theorem isRounded_of_read {text : List Char} {x : Binary64} (h : read text = .ok x) :
    x.IsRounded := by
  rw [read] at h
  dsimp only at h
  split_ifs at h
  · cases h
    exact Binary64.isRounded_infinite _
  · cases h
    exact Binary64.isRounded_nan
  · split at h
    · next y hy =>
      cases h
      exact isRounded_of_readUnsigned hy
    · cases h

end Decimal
end DownloadQuery

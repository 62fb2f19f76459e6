import DownloadQuery.Display.Size
import DownloadQuery.Proofs.Number.Rounding
import Mathlib

/-!
# The numbers of shown sizes

Dividing by 1024 is exact (`Binary64.dyadic_div`), so the unit of a size is chosen by its bytes
alone, and the number that is shown is the exact quotient, rounded to tenths. It is rounded only
after the unit is chosen: sizes within half a tenth of the next unit are shown as 1024.0 of the one
below it (`Display.exists_showsSize`).
-/

namespace DownloadQuery

namespace Binary64

/-! ## Dividing by powers of two -/

/-- The number `n · 2⁻ʲ`. -/
def dyadic (n j : Nat) : Binary64 := .finite false (n * 2 ^ (1074 - j))

theorem one_eq_mul {j : Nat} (hj : j ≤ 1074) : one = 2 ^ j * 2 ^ (1074 - j) := by
  rw [one_eq, ← Nat.pow_add, Nat.add_sub_cancel' hj]

theorem literal_eq (n : Nat) : (OfNat.ofNat n : Binary64) = ofInt n := rfl

theorem ofInt_eq_dyadic {n : Nat} (hn : n ≤ 2 ^ 53) : ofInt n = dyadic n 0 := by
  rw [ofInt_natCast hn, dyadic, one_eq, Nat.sub_zero]

/-- Of a whole number with 53 binary digits no division by a power of two loses one. -/
theorem dyadic_div_two_pow {n i j : Nat} (hn : n < 2 ^ 53) (hi : i ≤ 53) (hj : j + i ≤ 1074) :
    dyadic n j / ofInt (2 ^ i : Nat) = dyadic n (j + i) := by
  obtain ⟨k, hk⟩ : ∃ k, 1074 - (j + i) = k := ⟨_, rfl⟩
  have hk' : 1074 - j = k + i := by omega
  have hbits : n * 2 ^ k < 2 ^ (53 + k) := by
    rw [Nat.pow_add]
    exact Nat.mul_lt_mul_of_pos_right hn (Nat.two_pow_pos k)
  have hspacing : Nat.pow 2 (spacing (n * 2 ^ k)) ∣ n * 2 ^ k :=
    Dvd.dvd.mul_left (Nat.pow_dvd_pow 2 (spacing_le hbits)) n
  have hlimit : n * 2 ^ k < limit := by
    have hpow : 2 ^ k ≤ one :=
      (Nat.pow_le_pow_right (by decide) (by omega)).trans_eq one_eq.symm
    exact (Nat.mul_le_mul_left n hpow).trans_lt (mul_one_lt_limit hn.le)
  have hden : 0 < 2 ^ i * one := Nat.mul_pos (Nat.two_pow_pos i) one_pos
  have hproduct : n * 2 ^ (k + i) * one = n * 2 ^ k * (2 ^ i * one) := by
    rw [Nat.pow_add]
    ring
  rw [ofInt_natCast (Nat.pow_le_pow_right (by decide) hi), dyadic, dyadic, hk, hk',
    div_finite _ _ _ hden.ne', hproduct, ofUnits, nearest_mul hden hspacing, if_pos hlimit,
    Bool.bne_false]

theorem dyadic_div {n j : Nat} (hn : n < 2 ^ 53) (hj : j + 10 ≤ 1074) :
    dyadic n j / 1024 = dyadic n (j + 10) :=
  dyadic_div_two_pow hn (i := 10) (by decide) hj

theorem dyadic_lt {n j : Nat} (hj : j ≤ 1074) :
    (dyadic n j).lt 1024 = decide (n < 1024 * 2 ^ j) := by
  have hone := one_eq_mul hj
  obtain ⟨k, hk⟩ : ∃ k, 1074 - j = k := ⟨_, rfl⟩
  rw [hk] at hone
  have hunits : ((n * 2 ^ k : Nat) : Int) < (1024 : Nat) * (2 ^ j * 2 ^ k : Nat) ↔
      n < 1024 * 2 ^ j := by
    rw [← Nat.cast_mul, Int.ofNat_lt, ← Nat.mul_assoc]
    exact Nat.mul_lt_mul_right (Nat.two_pow_pos k)
  rw [literal_eq, lt, place_ofInt (by decide), dyadic, hk, place, signed,
    if_neg Bool.false_ne_true, hone]
  exact decide_eq_decide.2 hunits

theorem oneDecimal_dyadic {n j : Nat} (hj : j ≤ 1074) :
    (dyadic n j).oneDecimal = toString (roundDiv (n * 10) (2 ^ j) / 10) ++ "." ++
      toString (roundDiv (n * 10) (2 ^ j) % 10) := by
  have htenths : roundDiv (n * 2 ^ (1074 - j) * 10) one = roundDiv (n * 10) (2 ^ j) := by
    rw [one_eq_mul hj, Nat.mul_right_comm]
    exact roundDiv_mul_right _ _ (Nat.two_pow_pos _)
  rw [dyadic, oneDecimal, htenths]
  rfl

end Binary64

namespace Display

/-! ## Units -/

/-- The units of a shown size that a larger one follows. -/
inductive SizeUnit where
  | kibi
  | mebi
  deriving DecidableEq, Repr

namespace SizeUnit

def name : SizeUnit → String
  | .kibi => "KiB"
  | .mebi => "MiB"

/-- The power of two that a unit is. -/
def power : SizeUnit → Nat
  | .kibi => 10
  | .mebi => 20

/-- The bytes in one of a unit. -/
def bytes (unit : SizeUnit) : Nat := 2 ^ unit.power

end SizeUnit

/-- A number of tenths in a unit, as it is shown. -/
def tenthsText (tenths : Nat) (unit : SizeUnit) : String :=
  padLeft 6 (toString (tenths / 10) ++ "." ++ toString (tenths % 10)) ++ " " ++ unit.name

open Binary64 in
theorem size_eq {n : Nat} (hlow : 1024 ≤ n) (hhigh : n < 1024 ^ 3) :
    ∃ unit : SizeUnit, unit.bytes ≤ n ∧ n < 1024 * unit.bytes ∧
      size (.ofInt n) = tenthsText (roundDiv (n * 10) unit.bytes) unit := by
  have hbits : n < 2 ^ 53 := hhigh.trans (by decide)
  have hnegative : (ofInt n).lt 0 = false :=
    (lt_ofInt (i := n) (j := 0) hbits.le (by decide)).trans (decide_eq_false (by omega))
  have hbytes : (ofInt n).lt 1024 = false := by
    rw [ofInt_eq_dyadic hbits.le, dyadic_lt (by decide)]
    exact decide_eq_false (by omega)
  have hkibi : ofInt n / 1024 = dyadic n 10 := by
    rw [ofInt_eq_dyadic hbits.le, dyadic_div hbits (by decide)]
  have hmebi : dyadic n 10 / 1024 = dyadic n 20 := dyadic_div hbits (by decide)
  rw [size, hnegative, hbytes]
  simp only [Bool.false_eq_true, if_false, scaledSize, hkibi, hmebi,
    dyadic_lt (show 10 ≤ 1074 by decide), dyadic_lt (show 20 ≤ 1074 by decide)]
  by_cases hn : n < 1024 * 2 ^ 10
  · refine ⟨.kibi, hlow, hn, ?_⟩
    rw [if_pos (decide_eq_true hn), oneDecimal_dyadic (by decide)]
    rfl
  · have hn' : n < 1024 * 2 ^ 20 := hhigh
    refine ⟨.mebi, Nat.not_lt.1 hn, hn', ?_⟩
    rw [if_neg (by simpa using hn), if_pos (decide_eq_true hn'), oneDecimal_dyadic (by decide)]
    rfl

/-- What the text of a size shows: a number of tenths in the largest unit of which there is one. -/
structure ShowsSize (n : Nat) (text : String) (unit : SizeUnit) (tenths : Nat) : Prop where
  text_eq : text = tenthsText tenths unit
  unit_le : unit.bytes ≤ n
  lt_next : n < 1024 * unit.bytes
  nearest : Binary64.IsNearestEven (n * 10) unit.bytes tenths
  ge_one : 10 ≤ tenths
  le_next : tenths ≤ 10240
  /-- The next unit is reached in the text half a tenth before it is reached. -/
  next_iff : tenths = 10240 ↔ 20479 * unit.bytes ≤ 20 * n

/-- A size of at least a KiB and less than a GiB is shown as its quotient by the largest unit of
which there is one, rounded to tenths, which may be 1024.0. -/
theorem exists_showsSize {n : Nat} (hlow : 1024 ≤ n) (hhigh : n < 1024 ^ 3) :
    ∃ unit tenths, ShowsSize n (size (.ofInt n)) unit tenths := by
  obtain ⟨unit, hunit, hnext, htext⟩ := size_eq hlow hhigh
  have hpos : 0 < unit.bytes := Nat.two_pow_pos unit.power
  have hnearest := Binary64.isNearestEven_roundDiv (n * 10) hpos
  have hfloor : 10 * unit.bytes ≤ n * 10 := by omega
  have hceil : n * 10 ≤ 10240 * unit.bytes := by omega
  have hnext_iff := hnearest.eq_iff_of_le hpos hceil (by decide)
  exact ⟨unit, _, {
    text_eq := htext
    unit_le := hunit
    lt_next := hnext
    nearest := hnearest
    ge_one := hnearest.ge_of_le hpos hfloor
    le_next := hnearest.le_of_le hpos hceil
    next_iff := hnext_iff.trans (by omega) }⟩

/-- From here on the sizes below a MiB are shown as 1024.0 KiB. -/
theorem size_rounded_up_to_mebi : 1024 ≤ 1048525 ∧ 1048525 < 1024 ^ 3 ∧
    size (.ofInt (1048525 : Nat)) = tenthsText 10240 .kibi := by
  refine ⟨by decide, by decide, ?_⟩
  obtain ⟨unit, tenths, h⟩ := exists_showsSize (n := 1048525) (by decide) (by decide)
  cases unit with
  | kibi =>
    have htenths : tenths = 10240 := h.next_iff.2 (by decide)
    rw [h.text_eq, htenths]
  | mebi => exact absurd h.unit_le (by decide)

/-- One byte less than a MiB is shown as 1024.0 KiB. -/
theorem size_below_mebi : 1024 ≤ 1048575 ∧ 1048575 < 1024 ^ 3 ∧
    size (.ofInt 1048575) = "1024.0 KiB" := by
  refine ⟨by decide, by decide, ?_⟩
  decide +kernel

end Display
end DownloadQuery

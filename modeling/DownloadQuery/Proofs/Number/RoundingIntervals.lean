import DownloadQuery.Number.Shortest
import DownloadQuery.Proofs.Number.Numerals
import DownloadQuery.Proofs.Number.Rounding
import Mathlib

/-!
# Rounding intervals

A quotient in the rounding interval of a number is rounded to it (`nearest_of_covers`), so a decimal
in the interval reads back as the number (`ofDecimal_of_readsBack`).
-/

namespace DownloadQuery

open Binary64 (one limit nearest spacing roundDiv IsNearestEven)

namespace Binary64

variable {num den : Nat}

/-- The spacing is told by the power of two below a number. -/
theorem spacing_eq {n k : Nat} (hlow : k = 0 ∨ 2 ^ 52 * 2 ^ k ≤ n) (hhigh : n < 2 ^ 53 * 2 ^ k) :
    spacing n = k := by
  rw [← Nat.pow_add] at hlow hhigh
  refine Nat.le_antisymm (spacing_le hhigh) ?_
  rcases hlow with rfl | hlow
  · exact Nat.zero_le _
  · have hlog : 52 + k ≤ n.log2 :=
      (Nat.le_log2 (Nat.pos_iff_ne_zero.1 ((Nat.two_pow_pos _).trans_le hlow))).2 hlow
    unfold spacing
    omega

theorem nearest_of_isNearestEven (hden : 0 < den) {c k : Nat}
    (hlow : k = 0 ∨ 2 ^ 52 * 2 ^ k * den ≤ num) (hhigh : num < 2 ^ 53 * 2 ^ k * den)
    (h : IsNearestEven num (den * 2 ^ k) c) : nearest num den = c * 2 ^ k := by
  have hspacing : spacing (num / den) = k := by
    refine spacing_eq (hlow.imp_right fun hle => ?_) ?_
    · exact (Nat.le_div_iff_mul_le hden).2 hle
    · exact (Nat.div_lt_iff_lt_mul hden).2 hhigh
  have hpow : 0 < den * 2 ^ k := Nat.mul_pos hden (Nat.two_pow_pos k)
  have hround : roundDiv num (den * Nat.pow 2 k) = c :=
    (isNearestEven_roundDiv num hpow).unique h hpow
  rw [nearest, hspacing, hround]
  rfl

/-- How a number is put together from the digits that are kept and the spacing. -/
structure Keeps (units c k : Nat) : Prop where
  units_eq : units = c * 2 ^ k
  lt : c < 2 ^ 53
  normal : k = 0 ∨ 2 ^ 52 ≤ c

theorem keeps_spacing {units : Nat} (h : 2 ^ spacing units ∣ units) :
    Keeps units (units / 2 ^ spacing units) (spacing units) where
  units_eq := (Nat.div_mul_cancel h).symm
  lt := by
    apply Nat.div_lt_of_lt_mul
    rw [← Nat.pow_add, Nat.add_comm]
    exact lt_pow_spacing units
  normal := by
    by_cases hzero : spacing units = 0
    · exact .inl hzero
    · have hne : units ≠ 0 := by
        rintro rfl
        exact hzero (by decide)
      refine .inr ((Nat.le_div_iff_mul_le (Nat.two_pow_pos _)).2 ?_)
      rw [← Nat.pow_add, ← Nat.le_log2 hne]
      unfold spacing at hzero ⊢
      omega

end Binary64

namespace Shortest

open Binary64 (Keeps keeps_spacing nearest_of_isNearestEven isNearestEven_roundDiv)

variable {units num den n : Nat} {e : Int}

/-! ## Rounding intervals -/

/-- Whether a quotient of naturals, as a count of units, lies in an interval. -/
structure Interval.Covers (i : Interval) (num den : Nat) : Prop where
  low_le : i.low * den ≤ 4 * num
  le_high : 4 * num ≤ i.high * den
  closed : i.low * den = 4 * num ∨ 4 * num = i.high * den → i.closed = true

theorem Interval.covers_mul_right {i : Interval} {c : Nat} (hc : 0 < c) :
    i.Covers (num * c) (den * c) ↔ i.Covers num den := by
  have hle (a b : Nat) : a * c ≤ b * c ↔ a ≤ b := Nat.mul_le_mul_right_iff hc
  have heq (a b : Nat) : a * c = b * c ↔ a = b := Nat.mul_left_inj hc.ne'
  constructor
  · rintro ⟨hlow, hhigh, hclosed⟩
    simp only [← Nat.mul_assoc, hle, heq] at hlow hhigh hclosed
    exact ⟨hlow, hhigh, hclosed⟩
  · rintro ⟨hlow, hhigh, hclosed⟩
    refine ⟨?_, ?_, ?_⟩
    all_goals simpa only [← Nat.mul_assoc, hle, heq]

/-- The distance from a number down to the end of its interval, in quarters of a unit. -/
def below (c k : Nat) : Nat := if c = 2 ^ 52 ∧ 0 < k then 2 ^ k else 2 * 2 ^ k

theorem interval_eq (units : Nat) :
    interval units =
      ⟨4 * units - below (units / 2 ^ spacing units) (spacing units),
        4 * units + 2 * 2 ^ spacing units, units / 2 ^ spacing units % 2 == 0⟩ := rfl

theorem nearest_of_near {c k : Nat} (hden : 0 < den) (hlt : c < 2 ^ 53)
    (hlow : k = 0 ∨ 2 ^ 52 * (2 ^ k * den) ≤ num)
    (hle : 4 * (c * (2 ^ k * den)) ≤ 4 * num + 2 * (2 ^ k * den))
    (hge : 4 * num ≤ 4 * (c * (2 ^ k * den)) + 2 * (2 ^ k * den))
    (heven : 4 * (c * (2 ^ k * den)) = 4 * num + 2 * (2 ^ k * den) ∨
      4 * num = 4 * (c * (2 ^ k * den)) + 2 * (2 ^ k * den) → c % 2 = 0) :
    nearest num den = c * 2 ^ k := by
  have hpos : 0 < 2 ^ k * den := Nat.mul_pos (Nat.two_pow_pos k) hden
  have hnext : (c + 1) * (2 ^ k * den) ≤ 2 ^ 53 * (2 ^ k * den) := Nat.mul_le_mul_right _ hlt
  rw [Nat.succ_mul] at hnext
  apply nearest_of_isNearestEven hden
  · rwa [Nat.mul_assoc]
  · rw [Nat.mul_assoc]
    omega
  · rw [Nat.mul_comm den]
    exact ⟨by omega, by omega, fun htie => heven (by omega)⟩

/-- What lies in the interval of a number is rounded to the number. -/
theorem nearest_of_covers (hunits : 2 ^ spacing units ∣ units) (hden : 0 < den)
    (h : (interval units).Covers num den) : nearest num den = units := by
  have hkeeps := keeps_spacing hunits
  rw [interval_eq] at h
  generalize spacing units = k at hkeeps h
  generalize units / 2 ^ k = c at hkeeps h
  obtain ⟨rfl, hlt, hnormal⟩ := hkeeps
  obtain ⟨hlow, hhigh, hclosed⟩ := h
  simp only [Nat.sub_mul, Nat.add_mul, Nat.mul_assoc] at hlow hhigh hclosed
  have hpos : 0 < 2 ^ k * den := Nat.mul_pos (Nat.two_pow_pos k) hden
  have heven : c % 2 == 0 → c % 2 = 0 := beq_iff_eq.1
  by_cases hedge : c = 2 ^ 52 ∧ 0 < k
  · obtain ⟨rfl, hk⟩ := hedge
    rw [below, if_pos ⟨rfl, hk⟩] at hlow hclosed
    rcases Nat.lt_or_ge num (2 ^ 52 * (2 ^ k * den)) with hless | hmore
    · -- Below a power of two the numbers are twice as dense.
      obtain ⟨j, rfl⟩ := Nat.exists_eq_add_one.2 hk
      have hdouble : 2 ^ (j + 1) * den = 2 * (2 ^ j * den) := by
        rw [Nat.pow_succ, Nat.mul_comm (2 ^ j), Nat.mul_assoc]
      rw [hdouble] at hlow hless
      have hnearest : nearest num den = 2 ^ 53 * 2 ^ j := by
        apply nearest_of_isNearestEven hden
        · rw [Nat.mul_assoc]
          omega
        · rw [Nat.mul_assoc]
          omega
        · rw [Nat.mul_comm den]
          exact ⟨by omega, by omega, by omega⟩
      rw [hnearest, Nat.pow_succ 2 j]
      omega
    · exact nearest_of_near hden hlt (.inr hmore) (by omega) (by omega) (by omega)
  · rw [below, if_neg hedge, Nat.mul_assoc] at hlow hclosed
    have hbelow : 2 ^ 52 * (2 ^ k * den) ≤ num ∨ k = 0 := by
      rcases hnormal with hk | hc
      · exact .inr hk
      · by_cases hk : k = 0
        · exact .inr hk
        · have hstep : (2 ^ 52 + 1) * (2 ^ k * den) ≤ c * (2 ^ k * den) :=
            Nat.mul_le_mul_right _ (by omega)
          rw [Nat.succ_mul] at hstep
          exact .inl (by omega)
    refine nearest_of_near hden hlt hbelow.symm (by omega) (by omega) fun htie => ?_
    exact heven (hclosed (by omega))

/-! ## Powers of two and of ten -/

/-- Ten to the power of 28 is a little more than two to the power of 93. -/
theorem two_pow_le_ten_pow {m t : Nat} (h : 28 * m ≤ 93 * t) : 2 ^ m ≤ 10 ^ t := by
  rw [← Nat.pow_le_pow_iff_left (show 93 ≠ 0 by decide)]
  calc (2 ^ m) ^ 93 = (2 ^ 93) ^ m := by rw [← Nat.pow_mul, ← Nat.pow_mul, Nat.mul_comm]
    _ ≤ (10 ^ 28) ^ m := Nat.pow_le_pow_left (by norm_num) m
    _ = 10 ^ (28 * m) := (Nat.pow_mul _ _ _).symm
    _ ≤ 10 ^ (93 * t) := Nat.pow_le_pow_right (by decide) h
    _ = (10 ^ t) ^ 93 := by rw [← Nat.pow_mul, Nat.mul_comm]

/-- Ten to the power of 3 is a little less than two to the power of 10. -/
theorem ten_pow_le_two_pow {t m : Nat} (h : 10 * t ≤ 3 * m) : 10 ^ t ≤ 2 ^ m := by
  rw [← Nat.pow_le_pow_iff_left (show 10 ≠ 0 by decide)]
  calc (10 ^ t) ^ 10 = 10 ^ (10 * t) := by rw [← Nat.pow_mul, Nat.mul_comm]
    _ ≤ 10 ^ (3 * m) := Nat.pow_le_pow_right (by decide) h
    _ = (10 ^ 3) ^ m := Nat.pow_mul _ _ _
    _ ≤ (2 ^ 10) ^ m := Nat.pow_le_pow_left (by norm_num) m
    _ = (2 ^ m) ^ 10 := by rw [← Nat.pow_mul, ← Nat.pow_mul, Nat.mul_comm]

theorem mul_two_pow_le {c k m t : Nat} (hc : c ≤ 2 ^ k) (h : 28 * (k + m) ≤ 93 * t) :
    c * 2 ^ m ≤ 10 ^ t :=
  calc c * 2 ^ m ≤ 2 ^ k * 2 ^ m := Nat.mul_le_mul_right _ hc
    _ = 2 ^ (k + m) := (Nat.pow_add _ _ _).symm
    _ ≤ 10 ^ t := two_pow_le_ten_pow h

theorem two_mul_limit_le : 2 * limit ≤ 10 ^ 310 * one := by
  rw [Binary64.limit_eq, ← Nat.mul_assoc]
  exact Nat.mul_le_mul_right one (mul_two_pow_le (Nat.le_refl (2 ^ 1)) (by decide))

theorem four_mul_one_le : 4 * one ≤ 10 ^ 324 := by
  rw [Binary64.one_eq]
  exact mul_two_pow_le (Nat.le_refl (2 ^ 2)) (by decide)

theorem pow_length_toDigits_le (hn : 0 < n) : 10 ^ ((Nat.toDigits 10 n).length - 1) ≤ n := by
  rcases Nat.eq_zero_or_pos ((Nat.toDigits 10 n).length - 1) with hzero | hmore
  · rwa [hzero, Nat.pow_zero]
  · by_contra hless
    have hshort := (Nat.length_toDigits_le_iff (by decide) hmore).2 (Nat.not_le.1 hless)
    omega

/-! ## Decimals in an interval -/

/-- Whether `n · 10^e` lies in the interval of a number. -/
def ReadsBack (units n : Nat) (e : Int) : Prop :=
  (interval units).Covers (n * 10 ^ e.toNat * one) (10 ^ (-e).toNat)

theorem contains_iff : (interval units).contains n e = true ↔ ReadsBack units n e := by
  have hparts : (interval units).contains n e =
      if (interval units).closed then
        decide ((interval units).low * 10 ^ (-e).toNat ≤ 4 * (n * 10 ^ e.toNat * one) ∧
          4 * (n * 10 ^ e.toNat * one) ≤ (interval units).high * 10 ^ (-e).toNat)
      else
        decide ((interval units).low * 10 ^ (-e).toNat < 4 * (n * 10 ^ e.toNat * one) ∧
          4 * (n * 10 ^ e.toNat * one) < (interval units).high * 10 ^ (-e).toNat) := by
    rcases Int.le_total 0 e with he | he
    · have hneg : (-e).toNat = 0 := by omega
      simp [Interval.contains, he, hneg, Nat.mul_assoc]
    · have hpos : e.toNat = 0 := by omega
      by_cases hzero : 0 ≤ e
      · obtain rfl : e = 0 := by omega
        simp [Interval.contains, Nat.mul_assoc]
      · simp [Interval.contains, hzero, hpos, Nat.mul_assoc]
  rw [hparts]
  constructor
  · intro h
    split_ifs at h with hclosed
    · obtain ⟨hlow, hhigh⟩ := of_decide_eq_true h
      exact ⟨hlow, hhigh, fun _ => hclosed⟩
    · obtain ⟨hlow, hhigh⟩ := of_decide_eq_true h
      exact ⟨hlow.le, hhigh.le, by omega⟩
  · rintro ⟨hlow, hhigh, hends⟩
    split_ifs with hclosed
    · exact decide_eq_true ⟨hlow, hhigh⟩
    · exact decide_eq_true ⟨lt_of_le_of_ne hlow fun heq => hclosed (hends (.inl heq)),
        lt_of_le_of_ne hhigh fun heq => hclosed (hends (.inr heq))⟩

/-- Zeros may be moved between the digits and the exponent. -/
theorem readsBack_mul_pow {j : Nat} :
    ReadsBack units (n * 10 ^ j) e ↔ ReadsBack units n (e + j) := by
  have hpow (k : Nat) : 0 < 10 ^ k := Nat.pow_pos (by decide)
  -- Both are the same quotient, in terms that differ by a power of ten.
  have hsame : n * 10 ^ j * 10 ^ e.toNat * one * 10 ^ (-(e + j)).toNat =
      n * 10 ^ (e + j).toNat * one * 10 ^ (-e).toNat := by
    have hexponents : j + e.toNat + (-(e + j)).toNat = (e + j).toNat + (-e).toNat := by omega
    calc n * 10 ^ j * 10 ^ e.toNat * one * 10 ^ (-(e + j)).toNat
        = n * 10 ^ (j + e.toNat + (-(e + j)).toNat) * one := by ring
      _ = n * 10 ^ ((e + j).toNat + (-e).toNat) * one := by rw [hexponents]
      _ = n * 10 ^ (e + j).toNat * one * 10 ^ (-e).toNat := by ring
  rw [ReadsBack, ReadsBack, ← Interval.covers_mul_right (hpow (-(e + j)).toNat), hsame,
    Nat.mul_comm (10 ^ (-e).toNat), Interval.covers_mul_right (hpow (-e).toNat)]

theorem low_pos (hunits : 2 ^ spacing units ∣ units) (hpos : 0 < units) :
    0 < (interval units).low := by
  obtain ⟨heq, -, -⟩ := keeps_spacing hunits
  have hle : 2 ^ spacing units ≤ units := Nat.le_of_dvd hpos hunits
  have hbelow (c k : Nat) : below c k ≤ 2 * 2 ^ k := by
    unfold below
    split_ifs <;> omega
  have hend := hbelow (units / 2 ^ spacing units) (spacing units)
  rw [interval_eq]
  dsimp only
  omega

theorem high_le (hunits : 2 ^ spacing units ∣ units) (hpos : 0 < units) :
    (interval units).high ≤ 6 * units := by
  have hle : 2 ^ spacing units ≤ units := Nat.le_of_dvd hpos hunits
  rw [interval_eq]
  dsimp only
  omega

theorem pos_of_readsBack (hunits : 2 ^ spacing units ∣ units) (hpos : 0 < units)
    (h : ReadsBack units n e) : 0 < n := by
  rcases Nat.eq_zero_or_pos n with rfl | hn
  · have hlow := h.low_le
    simp only [Nat.zero_mul, Nat.mul_zero, Nat.le_zero] at hlow
    have hzero := (Nat.mul_eq_zero.1 hlow).resolve_right (Nat.pow_pos (by decide)).ne'
    exact absurd hzero (low_pos hunits hpos).ne'
  · exact hn

/-- A decimal that reads back as a finite number is far from the ends of the range. -/
theorem magnitude_of_readsBack (hunits : 2 ^ spacing units ∣ units) (hpos : 0 < units)
    (hlimit : units < limit) (h : ReadsBack units n e) :
    ((Nat.toDigits 10 n).length : Int) + e ≤ 310 ∧
      -330 ≤ ((Nat.toDigits 10 n).length : Int) + e := by
  have hn := pos_of_readsBack hunits hpos h
  have hfirst := pow_length_toDigits_le hn
  have hlast := (Nat.length_toDigits_le_iff (by decide) Nat.length_toDigits_pos).1
    (Nat.le_refl (Nat.toDigits 10 n).length)
  have hlength := Nat.length_toDigits_pos (b := 10) (n := n)
  generalize (Nat.toDigits 10 n).length = len at hfirst hlast hlength
  have hscale (c : Nat) (hc : 0 < c) : n * 10 ^ e.toNat * c < 10 ^ len * 10 ^ e.toNat * c :=
    Nat.mul_lt_mul_of_pos_right
      (Nat.mul_lt_mul_of_pos_right hlast (Nat.pow_pos (by decide))) hc
  constructor
  · by_contra hlarge
    have hvalue : n * 10 ^ e.toNat < 10 ^ 310 * 10 ^ (-e).toNat := by
      apply Nat.lt_of_mul_lt_mul_right (a := one)
      calc n * 10 ^ e.toNat * one
          ≤ 2 * units * 10 ^ (-e).toNat := by
            have hhigh := h.le_high.trans (Nat.mul_le_mul_right _ (high_le hunits hpos))
            have hsplit : 6 * units * 10 ^ (-e).toNat = 6 * (units * 10 ^ (-e).toNat) :=
              Nat.mul_assoc _ _ _
            have hsplit' : 2 * units * 10 ^ (-e).toNat = 2 * (units * 10 ^ (-e).toNat) :=
              Nat.mul_assoc _ _ _
            omega
        _ < 2 * limit * 10 ^ (-e).toNat :=
            Nat.mul_lt_mul_of_pos_right (by omega) (Nat.pow_pos (by decide))
        _ ≤ 10 ^ 310 * one * 10 ^ (-e).toNat := Nat.mul_le_mul_right _ two_mul_limit_le
        _ = 10 ^ 310 * 10 ^ (-e).toNat * one := Nat.mul_right_comm _ _ _
    have hmore : 10 ^ 310 * 10 ^ (-e).toNat ≤ n * 10 ^ e.toNat :=
      calc 10 ^ 310 * 10 ^ (-e).toNat = 10 ^ (310 + (-e).toNat) := by rw [Nat.pow_add]
        _ ≤ 10 ^ (len - 1 + e.toNat) := Nat.pow_le_pow_right (by decide) (by omega)
        _ = 10 ^ (len - 1) * 10 ^ e.toNat := Nat.pow_add _ _ _
        _ ≤ n * 10 ^ e.toNat := Nat.mul_le_mul_right _ hfirst
    exact absurd hvalue (Nat.not_lt.2 hmore)
  · by_contra hsmall
    have hless : 10 ^ (-e).toNat < 10 ^ (-e).toNat :=
      calc 10 ^ (-e).toNat ≤ (interval units).low * 10 ^ (-e).toNat :=
            Nat.le_mul_of_pos_left _ (low_pos hunits hpos)
        _ ≤ 4 * (n * 10 ^ e.toNat * one) := h.low_le
        _ < 4 * (10 ^ len * 10 ^ e.toNat * one) :=
            Nat.mul_lt_mul_of_pos_left (hscale one Binary64.one_pos) (by decide)
        _ = 4 * one * 10 ^ (len + e.toNat) := by
            rw [Nat.pow_add]
            ring
        _ ≤ 10 ^ 324 * 10 ^ (len + e.toNat) := Nat.mul_le_mul_right _ four_mul_one_le
        _ = 10 ^ (324 + (len + e.toNat)) := by rw [Nat.pow_add 10 324]
        _ ≤ 10 ^ (-e).toNat := Nat.pow_le_pow_right (by decide) (by omega)
    exact Nat.lt_irrefl _ hless

/-- A decimal in the interval of a number reads back as the number. -/
theorem ofDecimal_of_readsBack (negative : Bool) (hunits : 2 ^ spacing units ∣ units)
    (hpos : 0 < units) (hlimit : units < limit) (h : ReadsBack units n e) :
    Binary64.ofDecimal negative n e = .finite negative units := by
  obtain ⟨hlarge, hsmall⟩ := magnitude_of_readsBack hunits hpos hlimit h
  have hn := pos_of_readsBack hunits hpos h
  have hround : Binary64.ofUnits negative (n * 10 ^ e.toNat * one) (10 ^ (-e).toNat) =
      .finite negative units := by
    rw [Binary64.ofUnits, nearest_of_covers hunits (Nat.pow_pos (by decide)) h, if_pos hlimit]
  rw [Binary64.ofDecimal, if_neg hn.ne']
  dsimp only
  rw [if_neg (Int.not_lt.2 hlarge), if_neg (Int.not_lt.2 hsmall)]
  split_ifs with he
  · have hneg : (-e).toNat = 0 := by omega
    rw [hneg] at hround
    exact hround
  · have hzero : e.toNat = 0 := by omega
    rw [hzero, Nat.pow_zero, Nat.mul_one] at hround
    exact hround

end Shortest
end DownloadQuery

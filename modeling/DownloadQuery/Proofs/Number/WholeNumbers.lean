import DownloadQuery.Number.Binary64
import Mathlib

/-!
# Whole binary64 numbers

Whole numbers up to 2⁵³ are held exactly, and so are their sums, differences, products and whole
quotients as long as these stay within 2⁵³. They are ordered as they stand (`lt_ofInt`, `eq_ofInt`).
Numbers that are no NaN are in a total order.
-/

namespace DownloadQuery
namespace Binary64

/-! ## Rounding -/

theorem one_eq : one = 2 ^ 1074 := Nat.pow_eq

theorem limit_eq_pow : limit = 2 ^ 2098 := Nat.pow_eq

theorem limit_eq : limit = 2 ^ 1024 * one := by
  rw [one_eq, ← Nat.pow_add]
  exact limit_eq_pow

theorem one_pos : 0 < one := Nat.pow_pos (by decide)

theorem roundDiv_mul (m : Nat) {den : Nat} (h : 0 < den) : roundDiv (m * den) den = m := by
  have hr : 2 * (m * den % den) < den := by simpa using h
  rw [roundDiv, if_pos hr, Nat.mul_div_cancel m h]

theorem roundDiv_eq_or (num den : Nat) :
    roundDiv num den = num / den ∨ roundDiv num den = num / den + 1 := by
  unfold roundDiv
  dsimp only
  split_ifs <;> omega

theorem roundDiv_le (num den : Nat) : roundDiv num den ≤ num / den + 1 := by
  rcases roundDiv_eq_or num den with heq | heq <;> omega

/-- A count of units that 53 binary digits hold is not rounded. -/
theorem nearest_mul {m den : Nat} (hden : 0 < den) (hm : Nat.pow 2 (spacing m) ∣ m) :
    nearest (m * den) den = m := by
  obtain ⟨c, hc⟩ := hm
  have hpos : 0 < den * Nat.pow 2 (spacing m) := Nat.mul_pos hden (Nat.pow_pos (by decide))
  have hnum : m * den = c * (den * Nat.pow 2 (spacing m)) := by
    conv_lhs => rw [hc]
    ring
  rw [nearest, Nat.mul_div_cancel m hden, hnum, roundDiv_mul c hpos, Nat.mul_comm, ← hc]

/-- Rounding at most doubles a quotient. -/
theorem nearest_le (num den : Nat) : nearest num den ≤ 2 * (num / den) + 1 := by
  rw [nearest]
  generalize hq : num / den = q
  have hspacing : Nat.pow 2 (spacing q) ≤ q + 1 := by
    rcases Nat.eq_zero_or_pos q with rfl | hpos
    · decide
    · have hle : spacing q ≤ q.log2 := by unfold spacing; omega
      calc Nat.pow 2 (spacing q) ≤ Nat.pow 2 q.log2 := Nat.pow_le_pow_right (by decide) hle
        _ ≤ q := Nat.log2_self_le hpos.ne'
        _ ≤ q + 1 := Nat.le_succ q
  have hround := roundDiv_le num (den * Nat.pow 2 (spacing q))
  rw [← Nat.div_div_eq_div_mul, hq] at hround
  calc roundDiv num (den * Nat.pow 2 (spacing q)) * Nat.pow 2 (spacing q)
      ≤ (q / Nat.pow 2 (spacing q) + 1) * Nat.pow 2 (spacing q) :=
        Nat.mul_le_mul_right _ hround
    _ = q / Nat.pow 2 (spacing q) * Nat.pow 2 (spacing q) + Nat.pow 2 (spacing q) := by ring
    _ ≤ q + (q + 1) := Nat.add_le_add (Nat.div_mul_le_self _ _) hspacing
    _ = 2 * q + 1 := by ring

theorem spacing_dvd_of_lt {n : Nat} (h : n < 2 ^ 53) :
    Nat.pow 2 (spacing (n * one)) ∣ n * one := by
  rcases Nat.eq_zero_or_pos n with rfl | hpos
  · rw [Nat.zero_mul]
    exact Nat.dvd_zero _
  · have hne : n * one ≠ 0 := (Nat.mul_pos hpos one_pos).ne'
    have hlt : n * one < 2 ^ (53 + 1074) := by
      rw [Nat.pow_add, ← one_eq]
      exact Nat.mul_lt_mul_of_pos_right h one_pos
    have hlog : (n * one).log2 < 53 + 1074 := (Nat.log2_lt hne).2 hlt
    have hspacing : spacing (n * one) ≤ 1074 := by unfold spacing; omega
    exact Dvd.dvd.mul_left (Nat.pow_dvd_pow 2 hspacing) n

/-- Whole numbers up to 2⁵³ have no more than 53 binary digits before their zeros. -/
theorem spacing_dvd {n : Nat} (h : n ≤ 2 ^ 53) : Nat.pow 2 (spacing (n * one)) ∣ n * one := by
  rcases h.lt_or_eq with hlt | rfl
  · exact spacing_dvd_of_lt hlt
  · have hpow : 2 ^ 53 * one = 2 ^ (53 + 1074) := by rw [one_eq, Nat.pow_add]
    have hspacing : spacing (2 ^ 53 * one) = 1075 := by rw [hpow, spacing, Nat.log2_two_pow]
    rw [hspacing, hpow]
    exact Nat.pow_dvd_pow 2 (by decide)

theorem mul_one_lt_limit {n : Nat} (h : n ≤ 2 ^ 53) : n * one < limit := by
  rw [limit_eq]
  refine Nat.mul_lt_mul_of_pos_right (h.trans_lt ?_) one_pos
  exact Nat.pow_lt_pow_right (by decide) (by decide)

theorem ofUnits_whole (negative : Bool) {n den : Nat} (hden : 0 < den) (h : n ≤ 2 ^ 53) :
    ofUnits negative (n * one * den) den = .finite negative (n * one) := by
  rw [ofUnits, nearest_mul hden (spacing_dvd h), if_pos (mul_one_lt_limit h)]

/-! ## Arithmetic on whole numbers -/

theorem ofInt_eq {i : Int} (h : i.natAbs ≤ 2 ^ 53) :
    ofInt i = .finite (decide (i < 0)) (i.natAbs * one) := by
  have hwhole := ofUnits_whole (decide (i < 0)) Nat.one_pos h
  rwa [Nat.mul_one] at hwhole

theorem signed_natAbs (i : Int) (units : Nat) :
    signed (decide (i < 0)) (i.natAbs * units) = i * units := by
  unfold signed
  split_ifs with hi
  · have hneg : i < 0 := by simpa using hi
    rw [Nat.cast_mul, ← Int.neg_mul]
    congr 1
    omega
  · have hpos : ¬ i < 0 := by simpa using hi
    rw [Nat.cast_mul]
    congr 1
    omega

/-- A whole number stands where it should. -/
theorem place_ofInt {i : Int} (h : i.natAbs ≤ 2 ^ 53) : (ofInt i).place = some (i * one) := by
  rw [ofInt_eq h, place, signed_natAbs]

theorem ofInt_natCast {n : Nat} (h : n ≤ 2 ^ 53) : ofInt n = .finite false (n * one) := by
  have hsign : decide ((n : Int) < 0) = false := decide_eq_false (by omega)
  rw [ofInt_eq (i := n) h, hsign, Int.natAbs_natCast]

/-- A whole number is its own integer part. -/
theorem toInt64_ofInt {i : Int} (h : i.natAbs ≤ 2 ^ 53) : (ofInt i).toInt64 = i := by
  have hlow : -Int.pow 2 63 = -9223372036854775808 := by decide
  have hhigh : Int.pow 2 63 - 1 = 9223372036854775807 := by decide
  have hsigned := signed_natAbs i 1
  rw [Nat.mul_one, Nat.cast_one, Int.mul_one] at hsigned
  rw [ofInt_eq h, toInt64, clampInt, Nat.mul_div_cancel _ one_pos, hsigned, hlow, hhigh]
  omega

theorem add_finite (s t : Bool) (m n : Nat) : finite s m + finite t n =
    if signed s m + signed t n = 0 then .finite (s && t) 0
    else ofUnits (decide (signed s m + signed t n < 0)) (signed s m + signed t n).natAbs 1 := by
  show add (finite s m) (finite t n) = _
  rw [add]

theorem mul_finite (s t : Bool) (m n : Nat) :
    finite s m * finite t n = ofUnits (s != t) (m * n) one := by
  show mul (finite s m) (finite t n) = _
  rw [mul]

theorem div_finite (s t : Bool) (m : Nat) {n : Nat} (h : n ≠ 0) :
    finite s m / finite t n = ofUnits (s != t) (m * one) n := by
  show div (finite s m) (finite t n) = _
  rw [div, if_neg h]

theorem mul_neg_iff_left (i : Int) {k : Int} (hk : 0 < k) : i * k < 0 ↔ i < 0 := by
  have hiff : i * k < 0 * k ↔ i < 0 := Int.mul_lt_mul_right hk
  rwa [Int.zero_mul] at hiff

theorem ofInt_mul {m n : Nat} (hn : 0 < n) (hn' : n ≤ 2 ^ 53) (h : m * n ≤ 2 ^ 53) :
    ofInt m * ofInt n = ofInt (m * n : Nat) := by
  have hm : m ≤ 2 ^ 53 := (Nat.le_mul_of_pos_right m hn).trans h
  have hunits : m * one * (n * one) = m * n * one * one := by ring
  rw [ofInt_natCast hm, ofInt_natCast hn', ofInt_natCast h, mul_finite, hunits]
  exact ofUnits_whole false one_pos h

/-- A whole quotient is exact. -/
theorem ofInt_div {i : Int} {n : Nat} (hn : 0 < n) (hn' : n ≤ 2 ^ 53)
    (h : (i * n).natAbs ≤ 2 ^ 53) : ofInt (i * n) / ofInt n = ofInt i := by
  have habs : (i * n).natAbs = i.natAbs * n := by rw [Int.natAbs_mul, Int.natAbs_natCast]
  have hi : i.natAbs ≤ 2 ^ 53 := (Nat.le_mul_of_pos_right _ hn).trans (habs ▸ h)
  have hsign : decide (i * n < 0) = decide (i < 0) :=
    decide_eq_decide.2 (mul_neg_iff_left i (Int.natCast_pos.2 hn))
  have hunits : i.natAbs * n * one * one = i.natAbs * one * (n * one) := by ring
  rw [ofInt_eq h, ofInt_natCast hn', ofInt_eq hi, div_finite _ _ _ (Nat.mul_pos hn one_pos).ne',
    habs, hsign, hunits, Bool.bne_false]
  exact ofUnits_whole _ (Nat.mul_pos hn one_pos) hi

/-- A sum of two numbers that stand at whole ones. A zero sum is negative only when both are. -/
theorem add_of_whole {s t : Bool} {m n : Nat} {i j : Int} (hm : signed s m = i * one)
    (hn : signed t n = j * one) (hzero : i + j = 0 → (s && t) = false)
    (h : (i + j).natAbs ≤ 2 ^ 53) : finite s m + finite t n = ofInt (i + j) := by
  have hone : (0 : Int) < one := Int.natCast_pos.2 one_pos
  have hsum : signed s m + signed t n = (i + j) * one := by rw [hm, hn]; ring
  rw [add_finite, hsum]
  by_cases hij : i + j = 0
  · have hofInt := ofInt_natCast (n := 0) (by decide)
    rw [Nat.zero_mul] at hofInt
    rw [if_pos (by rw [hij, Int.zero_mul]), hzero hij, hij]
    exact hofInt.symm
  · have hne : (i + j) * one ≠ 0 := Int.mul_ne_zero hij hone.ne'
    have hsign : decide ((i + j) * one < 0) = decide (i + j < 0) :=
      decide_eq_decide.2 (mul_neg_iff_left (i + j) hone)
    have hwhole := ofUnits_whole (decide (i + j < 0)) Nat.one_pos h
    rw [if_neg hne, hsign, ofInt_eq h, Int.natAbs_mul, Int.natAbs_natCast, ← hwhole, Nat.mul_one]

theorem ofInt_add {i j : Int} (hi : i.natAbs ≤ 2 ^ 53) (hj : j.natAbs ≤ 2 ^ 53)
    (h : (i + j).natAbs ≤ 2 ^ 53) : ofInt i + ofInt j = ofInt (i + j) := by
  rw [ofInt_eq hi, ofInt_eq hj]
  refine add_of_whole (signed_natAbs i one) (signed_natAbs j one) (fun hzero => ?_) h
  simp only [Bool.and_eq_false_iff, decide_eq_false_iff_not]
  omega

theorem ofInt_add_natCast {m n : Nat} (h : m + n ≤ 2 ^ 53) :
    ofInt m + ofInt n = ofInt (m + n : Nat) := by
  rw [Nat.cast_add]
  exact ofInt_add (by omega) (by omega) (by omega)

theorem ofInt_sub {i : Int} {n : Nat} (hi : i.natAbs ≤ 2 ^ 53) (hn : n ≤ 2 ^ 53)
    (h : (i - n).natAbs ≤ 2 ^ 53) : ofInt i - ofInt n = ofInt (i - n) := by
  have hneg : signed true (n * one) = -(n : Int) * one := by
    rw [signed, if_pos rfl, Nat.cast_mul, Int.neg_mul]
  rw [ofInt_eq hi, ofInt_natCast hn]
  refine add_of_whole (signed_natAbs i one) hneg (fun hzero => ?_) h
  rw [Bool.not_false, Bool.and_true]
  exact decide_eq_false (by omega)

/-! ## Numbers that are no NaN -/

theorem finite_ne_nan (negative : Bool) (units : Nat) : finite negative units ≠ .nan := nofun

theorem infinite_ne_nan (negative : Bool) : infinite negative ≠ .nan := nofun

theorem ofUnits_ne_nan (negative : Bool) (num den : Nat) : ofUnits negative num den ≠ .nan := by
  rw [ofUnits]
  by_cases h : nearest num den < limit
  · rw [if_pos h]
    exact finite_ne_nan _ _
  · rw [if_neg h]
    exact infinite_ne_nan _

theorem ofRatio_ne_nan (negative : Bool) (num den : Nat) : ofRatio negative num den ≠ .nan :=
  ofUnits_ne_nan _ _ _

theorem ofInt_ne_nan (i : Int) : ofInt i ≠ .nan := by
  rw [ofInt]
  exact ofRatio_ne_nan _ _ _

theorem ofDecimal_ne_nan (negative : Bool) (digits : Nat) (exponent : Int) :
    ofDecimal negative digits exponent ≠ .nan := by
  rw [ofDecimal]
  dsimp only
  split_ifs
  · exact finite_ne_nan _ _
  · exact infinite_ne_nan _
  · exact finite_ne_nan _ _
  · exact ofRatio_ne_nan _ _ _
  · exact ofRatio_ne_nan _ _ _

/-- A quotient of whole numbers stays in range. -/
theorem ofInt_div_finite {i : Int} {n : Nat} (hi : i.natAbs ≤ 2 ^ 53) (hn : 0 < n)
    (hn' : n ≤ 2 ^ 53) : ∃ negative units, ofInt i / ofInt n = finite negative units := by
  have hquotient : i.natAbs * one * one / (n * one) ≤ i.natAbs * one := by
    rw [Nat.mul_div_mul_right _ _ one_pos]
    exact Nat.div_le_self _ _
  have hnearest : nearest (i.natAbs * one * one) (n * one) < limit := by
    calc nearest (i.natAbs * one * one) (n * one)
        ≤ 2 * (i.natAbs * one * one / (n * one)) + 1 := nearest_le _ _
      _ ≤ 2 * (i.natAbs * one) + one := Nat.add_le_add (Nat.mul_le_mul_left 2 hquotient) one_pos
      _ = (2 * i.natAbs + 1) * one := by ring
      _ < 2 ^ 1024 * one := by
        refine Nat.mul_lt_mul_of_pos_right ?_ one_pos
        calc 2 * i.natAbs + 1 < 2 ^ 55 := by omega
          _ ≤ 2 ^ 1024 := Nat.pow_le_pow_right (by decide) (by decide)
      _ = limit := limit_eq.symm
  rw [ofInt_eq hi, ofInt_natCast hn', div_finite _ _ _ (Nat.mul_pos hn one_pos).ne', ofUnits,
    if_pos hnearest]
  exact ⟨_, _, rfl⟩

/-- No NaN, and nothing below zero. -/
def IsSpan (x : Binary64) : Prop := x ≠ .nan ∧ x.isNegative = false

theorem isSpan_ofUnits (num den : Nat) : (ofUnits false num den).IsSpan := by
  refine ⟨ofUnits_ne_nan false num den, ?_⟩
  rw [ofUnits]
  by_cases h : nearest num den < limit
  · rw [if_pos h, isNegative]
  · rw [if_neg h, isNegative]

theorem isSpan_ofInt (n : Nat) : (ofInt n).IsSpan := by
  have hsign : decide ((n : Int) < 0) = false := decide_eq_false (by omega)
  rw [ofInt, hsign]
  exact isSpan_ofUnits _ _

theorem IsSpan.mul_ofInt {x : Binary64} (h : x.IsSpan) {n : Nat} (hn : 0 < n) (hn' : n ≤ 2 ^ 53) :
    (x * ofInt n).IsSpan := by
  have hunits : n * one ≠ 0 := (Nat.mul_pos hn one_pos).ne'
  obtain ⟨hnan, hsign⟩ := h
  rw [ofInt_natCast hn']
  cases x with
  | nan => exact absurd rfl hnan
  | infinite s =>
    subst hsign
    show (mul (infinite _) (finite false (n * one))).IsSpan
    rw [mul, if_neg hunits]
    exact ⟨infinite_ne_nan _, rfl⟩
  | finite s m =>
    subst hsign
    rw [mul_finite]
    exact isSpan_ofUnits _ _

theorem IsSpan.add {x y : Binary64} (hx : x.IsSpan) (hy : y.IsSpan) : (x + y).IsSpan := by
  obtain ⟨hx, hxs⟩ := hx
  obtain ⟨hy, hys⟩ := hy
  show (Binary64.add x y).IsSpan
  cases x with
  | nan => exact absurd rfl hx
  | infinite s =>
    cases y with
    | nan => exact absurd rfl hy
    | infinite t =>
      subst hxs hys
      rw [Binary64.add, if_pos rfl]
      exact ⟨infinite_ne_nan _, rfl⟩
    | finite t n =>
      subst hxs
      exact ⟨infinite_ne_nan _, rfl⟩
  | finite s m =>
    cases y with
    | nan => exact absurd rfl hy
    | infinite t =>
      subst hys
      exact ⟨infinite_ne_nan _, rfl⟩
    | finite t n =>
      have hsum : ¬ ((m : Int) + n < 0) := by omega
      subst hxs hys
      show (finite _ m + finite _ n).IsSpan
      simp only [add_finite, signed, Bool.false_eq_true, if_false, Bool.and_self,
        decide_eq_false hsum]
      split
      · exact ⟨finite_ne_nan _ _, rfl⟩
      · exact isSpan_ofUnits _ _

/-- Taking anything but a NaN from a finite number gives no NaN. -/
theorem sub_ne_nan (negative : Bool) (units : Nat) {y : Binary64} (h : y ≠ .nan) :
    finite negative units - y ≠ .nan := by
  show finite negative units + y.neg ≠ .nan
  cases y with
  | nan => exact absurd rfl h
  | infinite t => exact infinite_ne_nan _
  | finite t n =>
    rw [neg, add_finite]
    split
    · exact finite_ne_nan _ _
    · exact ofUnits_ne_nan _ _ _

theorem div_ofInt_ne_nan {x : Binary64} (hx : x ≠ .nan) {n : Nat} (hn : 0 < n) (hn' : n ≤ 2 ^ 53) :
    x / ofInt n ≠ .nan := by
  rw [ofInt_natCast hn']
  cases x with
  | nan => exact absurd rfl hx
  | infinite s => exact infinite_ne_nan _
  | finite s m =>
    rw [div_finite _ _ _ (Nat.mul_pos hn one_pos).ne']
    exact ofUnits_ne_nan _ _ _

/-! ## Order -/

theorem exists_place {x : Binary64} (h : x ≠ .nan) : ∃ p, x.place = some p := by
  cases x with
  | nan => exact absurd rfl h
  | infinite negative => exact ⟨_, rfl⟩
  | finite negative units => exact ⟨_, rfl⟩

theorem lt_iff {x y : Binary64} :
    x.lt y = true ↔ ∃ p q, x.place = some p ∧ y.place = some q ∧ p < q := by
  unfold lt
  cases x.place <;> cases y.place <;> simp

theorem eq_iff {x y : Binary64} :
    x.eq y = true ↔ ∃ p, x.place = some p ∧ y.place = some p := by
  unfold eq
  cases x.place <;> cases y.place <;> simp [eq_comm]

/-- At most; false when either side is NaN. -/
def le (x y : Binary64) : Bool := x.lt y || x.eq y

theorem le_iff {x y : Binary64} :
    x.le y = true ↔ ∃ p q, x.place = some p ∧ y.place = some q ∧ p ≤ q := by
  simp only [le, Bool.or_eq_true, lt_iff, eq_iff]
  constructor
  · rintro (⟨p, q, hp, hq, hlt⟩ | ⟨p, hp, hq⟩)
    · exact ⟨p, q, hp, hq, hlt.le⟩
    · exact ⟨p, p, hp, hq, le_rfl⟩
  · rintro ⟨p, q, hp, hq, hle⟩
    rcases hle.lt_or_eq with hlt | rfl
    · exact .inl ⟨p, q, hp, hq, hlt⟩
    · exact .inr ⟨p, hp, hq⟩

theorem lt_of_lt_of_le {x y z : Binary64} (hxy : x.lt y = true) (hyz : y.le z = true) :
    x.lt z = true := by
  obtain ⟨p, q, hp, hq, hlt⟩ := lt_iff.1 hxy
  obtain ⟨q', r, hq', hr, hle⟩ := le_iff.1 hyz
  cases hq.symm.trans hq'
  exact lt_iff.2 ⟨p, r, hp, hr, hlt.trans_le hle⟩

theorem lt_of_le_of_lt {x y z : Binary64} (hxy : x.le y = true) (hyz : y.lt z = true) :
    x.lt z = true := by
  obtain ⟨p, q, hp, hq, hle⟩ := le_iff.1 hxy
  obtain ⟨q', r, hq', hr, hlt⟩ := lt_iff.1 hyz
  cases hq.symm.trans hq'
  exact lt_iff.2 ⟨p, r, hp, hr, hle.trans_lt hlt⟩

/-- Of two numbers that equal a third neither is less. -/
theorem lt_eq_false {x y z : Binary64} (hx : x.eq z = true) (hy : y.eq z = true) :
    x.lt y = false := by
  obtain ⟨p, hp, hz⟩ := eq_iff.1 hx
  obtain ⟨q, hq, hz'⟩ := eq_iff.1 hy
  cases hz.symm.trans hz'
  simp [lt, hp, hq]

/-- Whole numbers up to 2⁵³ are ordered as they stand. -/
theorem lt_ofInt {i j : Int} (hi : i.natAbs ≤ 2 ^ 53) (hj : j.natAbs ≤ 2 ^ 53) :
    (ofInt i).lt (ofInt j) = decide (i < j) := by
  have hone : (0 : Int) < one := Int.natCast_pos.2 one_pos
  rw [lt, place_ofInt hi, place_ofInt hj]
  exact decide_eq_decide.2 (Int.mul_lt_mul_right hone)

theorem eq_ofInt {i j : Int} (hi : i.natAbs ≤ 2 ^ 53) (hj : j.natAbs ≤ 2 ^ 53) :
    (ofInt i).eq (ofInt j) = decide (i = j) := by
  have hone : (one : Int) ≠ 0 := (Int.natCast_pos.2 one_pos).ne'
  rw [eq, place_ofInt hi, place_ofInt hj]
  exact decide_eq_decide.2 (Int.mul_eq_mul_right_iff hone)

theorem le_ofInt {i j : Int} (hi : i.natAbs ≤ 2 ^ 53) (hj : j.natAbs ≤ 2 ^ 53) (h : i ≤ j) :
    (ofInt i).le (ofInt j) = true := by
  have hone : (0 : Int) ≤ one := Int.natCast_nonneg one
  exact le_iff.2 ⟨_, _, place_ofInt hi, place_ofInt hj, Int.mul_le_mul_of_nonneg_right h hone⟩

theorem eq_symm (x y : Binary64) : x.eq y = y.eq x := by
  rw [Bool.eq_iff_iff, eq_iff, eq_iff]
  exact exists_congr fun p => and_comm

theorem not_lt {x y : Binary64} (hx : x ≠ .nan) (hy : y ≠ .nan) : (!x.lt y) = y.le x := by
  obtain ⟨p, hp⟩ := exists_place hx
  obtain ⟨q, hq⟩ := exists_place hy
  rw [Bool.eq_iff_iff, le_iff]
  simp [lt, hp, hq]

/-- Of two numbers that are no NaN exactly one is less, or they are equal. -/
theorem count_orders {x y : Binary64} (hx : x ≠ .nan) (hy : y ≠ .nan) :
    [x.lt y, y.lt x, x.eq y].count true = 1 := by
  obtain ⟨p, hp⟩ := exists_place hx
  obtain ⟨q, hq⟩ := exists_place hy
  simp only [lt, eq, hp, hq]
  rcases lt_trichotomy p q with hlt | rfl | hlt
  · simp [hlt, hlt.ne, hlt.not_gt]
  · simp
  · simp [hlt, hlt.ne', hlt.not_gt]

end Binary64
end DownloadQuery

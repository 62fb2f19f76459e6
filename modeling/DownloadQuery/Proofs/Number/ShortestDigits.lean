import DownloadQuery.Proofs.Number.RoundingIntervals

/-!
# Shortest digits read back

The search for the shortest digits ends in the rounding interval of the number: a grid is taken only
if it has a point there, and the grid of seventeen digits has one next to every number, since 10¹⁶
exceeds 2⁵³ (`readsBack_seventeen`). So the digits that are found read back as the number
(`isShortest_ofUnits`).
-/

namespace DownloadQuery
namespace Shortest

open Binary64 (one limit spacing roundDiv keeps_spacing isNearestEven_roundDiv)

variable {units n : Nat} {e : Int}

/-! ## The search -/

theorem scaled_eq (units : Nat) (e : Int) :
    scaled units e = (units * 10 ^ (-e).toNat, one * 10 ^ e.toNat) := by
  unfold scaled
  split_ifs with he
  · have hneg : (-e).toNat = 0 := by omega
    rw [hneg, Nat.pow_zero, Nat.mul_one]
    rfl
  · have hzero : e.toNat = 0 := by omega
    rw [hzero, Nat.pow_zero, Nat.mul_one]
    rfl

/-- A neighbour on a grid is taken only if it reads back. -/
theorem readsBack_of_onGrid? (h : onGrid? units e = some n) : ReadsBack units n e := by
  rw [← contains_iff]
  unfold onGrid? at h
  generalize scaled units e = quotient at h
  obtain ⟨num, den⟩ := quotient
  dsimp only at h
  cases hlower : (interval units).contains (num / den) e && decide (0 < num / den) with
  | true =>
    have hfirst : (interval units).contains (num / den) e = true :=
      (Bool.and_eq_true _ _ ▸ hlower).1
    cases hupper : (interval units).contains (num / den + 1) e with
    | true =>
      simp only [hlower, hupper, Bool.and_self, if_true, Option.some.injEq] at h
      rcases Binary64.roundDiv_eq_or num den with heq | heq
      · obtain rfl : n = num / den := h.symm.trans heq
        exact hfirst
      · obtain rfl : n = num / den + 1 := h.symm.trans heq
        exact hupper
    | false =>
      simp only [hlower, hupper, Bool.and_false, Bool.false_eq_true, if_false, if_true,
        Option.some.injEq] at h
      exact h ▸ hfirst
  | false =>
    cases hupper : (interval units).contains (num / den + 1) e with
    | true =>
      simp only [hlower, hupper, Bool.false_and, Bool.false_eq_true, if_false, if_true,
        Option.some.injEq] at h
      exact h ▸ hupper
    | false =>
      simp only [hlower, hupper, Bool.false_and, Bool.false_eq_true, if_false] at h
      cases h

/-- Whether a count of units is no less than `10^p`. -/
def AtLeast (units : Nat) (p : Int) : Prop := one * 10 ^ p.toNat ≤ units * 10 ^ (-p).toNat

theorem atLeast_iff {p : Int} {a b : Nat} (h : (a : Int) - b = p) :
    AtLeast units p ↔ one * 10 ^ a ≤ units * 10 ^ b := by
  have hpow (k : Nat) : 0 < 10 ^ k := Nat.pow_pos (by decide)
  have hexponents : p.toNat + b = a + (-p).toNat := by omega
  rw [AtLeast]
  generalize one = unit
  have hleft : unit * 10 ^ p.toNat * 10 ^ b = unit * 10 ^ a * 10 ^ (-p).toNat := by
    rw [Nat.mul_assoc, Nat.mul_assoc, ← Nat.pow_add, ← Nat.pow_add, hexponents]
  have hright : units * 10 ^ (-p).toNat * 10 ^ b = units * 10 ^ b * 10 ^ (-p).toNat :=
    Nat.mul_right_comm _ _ _
  rw [← Nat.mul_le_mul_right_iff (hpow b), hleft, hright,
    Nat.mul_le_mul_right_iff (hpow (-p).toNat)]

theorem pointFrom_eq_or (fuel : Nat) (p : Int) :
    pointFrom units fuel p = p ∨ AtLeast units (pointFrom units fuel p - 1) := by
  induction fuel generalizing p with
  | zero => exact .inl rfl
  | succ fuel ih =>
    rw [pointFrom, scaled_eq]
    dsimp only
    split_ifs with hless
    · exact .inl rfl
    · rcases ih (p + 1) with heq | hle
      · rw [heq, Int.add_sub_cancel]
        exact .inr (Nat.not_lt.1 hless)
      · exact .inr hle

/-- A number is not below the power of ten before its decimal point. -/
theorem atLeast_point (hpos : 0 < units) (hlimit : units < limit) :
    AtLeast units (point units - 1) := by
  have hlog : units.log2 < 2098 := (Nat.log2_lt hpos.ne').2 (hlimit.trans_eq Binary64.limit_eq_pow)
  have hself : 2 ^ units.log2 ≤ units := Nat.log2_self_le hpos.ne'
  rcases @pointFrom_eq_or units 4
    (((units.log2 : Int) - 1074) * 30103 / 100000 - 1) with heq | hle
  · rw [point, heq]
    generalize units.log2 = b at hlog hself heq
    generalize hstart : ((b : Int) - 1074) * 30103 / 100000 - 1 - 1 = p
    refine le_trans ?_ (Nat.mul_le_mul_right _ hself)
    rw [Binary64.one_eq]
    rcases Nat.le_total 1074 b with hb | hb
    · obtain ⟨m, rfl⟩ := Nat.exists_eq_add_of_le hb
      rw [Nat.pow_add, Nat.mul_assoc]
      refine Nat.mul_le_mul_left _ ?_
      calc 10 ^ p.toNat ≤ 2 ^ m := ten_pow_le_two_pow (by omega)
        _ ≤ 2 ^ m * 10 ^ (-p).toNat := Nat.le_mul_of_pos_right _ (Nat.pow_pos (by decide))
    · obtain ⟨m, hm⟩ := Nat.exists_eq_add_of_le hb
      have hzero : p.toNat = 0 := by omega
      rw [hzero, hm, Nat.pow_add, Nat.pow_zero, Nat.mul_one]
      refine Nat.mul_le_mul_left _ (two_pow_le_ten_pow ?_)
      omega
  · exact hle

/-- Every number has a point of the grid of seventeen digits in its interval. -/
theorem readsBack_seventeen (hunits : 2 ^ spacing units ∣ units) {p : Int}
    (hp : AtLeast units (p - 1)) :
    ReadsBack units (roundDiv (scaled units (p - 17)).1 (scaled units (p - 17)).2) (p - 17) := by
  rw [scaled_eq]
  dsimp only
  generalize he : p - 17 = e
  have hgrid : one * 10 ^ e.toNat * 10 ^ 16 ≤ units * 10 ^ (-e).toNat := by
    have hle := (atLeast_iff (a := e.toNat + 16) (b := (-e).toNat) (by omega)).1 hp
    rwa [Nat.pow_add, ← Nat.mul_assoc] at hle
  have hden : 0 < one * 10 ^ e.toNat := Nat.mul_pos Binary64.one_pos (Nat.pow_pos (by decide))
  have hscale : 0 < 10 ^ (-e).toNat := Nat.pow_pos (by decide)
  have hround := isNearestEven_roundDiv (units * 10 ^ (-e).toNat) hden
  generalize roundDiv (units * 10 ^ (-e).toNat) (one * 10 ^ e.toNat) = n at hround
  have hnum : n * 10 ^ e.toNat * one = n * (one * 10 ^ e.toNat) := by ring
  rw [ReadsBack, hnum, interval_eq]
  have hkeeps := keeps_spacing hunits
  generalize spacing units = k at hkeeps
  generalize units / 2 ^ k = c at hkeeps
  generalize one * 10 ^ e.toNat = grid at hgrid hden hround
  generalize 10 ^ (-e).toNat = scale at hgrid hscale hround
  obtain ⟨rfl, hlt, -⟩ := hkeeps
  obtain ⟨hle, hge, -⟩ := hround
  have hpos : 0 < 2 ^ k * scale := Nat.mul_pos (Nat.two_pow_pos k) hscale
  have hnext : (c + 1) * (2 ^ k * scale) ≤ 2 ^ 53 * (2 ^ k * scale) := Nat.mul_le_mul_right _ hlt
  simp only [Nat.succ_mul, Nat.mul_assoc] at hgrid hnext hle hge
  have hless : 2 * grid < below c k * scale := by
    rw [below]
    split_ifs with hedge
    · rw [hedge.1] at hgrid
      omega
    · rw [Nat.mul_assoc]
      omega
  have hmost : below c k * scale ≤ 2 * (2 ^ k * scale) := by
    rw [below]
    split_ifs
    · omega
    · rw [Nat.mul_assoc]
  constructor
  · dsimp only
    rw [Nat.sub_mul, Nat.mul_assoc 4, Nat.mul_assoc c]
    omega
  · dsimp only
    rw [Nat.add_mul, Nat.mul_assoc 4, Nat.mul_assoc c, Nat.mul_assoc 2]
    omega
  · dsimp only
    rw [Nat.sub_mul, Nat.add_mul, Nat.mul_assoc 4, Nat.mul_assoc c, Nat.mul_assoc 2]
    omega

theorem readsBack_search (hunits : 2 ^ spacing units ∣ units) {p : Int}
    (hp : AtLeast units (p - 1)) {fuel count : Nat} (hcount : count + fuel = 17) :
    ReadsBack units (search units p fuel count).1 (search units p fuel count).2 := by
  induction fuel generalizing count with
  | zero =>
    obtain rfl : count = 17 := hcount
    exact readsBack_seventeen hunits hp
  | succ fuel ih =>
    rw [search]
    split
    · next n hn => exact readsBack_of_onGrid? hn
    · exact ih (by omega)

/-! ## The digits -/

/-- Digits that end in zeros are others and then zeros. -/
theorem dropZeros_append (digits : List Char) :
    ∃ j, dropZeros digits ++ List.replicate j '0' = digits := by
  refine ⟨(digits.reverse.takeWhile (· == '0')).length, ?_⟩
  have hzeros : digits.reverse.takeWhile (· == '0') =
      List.replicate (digits.reverse.takeWhile (· == '0')).length '0' :=
    List.eq_replicate_length.2 fun c hc => by
      simpa using List.mem_takeWhile_imp hc
  rw [dropZeros, ← List.reverse_replicate, ← hzeros, ← List.reverse_append,
    List.takeWhile_append_dropWhile, List.reverse_reverse]

theorem head?_toDigits (hn : 0 < n) : (Nat.toDigits 10 n).head? ≠ some '0' := by
  induction n using Nat.strong_induction_on with
  | _ n ih =>
    rcases Nat.lt_or_ge n 10 with hless | hmore
    · rw [Nat.toDigits_of_lt_base hless]
      interval_cases n <;> decide
    · rw [Nat.toDigits_of_base_le (by decide) hmore,
        List.head?_append_of_ne_nil _ Nat.toDigits_ne_nil]
      exact ih (n / 10) (by omega) (by omega)

/-- What the shortest digits of a number are: digits that start with no zero and read back, with the
point behind the number of them that it tells. -/
structure IsShortest (units : Nat) (d : Digits) : Prop where
  digits : ∀ c ∈ d.digits, c.isDigit = true
  ne_nil : d.digits ≠ []
  head?_ne : d.digits.head? ≠ some '0'
  readsBack : ReadsBack units (Decimal.natOfDigits d.digits) (d.point - d.digits.length)

theorem isShortest_ofUnits (hunits : 2 ^ spacing units ∣ units) (hpos : 0 < units)
    (hlimit : units < limit) : IsShortest units (ofUnits units) := by
  have hsearch := readsBack_search hunits (atLeast_point hpos hlimit) (rfl : 1 + 16 = 17)
  rw [ofUnits, if_neg hpos.ne']
  generalize search units (point units) 16 1 = found at hsearch
  obtain ⟨n, e⟩ := found
  dsimp only at hsearch ⊢
  have hn := pos_of_readsBack hunits hpos hsearch
  obtain ⟨j, hj⟩ := dropZeros_append (Nat.toDigits 10 n)
  have hhead := head?_toDigits hn
  have hdigits : ∀ c ∈ Nat.toDigits 10 n, c.isDigit = true := fun c hc =>
    Nat.isDigit_of_mem_toDigits (by decide) (by decide) hc
  have hvalue := Decimal.natOfDigits_toDigits n
  have hne := Nat.toDigits_ne_nil (n := n) (b := 10)
  generalize Nat.toDigits 10 n = all at hj hhead hdigits hvalue hne
  generalize dropZeros all = digits at hj
  subst hj
  have hnil : digits ≠ [] := by
    rintro rfl
    cases j with
    | zero => exact hne rfl
    | succ j => exact hhead rfl
  rw [List.head?_append_of_ne_nil _ hnil] at hhead
  refine ⟨fun c hc => hdigits c (List.mem_append_left _ hc), hnil, hhead, ?_⟩
  rw [← hvalue, Decimal.natOfDigits_append_zeros, readsBack_mul_pow] at hsearch
  have hplace : ((digits ++ List.replicate j '0').length : Int) + e - digits.length = e + j := by
    simp only [List.length_append, List.length_replicate]
    omega
  rwa [hplace]

end Shortest
end DownloadQuery

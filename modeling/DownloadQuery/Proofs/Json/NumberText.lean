import DownloadQuery.Json.Printer
import DownloadQuery.Json.Reader
import DownloadQuery.Proofs.Number.ShortestDigits

/-!
# The texts of numbers in JSON

Integers are written in digits, other numbers with a point or an exponent. Before a comma, a line
feed or the end of a text, either is read as what has been written (`Reader.readUnsigned_toDigits`,
`Reader.readUnsigned_write`).
-/

namespace DownloadQuery
namespace Json
namespace Reader

open Binary64 (positional scientific)
open Shortest (IsShortest)

/-- Whether a text may stand after a value of an indented text. -/
def Follows (rest : List Char) : Prop := ∀ c, rest.head? = some c → c = ',' ∨ c = '\n'

/-- Whether a text neither goes on with digits nor makes a zero before it hexadecimal. -/
def EndsDigits (rest : List Char) : Prop :=
  ∀ c, rest.head? = some c → c.isDigit = false ∧ c ≠ 'x' ∧ c ≠ 'X'

/-- Digits without a leading zero, unless it is all there is. -/
structure IsWholePart (whole : List Char) : Prop where
  digits : ∀ c ∈ whole, c.isDigit = true
  ne_nil : whole ≠ []
  leading : whole.head? = some '0' → whole = ['0']

variable {negative : Bool} {whole fraction tail rest : List Char} {exponent : Option Int}

theorem ne_of_isDigit {c x : Char} (hc : c.isDigit = true) (hx : x.isDigit = false) : c ≠ x := by
  rintro rfl
  rw [hc] at hx
  cases hx

theorem Follows.endsDigits (h : Follows rest) : EndsDigits rest := by
  intro c hc
  rcases h c hc with rfl | rfl
  · decide
  · decide

theorem endsDigits_point (rest : List Char) : EndsDigits ('.' :: rest) := by
  rintro c ⟨⟩
  decide

theorem endsDigits_exponent (rest : List Char) : EndsDigits ('e' :: rest) := by
  rintro c ⟨⟩
  decide

theorem takeWhile_digits {digits : List Char} (hdigits : ∀ c ∈ digits, c.isDigit = true)
    (htail : EndsDigits tail) : (digits ++ tail).takeWhile Char.isDigit = digits := by
  have hnone : tail.takeWhile Char.isDigit = [] := by
    cases tail with
    | nil => rfl
    | cons c rest => exact List.takeWhile_cons_of_neg (by simpa using (htail c rfl).1)
  rw [List.takeWhile_append_of_pos hdigits, hnone, List.append_nil]

theorem readExponent_of_follows (h : Follows rest) : readExponent rest = some (none, rest) := by
  cases rest with
  | nil => rfl
  | cons c rest =>
    rcases h c rfl with rfl | rfl
    · rfl
    · rfl

/-- A text that does not start as a word does. -/
theorem readWord?_eq_none {word : String} {c : Char} (hc : word.toList.head? ≠ some c)
    (hne : word ≠ "") (rest : List Char) : readWord? word (c :: rest) = none := by
  have hpos : word.length ≠ 0 := by simpa using hne
  rw [readWord?, if_neg]
  intro htake
  apply hc
  rw [← htake]
  obtain ⟨n, hn⟩ := Nat.exists_eq_succ_of_ne_zero hpos
  rw [hn]
  rfl

theorem readWord?_of_isDigit {word : String} {c first : Char} {others : List Char}
    (hc : c.isDigit = true) (hword : word.toList = first :: others)
    (hfirst : first.isDigit = false) (rest : List Char) : readWord? word (c :: rest) = none := by
  have hhead : word.toList.head? ≠ some c := by
    rw [hword, List.head?_cons]
    exact fun heq => ne_of_isDigit hc hfirst (Option.some.inj heq).symm
  have hne : word ≠ "" := by
    rintro rfl
    cases hword
  exact readWord?_eq_none hhead hne rest

theorem readUnsigned_eq_decimal (hwhole : IsWholePart whole) (htail : EndsDigits tail) :
    readUnsigned negative (whole ++ tail) = readUnsigned.decimal negative (whole ++ tail) := by
  obtain ⟨c, digits, rfl⟩ := List.exists_cons_of_ne_nil hwhole.ne_nil
  have hc := hwhole.digits c List.mem_cons_self
  have hinfinity : readWord? "Infinity" (c :: digits ++ tail) = none :=
    readWord?_of_isDigit hc rfl rfl _
  have hnan : readWord? "NaN" (c :: digits ++ tail) = none := readWord?_of_isDigit hc rfl rfl _
  unfold readUnsigned
  rw [hinfinity, hnan]
  dsimp only
  split
  · next x after heq =>
    obtain ⟨rfl, hafter⟩ := List.cons.inj heq
    obtain rfl : digits = [] := by simpa using hwhole.leading rfl
    have hx := htail x (by simp [show tail = x :: after from hafter])
    have hmark : (x == 'x' || x == 'X') = false := by simp [hx.2]
    rw [hmark, heq]
    rfl
  · rfl

theorem IsWholePart.length_le (h : IsWholePart whole) :
    ¬ (1 < whole.length ∧ whole.head? = some '0') := by
  rintro ⟨hlength, hhead⟩
  rw [h.leading hhead] at hlength
  exact Nat.lt_irrefl 1 hlength

/-- Digits without a point. -/
theorem decimal_whole (hwhole : IsWholePart whole) (htail : EndsDigits tail)
    (hpoint : tail.head? ≠ some '.') (hexponent : readExponent tail = some (exponent, rest)) :
    readUnsigned.decimal negative (whole ++ tail) = some
      (match exponent with
        | none => ofWhole negative (Decimal.natOfDigits whole)
        | some e => ofBinary64 (Binary64.ofDecimal negative (Decimal.natOfDigits whole) e),
        rest) := by
  have hfraction : readFraction tail = (false, [], tail) := by
    unfold readFraction
    split
    · exact absurd rfl hpoint
    · rfl
  rw [readUnsigned.decimal]
  simp only [takeWhile_digits hwhole.digits htail, hwhole.length_le, if_false, List.drop_left,
    hfraction, hwhole.ne_nil, false_and, hexponent, Option.bind_eq_bind, Option.bind_some]
  cases exponent <;> simp

/-- Digits with a point. -/
theorem decimal_point (hwhole : IsWholePart whole) (hfraction : ∀ c ∈ fraction, c.isDigit = true)
    (htail : EndsDigits tail) (hexponent : readExponent tail = some (exponent, rest)) :
    readUnsigned.decimal negative (whole ++ '.' :: (fraction ++ tail)) = some
      (ofBinary64 (Binary64.ofDecimal negative (Decimal.natOfDigits (whole ++ fraction))
        (exponent.getD 0 - fraction.length)), rest) := by
  have hpoint : readFraction ('.' :: (fraction ++ tail)) = (true, fraction, tail) := by
    simp only [readFraction, takeWhile_digits hfraction htail, List.drop_left]
  rw [readUnsigned.decimal]
  simp only [takeWhile_digits hwhole.digits (endsDigits_point _), hwhole.length_le, if_false,
    List.drop_left, hpoint, hwhole.ne_nil, false_and, hexponent, Option.bind_eq_bind,
    Option.bind_some]

/-! ## Integers -/

theorem isWholePart_toDigits (n : Nat) : IsWholePart (Nat.toDigits 10 n) where
  digits c hc := Nat.isDigit_of_mem_toDigits (by decide) (by decide) hc
  ne_nil := Nat.toDigits_ne_nil
  leading hhead := by
    rcases Nat.eq_zero_or_pos n with rfl | hpos
    · rfl
    · exact absurd hhead (Shortest.head?_toDigits hpos)

theorem Follows.head?_ne_point (h : Follows rest) : rest.head? ≠ some '.' := by
  intro hhead
  rcases h '.' hhead with hc | hc <;> cases hc

theorem readUnsigned_toDigits (negative : Bool) (n : Nat) (hrest : Follows rest) :
    readUnsigned negative (Nat.toDigits 10 n ++ rest) = some (ofWhole negative n, rest) := by
  rw [readUnsigned_eq_decimal (isWholePart_toDigits n) hrest.endsDigits,
    decimal_whole (isWholePart_toDigits n) hrest.endsDigits hrest.head?_ne_point
      (readExponent_of_follows hrest), Decimal.natOfDigits_toDigits]

/-! ## Numbers that are no integers -/

theorem readExponent_signed (e : Int) (hrest : Follows rest) :
    readExponent ((if e < 0 then "e-" else "e+").toList ++ Nat.toDigits 10 e.natAbs ++ rest) =
      some (some e, rest) := by
  have hdigits : (Nat.toDigits 10 e.natAbs ++ rest).takeWhile Char.isDigit =
      Nat.toDigits 10 e.natAbs :=
    takeWhile_digits (isWholePart_toDigits e.natAbs).digits hrest.endsDigits
  have hvalue := Decimal.natOfDigits_toDigits e.natAbs
  split_ifs with he
  · simp [readExponent, Decimal.splitSign, hdigits, hvalue, Nat.toDigits_ne_nil, abs_of_neg he]
  · simp [readExponent, Decimal.splitSign, hdigits, hvalue, Nat.toDigits_ne_nil,
      abs_of_nonneg (Int.not_lt.1 he)]

variable {units : Nat} {d : Shortest.Digits}

theorem isWholePart_take (hd : IsShortest units d) {k : Nat} (hk : 0 < k) :
    IsWholePart (d.digits.take k) := by
  obtain ⟨c, digits, hdigits⟩ := List.exists_cons_of_ne_nil hd.ne_nil
  obtain ⟨j, rfl⟩ := Nat.exists_eq_add_one.2 hk
  have hhead := hd.head?_ne
  rw [hdigits] at hhead ⊢
  refine ⟨fun c' hc' => hd.digits c' (hdigits ▸ List.mem_of_mem_take hc'), by simp, ?_⟩
  intro hzero
  exact absurd hzero hhead

/-- Digits with a point, before which a whole part stands, read as the number that they read back
as. -/
theorem readUnsigned_point (fraction : List Char) {e : Int} (hwhole : IsWholePart whole)
    (hfraction : ∀ c ∈ fraction, c.isDigit = true) (htail : EndsDigits tail)
    (hexponent : readExponent tail = some (exponent, rest))
    (hvalue : Binary64.ofDecimal negative (Decimal.natOfDigits (whole ++ fraction)) e =
      .finite negative units) (he : exponent.getD 0 - fraction.length = e) :
    readUnsigned negative (whole ++ '.' :: (fraction ++ tail)) =
      some (.number (.finite negative units), rest) := by
  rw [readUnsigned_eq_decimal hwhole (endsDigits_point _),
    decimal_point hwhole hfraction htail hexponent, he, hvalue]
  rfl

section Shortest

variable (hd : IsShortest units d) (hrest : Follows rest)
  (hback : ∀ n e, Shortest.ReadsBack units n e →
    Binary64.ofDecimal negative n e = .finite negative units)
include hd hrest hback

theorem readUnsigned_positional :
    readUnsigned negative (positional true d ++ rest) =
      some (.number (.finite negative units), rest) := by
  have hends := hrest.endsDigits
  have hexponent := readExponent_of_follows hrest
  have hvalue := hd.readsBack
  have hlength : 0 < d.digits.length := List.length_pos_iff.2 hd.ne_nil
  rw [positional, if_pos rfl]
  split_ifs with hbelow hwhole
  -- All digits stand behind the point, and before them zeros.
  · have hzero : IsWholePart ['0'] := ⟨by simp, by simp, fun _ => rfl⟩
    have hfraction : ∀ c ∈ Binary64.zeros (-d.point) ++ d.digits, c.isDigit = true := by
      intro c hc
      rcases List.mem_append.1 hc with hc | hc
      · rw [List.eq_of_mem_replicate hc]
        rfl
      · exact hd.digits c hc
    have hdigits : Decimal.natOfDigits (['0'] ++ (Binary64.zeros (-d.point) ++ d.digits)) =
        Decimal.natOfDigits d.digits :=
      (Decimal.natOfDigits_zeros_append 1 _).trans (Decimal.natOfDigits_zeros_append _ _)
    have hread := readUnsigned_point _ (e := d.point - d.digits.length) hzero hfraction hends
      hexponent (by rw [hdigits]; exact hback _ _ hvalue) (by
        simp only [Binary64.zeros, List.length_append, List.length_replicate, Option.getD_none]
        omega)
    simpa using hread
  -- No digit stands behind the point.
  · obtain ⟨j, hj⟩ := Int.eq_ofNat_of_zero_le (Int.sub_nonneg.2 hwhole)
    have hzeros : Binary64.zeros (d.point - d.digits.length) = List.replicate j '0' := by
      rw [hj]
      rfl
    have hpart : IsWholePart (d.digits ++ List.replicate j '0') := by
      refine ⟨fun c hc => ?_, List.append_ne_nil_of_left_ne_nil hd.ne_nil _, fun hhead => ?_⟩
      · rcases List.mem_append.1 hc with hc | hc
        · exact hd.digits c hc
        · rw [List.eq_of_mem_replicate hc]
          rfl
      · rw [List.head?_append_of_ne_nil _ hd.ne_nil] at hhead
        exact absurd hhead hd.head?_ne
    have hdigits : Decimal.natOfDigits (d.digits ++ List.replicate j '0' ++ ['0']) =
        Decimal.natOfDigits d.digits * 10 ^ (j + 1) := by
      rw [List.append_assoc, ← List.replicate_succ', Decimal.natOfDigits_append_zeros]
    have hshifted :
        Shortest.ReadsBack units (Decimal.natOfDigits d.digits * 10 ^ (j + 1)) (-1) := by
      rw [Shortest.readsBack_mul_pow]
      rw [hj] at hvalue
      have hplace : (-1 : Int) + (j + 1 : Nat) = j := by omega
      rwa [hplace]
    have hread := readUnsigned_point ['0'] (e := -1) hpart (by simp) hends hexponent
      (by rw [hdigits]; exact hback _ _ hshifted) rfl
    simpa [hzeros] using hread
  -- The point stands between the digits.
  · have hk : 0 < d.point.toNat := by omega
    have hread := readUnsigned_point (d.digits.drop d.point.toNat)
      (e := d.point - d.digits.length) (isWholePart_take hd hk)
      (fun c hc => hd.digits c (List.mem_of_mem_drop hc)) hends hexponent
      (by rw [List.take_append_drop]; exact hback _ _ hvalue) (by
        simp only [List.length_drop, Option.getD_none]
        omega)
    simpa using hread

theorem readUnsigned_scientific :
    readUnsigned negative (scientific d ++ rest) =
      some (.number (.finite negative units), rest) := by
  have hexponent := readExponent_signed (d.point - 1) hrest
  have hvalue := hd.readsBack
  have hends : EndsDigits ((if d.point - 1 < 0 then "e-" else "e+").toList ++
      Nat.toDigits 10 (d.point - 1).natAbs ++ rest) := by
    split_ifs
    · exact endsDigits_exponent _
    · exact endsDigits_exponent _
  rw [scientific]
  obtain ⟨c, digits, hdigits⟩ := List.exists_cons_of_ne_nil hd.ne_nil
  have hwhole : IsWholePart [c] := by
    have hpart := isWholePart_take hd Nat.one_pos
    rwa [hdigits] at hpart
  rw [hdigits] at hvalue ⊢
  cases digits with
  | nil =>
    have hread := @readUnsigned_eq_decimal negative _ _ hwhole hends
    have hplace : d.point - ([c].length : Nat) = d.point - 1 := rfl
    rw [decimal_whole hwhole hends (by split_ifs <;> simp) hexponent] at hread
    rw [hplace] at hvalue
    simp only [hback _ _ hvalue] at hread
    simpa [ofBinary64] using hread
  | cons c' digits =>
    have hread := readUnsigned_point (c' :: digits)
      (e := d.point - (c :: c' :: digits).length) hwhole
      (fun x hx => hd.digits x (hdigits ▸ List.mem_cons_of_mem c hx)) hends hexponent
      (hback _ _ hvalue) (by
        simp only [List.length_cons, Option.getD_some]
        omega)
    simpa using hread

end Shortest

/-- The text of a number without its sign. -/
def unsignedText (units : Nat) : List Char :=
  let d := Shortest.ofUnits units
  if units = 0 ∨ (-4 ≤ d.point ∧ d.point ≤ 16) then positional true d else scientific d

theorem toList_jsonText (negative : Bool) (units : Nat) :
    (Binary64.finite negative units).jsonText.toList =
      if negative then '-' :: unsignedText units else unsignedText units := by
  rw [Binary64.jsonText, Binary64.write, String.toList_ofList]
  rfl

/-- What has been written of a number is read as the number. -/
theorem readUnsigned_unsignedText (hx : (Binary64.finite negative units).IsRounded)
    (hrest : Follows rest) :
    readUnsigned negative (unsignedText units ++ rest) =
      some (.number (.finite negative units), rest) := by
  obtain ⟨hdvd, hlimit⟩ := hx.bounds
  rcases Nat.eq_zero_or_pos units with rfl | hpos
  · have hzero : IsWholePart ['0'] := ⟨by simp, by simp, fun _ => rfl⟩
    exact readUnsigned_point ['0'] (e := -1) hzero (by simp) hrest.endsDigits
      (readExponent_of_follows hrest) rfl rfl
  · have hd := Shortest.isShortest_ofUnits hdvd hpos hlimit
    have hback (n : Nat) (e : Int) (h : Shortest.ReadsBack units n e) :
        Binary64.ofDecimal negative n e = .finite negative units :=
      Shortest.ofDecimal_of_readsBack negative hdvd hpos hlimit h
    unfold unsignedText
    dsimp only
    split_ifs
    · exact readUnsigned_positional hd hrest hback
    · exact readUnsigned_scientific hd hrest hback

/-- The text of a number starts with a digit. -/
theorem exists_unsignedText (hx : (Binary64.finite negative units).IsRounded) :
    ∃ c text, unsignedText units = c :: text ∧ c.isDigit = true := by
  obtain ⟨hdvd, hlimit⟩ := hx.bounds
  rcases Nat.eq_zero_or_pos units with rfl | hpos
  · exact ⟨'0', ['.', '0'], rfl, rfl⟩
  · have hd := Shortest.isShortest_ofUnits hdvd hpos hlimit
    obtain ⟨c, digits, hdigits⟩ := List.exists_cons_of_ne_nil hd.ne_nil
    have hc : c.isDigit = true := hd.digits c (hdigits ▸ List.mem_cons_self)
    unfold unsignedText
    dsimp only
    split_ifs
    · rw [positional, if_pos rfl, hdigits]
      split_ifs with hbelow
      · exact ⟨'0', _, rfl, rfl⟩
      · exact ⟨c, _, rfl, hc⟩
      · have hpoint : 0 < (Shortest.ofUnits units).point.toNat := by omega
        obtain ⟨j, hj⟩ := Nat.exists_eq_add_one.2 hpoint
        rw [hj]
        exact ⟨c, _, rfl, hc⟩
    · rw [scientific, hdigits]
      cases digits with
      | nil => exact ⟨c, _, rfl, hc⟩
      | cons c' digits => exact ⟨c, _, rfl, hc⟩

end Reader
end Json
end DownloadQuery

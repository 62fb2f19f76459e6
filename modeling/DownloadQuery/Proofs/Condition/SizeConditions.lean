import DownloadQuery.Proofs.Condition.BareValues
import DownloadQuery.Proofs.Condition.UnsetValues
import DownloadQuery.Proofs.Number.Numerals
import DownloadQuery.Proofs.Reading.RawValues
import Mathlib

/-!
# Conditions on sizes

A size is a whole number with or without a unit, and is read exactly up to 2⁵³ bytes. An integer
field that is compared by size then compares as the integers do, with each symbol
(`Condition.sizes_exact`).
-/

namespace DownloadQuery

namespace Test

/-- The letters that may end a size, in either case, and how many bytes they stand for. -/
def sizeUnits : List (String × Nat) :=
  [("", 1), ("b", 1), ("B", 1), ("k", 1024), ("K", 1024), ("m", 1024 ^ 2), ("M", 1024 ^ 2),
    ("g", 1024 ^ 3), ("G", 1024 ^ 3)]

variable {n scale : Nat} {digits unit : List Char}

theorem readNumber_of_isNumeral (h : Whole.IsNumeral n digits) (hn : n ≤ 2 ^ 53) :
    readNumber digits = .ok (.ofInt n) := by
  have hlength : (Nat.toDigits 10 n).length ≤ 16 :=
    (Nat.length_toDigits_le_iff (by decide) (by decide)).2 (hn.trans_lt (by decide))
  rw [readNumber, Decimal.read_of_isNumeral h (hlength.trans (by decide))]

/-- Without a unit a size ends in a digit. -/
theorem unitScale?_digits (h : Whole.IsNumeral n digits) : unitScale? digits = none := by
  have hlast : Whole.isDigit (digits.getLast h.ne_nil) = true :=
    h.digits _ (List.getLast_mem h.ne_nil)
  rw [unitScale?, List.getLast?_eq_getLast_of_ne_nil h.ne_nil, Option.bind_some,
    Whole.toLower_digit hlast]
  generalize digits.getLast h.ne_nil = c at hlast
  have hunit : ∀ entry ∈ Family.byteUnits, (c != entry.1) = true := by
    intro entry hentry
    rw [bne_iff_ne]
    rintro rfl
    revert hlast
    fin_cases hentry <;> decide
  rw [List.lookup_eq_none_iff.2 hunit]
  rfl

theorem sizeUnits_bounds : ∀ entry ∈ sizeUnits, 0 < entry.2 ∧ entry.2 ≤ 2 ^ 53 := by decide

/-- A unit is missing, or a letter for a power of 1024. -/
theorem sizeUnits_cases {unit : String} (h : (unit, scale) ∈ sizeUnits) :
    unit = "" ∧ scale = 1 ∨ ∃ c power, unit = String.singleton c ∧
      Family.byteUnits.lookup c.toLower = some power ∧ scale = Nat.pow 1024 power := by
  simp only [sizeUnits, List.mem_cons, Prod.mk.injEq, List.not_mem_nil, or_false] at h
  rcases h with ⟨rfl, rfl⟩ | ⟨rfl, rfl⟩ | ⟨rfl, rfl⟩ | ⟨rfl, rfl⟩ | ⟨rfl, rfl⟩ | ⟨rfl, rfl⟩ |
    ⟨rfl, rfl⟩ | ⟨rfl, rfl⟩ | ⟨rfl, rfl⟩
  · exact .inl ⟨rfl, rfl⟩
  · exact .inr ⟨'b', 0, rfl, by decide, rfl⟩
  · exact .inr ⟨'B', 0, rfl, by decide, rfl⟩
  · exact .inr ⟨'k', 1, rfl, by decide, rfl⟩
  · exact .inr ⟨'K', 1, rfl, by decide, rfl⟩
  · exact .inr ⟨'m', 2, rfl, by decide, rfl⟩
  · exact .inr ⟨'M', 2, rfl, by decide, rfl⟩
  · exact .inr ⟨'g', 3, rfl, by decide, rfl⟩
  · exact .inr ⟨'G', 3, rfl, by decide, rfl⟩

/-- A size up to 2⁵³ bytes is read exactly. -/
theorem readSize_of_isNumeral (h : Whole.IsNumeral n digits) {unit : String}
    (hunit : (unit, scale) ∈ sizeUnits) (hn : n * scale ≤ 2 ^ 53) :
    readSize (digits ++ unit.toList) = .ok (.ofInt (n * scale : Nat)) := by
  obtain ⟨hpos, hscale⟩ := sizeUnits_bounds _ hunit
  have hsmall : n ≤ 2 ^ 53 := (Nat.le_mul_of_pos_right n hpos).trans hn
  rcases sizeUnits_cases hunit with ⟨rfl, rfl⟩ | ⟨c, power, rfl, hpower, rfl⟩
  · have htext : digits ++ "".toList = digits := List.append_nil digits
    rw [htext, Nat.mul_one, readSize, unitScale?_digits h]
    exact readNumber_of_isNumeral h hsmall
  · have hunit : unitScale? (digits ++ (String.singleton c).toList) =
        some (Nat.pow 1024 power) := by
      simp [unitScale?, hpower]
    have hdigits : (digits ++ (String.singleton c).toList).dropLast = digits := by simp
    rw [readSize, hunit]
    dsimp only
    rw [hdigits, readNumber_of_isNumeral h hsmall]
    exact congrArg Except.ok (Binary64.ofInt_mul hpos hscale hn)

end Test

namespace Field

/-- Whether the raw value of a field of an item is an integer, and any value that the item keeps of
this field is the same. -/
structure HasInteger (f : Field) (scene : Scene) (r : Reading) (i : Int) : Prop where
  raw : f.source.read scene r.item.raw f.name ((f.charge r.tally).count f.name) = .ok (.integer i)
  kept : ∀ v, r.item.kept? f.name = some v → v = .int i

/-- An integer field reads a raw integer of 64 bits as it is. -/
theorem HasInteger.value_eq {f : Field} {scene : Scene} {r : Reading} {i : Int}
    (h : f.HasInteger scene r i) (hkind : f.kind = .integer) (hi : i < 2 ^ 63) :
    (f.value scene r).1 = .ok (.int i) := by
  have hword : i < 9223372036854775808 := by omega
  have hconvert : f.kind.convert f.name (.integer i) = .ok (.int i) := by
    rw [hkind, ValueKind.convert]
    simp [Json.isNull, ValueKind.read?, ValueKind.readInteger?, hword]
  have hraw : f.HasRaw scene r (.integer i) := ⟨h.raw, fun v hv => by rw [h.kept v hv, hconvert]⟩
  exact hraw.value_eq hconvert

end Field

/-- A comparison of integers. -/
def Comparison.relates : Comparison → Int → Int → Bool
  | .equal, i, j => decide (i = j)
  | .less, i, j => decide (i < j)
  | .greater, i, j => decide (j < i)

/-- Whole numbers up to 2⁵³ compare as integers do. -/
theorem Comparison.holds_ofInt (c : Comparison) {i j : Int} (hi : i.natAbs ≤ 2 ^ 53)
    (hj : j.natAbs ≤ 2 ^ 53) : c.holds (.ofInt i) (.ofInt j) = c.relates i j := by
  cases c with
  | equal => rw [holds, Binary64.eq_ofInt hi hj, relates]
  | less => rw [holds, Binary64.lt_ofInt hi hj, relates]
  | greater => rw [holds, Binary64.lt_ofInt hj hi, relates]

namespace Condition

variable {σ : Type}

/-- What the symbols of conditions say of two integers. -/
def relations : List (String × (Int → Int → Bool)) :=
  [("=", fun i j => decide (i = j)), ("=+", fun i j => decide (j < i)),
    ("=-", fun i j => decide (i < j)), (">", fun i j => decide (j < i)),
    ("<", fun i j => decide (i < j)), (">=", fun i j => decide (j ≤ i)),
    ("<=", fun i j => decide (i ≤ j)), ("!=", fun i j => decide (i ≠ j)),
    ("<>", fun i j => decide (i ≠ j))]

/-- Each symbol asks for the comparison that it says, or for the negation of its opposite. -/
theorem exists_symbol {symbol : String} {relation : Int → Int → Bool}
    (h : (symbol, relation) ∈ relations) : ∃ negated c, (symbol, negated, c) ∈ symbols ∧
      ∀ i j, (negated != c.relates i j) = relation i j := by
  simp only [relations, List.mem_cons, Prod.mk.injEq, List.not_mem_nil, or_false] at h
  rcases h with ⟨rfl, rfl⟩ | ⟨rfl, rfl⟩ | ⟨rfl, rfl⟩ | ⟨rfl, rfl⟩ | ⟨rfl, rfl⟩ | ⟨rfl, rfl⟩ |
    ⟨rfl, rfl⟩ | ⟨rfl, rfl⟩ | ⟨rfl, rfl⟩
  · exact ⟨false, .equal, by simp [symbols], fun i j => Bool.false_bne _⟩
  · exact ⟨false, .greater, by simp [symbols], fun i j => Bool.false_bne _⟩
  · exact ⟨false, .less, by simp [symbols], fun i j => Bool.false_bne _⟩
  · exact ⟨false, .greater, by simp [symbols], fun i j => Bool.false_bne _⟩
  · exact ⟨false, .less, by simp [symbols], fun i j => Bool.false_bne _⟩
  · refine ⟨true, .less, by simp [symbols], fun i j => ?_⟩
    rw [Bool.true_bne, Comparison.relates, ← decide_not, decide_eq_decide, not_lt]
  · refine ⟨true, .greater, by simp [symbols], fun i j => ?_⟩
    rw [Bool.true_bne, Comparison.relates, ← decide_not, decide_eq_decide, not_lt]
  · refine ⟨true, .equal, by simp [symbols], fun i j => ?_⟩
    rw [Bool.true_bne, Comparison.relates, ← decide_not]
  · refine ⟨true, .equal, by simp [symbols], fun i j => ?_⟩
    rw [Bool.true_bne, Comparison.relates, ← decide_not]

/-- A literal of a size is accepted, and tests for it. -/
theorem leaf_read_size (clock : Clock) (field : Field) {literal rest : List Char} {c : Comparison}
    (hsign : Comparison.splitSign literal = (c, rest)) {bound : Binary64}
    (hsize : Test.readSize rest = .ok bound) :
    Leaf.read clock .byteSize field (String.ofList literal) =
      .ok ⟨field, String.ofList literal, .byteSize c bound, false⟩ := by
  simp [Leaf.read, Test.ofLiteral, hsign, hsize, Except.map]

theorem isBare_size {n scale : Nat} {digits : List Char} (h : Whole.IsNumeral n digits)
    {unit : String} (hunit : (unit, scale) ∈ Test.sizeUnits) :
    Values.IsBare (digits ++ unit.toList) := by
  have hmarks : ∀ entry ∈ Test.sizeUnits, ',' ∉ entry.1.toList ∧ '\n' ∉ entry.1.toList := by decide
  have hcomma : ',' ∉ digits ++ unit.toList :=
    List.not_mem_append (h.not_mem (by decide)) (hmarks _ hunit).1
  have hline : '\n' ∉ digits ++ unit.toList :=
    List.not_mem_append (h.not_mem (by decide)) (hmarks _ hunit).2
  obtain ⟨c, rest, rfl, hc⟩ := h.exists_cons
  exact Values.isBare_cons hc hcomma hline

/-- Conditions on sizes are exact: for a whole number with or without a unit that says at most 2⁵³
bytes, and each symbol in front of it, an item whose raw value is an integer of at most 2⁵³ in
amount matches just if the two integers are in the relation that the symbol says. -/
theorem sizes_exact (lookup : Lookup σ) (settings : Settings) (s : σ) (name : String)
    (hname : IsIdentifier name) (field : Field) (hfield : (lookup name s).1 = .ok (some field))
    (hkind : field.kind = .integer) (hfamily : field.family? = some .byteSize) {n scale : Nat}
    {digits unit : String} (hdigits : Whole.IsNumeral n digits.toList)
    (hunit : (unit, scale) ∈ Test.sizeUnits) (hn : n * scale ≤ 2 ^ 53) :
    ∀ entry ∈ relations, ∃ f,
      Reads lookup settings s (name ++ entry.1 ++ (digits ++ unit)) f ∧
        ∀ scene r i, field.HasInteger scene r i → i.natAbs ≤ 2 ^ 53 →
          (f.isMatch scene r).1 = .ok (entry.2 i (n * scale : Nat)) := by
  rintro ⟨symbol, relation⟩ hentry
  obtain ⟨negated, c, hsymbol, hrelation⟩ := exists_symbol hentry
  have hbare : Values.IsBare (digits ++ unit).toList := by
    rw [String.toList_append]
    exact isBare_size hdigits hunit
  have hsize : Test.readSize (digits ++ unit).toList = .ok (.ofInt (n * scale : Nat)) := by
    rw [String.toList_append]
    exact Test.readSize_of_isNumeral hdigits hunit hn
  have hl := leaf_read_size settings.clock field (hbare.splitSign_sign c) hsize
  refine ⟨_, reads_symbol hname hfield hfamily hbare hsymbol hl, fun scene r i hraw hi => ?_⟩
  have hvalue : (field.value scene r).1 = .ok (.int i) := hraw.value_eq hkind (by omega)
  have hpasses : (Test.byteSize c (.ofInt (n * scale : Nat))).passes field.name (.int i) =
      .ok (c.relates i (n * scale : Nat)) := by
    rw [← c.holds_ofInt hi (by omega)]
    rfl
  exact (isMatch_value hvalue hpasses negated).trans (congrArg Except.ok (hrelation i _))

/-- A download of exactly one gibibyte has at least, but not more than `1G`. -/
theorem sizes_exact_gibibyte :
    let size := Field.bytes .constant "size" "data size" .stored
    let lookup : Lookup Unit := fun _ => pure (.ok (some size))
    let settings : Settings := ⟨⟨.utc, 0⟩, none⟩
    ∃ f g, Reads lookup settings () "size>=1G" f ∧ Reads lookup settings () "size>1G" g ∧
      ∀ scene tally, let r : Reading := ⟨.ofSnapshot [("size", .integer 1073741824)], tally⟩
        (f.isMatch scene r).1 = .ok true ∧ (g.isMatch scene r).1 = .ok false := by
  intro size lookup settings
  have hdigits : Whole.IsNumeral 1 "1".toList := Whole.isNumeral_replicate_zero 0 1
  have hunit : ("G", 1024 ^ 3) ∈ Test.sizeUnits := by simp [Test.sizeUnits]
  have hexact := sizes_exact lookup settings () "size" (by decide) size rfl rfl rfl hdigits hunit
    (by norm_num)
  obtain ⟨f, hf, hmatch⟩ := hexact (">=", fun i j => decide (j ≤ i)) (by simp [relations])
  obtain ⟨g, hg, hmatch'⟩ := hexact (">", fun i j => decide (j < i)) (by simp [relations])
  refine ⟨f, g, hf, hg, fun scene tally => ?_⟩
  have hraw : size.HasInteger scene ⟨.ofSnapshot [("size", .integer 1073741824)], tally⟩
      1073741824 := ⟨rfl, nofun⟩
  exact ⟨hmatch scene _ _ hraw (by decide), hmatch' scene _ _ hraw (by decide)⟩

end Condition
end DownloadQuery

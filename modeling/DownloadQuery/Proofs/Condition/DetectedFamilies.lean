import DownloadQuery.Proofs.Condition.SignedLiterals
import DownloadQuery.Proofs.Number.Numerals
import Mathlib

/-!
# Families that literals suggest

A literal that looks like a number, a word for truth or a size is read as what it looks like. How it
looks is told by its lower-case form, and what is read is the literal itself; these differ in one
letter only, the Kelvin sign, which is a small k in lower case but is no unit. So the one exception
are sizes that end in it (`Leaf.read_detected`).
-/

namespace DownloadQuery

namespace Text

/-- Of the characters beyond ASCII only the Kelvin sign is an ASCII character in lower case. -/
theorem code_of_image {code : Nat} (hcode : 0x80 ≤ code)
    (h : CaseRun.image lowerRuns code < 0x80) : code = 0x212A := by
  have hruns : ∀ r ∈ lowerRuns, r.last < 0x80 ∨ 0x80 ≤ (r.first : Int) + r.shift ∨
      r.first = 0x212A ∧ r.last = 0x212A := by decide +kernel
  rw [CaseRun.image] at h
  split at h
  · next r hr =>
    have hmem := hruns r (List.mem_of_find?_eq_some hr)
    have hcovers := List.find?_some hr
    simp only [CaseRun.covers, Bool.and_eq_true, decide_eq_true_eq] at hcovers
    omega
  · omega

/-- An ASCII character in lower case is that of an ASCII character or of the Kelvin sign. -/
theorem eq_of_lowerChar {c u : Char} (hpos : 0 < u.toNat) (hascii : u.toNat < 0x80)
    (h : lowerChar c = [u]) : c.toLower = u ∨ c = '\u212A' := by
  rw [lowerChar] at h
  split_ifs at h with hc hdotted
  · exact .inl (List.singleton_inj.1 h)
  · cases h
  · obtain rfl := List.singleton_inj.1 h
    rcases toNat_ofNat (CaseRun.image lowerRuns c.toNat) with hcode | hzero
    · rw [hcode] at hascii
      right
      rw [← Char.ofNat_toNat c, code_of_image (Nat.not_lt.1 hc) hascii]
    · rw [hzero] at hpos
      cases hpos

/-- If a text is marks in lower case, it is these marks. -/
theorem eq_of_lowerFrom {before text : List Char} (h : ∀ d ∈ lowerFrom before text, IsMark d) :
    lowerFrom before text = text := by
  induction text generalizing before with
  | nil => rfl
  | cons c rest ih =>
    obtain ⟨here, heq, hform⟩ := exists_lowerFrom before c rest
    rw [heq, List.forall_mem_append] at h
    rcases hform.marks with ⟨-, rfl⟩ | ⟨-, hnone⟩
    · rw [heq, ih h.2]
      rfl
    · obtain ⟨d, hd⟩ := List.exists_mem_of_ne_nil here hform.ne_nil
      exact absurd (h.1 d hd) (hnone d hd)

theorem exists_of_lowerFrom_singleton {before text : List Char} {u : Char} (hpos : 0 < u.toNat)
    (hascii : u.toNat < 0x80) (h : lowerFrom before text = [u]) :
    ∃ c, text = [c] ∧ (c.toLower = u ∨ c = '\u212A') := by
  cases text with
  | nil => cases h
  | cons c rest =>
    obtain ⟨here, heq, hne, hform⟩ : ∃ here,
        lowerFrom before (c :: rest) = here ++ lowerFrom (c :: before) rest ∧ here ≠ [] ∧
          (here = [u] → lowerChar c = [u]) := by
      rw [lowerFrom]
      split_ifs
      · exact ⟨_, rfl, List.cons_ne_nil _ _, by rintro ⟨⟩; exact absurd hascii (by decide)⟩
      · exact ⟨_, rfl, List.cons_ne_nil _ _, by rintro ⟨⟩; exact absurd hascii (by decide)⟩
      · exact ⟨_, rfl, (isFormOf_lowerChar c).ne_nil, id⟩
    rw [heq, List.append_eq_singleton_iff] at h
    rcases h with ⟨hnil, -⟩ | ⟨hhere, hrest⟩
    · exact absurd hnil hne
    · have hnil : rest = [] := by_contra fun hcons => lowerFrom_ne_nil hcons hrest
      exact ⟨c, by rw [hnil], eq_of_lowerChar hpos hascii (hform hhere)⟩

/-- If a text is marks and an ASCII character in lower case, it is these marks and that character in
either case or the Kelvin sign. -/
theorem exists_of_lowerFrom {before text marks : List Char} {u : Char}
    (hmarks : ∀ d ∈ marks, IsMark d) (hpos : 0 < u.toNat) (hascii : u.toNat < 0x80)
    (h : lowerFrom before text = marks ++ [u]) :
    ∃ c, text = marks ++ [c] ∧ (c.toLower = u ∨ c = '\u212A') := by
  induction marks generalizing before text with
  | nil => exact exists_of_lowerFrom_singleton hpos hascii h
  | cons d marks ih =>
    obtain ⟨hd, hrest⟩ := List.forall_mem_cons.1 hmarks
    cases text with
    | nil => cases h
    | cons c rest =>
      obtain ⟨here, heq, hform⟩ := exists_lowerFrom before c rest
      rw [heq] at h
      rcases hform.marks with ⟨-, rfl⟩ | ⟨-, hnone⟩
      · obtain ⟨rfl, htail⟩ := List.cons.inj h
        obtain ⟨e, rfl, he⟩ := ih hrest htail
        exact ⟨e, rfl, he⟩
      · obtain ⟨e, more, rfl⟩ := List.exists_cons_of_ne_nil hform.ne_nil
        obtain ⟨rfl, -⟩ := List.cons.inj h
        exact absurd hd (hnone e List.mem_cons_self)

end Text

namespace Decimal

variable {text whole fraction : List Char}

theorem exists_read_of_readUnsigned {x : Binary64} {negative : Bool} {body : List Char}
    (hne : text ≠ []) (hsign : splitSign text = (negative, body))
    (h : readUnsigned negative body = some x) : ∃ y, read text = .ok y := by
  rw [read, if_neg hne, hsign]
  dsimp only
  rw [h]
  split_ifs <;> exact ⟨_, rfl⟩

theorem digit_or_point (h : Family.isNumberLike text = true) :
    ∀ c ∈ text, Whole.isDigit c = true ∨ c = '.' := by
  simp only [Family.isNumberLike, Bool.and_eq_true] at h
  intro c hc
  simpa using List.all_eq_true.1 h.1.2 c hc

theorem splitSign_of_isNumberLike (h : Family.isNumberLike text = true) :
    splitSign text = (false, text) := by
  have hhead {sign : Char} (hsign : Whole.isDigit sign = false) (hpoint : sign ≠ '.') :
      text.head? ≠ some sign := by
    intro hfirst
    rcases digit_or_point h sign (List.mem_of_head? hfirst) with hdigit | heq
    · rw [hdigit] at hsign
      cases hsign
    · exact hpoint heq
  exact splitSign_unsigned (hhead (by decide) (by decide)) (hhead (by decide) (by decide))

/-- What looks like a number is digits with at most one point. -/
theorem exists_of_isNumberLike (h : Family.isNumberLike text = true) :
    ∃ whole fraction, (∀ c ∈ whole, Whole.isDigit c = true) ∧
      (∀ c ∈ fraction, Whole.isDigit c = true) ∧ (whole ≠ [] ∨ fraction ≠ []) ∧
      (text = whole ∧ fraction = [] ∨ text = whole ++ '.' :: fraction) := by
  obtain ⟨⟨hany, -⟩, hcount⟩ :
      (text.any Whole.isDigit = true ∧ _) ∧ text.count '.' ≤ 1 := by
    simpa only [Family.isNumberLike, Bool.and_eq_true, decide_eq_true_eq] using h
  have hparts := List.takeWhile_append_dropWhile (p := Whole.isDigit) (l := text)
  have hwhole : ∀ c ∈ text.takeWhile Whole.isDigit, Whole.isDigit c = true :=
    List.all_eq_true.1 List.all_takeWhile
  obtain ⟨d, hd, hdigit⟩ := List.any_eq_true.1 hany
  generalize text.takeWhile Whole.isDigit = whole at hparts hwhole
  cases hrest : text.dropWhile Whole.isDigit with
  | nil =>
    rw [hrest, List.append_nil] at hparts
    subst hparts
    exact ⟨whole, [], hwhole, nofun, .inl (List.ne_nil_of_mem hd), .inl ⟨rfl, rfl⟩⟩
  | cons c fraction =>
    have hc : Whole.isDigit c = false := by
      have hfirst := List.head?_dropWhile_not Whole.isDigit text
      rwa [hrest] at hfirst
    rw [hrest] at hparts
    subst hparts
    have hmarks := digit_or_point h
    obtain rfl : c = '.' := by
      rcases hmarks c (by simp) with hdigit | rfl
      · rw [hdigit] at hc
        cases hc
      · rfl
    have hpoint : '.' ∉ fraction := by
      rw [List.count_append, List.count_cons_self] at hcount
      exact List.count_eq_zero.1 (by omega)
    have hfraction : ∀ e ∈ fraction, Whole.isDigit e = true := fun e he =>
      (hmarks e (by simp [he])).resolve_right fun heq => hpoint (heq ▸ he)
    refine ⟨whole, fraction, hwhole, hfraction, ?_, .inr rfl⟩
    rcases List.mem_append.1 hd with hmem | hmem
    · exact .inl (List.ne_nil_of_mem hmem)
    · rcases List.mem_cons.1 hmem with rfl | hmem
      · cases hdigit
      · exact .inr (List.ne_nil_of_mem hmem)

theorem readUnsigned_point (hwhole : ∀ c ∈ whole, Whole.isDigit c = true)
    (hfraction : ∀ c ∈ fraction, Whole.isDigit c = true) (hne : whole ≠ [] ∨ fraction ≠ []) :
    ∃ x, readUnsigned false (whole ++ '.' :: fraction) = some x := by
  have hpoint : ¬ Whole.isDigit '.' = true := by decide
  have htake : fraction.takeWhile Whole.isDigit = fraction :=
    List.takeWhile_eq_self_iff.2 hfraction
  have hdrop : fraction.dropWhile Whole.isDigit = [] := List.dropWhile_eq_nil_iff.2 hfraction
  rw [readUnsigned, List.takeWhile_append_of_pos hwhole, List.dropWhile_append_of_pos hwhole,
    List.takeWhile_cons_of_neg hpoint, List.dropWhile_cons_of_neg hpoint, List.append_nil]
  simp only [htake, hdrop]
  rw [if_neg (not_and_or.2 hne)]
  exact ⟨_, rfl⟩

/-- What looks like a number is one. -/
theorem exists_read_of_isNumberLike (h : Family.isNumberLike text = true) :
    ∃ x, read text = .ok x := by
  obtain ⟨whole, fraction, hwhole, hfraction, hne, htext⟩ := exists_of_isNumberLike h
  have hsign := splitSign_of_isNumberLike h
  rcases htext with ⟨rfl, rfl⟩ | rfl
  · have hne : text ≠ [] := hne.resolve_right fun hnil => hnil rfl
    exact exists_read_of_readUnsigned hne hsign
      (readUnsigned_of_isNumeral ⟨hne, hwhole, rfl⟩)
  · obtain ⟨x, hx⟩ := readUnsigned_point hwhole hfraction hne
    exact exists_read_of_readUnsigned (by simp) hsign hx

/-- A number with a Kelvin sign behind it is none. -/
theorem read_kelvin (hne : text ≠ []) (h : ∀ c ∈ text, Whole.isDigit c = true) :
    read (text ++ ['\u212A']) = .error .invalid := by
  have hkelvin : ¬ Whole.isDigit '\u212A' = true := by decide
  have hsign : splitSign (text ++ ['\u212A']) = (false, text ++ ['\u212A']) := by
    have hnumeral : Whole.IsNumeral _ text := ⟨hne, h, rfl⟩
    have hhead : (text ++ ['\u212A']).head? = text.head? := List.head?_append_of_ne_nil _ hne
    apply splitSign_unsigned
    · rw [hhead]
      exact hnumeral.head?_ne (by decide)
    · rw [hhead]
      exact hnumeral.head?_ne (by decide)
  have hname {name : String} (hmem : '\u212A' ∉ name.toList) :
      ¬ (text ++ ['\u212A']).map Char.toLower = name.toList := by
    intro heq
    apply hmem
    rw [← heq]
    simp
  have hexponent : readUnsigned false (text ++ ['\u212A']) = none := by
    rw [readUnsigned, List.takeWhile_append_of_pos h, List.dropWhile_append_of_pos h,
      List.takeWhile_cons_of_neg hkelvin, List.dropWhile_cons_of_neg hkelvin, List.append_nil]
    simp [hne, readExponent]
  rw [read, if_neg (by simp), hsign]
  dsimp only
  rw [if_neg (not_or.2 ⟨hname (by decide), hname (by decide)⟩), if_neg (hname (by decide)),
    hexponent]

end Decimal

namespace Family

/-- What decides the family is the literal behind its sign, in lower case. -/
theorem plainLiteral_eq (literal : String) :
    plainLiteral literal = Text.lowerChars (Comparison.splitSign literal.toList).2 := by
  have hlower (text : List Char) : plainLiteral (String.ofList text) =
      Text.lowerChars (Comparison.splitSign text).2 := by
    unfold Comparison.splitSign
    split
    · exact plainLiteral_sign (.inl rfl) _
    · exact plainLiteral_sign (.inr rfl) _
    · next hplus hminus =>
      have hhead {sign : Char} (hsign : Text.IsMark sign) (hne : ∀ rest, text ≠ sign :: rest)
          (rest : List Char) : Text.lowerChars text ≠ sign :: rest := by
        intro heq
        have hfirst := Text.head?_of_lowerFrom hsign (congrArg List.head? heq)
        obtain ⟨rest, htext⟩ := List.head?_eq_some_iff.1 hfirst
        exact hne rest htext
      rw [plainLiteral, String.toList_ofList]
      split
      · next heq => exact absurd heq (hhead (by decide) (fun rest h => hplus rest h) _)
      · next heq => exact absurd heq (hhead (by decide) (fun rest h => hminus rest h) _)
      · rfl
  have htext := hlower literal.toList
  rwa [String.ofList_toList] at htext

/-- What a literal looks like if its family is told by more than a pattern. -/
theorem looks_of_ofLiteral (literal : String) :
    (ofLiteral literal = .float → isNumberLike (plainLiteral literal) = true) ∧
      (ofLiteral literal = .bool → literal ∈ Truth.trueWords ++ Truth.falseWords) ∧
        (ofLiteral literal = .byteSize → isSizeLike (plainLiteral literal) = true) := by
  simp only [ofLiteral]
  split_ifs <;> simp_all

theorem exists_of_isSizeLike {text : List Char} (h : isSizeLike text = true) :
    ∃ digits unit power, text = digits ++ [unit] ∧ digits ≠ [] ∧
      (∀ c ∈ digits, Whole.isDigit c = true) ∧ (unit, power) ∈ byteUnits := by
  rw [isSizeLike] at h
  split at h
  · next unit hunit =>
    simp only [Bool.and_eq_true, decide_eq_true_eq, List.any_eq_true, beq_iff_eq,
      List.all_eq_true] at h
    obtain ⟨⟨hlength, ⟨u, power⟩, hmem, rfl⟩, hdigits⟩ := h
    obtain ⟨digits, rfl⟩ := List.getLast?_eq_some_iff.1 hunit
    rw [List.dropLast_concat] at hdigits
    refine ⟨digits, u, power, rfl, ?_, hdigits, hmem⟩
    rintro rfl
    exact absurd hlength (by simp)
  · cases h

end Family

namespace Test

theorem isMark_digit {c : Char} (h : Whole.isDigit c = true) : Text.IsMark c := by
  obtain ⟨hlow, hhigh⟩ := Whole.isDigit_iff.1 h
  have hascii : c.toNat < 0x80 := Nat.lt_of_le_of_lt hhigh (by decide)
  exact Text.forall_ascii (p := fun c => Whole.isDigit c = true → Text.IsMark c) (by decide)
    hascii h

/-- A text that looks like a number in lower case is a number. -/
theorem exists_readNumber {rest : List Char}
    (h : Family.isNumberLike (Text.lowerChars rest) = true) : ∃ x, readNumber rest = .ok x := by
  have hsame : Text.lowerChars rest = rest := by
    apply Text.eq_of_lowerFrom
    intro c hc
    rcases Decimal.digit_or_point h c hc with hdigit | rfl
    · exact isMark_digit hdigit
    · decide
  rw [hsame] at h
  obtain ⟨x, hx⟩ := Decimal.exists_read_of_isNumberLike h
  exact ⟨x, by rw [readNumber, hx]⟩

theorem isNumberLike_digits {digits : List Char} (hne : digits ≠ [])
    (h : ∀ c ∈ digits, Whole.isDigit c = true) : Family.isNumberLike digits = true := by
  obtain ⟨c, rest, rfl⟩ := List.exists_cons_of_ne_nil hne
  have hany : (c :: rest).any Whole.isDigit = true :=
    List.any_eq_true.2 ⟨c, List.mem_cons_self, h c List.mem_cons_self⟩
  have hall : (c :: rest).all (fun d => Whole.isDigit d || d == '.') = true :=
    List.all_eq_true.2 fun d hd => by rw [h d hd, Bool.true_or]
  have hcount : (c :: rest).count '.' = 0 :=
    List.count_eq_zero.2 fun hpoint => absurd (h _ hpoint) (by decide)
  rw [Family.isNumberLike, hany, hall, hcount]
  rfl

/-- A text that looks like a size in lower case is a size, unless it ends in a Kelvin sign. -/
theorem exists_readSize {rest : List Char} (h : Family.isSizeLike (Text.lowerChars rest) = true) :
    (rest.getLast? ≠ some '\u212A' → ∃ x, readSize rest = .ok x) ∧
      (rest.getLast? = some '\u212A' →
        readSize rest = .error (.noNumber (String.ofList rest) .invalid)) := by
  obtain ⟨digits, unit, power, hlower, hne, hdigits, hunit⟩ := Family.exists_of_isSizeLike h
  have hascii : 0 < unit.toNat ∧ unit.toNat < 0x80 := by
    have hunits : ∀ entry ∈ Family.byteUnits, 0 < entry.1.toNat ∧ entry.1.toNat < 0x80 := by decide
    exact hunits _ hunit
  obtain ⟨c, rfl, hc⟩ := Text.exists_of_lowerFrom (fun d hd => isMark_digit (hdigits d hd))
    hascii.1 hascii.2 hlower
  rw [List.getLast?_concat]
  constructor
  · intro hplain
    have hlower : c.toLower = unit := hc.resolve_right fun heq => hplain (congrArg some heq)
    have hscale : unitScale? (digits ++ [c]) = some (Nat.pow 1024 power) := by
      have hunits : ∀ entry ∈ Family.byteUnits,
          Family.byteUnits.lookup entry.1 = some entry.2 := by decide
      rw [unitScale?, List.getLast?_concat, Option.bind_some, hlower, hunits _ hunit]
      rfl
    obtain ⟨x, hx⟩ := Decimal.exists_read_of_isNumberLike (isNumberLike_digits hne hdigits)
    have hnumber : readNumber digits = .ok x := by rw [readNumber, hx]
    refine ⟨x * .ofInt (Nat.pow 1024 power), ?_⟩
    rw [readSize, hscale]
    dsimp only
    rw [List.dropLast_concat, hnumber]
    rfl
  · rintro ⟨⟩
    have hscale : unitScale? (digits ++ ['\u212A']) = none := by
      have hnone : Family.byteUnits.lookup '\u212A'.toLower = none := by decide
      rw [unitScale?, List.getLast?_concat, Option.bind_some, hnone]
      rfl
    rw [readSize, hscale]
    dsimp only
    rw [readNumber, Decimal.read_kelvin hne hdigits]

end Test

/-- A sign in front of a text does not change where the text ends. -/
theorem Comparison.getLast?_splitSign {text : List Char} (h : (splitSign text).2 ≠ []) :
    (splitSign text).2.getLast? = text.getLast? := by
  have hcons (sign : Char) {rest : List Char} (hne : rest ≠ []) :
      rest.getLast? = (sign :: rest).getLast? := by
    rw [List.getLast?_eq_some_getLast hne, List.getLast?_eq_some_getLast (List.cons_ne_nil _ _),
      List.getLast_cons hne]
  revert h
  unfold splitSign
  split <;> intro h
  · exact hcons _ h
  · exact hcons _ h
  · rfl

namespace Leaf

/-- A literal that suggests a number, a truth value or a size is accepted as that, except for a size
that ends in a Kelvin sign, which is always refused. -/
theorem read_detected (clock : Clock) (field : Field) (literal : String) :
    (Family.ofLiteral literal = .float →
      ∃ c x, read clock .magic field literal = .ok ⟨field, literal, .number c x, true⟩) ∧
    (Family.ofLiteral literal = .bool →
      ∃ b, read clock .magic field literal = .ok ⟨field, literal, .truth b, true⟩) ∧
    (Family.ofLiteral literal = .byteSize → literal.toList.getLast? ≠ some '\u212A' →
      ∃ c x, read clock .magic field literal = .ok ⟨field, literal, .byteSize c x, true⟩) ∧
    (Family.ofLiteral literal = .byteSize → literal.toList.getLast? = some '\u212A' →
      ∃ text, read clock .magic field literal =
        .error (.badValue field.name literal (.noNumber text .invalid))) := by
  obtain ⟨hfloat, hbool, hsize⟩ := Family.looks_of_ofLiteral literal
  rw [Family.plainLiteral_eq] at hfloat hsize
  rcases hsplit : Comparison.splitSign literal.toList with ⟨c, rest⟩
  rw [hsplit] at hfloat hsize
  have hread {test : Test}
      (h : Test.ofLiteral clock (Family.ofLiteral literal) literal = .ok test) :
      read clock .magic field literal = .ok ⟨field, literal, test, true⟩ := by
    rw [read]
    simp [h]
  refine ⟨fun h => ?_, fun h => ?_, fun h hlast => ?_, fun h hlast => ?_⟩
  · obtain ⟨x, hx⟩ := Test.exists_readNumber (hfloat h)
    refine ⟨c, x, hread ?_⟩
    rw [h, Test.ofLiteral, hsplit]
    simp [hx, Except.map]
  · obtain ⟨b, hb⟩ := Truth.exists_ofWord? (hbool h)
    refine ⟨b, hread ?_⟩
    rw [h, Test.ofLiteral]
    simp [hb]
  all_goals
    have hne : rest ≠ [] := by
      rintro rfl
      cases hsize h
    have hend : (Comparison.splitSign literal.toList).2.getLast? = literal.toList.getLast? :=
      Comparison.getLast?_splitSign (by rwa [hsplit])
    rw [hsplit] at hend
    rw [← hend] at hlast
  · obtain ⟨x, hx⟩ := (Test.exists_readSize (hsize h)).1 hlast
    refine ⟨c, x, hread ?_⟩
    rw [h, Test.ofLiteral, hsplit]
    simp [hx, Except.map]
  · have herror := (Test.exists_readSize (hsize h)).2 hlast
    refine ⟨String.ofList rest, ?_⟩
    simp [read, h, Test.ofLiteral, hsplit, herror, Except.map]

/-- A word for truth, a number behind a sign and a size in capitals are accepted as what they
are. -/
theorem read_detected_literals :
    let field : Field := ⟨"f", "", .untyped, .dynamic, .stored, some .magic, none⟩
    Family.ofLiteral "+1.5" = .float ∧ Family.ofLiteral "yes" = .bool ∧
      Family.ofLiteral "4K" = .byteSize ∧
      (∃ c x, read ⟨.utc, 0⟩ .magic field "+1.5" = .ok ⟨field, "+1.5", .number c x, true⟩) ∧
      (∃ b, read ⟨.utc, 0⟩ .magic field "yes" = .ok ⟨field, "yes", .truth b, true⟩) ∧
      ∃ c x, read ⟨.utc, 0⟩ .magic field "4K" = .ok ⟨field, "4K", .byteSize c x, true⟩ := by
  intro field
  have hfloat : Family.ofLiteral "+1.5" = .float := by decide
  have hbool : Family.ofLiteral "yes" = .bool := by decide
  have hsize : Family.ofLiteral "4K" = .byteSize := by decide
  exact ⟨hfloat, hbool, hsize, (read_detected _ field _).1 hfloat,
    (read_detected _ field _).2.1 hbool, (read_detected _ field _).2.2.1 hsize (by decide)⟩

/-- Four Kelvin looks like four kibibytes, and is refused. -/
theorem read_detected_kelvin :
    let field : Field := ⟨"f", "", .untyped, .dynamic, .stored, some .magic, none⟩
    Family.ofLiteral "4\u212A" = .byteSize ∧
      read ⟨.utc, 0⟩ .magic field "4\u212A" =
        .error (.badValue "f" "4\u212A" (.noNumber "4\u212A" .invalid)) := by
  decide

end Leaf

end DownloadQuery

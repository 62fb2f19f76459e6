import DownloadQuery.Proofs.Condition.InlineOperators
import DownloadQuery.Proofs.Filter.TagConditions
import DownloadQuery.Proofs.Number.Digits
import DownloadQuery.Proofs.Pattern.PlainWords
import Mathlib

/-!
# What operators mean for each family

An operator is written into the literal before the family of the field is known. The families of
numbers and times read its sign as an order, patterns and tags take it for a part of the text. What a
literal behind an operator asks for is told by one case for each meaning (`Operator.Asks`), of a
literal (`Operator.ofLiteral_iff`) and of a whole condition (`Condition.readTokens_inline`).
-/

namespace DownloadQuery

open DownloadQuery.Values (slashed)

namespace Family

/-- Whether a family compares by order. -/
def IsOrdered : Family → Prop
  | .float | .byteSize | .time | .timeNotNull | .duration => True
  | _ => False

/-- The family by which a literal is read: its own one, unless the literal decides. -/
def decided (family : Family) (literal : String) : Family :=
  if family == .magic then ofLiteral literal else family

theorem ofLiteral_ne_magic (literal : String) : ofLiteral literal ≠ .magic := by
  simp only [ofLiteral]
  split_ifs <;> exact Family.noConfusion

theorem decided_ne_magic (family : Family) (literal : String) :
    family.decided literal ≠ .magic := by
  rw [decided]
  split_ifs with h
  · exact ofLiteral_ne_magic literal
  · simpa using h

end Family

/-- Whether a test for some text compares by an order. More of a span before now is an earlier time,
so a time is compared the other way round if the text is a span. -/
def Test.Orders (c : Comparison) (text : List Char) : Test → Prop
  | .number d _ => d = c
  | .byteSize d _ => d = c
  | .duration d _ => d = c
  | .time d _ _ => d = if (Delta.read? text).isSome then c.inverted else c
  | _ => False

namespace Operator

variable {clock : Clock} {op : Operator} {values : List Char} {family : Family}
  {test : TextPattern → Test} {t : Test}

/-- The literal of a leaf behind an operator. -/
def literal (op : Operator) (values : List Char) : List Char :=
  if op = .regex then slashed values else op.sign ++ values

theorem splitNegation_apply (op : Operator) (values : List Char) (h : op ≠ .different) :
    Values.splitNegation (op.apply values) = (op.negates, op.literal values) := by
  cases op with
  | different => exact absurd rfl h
  | _ => rfl

theorem isSingle_apply (op : Operator) {values : List Char} (h : ',' ∉ values) :
    Values.IsSingle (op.apply values) := by
  by_cases hregex : op = .regex
  · subst hregex
    exact Values.isSingle_slashed_iff.2 (.inl h)
  · rw [apply_eq hregex]
    exact isSingle_mark hregex h

/-- What a literal behind an operator asks of the values of a family. -/
inductive Asks (clock : Clock) (op : Operator) (values : List Char) : Family → Test → Prop
  /-- Numbers and times are compared by the order of the operator. -/
  | order {family : Family} {t : Test} (hop : op.IsOrdering) (hfamily : family.IsOrdered)
      (hread : Test.ofLiteral clock family (String.ofList (op.literal values)) = .ok t)
      (horder : t.Orders op.comparison values) : Asks clock op values family t
  /-- A pattern has the sign as its first character, if it is one at all. -/
  | glob {family : Family} {test : TextPattern → Test} {g : Glob} (hop : op.IsOrdering)
      (hfamily : family.patternTest? = some test)
      (hread : Glob.read (Glob.escape (Text.lowerChars (op.literal values))) = .ok g) :
      Asks clock op values family (test (.glob g))
  | regex {family : Family} {test : TextPattern → Test} {r : Regex} (hop : op = .regex)
      (hfamily : family.patternTest? = some test) (hread : Regex.read? values = some r) :
      Asks clock op values family (test (.regex r))
  /-- A tag has the sign as its first character, or the slashes around it. -/
  | tag : Asks clock op values .tagged
      (.tags (.member (Text.lower (String.ofList (op.literal values)))))
  /-- A sign alone is a word for truth. -/
  | truth (hop : op.IsOrdering) (hvalues : values = []) :
      Asks clock op values .bool (.truth (op.comparison == .greater))

theorem exists_sign (h : op.IsOrdering) :
    ∃ sign, (sign = '+' ∨ sign = '-') ∧ ∀ values, op.literal values = sign :: values := by
  obtain ⟨hdifferent, hregex⟩ := h
  cases op with
  | different => exact absurd rfl hdifferent
  | regex => exact absurd rfl hregex
  | less => exact ⟨'-', .inr rfl, fun _ => rfl⟩
  | lessOrEqual => exact ⟨'+', .inl rfl, fun _ => rfl⟩
  | greater => exact ⟨'+', .inl rfl, fun _ => rfl⟩
  | greaterOrEqual => exact ⟨'-', .inr rfl, fun _ => rfl⟩

theorem isOrdering_or_regex (h : op ≠ .different) : op.IsOrdering ∨ op = .regex := by
  by_cases hregex : op = .regex
  · exact .inr hregex
  · exact .inl ⟨h, hregex⟩

/-! ## Patterns and tags -/

theorem readPattern_ordering (h : op.IsOrdering) {p : TextPattern} :
    Test.readPattern (String.ofList (op.literal values)) = .ok p ↔
      ∃ g, Glob.read (Glob.escape (Text.lowerChars (op.literal values))) = .ok g ∧
        p = .glob g := by
  obtain ⟨sign, hsign, hliteral⟩ := exists_sign h
  have hbody : TextPattern.regexBody? (sign :: values) = none := by
    rcases hsign with rfl | rfl <;> rfl
  rw [hliteral, Test.readPattern, TextPattern.read_plain (List.cons_ne_nil sign values) hbody]
  cases Glob.read (Glob.escape (Text.lowerChars (sign :: values))) <;> simp [eq_comm]

theorem readPattern_slashed {p : TextPattern} :
    Test.readPattern (String.ofList (slashed values)) = .ok p ↔
      ∃ r, Regex.read? values = some r ∧ p = .regex r := by
  rw [Test.readPattern, TextPattern.read, String.toList_ofList, TextPattern.regexBody?_slashed]
  cases hread : Regex.read? values <;> simp [hread, eq_comm]

theorem tagTest_literal (h : op ≠ .different) :
    TagTest.ofLiteral (String.ofList (op.literal values)) =
      .member (Text.lower (String.ofList (op.literal values))) := by
  have hhead : ∃ c, c ≠ '=' ∧ ∃ rest, op.literal values = c :: rest := by
    cases op with
    | different => exact absurd rfl h
    | less | greaterOrEqual => exact ⟨'-', by decide, values, rfl⟩
    | lessOrEqual | greater => exact ⟨'+', by decide, values, rfl⟩
    | regex => exact ⟨'/', by decide, values ++ ['/'], rfl⟩
  obtain ⟨c, hc, rest, hliteral⟩ := hhead
  apply TagTest.ofLiteral_member <;> rw [hliteral, String.toList_ofList]
  · exact List.cons_ne_nil c rest
  · simpa using hc

/-! ## Numbers and times -/

/-- Digits alone are no span. -/
theorem delta_digits (hne : values ≠ []) (hall : values.all Whole.isDigit = true) :
    Delta.read? values = none := by
  have hdigits : ∀ c ∈ values, Text.isDecimalDigit c = true := fun c hc =>
    Whole.isDecimalDigit_of_isDigit (List.all_eq_true.1 hall c hc)
  have hunit (unit : Char) : Delta.readUnit unit values = (none, values) := by
    rw [Delta.readUnit, List.dropWhile_eq_nil_iff.2 hdigits]
  simp [Delta.read?, hunit, hne]

theorem orders_timeOf {point : Test.Point} (h : Test.readPoint clock values = .ok point)
    (c : Comparison) (skipsUnset : Bool) : (Test.timeOf c skipsUnset point).Orders c values := by
  rw [Test.readPoint] at h
  split at h
  · next hdigits =>
    obtain ⟨hne, hall⟩ := Bool.and_eq_true_iff.1 hdigits
    obtain ⟨x, -, rfl⟩ := exists_of_map_ok h
    rw [Test.timeOf, Test.Orders, delta_digits (bne_iff_ne.1 hne) hall]
    rfl
  · cases hspan : Delta.read? values with
    | some delta =>
      simp only [hspan] at h
      split at h
      · cases h
        rw [Test.timeOf, Test.Orders, hspan]
        rfl
      · cases h
    | none =>
      simp only [hspan] at h
      split at h
      · cases h
        rw [Test.timeOf, Test.Orders, hspan]
        rfl
      · cases h

theorem orders_durationOf (clock : Clock) (c : Comparison) (point : Test.Point) :
    (Test.durationOf clock c point).Orders c values := by
  cases point <;> rfl

/-- An ordered family takes the sign of an operator for an order. -/
theorem orders_of_ofLiteral (hop : op.IsOrdering) (hfamily : family.IsOrdered)
    (h : Test.ofLiteral clock family (String.ofList (op.literal values)) = .ok t) :
    t.Orders op.comparison values := by
  have hsign : Comparison.splitSign (op.literal values) = (op.comparison, values) := by
    rw [literal, if_neg hop.2]
    exact splitSign_sign hop values
  rw [Test.ofLiteral, String.toList_ofList, hsign] at h
  cases family with
  | pattern | files | tagged | bool | magic => exact hfamily.elim
  | float | byteSize =>
    obtain ⟨bound, -, rfl⟩ := exists_of_map_ok h
    rfl
  | time | timeNotNull =>
    obtain ⟨point, hpoint, rfl⟩ := exists_of_map_ok h
    exact orders_timeOf hpoint _ _
  | duration =>
    obtain ⟨point, -, rfl⟩ := exists_of_map_ok h
    exact orders_durationOf _ _ point

/-! ## Slashes around what is no pattern -/

section
variable {rest : List Char}

theorem decimal_slash : Decimal.read ('/' :: rest) = .error .invalid := by
  have hname : ∀ name ∈ ["inf".toList, "infinity".toList, "nan".toList],
      ('/' :: rest).map Char.toLower ≠ name := by
    intro name hname heq
    have hhead : ∀ name ∈ ["inf".toList, "infinity".toList, "nan".toList],
        name.head? ≠ some '/' := by decide
    refine hhead name hname ?_
    rw [← heq]
    rfl
  have hunsigned : Decimal.readUnsigned false ('/' :: rest) = none := by
    simp [Decimal.readUnsigned, show Whole.isDigit '/' = false by decide]
  have hsplit : Decimal.splitSign ('/' :: rest) = (false, '/' :: rest) := rfl
  rw [Decimal.read, if_neg (List.cons_ne_nil _ _), hsplit]
  simp only [hname _ List.mem_cons_self, hname _ (List.mem_cons_of_mem _ List.mem_cons_self),
    hname _ (List.mem_cons_of_mem _ (List.mem_cons_of_mem _ List.mem_cons_self)), or_self,
    if_false, hunsigned]

theorem delta_slash : Delta.read? ('/' :: rest) = none := by
  have hunit (unit : Char) : Delta.readUnit unit ('/' :: rest) = (none, '/' :: rest) := by
    simp [Delta.readUnit, show Text.isDecimalDigit '/' = false by decide +kernel]
  simp [Delta.read?, hunit]

/-- A date that is written with slashes starts with the month. -/
theorem date_slash : DateLiteral.readDate ('/' :: rest) = .error .invalid := by
  have hspelling : DateLiteral.spellingOf ('/' :: rest) = ⟨'/', [.month, .day, .year]⟩ := by
    simp [DateLiteral.spellingOf]
  have hnumber : DateLiteral.readNumber 2 ('/' :: rest) = .error .invalid := by
    simp [DateLiteral.readNumber, show Whole.isDigit '/' = false by decide]
  have hblank : ('/' :: rest).dropWhile Text.isBlank = '/' :: rest := by
    simp [show Text.isBlank '/' = false by decide]
  have hpart (date : Date) :
      DateLiteral.readPart .month date ('/' :: rest) = .error .invalid := by
    rw [DateLiteral.readPart, hblank]
    simp only [DateLiteral.readBounded, hnumber]
    rfl
  rw [DateLiteral.readDate, hspelling]
  simp only [DateLiteral.readParts, hpart]
  rfl

theorem split_slash :
    ∃ date time, DateLiteral.split (String.ofList ('/' :: rest)) = ('/' :: date, time) := by
  have htext : (String.ofList ('/' :: rest)).toList.flatMap DateLiteral.capital =
      '/' :: rest.flatMap DateLiteral.capital := by
    rw [String.toList_ofList]
    rfl
  have htake (text : List Char) :
      ('/' :: text).takeWhile (· != 'T') = '/' :: text.takeWhile (· != 'T') := by
    simp
  rw [DateLiteral.split, htext]
  split
  · exact ⟨_, _, rfl⟩
  · exact ⟨_, _, by rw [htake]⟩

theorem readPoint_slash (clock : Clock) :
    ∃ fault, Test.readPoint clock ('/' :: rest) = .error fault := by
  obtain ⟨date, time, hsplit⟩ := @split_slash rest
  have hlocal : DateLiteral.readLocal (String.ofList ('/' :: rest)) = .error (.date .invalid) := by
    rw [DateLiteral.readLocal, hsplit]
    simp only [date_slash]
    rfl
  have hread : DateLiteral.read clock.zone (String.ofList ('/' :: rest)) =
      .error (.date .invalid) := by
    rw [DateLiteral.read, DateLiteral.readInstant, hlocal]
    rfl
  have hdigits : ('/' :: rest).all Whole.isDigit = false := by
    simp [show Whole.isDigit '/' = false by decide]
  rw [Test.readPoint, hdigits, Bool.and_false, if_neg Bool.false_ne_true, delta_slash, hread]
  exact ⟨_, rfl⟩

theorem readNumber_slash : ∃ fault, Test.readNumber ('/' :: rest) = .error fault := by
  rw [Test.readNumber, decimal_slash]
  exact ⟨_, rfl⟩

/-- A slash at the end is no unit. -/
theorem readSize_slashed (values : List Char) :
    ∃ fault, Test.readSize (slashed values) = .error fault := by
  have hunit : Test.unitScale? (slashed values) = none := by
    rw [Test.unitScale?, slashed, List.getLast?_concat]
    decide
  rw [Test.readSize, hunit]
  exact readNumber_slash

theorem ofWord?_slash : Truth.ofWord? (String.ofList ('/' :: rest)) = none := by
  have hlower : Text.lower (String.ofList ('/' :: rest)) =
      String.ofList ('/' :: Text.lowerChars rest) := by
    rw [Text.lower, String.toList_ofList, Text.lowerChars_mark (by decide)]
  have hwords : ∀ w ∈ Truth.trueWords ++ Truth.falseWords, w.toList.head? ≠ some '/' := by decide
  have hnot : String.ofList ('/' :: Text.lowerChars rest) ∉ Truth.trueWords ++ Truth.falseWords :=
    fun hmem => hwords _ hmem (by rw [String.toList_ofList]; rfl)
  rw [List.mem_append, not_or] at hnot
  simp only [Truth.ofWord?, hlower, hnot.1, hnot.2, if_false]

end

/-- Between slashes there is no number and no time. -/
theorem ofLiteral_slashed_ordered (hfamily : family.IsOrdered) :
    Test.ofLiteral clock family (String.ofList (slashed values)) ≠ .ok t := by
  have hsign : Comparison.splitSign (slashed values) = (.equal, slashed values) := rfl
  obtain ⟨number, hnumber⟩ : ∃ fault, Test.readNumber (slashed values) = .error fault :=
    readNumber_slash
  obtain ⟨size, hsize⟩ := readSize_slashed values
  obtain ⟨point, hpoint⟩ : ∃ fault, Test.readPoint clock (slashed values) = .error fault :=
    readPoint_slash clock
  rw [Test.ofLiteral, String.toList_ofList, hsign]
  intro h
  cases family with
  | pattern | files | tagged | bool | magic => exact hfamily.elim
  | float => simp only [hnumber] at h; cases h
  | byteSize => simp only [hsize] at h; cases h
  | time | timeNotNull | duration => simp only [hpoint] at h; cases h

/-! ## All families -/

theorem ofLiteral_pattern (hfamily : family.patternTest? = some test) (literal : String) :
    Test.ofLiteral clock family literal = (Test.readPattern literal).map test := by
  cases family <;> cases hfamily <;> rfl

theorem ofLiteral_pattern_ok (hfamily : family.patternTest? = some test) {literal : String} :
    Test.ofLiteral clock family literal = .ok t ↔
      ∃ p, Test.readPattern literal = .ok p ∧ t = test p := by
  rw [ofLiteral_pattern hfamily]
  cases Test.readPattern literal <;> simp [Except.map, eq_comm]

/-- Of signs with a value only the signs alone are words for truth. -/
theorem ofLiteral_bool_ordering (hop : op.IsOrdering) :
    Test.ofLiteral clock .bool (String.ofList (op.literal values)) = .ok t ↔
      values = [] ∧ t = .truth (op.comparison == .greater) := by
  rw [Test.ofLiteral]
  by_cases hvalues : values = []
  · subst hvalues
    have hword : Truth.ofWord? (String.ofList (op.literal [])) =
        some (op.comparison == .greater) := by
      revert hop
      cases op <;> decide
    simp [hword, eq_comm]
  · obtain ⟨sign, hsign, hliteral⟩ := exists_sign hop
    rw [hliteral, Truth.ofWord?_signed hsign hvalues]
    simp [hvalues]

theorem ofLiteral_bool_slashed :
    Test.ofLiteral clock .bool (String.ofList (slashed values)) ≠ .ok t := by
  rw [Test.ofLiteral, slashed, List.cons_append, ofWord?_slash]
  intro h
  cases h

/-- What is asked for behind an operator, for any family that the literal does not decide. -/
theorem asks_of_ofLiteral (hop : op ≠ .different) (hfamily : family ≠ .magic)
    (h : Test.ofLiteral clock family (String.ofList (op.literal values)) = .ok t) :
    Asks clock op values family t := by
  have hpattern {test : TextPattern → Test} (htest : family.patternTest? = some test) :
      Asks clock op values family t := by
    obtain ⟨p, hp, rfl⟩ := (ofLiteral_pattern_ok htest).1 h
    rcases isOrdering_or_regex hop with hordering | rfl
    · obtain ⟨g, hg, rfl⟩ := (readPattern_ordering hordering).1 hp
      exact .glob hordering htest hg
    · obtain ⟨r, hr, rfl⟩ := readPattern_slashed.1 hp
      exact .regex rfl htest hr
  have hordered (hfamily : family.IsOrdered) : Asks clock op values family t := by
    rcases isOrdering_or_regex hop with hordering | rfl
    · exact .order hordering hfamily h (orders_of_ofLiteral hordering hfamily h)
    · exact absurd h (ofLiteral_slashed_ordered hfamily)
  cases family with
  | magic => exact absurd rfl hfamily
  | pattern => exact hpattern rfl
  | files => exact hpattern rfl
  | tagged =>
    cases h
    rw [tagTest_literal hop]
    exact .tag
  | bool =>
    rcases isOrdering_or_regex hop with hordering | rfl
    · obtain ⟨hvalues, rfl⟩ := (ofLiteral_bool_ordering hordering).1 h
      exact .truth hordering hvalues
    · exact absurd h ofLiteral_bool_slashed
  | float | byteSize | time | timeNotNull | duration => exact hordered trivial

theorem ofLiteral_of_asks (hop : op ≠ .different) (h : Asks clock op values family t) :
    Test.ofLiteral clock family (String.ofList (op.literal values)) = .ok t := by
  cases h with
  | order _ _ hread _ => exact hread
  | glob hordering htest hg =>
    exact (ofLiteral_pattern_ok htest).2 ⟨_, (readPattern_ordering hordering).2 ⟨_, hg, rfl⟩, rfl⟩
  | regex hregex htest hr =>
    subst hregex
    exact (ofLiteral_pattern_ok htest).2 ⟨_, readPattern_slashed.2 ⟨_, hr, rfl⟩, rfl⟩
  | tag => rw [← tagTest_literal hop]; rfl
  | truth hordering hvalues => exact (ofLiteral_bool_ordering hordering).2 ⟨hvalues, rfl⟩

theorem ofLiteral_iff (hop : op ≠ .different) (hfamily : family ≠ .magic) :
    Test.ofLiteral clock family (String.ofList (op.literal values)) = .ok t ↔
      Asks clock op values family t :=
  ⟨asks_of_ofLiteral hop hfamily, ofLiteral_of_asks hop⟩

end Operator

/-- What it takes for a leaf to be made, and what it holds. -/
theorem Leaf.read_ok_iff {clock : Clock} {family : Family} {field : Field} {literal : String}
    {l : Leaf} :
    Leaf.read clock family field literal = .ok l ↔
      ∃ t, Test.ofLiteral clock (family.decided literal) literal = .ok t ∧
        l = ⟨field, literal, t, family == .magic⟩ := by
  rw [Leaf.read, Family.decided]
  cases Test.ofLiteral clock (if family == .magic then Family.ofLiteral literal else family)
    literal <;> simp [eq_comm]

namespace Condition

variable {σ : Type} {settings : Settings} {name : String} {op : Operator}
  {symbol values : List Char} {field : Field} {family : Family}

/-- A condition with one value behind an operator is accepted just if the literal asks for something
of the family, which has a meaning of its own for each. Where it is a pattern without wildcards, it
asks for texts with the sign in them. -/
theorem readTokens_inline (lookup : Lookup σ) {s : σ} (hname : IsIdentifier name)
    (hop : op ≠ .different) (hsymbol : Operator.read? (symbol ++ values) = some (op, values))
    (hcomma : ',' ∉ values) (hline : '\n' ∉ values)
    (hsign : values.head? ≠ some '+' ∧ values.head? ≠ some '-')
    (hfound : (lookup name s).1 = .ok (some field)) (hfamily : field.family? = some family) :
    (∀ f s', (readTokens lookup.find settings [comparison name symbol values]).run s =
        (.ok f, s') ↔
      ∃ t, op.Asks settings.clock values
          (family.decided (String.ofList (op.literal values))) t ∧
        f = .all [if op.negates then
            .not (.leaf ⟨field, String.ofList (op.literal values), t, family == .magic⟩)
          else .leaf ⟨field, String.ofList (op.literal values), t, family == .magic⟩] ∧
        s' = (lookup name s).2) ∧
    ∀ test, (family.decided (String.ofList (op.literal values))).patternTest? = some test →
      op.IsOrdering → Glob.IsWord (op.literal values) →
      ∃ p, op.Asks settings.clock values
          (family.decided (String.ofList (op.literal values))) (test p) ∧
        ∀ value, p.isMatch value = true ↔
          Text.lower value = Text.lower (String.ofList (op.literal values)) := by
  have hmagic := family.decided_ne_magic (String.ofList (op.literal values))
  refine ⟨fun f s' => ?accepted, fun test htest hordering hword => ?word⟩
  case accepted =>
    obtain ⟨hkeyword, hsplit⟩ := split_comparison hname hsymbol hline hsign
    rw [readTokens_value_ok lookup hkeyword hsplit (op.isSingle_apply hcomma)
      (op.splitNegation_apply values hop)]
    constructor
    · rintro ⟨_, _, l, ha, hfamily', hl, rfl, rfl⟩
      cases hfound.symm.trans ha
      cases hfamily.symm.trans hfamily'
      obtain ⟨t, ht, rfl⟩ := Leaf.read_ok_iff.1 hl
      exact ⟨t, (Operator.ofLiteral_iff hop hmagic).1 ht, rfl, rfl⟩
    · rintro ⟨t, ht, rfl, rfl⟩
      have hl : Leaf.read settings.clock family field (String.ofList (op.literal values)) =
          .ok ⟨field, String.ofList (op.literal values), t, family == .magic⟩ :=
        Leaf.read_ok_iff.2 ⟨t, (Operator.ofLiteral_iff hop hmagic).2 ht, rfl⟩
      exact ⟨field, family, _, hfound, hfamily, hl, rfl, rfl⟩
  case word =>
    obtain ⟨sign, hsigned, hliteral⟩ := Operator.exists_sign hordering
    have hslashed (body : List Char) :
        (String.ofList (op.literal values)).toList ≠ Values.slashed body := by
      rw [String.toList_ofList, hliteral]
      rintro heq
      rcases hsigned with rfl | rfl <;> cases heq
    obtain ⟨p, hp, hmatch⟩ := TextPattern.exists_read_word hslashed
      (by rwa [String.toList_ofList])
    have hread : Test.readPattern (String.ofList (op.literal values)) = .ok p := by
      rw [Test.readPattern, hp]
    exact ⟨p, (Operator.ofLiteral_iff hop hmagic).1
      ((Operator.ofLiteral_pattern_ok htest).2 ⟨p, hread, rfl⟩), hmatch⟩

/-- A name that is less than five is a name with a minus and a five. -/
theorem readTokens_inline_less :
    let field := Field.textual .constant "name" "name" .stored
    let lookup : Lookup Unit := fun _ => pure (.ok (some field))
    Operator.read? ("<".toList ++ ['5']) = some (.less, ['5']) ∧
      ∃ p : TextPattern,
        (readTokens lookup.find ⟨⟨.fixed 0, 0⟩, none⟩ ["name<5"]).run () =
          (.ok (.all [.leaf ⟨field, "-5", .text p, false⟩]), ()) ∧
        ∀ value, p.isMatch value = true ↔ Text.lower value = "-5" := by
  intro field lookup
  obtain ⟨haccepted, hword⟩ := @readTokens_inline Unit ⟨⟨.fixed 0, 0⟩, none⟩ "name" .less
    "<".toList ['5'] field .pattern lookup () (by decide) (by decide) (by decide) (by decide)
    (by decide) (by decide) rfl rfl
  obtain ⟨p, hasks, hmatch⟩ := hword .text rfl (by decide) ⟨by decide, by decide, by decide⟩
  exact ⟨by decide, p, (haccepted _ _).2 ⟨_, hasks, rfl, rfl⟩, hmatch⟩

/-- Fields that are compared with patterns and tags take operators for a part of the text. -/
theorem inline_as_text :
    let settings : Settings := ⟨⟨.fixed 0, 0⟩, none⟩
    let scene : Scene := ⟨settings.clock, fun _ => false, fun _ => none⟩
    let name := Field.textual .constant "name" "name" .stored
    let tagged := Field.tags .dynamic "tagged" "has certain tags?" .stored
    let lookup : Lookup Unit := fun n => pure (.ok (some (if n = "name" then name else tagged)))
    let less : Leaf := ⟨name, "-5", .text (.glob [.literal '-', .literal '5']), false⟩
    (readTokens lookup.find settings ["name<5"]).run () = (.ok (.all [.leaf less]), ()) ∧
    ((Filter.all [.leaf less]).isMatch scene ⟨.ofSnapshot [("name", .string "-5")], []⟩).1 =
      .ok true ∧
    ((Filter.all [.leaf less]).isMatch scene ⟨.ofSnapshot [("name", .string "4")], []⟩).1 =
      .ok false ∧
    (readTokens lookup.find settings ["tagged~foo"]).run () =
      (.ok (.all [.leaf ⟨tagged, "/foo/", .tags (.member "/foo/"), false⟩]), ()) := by
  intro settings scene name tagged lookup less
  refine ⟨?_, ?_, ?_, ?_⟩
  · cbv
  · cbv
  · cbv
  · cbv

end Condition
end DownloadQuery

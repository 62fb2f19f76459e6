import DownloadQuery.Proofs.Condition.WrittenConditions

/-!
# Conditions with inline operators

A condition with an operator between an identifier and its values is read as this comparison, unless
the values lengthen the operator (`readInline?_symbol`). Its values are those after an equals sign,
of which the first takes the sign and the exclamation mark of the operator (`apply_eq`).
-/

namespace DownloadQuery
namespace Operator

/-- The comparison that an operator makes by its sign. -/
def comparison : Operator → Comparison
  | .less => .less
  | .lessOrEqual => .greater
  | .greater => .greater
  | .greaterOrEqual => .less
  | _ => .equal

/-- Whether an operator is one of the four that order values. -/
def IsOrdering (op : Operator) : Prop := op ≠ .different ∧ op ≠ .regex

instance (op : Operator) : Decidable op.IsOrdering := inferInstanceAs (Decidable (_ ∧ _))

/-- Whether an operator puts an exclamation mark in front of its values. -/
def negates : Operator → Bool
  | .lessOrEqual => true
  | .greaterOrEqual => true
  | .different => true
  | _ => false

/-- The sign that an operator puts in front of its values. -/
def sign : Operator → List Char
  | .less => ['-']
  | .lessOrEqual => ['+']
  | .greater => ['+']
  | .greaterOrEqual => ['-']
  | _ => []

/-- The exclamation mark and the sign of an operator. -/
def mark (op : Operator) : List Char := (if op.negates then ['!'] else []) ++ op.sign

/-- Operators but that for patterns put marks in front of their values. -/
theorem apply_eq {op : Operator} (h : op ≠ .regex) (values : List Char) :
    op.apply values = op.mark ++ values := by
  cases op with
  | regex => exact absurd rfl h
  | _ => rfl

theorem splitNegation_mark {op : Operator} (h : op ≠ .regex) (values : List Char) :
    Values.splitNegation (op.mark ++ values) = (op.negates, op.sign ++ values) := by
  cases op with
  | regex => exact absurd rfl h
  | _ => rfl

/-- The marks of an operator do not take a value apart. -/
theorem isSingle_mark {op : Operator} (h : op ≠ .regex) {values : List Char} (hv : ',' ∉ values) :
    Values.IsSingle (op.mark ++ values) := by
  have hmark : op.mark ≠ [] ∧ ',' ∉ op.mark := by
    revert h
    cases op <;> decide
  exact .inr ⟨by simp [hmark.1], by simp [hmark.2, hv]⟩

theorem splitSign_sign {op : Operator} (h : op.IsOrdering) (values : List Char) :
    Comparison.splitSign (op.sign ++ values) = (op.comparison, values) := by
  obtain ⟨hdifferent, hregex⟩ := h
  cases op with
  | different => exact absurd rfl hdifferent
  | regex => exact absurd rfl hregex
  | _ => rfl

/-- No name goes on with an operator. -/
theorem head_of_read? {text values : List Char} {op : Operator}
    (h : read? text = some (op, values)) :
    ∃ c rest, text = c :: rest ∧ continuesName c = false := by
  unfold read? at h
  split at h
  all_goals first
    | exact ⟨_, _, rfl, by decide⟩
    | cases h

/-- A comparison is read as it is written. -/
theorem readInline?_symbol {name : String} (hname : IsIdentifier name) {symbol values : List Char}
    {op : Operator} (hop : read? (symbol ++ values) = some (op, values)) (hline : '\n' ∉ values) :
    readInline? (name.toList ++ (symbol ++ values)) = some (name.toList, op, values) := by
  obtain ⟨c, rest, htext, hc⟩ := head_of_read? hop
  have htake : (name.toList ++ (symbol ++ values)).takeWhile continuesName = name.toList := by
    rw [List.takeWhile_append_of_pos (by simpa using hname.2), htext,
      List.takeWhile_cons_of_neg (by simp [hc]), List.append_nil]
  simp [readInline?, htake, hname.1, hop, hline]

/-- Values that do not lengthen an operator do not so either when more follows them. -/
theorem read?_append {symbol values : List Char} {op : Operator}
    (h : read? (symbol ++ values) = some (op, values)) (hne : values ≠ []) (more : List Char) :
    read? (symbol ++ (values ++ more)) = some (op, values ++ more) := by
  obtain ⟨c, rest, rfl⟩ := List.exists_cons_of_ne_nil hne
  have hsymbol {given : List Char} (ht : symbol ++ c :: rest = given ++ c :: rest) :
      symbol = given := List.append_cancel_right ht
  generalize ht : symbol ++ c :: rest = text at h
  unfold read? at h
  split at h
  case h_1 => cases h; rw [@hsymbol ['<', '>'] ht]; rfl
  case h_2 => cases h; rw [@hsymbol ['<', '='] ht]; rfl
  case h_3 after hangle hequals =>
    cases h
    have hgreater : c ≠ '>' := fun hc => hangle rest (by rw [hc])
    have hequal : c ≠ '=' := fun hc => hequals rest (by rw [hc])
    rw [@hsymbol ['<'] ht]
    simp [read?, hgreater, hequal]
  case h_4 => cases h; rw [@hsymbol ['>', '='] ht]; rfl
  case h_5 after hequals =>
    cases h
    have hequal : c ≠ '=' := fun hc => hequals rest (by rw [hc])
    rw [@hsymbol ['>'] ht]
    simp [read?, hequal]
  case h_6 => cases h; rw [@hsymbol ['!', '='] ht]; rfl
  case h_7 => cases h; rw [@hsymbol ['~'] ht]; rfl
  case h_8 => cases h

/-- Keywords are no comparisons. -/
theorem ne_keyword {condition : String} {parts : List Char × Operator × List Char}
    (h : readInline? condition.toList = some parts) :
    ∀ keyword ∈ ["NOT", "OR", "[", "]"], condition ≠ keyword := by
  have hnone : ∀ keyword ∈ ["NOT", "OR", "[", "]"], readInline? keyword.toList = none := by decide
  rintro keyword hk rfl
  rw [hnone condition hk] at h
  cases h

end Operator

namespace Condition

variable {σ : Type} {settings : Settings} {condition : String} {name values : List Char}
  {op : Operator}

/-- The answers that a lookup gives in a state. -/
def Lookup.answers (lookup : Lookup σ) (s : σ) : Answers := fun name => (lookup name s).1

/-- The values of a comparison take the operator, and may not start with a sign. -/
theorem split_comparison_ok (h : Operator.readInline? condition.toList = some (name, op, values))
    {parts : String × List Char} :
    split settings condition = .ok parts ↔
      values.head? ≠ some '+' ∧ values.head? ≠ some '-' ∧
        parts = (String.ofList name, op.apply values) := by
  simp only [split, h]
  split
  · simp
  · simp
  · next hplus hminus =>
    have hhead {c : Char} (hc : ∀ rest, values = c :: rest → False) : values.head? ≠ some c := by
      intro hv
      obtain ⟨rest, hrest⟩ := List.head?_eq_some_iff.1 hv
      exact hc rest hrest
    simp [hhead hplus, hhead hminus, eq_comm]

/-- A condition that compares a field inline. -/
def comparison (name : String) (symbol values : List Char) : String :=
  name ++ String.ofList (symbol ++ values)

/-- What it takes for values to be compared inline. -/
theorem split_comparison {name : String} (hname : IsIdentifier name) {symbol : List Char}
    (hop : Operator.read? (symbol ++ values) = some (op, values)) (hline : '\n' ∉ values)
    (hsign : values.head? ≠ some '+' ∧ values.head? ≠ some '-') :
    (∀ keyword ∈ ["NOT", "OR", "[", "]"], comparison name symbol values ≠ keyword) ∧
      split settings (comparison name symbol values) = .ok (name, op.apply values) := by
  have hinline : Operator.readInline? (comparison name symbol values).toList =
      some (name.toList, op, values) := by
    have htext : (comparison name symbol values).toList = name.toList ++ (symbol ++ values) := by
      simp [comparison]
    rw [htext]
    exact Operator.readInline?_symbol hname hop hline
  refine ⟨Operator.ne_keyword hinline, ?_⟩
  rw [split_comparison_ok hinline, String.ofList_toList]
  exact ⟨hsign.1, hsign.2, rfl⟩

/-- The filter of a value is the leaf of its literal, negated if the value is. -/
theorem valueFilter_eq {value literal : List Char} {negated : Bool}
    (h : Values.splitNegation value = (negated, literal)) (clock : Clock) (field : Field)
    (family : Family) :
    valueFilter clock field family value =
      (Leaf.read clock family field (String.ofList literal)).map fun l =>
        if negated then .not (.leaf l) else .leaf l := by
  rw [valueFilter, h]
  dsimp only
  cases Leaf.read clock family field (String.ofList literal) <;> rfl

/-- Reading a condition asks the lookup for one name. -/
theorem run_readOne (lookup : Lookup σ) {values : List Char} {name : String}
    (h : split settings condition = .ok (name, values)) (s : σ) :
    (readOne lookup.find settings condition).run s =
      (readOne (lookup.answers s).find settings condition, (lookup name s).2) := by
  have hof {α : Type} (x : Except ConditionError α) (t : σ) :
      (MonadExcept.ofExcept x : Reader σ α).run t = (x, t) := by cases x <;> rfl
  have hfind : (lookup.find name).run s = (.ok (lookup name s).1, (lookup name s).2) := rfl
  rw [readOne_eq, readOne]
  simp only [h, Reader.run_bind, hof, hfind, Lookup.answers]
  rcases familyOf name condition (lookup name s).1 with e | ⟨field, family⟩ <;> rfl

/-- What it takes for a single condition to be accepted, and what is read. -/
theorem readTokens_singleton_ok (lookup : Lookup σ)
    (hc : ∀ keyword ∈ ["NOT", "OR", "[", "]"], condition ≠ keyword) {f : Filter} {s s' : σ} :
    (readTokens lookup.find settings [condition]).run s = (.ok f, s') ↔
      ∃ name values field family g, split settings condition = .ok (name, values) ∧
        (lookup name s).1 = .ok (some field) ∧ field.family? = some family ∧
        ofValues settings.clock field family values condition = .ok g ∧
        f = .all [g] ∧ s' = (lookup name s).2 := by
  rw [readTokens, readWithText_singleton _ _ hc, map_eq_pure_bind]
  constructor
  · intro hf
    obtain ⟨g, t, hg, hpure⟩ := Reader.bind_ok hf
    cases hpure
    cases hs : split settings condition with
    | error e =>
      have hfails : (readOne lookup.find settings condition).run s = (.error e, s) := by
        rw [readOne, hs]
        rfl
      rw [hfails] at hg
      cases hg
    | ok parts =>
      obtain ⟨name, values⟩ := parts
      rw [run_readOne lookup hs] at hg
      obtain ⟨hread, rfl⟩ := Prod.mk.inj hg
      obtain ⟨_, _, field, family, hs', ha, hfamily, hvalues⟩ := readOne_ok hread
      cases hs.symm.trans hs'
      exact ⟨name, values, field, family, g, rfl, ha, hfamily, hvalues, rfl, rfl⟩
  · rintro ⟨name, values, field, family, g, hs, ha, hfamily, hvalues, rfl, rfl⟩
    have hread : readOne (lookup.answers s).find settings condition = .ok g := by
      simp only [readOne_eq, hs, Lookup.answers, ha, familyOf, hfamily, hvalues]
    rw [Reader.run_bind, run_readOne lookup hs, hread]
    rfl

/-- What it takes for a single condition with one value to be accepted: a leaf for the literal. -/
theorem readTokens_value_ok (lookup : Lookup σ)
    (hc : ∀ keyword ∈ ["NOT", "OR", "[", "]"], condition ≠ keyword) {name : String}
    {value literal : List Char} {negated : Bool}
    (hsplit : split settings condition = .ok (name, value)) (hvalue : Values.IsSingle value)
    (hnegation : Values.splitNegation value = (negated, literal)) {f : Filter} {s s' : σ} :
    (readTokens lookup.find settings [condition]).run s = (.ok f, s') ↔
      ∃ field family l, (lookup name s).1 = .ok (some field) ∧ field.family? = some family ∧
        Leaf.read settings.clock family field (String.ofList literal) = .ok l ∧
        f = .all [if negated then .not (.leaf l) else .leaf l] ∧ s' = (lookup name s).2 := by
  rw [readTokens_singleton_ok lookup hc]
  constructor
  · rintro ⟨_, _, field, family, g, hs, ha, hfamily, hg, rfl, rfl⟩
    cases hsplit.symm.trans hs
    rw [ofValues_single (.inr hvalue), valueFilter_eq hnegation] at hg
    cases hl : Leaf.read settings.clock family field (String.ofList literal) with
    | error e =>
      rw [hl] at hg
      cases hg
    | ok l =>
      rw [hl] at hg
      cases hg
      exact ⟨field, family, l, ha, hfamily, hl, rfl, rfl⟩
  · rintro ⟨field, family, l, ha, hfamily, hl, rfl, rfl⟩
    refine ⟨name, value, field, family, _, hsplit, ha, hfamily, ?_, rfl, rfl⟩
    rw [ofValues_single (.inr hvalue), valueFilter_eq hnegation, hl]
    rfl

end Condition
end DownloadQuery

import DownloadQuery.Filter.Leaf
import DownloadQuery.Proofs.Condition.InlineOperators
import DownloadQuery.Proofs.Number.Digits
import DownloadQuery.Proofs.Number.WholeNumbers
import Mathlib

/-!
# Bare values

A bare value can stand after each sign and operator without becoming a part of it, and is no list.
So a condition on it is read as one leaf, which is negated for some of the operators
(`Condition.reads_symbol`).
-/

namespace DownloadQuery

/-- Whether a value may stand after each sign and operator without becoming a part of it. -/
structure Values.IsBare (value : List Char) : Prop where
  ne_nil : value ≠ []
  unmarked : ∀ mark ∈ ['+', '-', '!', '=', '>'], value.head? ≠ some mark
  commaFree : ',' ∉ value
  lineFree : '\n' ∉ value

/-- A value that starts with a digit has no sign. -/
theorem Values.isBare_cons {c : Char} (hc : Whole.isDigit c = true) {rest : List Char}
    (hcomma : ',' ∉ c :: rest) (hline : '\n' ∉ c :: rest) : IsBare (c :: rest) where
  ne_nil := List.cons_ne_nil c rest
  unmarked mark hmark hhead := by
    cases hhead
    revert hc
    fin_cases hmark <;> decide
  commaFree := hcomma
  lineFree := hline

/-- The sign of a literal that asks for a comparison. -/
def Comparison.sign : Comparison → List Char
  | .equal => []
  | .less => ['-']
  | .greater => ['+']

/-- What is not more is less or equal, and the other way around. -/
theorem Comparison.not_holds {c : Comparison} (hc : c ≠ .equal) {x y : Binary64} (hx : x ≠ .nan)
    (hy : y ≠ .nan) : (!c.holds x y) = (c.inverted.holds x y || x.eq y) := by
  cases c with
  | equal => exact absurd rfl hc
  | less =>
    rw [holds, Binary64.not_lt hx hy, Binary64.le, Binary64.eq_symm]
    rfl
  | greater =>
    rw [holds, Binary64.not_lt hy hx]
    rfl

namespace Operator

/-- The sign of an operator is that of its comparison. -/
theorem sign_eq {op : Operator} (hop : op ≠ .regex) : op.sign = op.comparison.sign := by
  cases op with
  | regex => exact absurd rfl hop
  | _ => rfl

/-- A bare value lengthens none of the operators of one mark. -/
theorem read?_mark {value : List Char} (h : Values.IsBare value) :
    read? ('>' :: value) = some (.greater, value) ∧ read? ('<' :: value) = some (.less, value) := by
  obtain ⟨c, rest, rfl⟩ := List.exists_cons_of_ne_nil h.ne_nil
  have hequals : c ≠ '=' := by
    have hmark := h.unmarked '=' (by decide)
    simpa using hmark
  have hgreater : c ≠ '>' := by
    have hmark := h.unmarked '>' (by decide)
    simpa using hmark
  simp [read?, hequals, hgreater]

end Operator

namespace Values.IsBare

variable {value : List Char}

theorem splitSign_sign (h : IsBare value) (c : Comparison) :
    Comparison.splitSign (c.sign ++ value) = (c, value) := by
  cases c with
  | less => rfl
  | greater => rfl
  | equal =>
    have hplus := h.unmarked '+' (by decide)
    have hminus := h.unmarked '-' (by decide)
    rw [Comparison.sign, List.nil_append]
    unfold Comparison.splitSign
    split <;> simp_all

theorem splitNegation_sign (h : IsBare value) (c : Comparison) :
    Values.splitNegation (c.sign ++ value) = (false, c.sign ++ value) := by
  cases c with
  | less => rfl
  | greater => rfl
  | equal =>
    have hmark := h.unmarked '!' (by decide)
    rw [Comparison.sign, List.nil_append]
    unfold Values.splitNegation
    split <;> simp_all

theorem isSingle_sign (h : IsBare value) (c : Comparison) : IsSingle (c.sign ++ value) := by
  have hcomma : ',' ∉ c.sign := by cases c <;> decide
  exact .inr ⟨by simp [h.ne_nil], by simp [hcomma, h.commaFree]⟩

end Values.IsBare

namespace Condition

variable {σ : Type} {lookup : Lookup σ} {settings : Settings} {s : σ} {name : String}
  {field : Field} {family : Family} {l : Leaf}

/-- Whether a condition is accepted as a filter. -/
def Reads (lookup : Lookup σ) (settings : Settings) (s : σ) (condition : String) (f : Filter) :
    Prop :=
  ∃ s', (readTokens lookup.find settings [condition]).run s = (.ok f, s')

/-- The symbols that may stand between the name of a field and a value. Each asks for a comparison,
or for its negation. -/
def symbols : List (String × Bool × Comparison) :=
  [("=", false, .equal), ("=+", false, .greater), ("=-", false, .less), (">", false, .greater),
    ("<", false, .less), (">=", true, .less), ("<=", true, .greater), ("!=", true, .equal),
    ("<>", true, .equal)]

theorem reads_sign (hname : IsIdentifier name) (hfield : (lookup name s).1 = .ok (some field))
    (hfamily : field.family? = some family) {value : List Char} (hvalue : Values.IsBare value)
    (c : Comparison)
    (hl : Leaf.read settings.clock family field (String.ofList (c.sign ++ value)) = .ok l) :
    Reads lookup settings s (name ++ "=" ++ String.ofList (c.sign ++ value)) (.all [.leaf l]) := by
  have hsplit := split_named hname settings (String.ofList (c.sign ++ value))
  rw [String.toList_ofList] at hsplit
  exact ⟨_, (readTokens_value_ok lookup (ne_keyword_of_equals (by simp)) hsplit
    (hvalue.isSingle_sign c) (hvalue.splitNegation_sign c)).2
      ⟨field, family, l, hfield, hfamily, hl, rfl, rfl⟩⟩

theorem reads_operator (hname : IsIdentifier name)
    (hfield : (lookup name s).1 = .ok (some field)) (hfamily : field.family? = some family)
    {value : List Char} (hvalue : Values.IsBare value) {op : Operator} (hop : op ≠ .regex)
    {symbol : List Char} (hsymbol : Operator.read? (symbol ++ value) = some (op, value))
    (hl : Leaf.read settings.clock family field (String.ofList (op.comparison.sign ++ value)) =
      .ok l) :
    Reads lookup settings s (comparison name symbol value)
      (.all [if op.negates then .not (.leaf l) else .leaf l]) := by
  obtain ⟨hkeyword, hsplit⟩ := split_comparison hname hsymbol hvalue.lineFree
    ⟨hvalue.unmarked '+' (by decide), hvalue.unmarked '-' (by decide)⟩
  rw [Operator.apply_eq hop] at hsplit
  rw [← Operator.sign_eq hop] at hl
  exact ⟨_, (readTokens_value_ok lookup hkeyword hsplit
    (Operator.isSingle_mark hop hvalue.commaFree) (Operator.splitNegation_mark hop value)).2
      ⟨field, family, l, hfield, hfamily, hl, rfl, rfl⟩⟩

/-- A condition on a bare value is read as the leaf of the comparison that its symbol asks for. -/
theorem reads_symbol (hname : IsIdentifier name) (hfield : (lookup name s).1 = .ok (some field))
    (hfamily : field.family? = some family) {value : String} (hvalue : Values.IsBare value.toList)
    {symbol : String} {negated : Bool} {c : Comparison} (hsymbol : (symbol, negated, c) ∈ symbols)
    (hl : Leaf.read settings.clock family field (String.ofList (c.sign ++ value.toList)) = .ok l) :
    Reads lookup settings s (name ++ symbol ++ value)
      (.all [if negated then .not (.leaf l) else .leaf l]) := by
  -- a symbol is an equals sign and the sign of a comparison, or an operator
  have hsign (c : Comparison) (hl : Leaf.read settings.clock family field
      (String.ofList (c.sign ++ value.toList)) = .ok l) :
      Reads lookup settings s (name ++ ("=" ++ String.ofList c.sign) ++ value)
        (.all [.leaf l]) := by
    have hread := reads_sign hname hfield hfamily hvalue c hl
    have htext : name ++ "=" ++ String.ofList (c.sign ++ value.toList) =
        name ++ ("=" ++ String.ofList c.sign) ++ value := by
      apply String.toList_injective
      simp
    rwa [htext] at hread
  have hoperator (op : Operator) (hop : op ≠ .regex) (symbol : List Char)
      (hread : Operator.read? (symbol ++ value.toList) = some (op, value.toList))
      (hl : Leaf.read settings.clock family field
        (String.ofList (op.comparison.sign ++ value.toList)) = .ok l) :
      Reads lookup settings s (name ++ String.ofList symbol ++ value)
        (.all [if op.negates then .not (.leaf l) else .leaf l]) := by
    have hread := reads_operator hname hfield hfamily hvalue hop hread hl
    have htext : comparison name symbol value.toList = name ++ String.ofList symbol ++ value := by
      apply String.toList_injective
      simp [comparison]
    rwa [htext] at hread
  have hmarks := Operator.read?_mark hvalue
  simp only [symbols, List.mem_cons, Prod.mk.injEq, List.not_mem_nil, or_false] at hsymbol
  rcases hsymbol with ⟨rfl, rfl, rfl⟩ | ⟨rfl, rfl, rfl⟩ | ⟨rfl, rfl, rfl⟩ | ⟨rfl, rfl, rfl⟩ |
    ⟨rfl, rfl, rfl⟩ | ⟨rfl, rfl, rfl⟩ | ⟨rfl, rfl, rfl⟩ | ⟨rfl, rfl, rfl⟩ | ⟨rfl, rfl, rfl⟩
  · exact hsign .equal hl
  · exact hsign .greater hl
  · exact hsign .less hl
  · exact hoperator .greater (by decide) ['>'] hmarks.1 hl
  · exact hoperator .less (by decide) ['<'] hmarks.2 hl
  · exact hoperator .greaterOrEqual (by decide) ['>', '='] rfl hl
  · exact hoperator .lessOrEqual (by decide) ['<', '='] rfl hl
  · exact hoperator .different (by decide) ['!', '='] rfl hl
  · exact hoperator .different (by decide) ['<', '>'] rfl hl

end Condition
end DownloadQuery

import DownloadQuery.Proofs.Condition.InlineOperators
import DownloadQuery.Proofs.Condition.PatternLiterals
import Mathlib

/-!
# The operator for regular expressions

An expression after the operator `~` is put between slashes and then taken for a list of values. It
stays one value unless it has both a comma and a slash; then each part between commas is read by
itself, most often as a glob (`readTokens_regexOperator`).
-/

namespace DownloadQuery
namespace Condition

open DownloadQuery.Values (slashed)

variable {σ : Type} {settings : Settings} {name : String} {field : Field} {family : Family}
  {body : List Char}

/-- A regular expression after the operator is read as one if it has no comma or no slash. With both
it is taken apart into several values, of which any may match. -/
theorem readTokens_regexOperator (lookup : Lookup σ) {s : σ} (hname : IsIdentifier name)
    (hfound : (lookup name s).1 = .ok (some field)) (hfamily : field.family? = some family)
    {test : TextPattern → Test} (htest : family.patternTest? = some test) (hline : '\n' ∉ body)
    (hsign : body.head? ≠ some '+' ∧ body.head? ≠ some '-') {r : Regex}
    (hregex : Regex.read? body = some r) :
    ((readTokens lookup.find settings [comparison name ['~'] body]).run s =
        (.ok (.all [.leaf ⟨field, String.ofList (slashed body), test (.regex r), false⟩]),
          (lookup name s).2) ↔
      ',' ∉ body ∨ '/' ∉ body) ∧
    (',' ∈ body → '/' ∈ body →
      2 ≤ (Values.split (slashed body)).length ∧
      ∀ f s', (readTokens lookup.find settings [comparison name ['~'] body]).run s = (.ok f, s') ↔
        ∃ members, valueFilters settings.clock field family (Values.split (slashed body)) =
            .ok members ∧
          f = .all [.any members] ∧ s' = (lookup name s).2) := by
  obtain ⟨hkeyword, hsplit⟩ :
      (∀ keyword ∈ ["NOT", "OR", "[", "]"], comparison name ['~'] body ≠ keyword) ∧
        split settings (comparison name ['~'] body) = .ok (name, slashed body) :=
    split_comparison hname (show Operator.read? (['~'] ++ body) = some (.regex, body) from rfl)
      hline hsign
  have hleaf := Leaf.read_slashed htest hregex settings.clock field
  -- With a comma and a slash, whatever is read is one of several.
  have hseveral (hcomma : ',' ∈ body) (hslash : '/' ∈ body) (f : Filter) (s' : σ) :
      (readTokens lookup.find settings [comparison name ['~'] body]).run s = (.ok f, s') ↔
        ∃ members, valueFilters settings.clock field family (Values.split (slashed body)) =
            .ok members ∧
          f = .all [.any members] ∧ s' = (lookup name s).2 := by
    have hlength := Values.two_le_length_split_slashed hcomma hslash
    rw [readTokens_singleton_ok lookup hkeyword]
    constructor
    · rintro ⟨_, _, field', family', g, hs, ha, hfamily', hg, rfl, rfl⟩
      cases hsplit.symm.trans hs
      cases hfound.symm.trans ha
      cases hfamily.symm.trans hfamily'
      obtain ⟨members, hmembers, rfl⟩ := (ofValues_several hlength _).1 hg
      exact ⟨members, hmembers, rfl, rfl⟩
    · rintro ⟨members, hmembers, rfl, rfl⟩
      exact ⟨name, slashed body, field, family, .any members, hsplit, hfound, hfamily,
        (ofValues_several hlength _).2 ⟨members, hmembers, rfl⟩, rfl, rfl⟩
  refine ⟨⟨?apart, ?whole⟩, fun hcomma hslash =>
    ⟨Values.two_le_length_split_slashed hcomma hslash, hseveral hcomma hslash⟩⟩
  case apart =>
    intro hread
    by_contra hboth
    rw [not_or, not_not, not_not] at hboth
    obtain ⟨members, -, heq, -⟩ := (hseveral hboth.1 hboth.2 _ _).1 hread
    cases heq
  case whole =>
    intro hfree
    exact (readTokens_value_ok lookup hkeyword hsplit (Values.isSingle_slashed_iff.2 hfree)
      (Values.splitNegation_slashed body)).2 ⟨field, family, _, hfound, hfamily, hleaf, rfl, rfl⟩

/-- An expression with a comma, but no slash. -/
theorem readTokens_regexOperator_comma :
    let field := Field.textual .constant "name" "name" .stored
    let lookup : Lookup Unit := fun _ => pure (.ok (some field))
    let r : Regex := .seq (.set (.codes [97, 65])) (.seq (.set (.codes [44]))
      (.set (.codes [98, 66])))
    Regex.read? ['a', ',', 'b'] = some r ∧
      (readTokens lookup.find ⟨⟨.fixed 0, 0⟩, none⟩ ["name~a,b"]).run () =
        (.ok (.all [.leaf ⟨field, "/a,b/", .text (.regex r), false⟩]), ()) := by
  intro field lookup r
  have hregex : Regex.read? ['a', ',', 'b'] = some r :=
    @Regex.read?_of_readGroup _ ⟨_, 1⟩ _ _ (by cbv) (by decide)
      (by simp [Regex.weight, CodeSet.weight_codes, Regex.weightLimit])
  have key := @readTokens_regexOperator Unit ⟨⟨.fixed 0, 0⟩, none⟩ "name" field .pattern _ lookup ()
    (by decide) rfl rfl _ rfl (by decide) (by decide) r hregex
  exact ⟨hregex, key.1.2 (.inr (by decide))⟩

/-- An expression with a slash and a comma is asked for as two globs, which a text that it matches
does not fit. -/
theorem regexOperator_apart :
    let field := Field.textual .constant "name" "name" .stored
    let lookup : Lookup Unit := fun _ => pure (.ok (some field))
    let first : Leaf :=
      ⟨field, "/a/b", .text (.glob [.literal '/', .literal 'a', .literal '/', .literal 'b']), false⟩
    let second : Leaf := ⟨field, "c/", .text (.glob [.literal 'c', .literal '/']), false⟩
    let r : Regex := .seq (.set (.codes [97, 65])) (.seq (.set (.codes [47]))
      (.seq (.set (.codes [98, 66])) (.seq (.set (.codes [44])) (.set (.codes [99, 67])))))
    Regex.read? ['a', '/', 'b', ',', 'c'] = some r ∧
      (readTokens lookup.find ⟨⟨.fixed 0, 0⟩, none⟩ ["name~a/b,c"]).run () =
        (.ok (.all [.any [.leaf first, .leaf second]]), ()) ∧
      TextPattern.isMatch (.regex r) "a/b,c" = true ∧
      ((Filter.all [.any [.leaf first, .leaf second]]).isMatch
        ⟨⟨.fixed 0, 0⟩, fun _ => false, fun _ => none⟩
        ⟨.ofSnapshot [("name", .string "a/b,c")], []⟩).1 = .ok false := by
  intro field lookup first second r
  refine ⟨@Regex.read?_of_readGroup _ ⟨_, 1⟩ _ _ (by cbv) (by decide)
      (by simp [Regex.weight, CodeSet.weight_codes, Regex.weightLimit]), ?_, ?_, ?_⟩
  · cbv
  · cbv
  · cbv

end Condition
end DownloadQuery

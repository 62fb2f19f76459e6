import DownloadQuery.Proofs.Condition.InlineOperators
import DownloadQuery.Proofs.Condition.SignedLiterals
import DownloadQuery.Proofs.Filter.SingleField
import Mathlib

/-!
# Comparisons with a list of values

An operator between a field and a list of values compares with the first value only, and the others
are plain values: `size>1g,2g` is `size>1g` or `size=2g` (`readTokens_comparisonList`).
-/

namespace DownloadQuery

/-! ## Values of a list -/

namespace Values

theorem IsPlain.isSingle {value : List Char} (h : IsPlain value) : IsSingle value :=
  .inr ⟨h.ne_nil, h.commaFree⟩

theorem IsPlain.splitNegation {value : List Char} (h : IsPlain value) :
    splitNegation value = (false, value) := by
  rcases Condition.splitNegation_cases value with ⟨literal, -, rfl⟩ | hs
  · exact absurd rfl (h.unmarked '!' (by decide))
  · exact hs

theorem mem_of_mem_join {c : Char} {values : List (List Char)} (h : c ∈ join values) :
    c = ',' ∨ ∃ v ∈ values, c ∈ v := by
  induction values with
  | nil => simp at h
  | cons v rest ih =>
    by_cases hr : rest = []
    · subst hr
      rw [join_singleton] at h
      exact .inr ⟨v, List.mem_cons_self, h⟩
    · rw [join_cons hr, List.mem_append, List.mem_cons] at h
      rcases h with h | h | h
      · exact .inr ⟨v, List.mem_cons_self, h⟩
      · exact .inl h
      · rcases ih h with hc | ⟨w, hw, hc⟩
        · exact .inl hc
        · exact .inr ⟨w, List.mem_cons_of_mem v hw, hc⟩

end Values

namespace Condition

open DownloadQuery.Values (IsPlain join)

variable {σ : Type} {settings : Settings} {name : String} {op : Operator} {symbol : List Char}

/-- A comparison with one value is accepted just if there is a leaf for the value with the sign. -/
theorem readTokens_comparison (lookup : Lookup σ) (hname : IsIdentifier name) (hregex : op ≠ .regex)
    {value : List Char} (hvalue : IsPlain value)
    (hop : Operator.read? (symbol ++ value) = some (op, value)) {f : Filter} {s s' : σ} :
    (readTokens lookup.find settings [comparison name symbol value]).run s = (.ok f, s') ↔
      ∃ field family l, (lookup name s).1 = .ok (some field) ∧ field.family? = some family ∧
        Leaf.read settings.clock family field (String.ofList (op.sign ++ value)) = .ok l ∧
        f = .all [if op.negates then .not (.leaf l) else .leaf l] ∧ s' = (lookup name s).2 := by
  have hsign : value.head? ≠ some '+' ∧ value.head? ≠ some '-' :=
    ⟨hvalue.unmarked '+' (by decide), hvalue.unmarked '-' (by decide)⟩
  obtain ⟨hkeyword, hsplit⟩ := split_comparison hname hop hvalue.lineFree hsign
  rw [Operator.apply_eq hregex] at hsplit
  exact readTokens_value_ok lookup hkeyword hsplit
    (Operator.isSingle_mark hregex hvalue.commaFree) (Operator.splitNegation_mark hregex value)

/-- A plain value is accepted just if there is a leaf for it. -/
theorem readTokens_plain (lookup : Lookup σ) (hname : IsIdentifier name) {value : List Char}
    (hvalue : IsPlain value) {f : Filter} {s s' : σ} :
    (readTokens lookup.find settings [name ++ "=" ++ String.ofList value]).run s = (.ok f, s') ↔
      ∃ field family l, (lookup name s).1 = .ok (some field) ∧ field.family? = some family ∧
        Leaf.read settings.clock family field (String.ofList value) = .ok l ∧
        f = .all [.leaf l] ∧ s' = (lookup name s).2 := by
  have hkeyword : ∀ keyword ∈ ["NOT", "OR", "[", "]"],
      name ++ "=" ++ String.ofList value ≠ keyword := ne_keyword_of_equals (by simp)
  have hsplit : split settings (name ++ "=" ++ String.ofList value) = .ok (name, value) := by
    rw [split_named hname, String.toList_ofList]
  simpa using readTokens_value_ok lookup hkeyword hsplit hvalue.isSingle hvalue.splitNegation

/-- The values of a comparison with a list, with the marks of the operator. -/
theorem split_marked (hregex : op ≠ .regex) {first : List Char} {others : List (List Char)}
    (hothers : others ≠ []) (hplain : ∀ v ∈ first :: others, IsPlain v) :
    op.apply (join (first :: others)) = join ((op.mark ++ first) :: others) ∧
      Values.split (join ((op.mark ++ first) :: others)) = (op.mark ++ first) :: others := by
  obtain ⟨hfirst, hrest⟩ := List.forall_mem_cons.1 hplain
  have hmark : '/' ∉ op.mark := by cases op <;> decide
  constructor
  · rw [Operator.apply_eq hregex, Values.join_cons hothers, Values.join_cons hothers,
      List.append_assoc]
  · refine (Values.splits_join ?_ (Values.separate_of_not_isOpen ?_ ?_)).split_eq
    · refine List.forall_mem_cons.2 ⟨.inr (Operator.isSingle_mark hregex hfirst.commaFree), ?_⟩
      exact fun v hv => .inr (hrest v hv).isSingle
    · refine List.forall_mem_cons.2 ⟨by simp [hfirst.ne_nil], fun v hv => (hrest v hv).ne_nil⟩
    · refine List.forall_mem_cons.2
        ⟨Values.not_isOpen ?_, fun v hv => Values.not_isOpen (hrest v hv).slashFree⟩
      rw [List.mem_append, not_or]
      exact ⟨hmark, hfirst.slashFree⟩

/-- A value that is accepted after an operator is accepted by itself. -/
theorem exists_leaf_plain {clock : Clock} {field : Field} {family : Family} {value : List Char}
    (hvalue : IsPlain value)
    (h : ∃ l, Leaf.read clock family field (String.ofList (op.sign ++ value)) = .ok l) :
    ∃ l, Leaf.read clock family field (String.ofList value) = .ok l := by
  have hsign : op.sign = [] ∨ ∃ sign, op.sign = [sign] ∧ (sign = '+' ∨ sign = '-') := by
    cases op <;> simp [Operator.sign]
  rcases hsign with hnone | ⟨sign, hone, hsign⟩
  · rwa [hnone] at h
  · rw [hone] at h
    exact Leaf.read_of_signed hsign hvalue h

/-- Values that are accepted one by one have leaves of the field. -/
theorem exists_leaves {clock : Clock} {field : Field} {family : Family} {values : List (List Char)}
    (hplain : ∀ v ∈ values, IsPlain v)
    (h : ∀ v ∈ values, ∃ l, Leaf.read clock family field (String.ofList v) = .ok l) :
    ∃ leaves : List Leaf, (∀ l ∈ leaves, l.field = field) ∧ List.Forall₂
      (fun v l => IsPlain v ∧ Leaf.read clock family field (String.ofList v) = .ok l)
      values leaves := by
  obtain ⟨leaves, hleaves⟩ := exists_related fun v hv =>
    (h v hv).imp fun l hl => (⟨hplain v hv, hl⟩ : IsPlain v ∧ _)
  refine ⟨leaves, ?_, hleaves⟩
  intro l hl
  obtain ⟨v, -, -, hread⟩ := exists_of_mem_related hleaves l hl
  exact (leaf_read_ok hread).1

/-- The filter of a list after an operator. -/
theorem ofValues_marked (hregex : op ≠ .regex) {first : List Char} {others : List (List Char)}
    (hothers : others ≠ []) (hplain : ∀ v ∈ first :: others, IsPlain v) {clock : Clock}
    {field : Field} {family : Family} {l : Leaf} {leaves : List Leaf}
    (hfirst : Leaf.read clock family field (String.ofList (op.sign ++ first)) = .ok l)
    (hleaves : List.Forall₂
      (fun v k => IsPlain v ∧ Leaf.read clock family field (String.ofList v) = .ok k)
      others leaves) (condition : String) :
    ofValues clock field family (op.apply (join (first :: others))) condition =
      .ok (.any ((if op.negates then .not (.leaf l) else .leaf l) :: leaves.map .leaf)) := by
  obtain ⟨happly, hsplit⟩ := split_marked hregex hothers hplain
  have hlength : 2 ≤ ((op.mark ++ first) :: others).length := by
    have hpos := List.length_pos_of_ne_nil hothers
    rw [List.length_cons]
    omega
  rw [happly]
  refine ofValues_join hlength hsplit (valueFilters_ok.2 (.cons ?_ ?_)) condition
  · rw [valueFilter_eq (Operator.splitNegation_mark hregex first), hfirst]
    rfl
  · rw [List.forall₂_map_right_iff]
    refine hleaves.imp ?_
    rintro v k ⟨hv, hk⟩
    rw [valueFilter_eq hv.splitNegation, hk]
    rfl

/-- A list of plain values may be compared inline if its first value may. -/
theorem split_comparisonList (hname : IsIdentifier name) {first : List Char}
    {others : List (List Char)} (hothers : others ≠ [])
    (hplain : ∀ v ∈ first :: others, IsPlain v)
    (hop : Operator.read? (symbol ++ first) = some (op, first)) :
    (∀ keyword ∈ ["NOT", "OR", "[", "]"],
      comparison name symbol (join (first :: others)) ≠ keyword) ∧
    split settings (comparison name symbol (join (first :: others))) =
      .ok (name, op.apply (join (first :: others))) := by
  have hfirst : IsPlain first := hplain first List.mem_cons_self
  have hjoin : join (first :: others) = first ++ ',' :: join others := Values.join_cons hothers
  have hhead : (join (first :: others)).head? = first.head? := by
    rw [hjoin, List.head?_append_of_ne_nil _ hfirst.ne_nil]
  refine split_comparison hname ?_ ?_ ?_
  · rw [hjoin]
    exact Operator.read?_append hop hfirst.ne_nil _
  · intro hline
    rcases Values.mem_of_mem_join hline with hcomma | ⟨v, hv, hmem⟩
    · exact absurd hcomma (by decide)
    · exact (hplain v hv).lineFree hmem
  · rw [hhead]
    exact ⟨hfirst.unmarked '+' (by decide), hfirst.unmarked '-' (by decide)⟩

/-- Alternatives that are single conditions match as these do. -/
theorem anyMatch_all (scene : Scene) (members : List Filter) :
    Filter.anyMatch scene (members.map fun f => .all [f]) = Filter.anyMatch scene members := by
  induction members with
  | nil => rfl
  | cons f rest ih =>
    rw [List.map_cons, Filter.anyMatch_cons, Filter.anyMatch_cons, ih, Filter.isMatch_all,
      Filter.allMatch_singleton]

/-- The leaves of a list after an operator test the field, also as conditions of their own. -/
theorem tests_comparisonList {field : Field} {l : Leaf} (hl : l.field = field)
    {leaves : List Leaf} (hleaves : ∀ k ∈ leaves, k.field = field) (negated : Bool) :
    ∀ f ∈ (if negated then Filter.not (.leaf l) else .leaf l) :: leaves.map Filter.leaf,
      (Filter.all [f]).Tests field := by
  have hleaf {k : Leaf} (hk : k.field = field) : (Filter.leaf k).Tests field :=
    hk ▸ Filter.tests_leaf k
  refine List.forall_mem_cons.2 ⟨?_, ?_⟩
  · cases negated with
    | true => exact (hleaf hl).not.all
    | false => exact (hleaf hl).all
  · intro f hf
    obtain ⟨k, hk, rfl⟩ := List.mem_map.1 hf
    exact (hleaf (hleaves k hk)).all

/-- A list of plain values is accepted after an operator if each value is, and means that the
operator holds for the first value or one of the other values is met without the operator. -/
theorem readTokens_comparisonList (lookup : Lookup σ) (hname : IsIdentifier name)
    (hregex : op ≠ .regex) {first : List Char} {others : List (List Char)} (hothers : others ≠ [])
    (hplain : ∀ v ∈ first :: others, IsPlain v)
    (hop : ∀ v ∈ first :: others, Operator.read? (symbol ++ v) = some (op, v)) {s : σ}
    (haccepted : ∀ v ∈ first :: others, ∃ f s',
      (readTokens lookup.find settings [comparison name symbol v]).run s = (.ok f, s')) :
    ∃ f g members s',
      (readTokens lookup.find settings [comparison name symbol (join (first :: others))]).run s =
        (.ok f, s') ∧
      (readTokens lookup.find settings [comparison name symbol first]).run s = (.ok g, s') ∧
      List.Forall₂ (fun v h => (readTokens lookup.find settings
        [name ++ "=" ++ String.ofList v]).run s = (.ok h, s')) others members ∧
      (∀ scene r, f.isMatch scene r = Filter.anyMatch scene (g :: members) r) ∧
      ∀ field, (lookup name s).1 = .ok (some field) → field.source.Repeatable → ∀ scene r,
        (∀ h ∈ g :: members, ∃ b, (h.isMatch scene r).1 = .ok b) →
        ∃ b, (f.isMatch scene r).1 = .ok b ∧
          (b = true ↔ ∃ h ∈ g :: members, (h.isMatch scene r).1 = .ok true) := by
  obtain ⟨hfirst, hrest⟩ := List.forall_mem_cons.1 hplain
  obtain ⟨hopfirst, hoprest⟩ := List.forall_mem_cons.1 hop
  obtain ⟨⟨g, s', hg⟩, haccrest⟩ := List.forall_mem_cons.1 haccepted
  obtain ⟨field, family, l, ha, hfamily, hl, rfl, rfl⟩ :=
    (readTokens_comparison lookup hname hregex hfirst hopfirst).1 hg
  have hplainleaves : ∀ v ∈ others,
      ∃ k, Leaf.read settings.clock family field (String.ofList v) = .ok k := by
    intro v hv
    obtain ⟨f, t, hf⟩ := haccrest v hv
    obtain ⟨_, _, k, ha', hfamily', hk, -, -⟩ :=
      (readTokens_comparison lookup hname hregex (hrest v hv) (hoprest v hv)).1 hf
    cases ha.symm.trans ha'
    cases hfamily.symm.trans hfamily'
    exact exists_leaf_plain (hrest v hv) ⟨k, hk⟩
  obtain ⟨leaves, hfields, hleaves⟩ := exists_leaves hrest hplainleaves
  obtain ⟨hkeyword, hsplit⟩ := split_comparisonList hname hothers hplain hopfirst
  let inner : List Filter :=
    (if op.negates then .not (.leaf l) else .leaf l) :: leaves.map Filter.leaf
  have hmatch (scene : Scene) (r : Reading) : (Filter.all [.any inner]).isMatch scene r =
      Filter.anyMatch scene (inner.map fun f => .all [f]) r := by
    rw [anyMatch_all, Filter.isMatch_all, Filter.allMatch_singleton, Filter.isMatch_any]
  have htests : ∀ f ∈ inner.map fun f => .all [f], Filter.Tests f field := by
    refine List.forall_mem_map.2 ?_
    exact tests_comparisonList (leaf_read_ok hl).1 hfields op.negates
  refine ⟨.all [.any inner], _, (leaves.map Filter.leaf).map fun f => .all [f], _, ?_, hg, ?_,
    hmatch, ?_⟩
  · exact (readTokens_singleton_ok lookup hkeyword).2 ⟨name, _, field, family, .any inner, hsplit,
      ha, hfamily, ofValues_marked hregex hothers hplain hl hleaves _, rfl, rfl⟩
  · rw [List.map_map, List.forall₂_map_right_iff]
    refine hleaves.imp ?_
    rintro v k ⟨hv, hk⟩
    exact (readTokens_plain lookup hname hv).2 ⟨field, family, k, ha, hfamily, hk, rfl, rfl⟩
  · intro other hother hsource scene r hok
    cases ha.symm.trans hother
    rw [hmatch]
    exact Filter.anyMatch_of_tests hsource htests hok

/-- A list of two values after the operator for difference, for an item with the first of them. -/
theorem readTokens_comparisonList_different :
    let settings : Settings := ⟨⟨.fixed 0, 0⟩, none⟩
    let scene : Scene := ⟨settings.clock, fun _ => false, fun _ => none⟩
    let r : Reading := ⟨.ofSnapshot [("a", .string "u")], []⟩
    let u : Filter := .leaf ⟨Catalogue.openField "a", "u", .text (.glob [.literal 'u']), true⟩
    let v : Filter := .leaf ⟨Catalogue.openField "a", "v", .text (.glob [.literal 'v']), true⟩
    ∃ f, (readTokens openLookup.find settings ["a!=u,v"]).run () = (.ok f, ()) ∧
      (∀ scene r, f.isMatch scene r = Filter.anyMatch scene [.all [.not u], .all [v]] r) ∧
      ∃ b, (f.isMatch scene r).1 = .ok b ∧
        (b = true ↔ ∃ h ∈ [Filter.all [.not u], .all [v]], (h.isMatch scene r).1 = .ok true) := by
  intro settings scene r u v
  have hplain : ∀ v ∈ [['u'], ['v']], IsPlain v := by
    refine List.forall_mem_cons.2 ⟨?_, List.forall_mem_singleton.2 ?_⟩ <;>
      exact ⟨by decide, by simp, by decide, by decide, by decide⟩
  have hop : ∀ v ∈ [['u'], ['v']], Operator.read? ("!=".toList ++ v) = some (.different, v) := by
    decide
  have hu : (readTokens openLookup.find settings [comparison "a" "!=".toList ['u']]).run () =
      (.ok (.all [.not u]), ()) := by cbv
  have hv : (readTokens openLookup.find settings [comparison "a" "!=".toList ['v']]).run () =
      (.ok (.all [.not v]), ()) := by cbv
  have hequal : (readTokens openLookup.find settings ["a" ++ "=" ++ String.ofList ['v']]).run () =
      (.ok (.all [v]), ()) := by cbv
  obtain ⟨f, g, members, s', hf, hg, hmembers, hmatch, hiff⟩ :=
    readTokens_comparisonList openLookup (by decide) (by decide) (List.cons_ne_nil ['v'] []) hplain
      hop (List.forall_mem_cons.2 ⟨⟨_, _, hu⟩, List.forall_mem_singleton.2 ⟨_, _, hv⟩⟩)
  cases hu.symm.trans hg
  cases hmembers with
  | cons hmember hnil =>
    cases hnil
    cases hequal.symm.trans hmember
    have hrepeatable : (Catalogue.openField "a").source ≠ .counter := by decide
    refine ⟨f, hf, hmatch, hiff (Catalogue.openField "a") rfl hrepeatable scene r ?_⟩
    refine List.forall_mem_cons.2 ⟨⟨false, ?_⟩, List.forall_mem_singleton.2 ⟨false, ?_⟩⟩
    · cbv
    · cbv

/-- The operator is not that of the second value: an item that differs from it does not match. -/
theorem comparisonList_first_only :
    let settings : Settings := ⟨⟨.fixed 0, 0⟩, none⟩
    let scene : Scene := ⟨settings.clock, fun _ => false, fun _ => none⟩
    let r : Reading := ⟨.ofSnapshot [("a", .string "u")], []⟩
    let u : Filter := .leaf ⟨Catalogue.openField "a", "u", .text (.glob [.literal 'u']), true⟩
    let v : Filter := .leaf ⟨Catalogue.openField "a", "v", .text (.glob [.literal 'v']), true⟩
    (readTokens openLookup.find settings ["a!=u,v"]).run () = (.ok (.all [.any [.not u, v]]), ()) ∧
    (readTokens openLookup.find settings ["a!=u"]).run () = (.ok (.all [.not u]), ()) ∧
    (readTokens openLookup.find settings ["a!=v"]).run () = (.ok (.all [.not v]), ()) ∧
    ((Filter.all [.any [.not u, v]]).isMatch scene r).1 = .ok false ∧
    ((Filter.all [.not v]).isMatch scene r).1 = .ok true := by
  intro settings scene r u v
  refine ⟨?_, ?_, ?_, ?_, ?_⟩
  · cbv
  · cbv
  · cbv
  · cbv
  · cbv

end Condition
end DownloadQuery

import DownloadQuery.Proofs.Condition.InlineOperators
import DownloadQuery.Proofs.Condition.PatternLiterals
import DownloadQuery.Proofs.Filter.SingleField
import Mathlib

/-!
# Conditions with a list of values

A condition may list values of which none is cut by the commas around it: each stands between
slashes, or has no comma and opens no slash. It is read as one leaf for each value, negated if the
value is marked, and an item matches if one of them does. If no value is marked, the condition is
its own canonical text (`readTokens_listed`).
-/

namespace DownloadQuery

/-! ## Values that may be listed -/

namespace Values

/-- Whether a value is negated by a mark. -/
def IsMarked (value : List Char) : Prop := value.head? = some '!'

instance (value : List Char) : Decidable (IsMarked value) := inferInstanceAs (Decidable (_ = _))

/-- A value without its mark. -/
def literal (value : List Char) : List Char := if IsMarked value then value.tail else value

theorem splitNegation_eq (value : List Char) :
    splitNegation value = (decide (IsMarked value), literal value) := by
  unfold splitNegation
  split
  · simp [IsMarked, literal]
  · next hmark =>
    have hhead : ¬ IsMarked value := by
      intro h
      obtain ⟨rest, hrest⟩ := List.head?_eq_some_iff.1 h
      exact hmark rest hrest
    simp [literal, hhead]

theorem literal_of_not_isMarked {value : List Char} (h : ¬ IsMarked value) :
    literal value = value := if_neg h

/-- Whether a value may stand in a list: it is between slashes, perhaps after a mark, or it has no
comma and does not open a slash. -/
def IsListed (value : List Char) : Prop :=
  IsSlashed value ∨
    value ≠ [] ∧ ',' ∉ value ∧ ¬ ['/'] <+: value ∧ ¬ ['!', '/'] <+: value

theorem IsListed.isSingle {value : List Char} (h : IsListed value) : IsSingle value :=
  h.imp_right fun h => ⟨h.1, h.2.1⟩

theorem IsListed.not_isOpen {value : List Char} (h : IsListed value) : ¬ IsOpen value := by
  rcases h with h | ⟨-, -, hslash, hmarked⟩
  · exact h.not_isOpen
  · rintro ⟨mark, rest, rfl | rfl, rfl, -⟩
    · exact hslash ⟨rest, rfl⟩
    · exact hmarked ⟨rest, rfl⟩

theorem split_join_listed {values : List (List Char)} (h : ∀ v ∈ values, IsListed v) :
    split (join values) = values :=
  (split_join_iff fun v hv => .inr (h v hv).isSingle).2
    (separate_of_not_isOpen (fun v hv => (h v hv).isSingle.ne_nil) fun v hv => (h v hv).not_isOpen)

end Values

/-! ## Alternatives on one field -/

namespace Filter

/-- One of some filters: the only one, or any of several. -/
def oneOf : List Filter → Filter
  | [f] => f
  | members => .any members

theorem isMatch_oneOf (scene : Scene) (members : List Filter) :
    (oneOf members).isMatch scene = anyMatch scene members := by
  match members with
  | [] => exact isMatch_any scene []
  | [f] => exact (anyMatch_singleton scene f).symm
  | f :: g :: rest => exact isMatch_any scene (f :: g :: rest)

/-- The leaf of a value, negated if the value is marked. -/
def ofValue (value : List Char) (l : Leaf) : Filter :=
  if Values.IsMarked value then .not (.leaf l) else .leaf l

theorem tests_ofValue (value : List Char) (l : Leaf) : (ofValue value l).Tests l.field := by
  unfold ofValue
  split
  · exact (tests_leaf l).not
  · exact tests_leaf l

end Filter

namespace Condition

open DownloadQuery.Values (IsListed IsMarked join slashed)

variable {σ : Type} {settings : Settings} {clock : Clock} {field : Field} {family : Family}
  {values : List (List Char)} {leaves : List Leaf}

/-! ## The leaves of values -/

/-- What makes a leaf that of a value: it compares the field with the value without its mark. -/
structure IsLeafOf (clock : Clock) (field : Field) (family : Family) (value : List Char)
    (l : Leaf) : Prop where
  field_eq : l.field = field
  literal_eq : l.literal = String.ofList (Values.literal value)
  read_eq : Leaf.read clock family field (String.ofList (Values.literal value)) = .ok l

theorem isLeafOf_of_read {value : List Char} {l : Leaf}
    (h : Leaf.read clock family field (String.ofList (Values.literal value)) = .ok l) :
    IsLeafOf clock field family value l :=
  ⟨(leaf_read_ok h).1, (leaf_read_ok h).2, h⟩

theorem IsLeafOf.valueFilter_eq {value : List Char} {l : Leaf}
    (h : IsLeafOf clock field family value l) :
    valueFilter clock field family value = .ok (Filter.ofValue value l) := by
  rw [Condition.valueFilter_eq (Values.splitNegation_eq value), h.read_eq]
  simp [Except.map, Filter.ofValue]

/-- Values that are accepted one by one have a leaf each. -/
theorem exists_leavesOf (h : ∀ v ∈ values,
    ∃ l, Leaf.read clock family field (String.ofList (Values.literal v)) = .ok l) :
    ∃ leaves, List.Forall₂ (IsLeafOf clock field family) values leaves :=
  exists_related fun v hv => (h v hv).imp fun _ => isLeafOf_of_read

theorem fields_of_leavesOf (h : List.Forall₂ (IsLeafOf clock field family) values leaves) :
    ∀ l ∈ leaves, l.field = field := by
  intro l hl
  obtain ⟨v, -, hv⟩ := exists_of_mem_related h l hl
  exact hv.field_eq

/-- The leaves of values, each negated if its value is marked. -/
def membersOf (values : List (List Char)) (leaves : List Leaf) : List Filter :=
  List.zipWith Filter.ofValue values leaves

theorem valueFilters_membersOf
    (h : List.Forall₂ (IsLeafOf clock field family) values leaves) :
    valueFilters clock field family values = .ok (membersOf values leaves) := by
  rw [valueFilters_ok]
  induction h with
  | nil => exact .nil
  | cons hl _ ih => exact .cons hl.valueFilter_eq ih

theorem tests_membersOf (h : List.Forall₂ (IsLeafOf clock field family) values leaves) :
    ∀ f ∈ membersOf values leaves, f.Tests field := by
  induction h with
  | nil => simp [membersOf]
  | @cons v l _ _ hl _ ih =>
    exact List.forall_mem_cons.2 ⟨hl.field_eq ▸ Filter.tests_ofValue v l, ih⟩

/-- Without marks, the leaves stand as they are and their literals are the values. -/
theorem membersOf_unmarked (h : List.Forall₂ (IsLeafOf clock field family) values leaves)
    (hmarks : ∀ v ∈ values, ¬ IsMarked v) :
    membersOf values leaves = leaves.map .leaf ∧
      leaves.map (·.literal.toList) = values := by
  induction h with
  | nil => exact ⟨rfl, rfl⟩
  | @cons v l _ _ hl _ ih =>
    obtain ⟨hv, hrest⟩ := List.forall_mem_cons.1 hmarks
    obtain ⟨hmembers, hliterals⟩ := ih hrest
    have hliteral : l.literal.toList = v := by
      rw [hl.literal_eq, String.toList_ofList, Values.literal_of_not_isMarked hv]
    exact ⟨List.cons_eq_cons.2 ⟨if_neg hv, hmembers⟩,
      List.cons_eq_cons.2 ⟨hliteral, hliterals⟩⟩

/-! ## Conditions -/

/-- The filter of a list is that of its only value, or any of those of its values. -/
theorem ofValues_oneOf {members : List Filter} (hne : values ≠ [])
    (hsplit : Values.split (join values) = values)
    (h : valueFilters clock field family values = .ok members) (condition : String) :
    ofValues clock field family (join values) condition = .ok (Filter.oneOf members) := by
  match values, members, valueFilters_ok.1 h with
  | [value], [f], .cons hf .nil =>
    have hsingle : Values.IsSingle value := by
      refine @Values.isSingle_of_mem (join [value]) value ?_
      rw [hsplit]
      exact List.mem_singleton_self value
    rw [Values.join_singleton, ofValues_single (.inr hsingle)]
    exact hf
  | _ :: _ :: _, _ :: _ :: _, .cons _ (.cons _ _) =>
    exact ofValues_join (by simp) hsplit h condition

/-- Leaves of one field, of which one must match, are written as a list of their literals. -/
theorem text_oneOf_leaves (hne : leaves ≠ []) (hfields : ∀ l ∈ leaves, l.field = field) :
    (Filter.oneOf (leaves.map .leaf)).text =
      Token.write (field.name ++ "=" ++
        String.ofList (join (leaves.map (·.literal.toList)))) := by
  have hnames : ∀ l ∈ leaves, l.field.name = field.name := fun l hl => by rw [hfields l hl]
  rcases leaves with _ | ⟨l, _ | ⟨k, rest⟩⟩
  · exact absurd rfl hne
  · rw [List.map_singleton, List.map_singleton, Values.join_singleton, String.ofList_toList,
      ← hnames l (List.mem_singleton_self l)]
    rfl
  · exact text_any_leaves hne hnames

/-- A list without marks is written as it was read. -/
theorem text_membersOf (h : List.Forall₂ (IsLeafOf clock field family) values leaves)
    (hne : values ≠ []) (hmarks : ∀ v ∈ values, ¬ IsMarked v) :
    (Filter.oneOf (membersOf values leaves)).text =
      Token.write (field.name ++ "=" ++ String.ofList (join values)) := by
  obtain ⟨hmembers, hliterals⟩ := membersOf_unmarked h hmarks
  have hleaves : leaves ≠ [] := by
    rintro rfl
    exact hne hliterals.symm
  rw [hmembers, text_oneOf_leaves hleaves (fields_of_leavesOf h), hliterals]

/-- A list of values between slashes and values that neither have a comma nor open a slash is read
as one leaf for each value, negated where a mark says so. An item matches if one of them does in its
turn, which for a field that can be read again means by itself. Without marks, the condition is its
own canonical text. -/
theorem readTokens_listed (lookup : Lookup σ) {s : σ} (hname : IsIdentifier field.name)
    (hfound : (lookup field.name s).1 = .ok (some field)) (hfamily : field.family? = some family)
    (hne : values ≠ []) (hlisted : ∀ v ∈ values, IsListed v)
    (haccepted : ∀ v ∈ values, ∃ l,
      Leaf.read settings.clock family field (String.ofList (Values.literal v)) = .ok l) :
    ∃ leaves f, List.Forall₂ (IsLeafOf settings.clock field family) values leaves ∧
      (readTokens lookup.find settings [field.name ++ "=" ++ String.ofList (join values)]).run s =
        (.ok f, (lookup field.name s).2) ∧
      f = .all [Filter.oneOf (membersOf values leaves)] ∧
      (∀ scene r, (∀ verdict ∈ Filter.turns scene (membersOf values leaves) r,
          ∃ b, verdict = .ok b) →
        ∃ b, (f.isMatch scene r).1 = .ok b ∧
          (b = true ↔ .ok true ∈ Filter.turns scene (membersOf values leaves) r)) ∧
      (field.source.Repeatable → ∀ scene r,
        (∀ g ∈ membersOf values leaves, ∃ b, (g.isMatch scene r).1 = .ok b) →
        ∃ b, (f.isMatch scene r).1 = .ok b ∧
          (b = true ↔ ∃ g ∈ membersOf values leaves, (g.isMatch scene r).1 = .ok true)) ∧
      ((∀ v ∈ values, ¬ IsMarked v) →
        f.text = Token.write (field.name ++ "=" ++ String.ofList (join values))) := by
  obtain ⟨leaves, hleaves⟩ := exists_leavesOf haccepted
  let members := membersOf values leaves
  have hmatch (scene : Scene) (r : Reading) :
      (Filter.all [Filter.oneOf members]).isMatch scene r = Filter.anyMatch scene members r := by
    rw [Filter.isMatch_all, Filter.allMatch_singleton, Filter.isMatch_oneOf]
  refine ⟨leaves, .all [Filter.oneOf members], hleaves, ?read, rfl, ?inTurn, ?alone, ?text⟩
  case read =>
    have hsplit : split settings (field.name ++ "=" ++ String.ofList (join values)) =
        .ok (field.name, join values) := by
      rw [split_named hname, String.toList_ofList]
    have hvalues := ofValues_oneOf hne (Values.split_join_listed hlisted)
      (valueFilters_membersOf hleaves) (field.name ++ "=" ++ String.ofList (join values))
    exact (readTokens_singleton_ok lookup (ne_keyword_of_equals (by simp))).2
      ⟨_, _, field, family, _, hsplit, hfound, hfamily, hvalues, rfl, rfl⟩
  case inTurn =>
    intro scene r hok
    rw [hmatch]
    exact Filter.anyMatch_turns hok
  case alone =>
    intro hrepeatable scene r hok
    rw [hmatch]
    exact Filter.anyMatch_of_tests hrepeatable (tests_membersOf hleaves) hok
  case text =>
    intro hmarks
    rw [Filter.text_all_singleton]
    exact text_membersOf hleaves hne hmarks

/-- A list of a value between slashes, which has a comma, and a plain one. -/
theorem readTokens_listed_slashed :
    let field := Field.textual .constant "name" "name" .stored
    let lookup : Lookup Unit := fun _ => pure (.ok (some field))
    let settings : Settings := ⟨⟨.fixed 0, 0⟩, none⟩
    ∃ k l : Leaf, k.literal = "/x,y/" ∧ l.literal = "c*" ∧
      (readTokens lookup.find settings ["name=/x,y/,c*"]).run () =
        (.ok (.all [.any [.leaf k, .leaf l]]), ()) ∧
      (Filter.all [.any [.leaf k, .leaf l]]).text = "name=/x,y/,c*" := by
  intro field lookup settings
  have hlisted : ∀ v ∈ [slashed ['x', ',', 'y'], ['c', '*']], IsListed v := by
    refine List.forall_mem_cons.2 ⟨.inl ?_, List.forall_mem_singleton.2 (.inr (by decide))⟩
    exact Values.isSlashed_slashed_iff.2 (by decide)
  have hregex : Regex.read? ['x', ',', 'y'] =
      some (.seq (.set (.codes [120, 88])) (.seq (.set (.codes [44])) (.set (.codes [121, 89])))) :=
    @Regex.read?_of_readGroup _ ⟨_, 1⟩ _ _ (by cbv) (by decide)
      (by simp [Regex.weight, CodeSet.weight_codes, Regex.weightLimit])
  have hglob : Leaf.read settings.clock .pattern field "c*" =
      .ok ⟨field, "c*", .text (.glob [.literal 'c', .anyText]), false⟩ := by cbv
  have haccepted : ∀ v ∈ [slashed ['x', ',', 'y'], ['c', '*']], ∃ l,
      Leaf.read settings.clock .pattern field (String.ofList (Values.literal v)) = .ok l :=
    List.forall_mem_cons.2 ⟨⟨_, Leaf.read_slashed rfl hregex settings.clock field⟩,
      List.forall_mem_singleton.2 ⟨_, hglob⟩⟩
  obtain ⟨leaves, f, hleaves, hread, rfl, -, -, htext⟩ :=
    @readTokens_listed Unit settings field .pattern _ lookup () (by decide) rfl rfl
      (List.cons_ne_nil _ _) hlisted haccepted
  cases hleaves with
  | @cons _ k _ _ hk hrest =>
    cases hrest with
    | @cons _ l _ _ hl hnil =>
      cases hnil
      exact ⟨k, l, hk.literal_eq, hl.literal_eq, hread, (htext (by decide)).trans (by decide)⟩

end Condition
end DownloadQuery

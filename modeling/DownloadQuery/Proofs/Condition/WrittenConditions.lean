import DownloadQuery.Proofs.Condition.CanonicalText
import DownloadQuery.Proofs.Condition.ValueLists
import DownloadQuery.Proofs.Filter.Leaves
import Mathlib.Data.List.Forall2
import Mathlib.Tactic.SplitIfs

/-!
# Conditions as they are written

A condition that has been accepted is accepted again as it stands in the canonical text
(`canonical_of_readOne`), if the name of its field is an identifier: one value, with or without an
exclamation mark, or several values of one field in a list. Values of which some are negated become
alternatives between brackets.
-/

namespace DownloadQuery

namespace Text

theorem cutAt?_singleton {mark : Char} {before : List Char} (h : mark ∉ before)
    (after : List Char) : cutAt? [mark] (before ++ mark :: after) = some (before, after) := by
  induction before with
  | nil => simp [cutAt?]
  | cons c before ih =>
    rw [List.mem_cons, not_or] at h
    simp [cutAt?, h.1, ih h.2]

end Text

/-- A name that may stand in front of an operator: letters, digits and underscores, without a digit
at the front. -/
def IsIdentifier (name : String) : Prop :=
  name.toList.head?.any Operator.startsName = true ∧ name.toList.all Operator.continuesName = true

instance (name : String) : Decidable (IsIdentifier name) := inferInstanceAs (Decidable (_ ∧ _))

namespace Filter

/-- Whether all fields that are compared have identifiers for names. -/
abbrev Named (f : Filter) : Prop := f.AllLeaves fun l => IsIdentifier l.field.name

theorem exists_map_leaf {members : List Filter} {name : String}
    (h : ∀ f ∈ members, f.parts?.map (·.1) = some name) :
    ∃ leaves : List Leaf, members = leaves.map .leaf ∧ ∀ l ∈ leaves, l.field.name = name := by
  induction members with
  | nil => exact ⟨[], rfl, by simp⟩
  | cons f rest ih =>
    rw [List.forall_mem_cons] at h
    obtain ⟨leaves, rfl, hleaves⟩ := ih h.2
    cases f with
    | leaf l =>
      have hname : l.field.name = name := by simpa [parts?] using h.1
      exact ⟨l :: leaves, rfl, List.forall_mem_cons.2 ⟨hname, hleaves⟩⟩
    | all _ => simp [parts?] at h
    | any _ => simp [parts?] at h
    | not _ => simp [parts?] at h

/-- Members with a common field are leaves of a field of that name. -/
theorem commonField?_eq_some {members : List Filter} {name : String} :
    commonField? members = some name ↔
      ∃ leaves : List Leaf, leaves ≠ [] ∧ members = leaves.map .leaf ∧
        ∀ l ∈ leaves, l.field.name = name := by
  constructor
  · intro h
    suffices hall : members ≠ [] ∧ ∀ f ∈ members, f.parts?.map (·.1) = some name by
      obtain ⟨leaves, rfl, hleaves⟩ := exists_map_leaf hall.2
      exact ⟨leaves, by simpa using hall.1, rfl, hleaves⟩
    cases members with
    | nil => simp [commonField?] at h
    | cons f rest =>
      cases hf : f.parts? with
      | none => simp [commonField?, hf] at h
      | some part =>
        simp only [commonField?, List.map_cons, hf, List.all_map, List.all_eq_true,
          Function.comp_apply, beq_iff_eq] at h
        split_ifs at h with hall
        cases h
        exact ⟨by simp, List.forall_mem_cons.2 ⟨by simp [hf], hall⟩⟩
  · rintro ⟨leaves, hne, rfl, hleaves⟩
    obtain ⟨l, rest, rfl⟩ := List.exists_cons_of_ne_nil hne
    rw [List.forall_mem_cons] at hleaves
    simpa [commonField?, parts?, hleaves.1] using hleaves.2

theorem valueList_leaves (name : String) (leaves : List Leaf) :
    valueList name (leaves.map .leaf) =
      name ++ "=" ++ ",".intercalate (leaves.map (·.literal)) := by
  have hparts : (leaves.map Filter.leaf).filterMap parts? =
      leaves.map fun l => (l.field.name, l.literal) := by
    rw [List.filterMap_map, ← List.filterMap_eq_map]
    rfl
  rw [valueList, hparts, List.map_map]
  rfl

end Filter

namespace Condition

open DownloadQuery.Filter

variable {answers : Answers} {settings : Settings} {clock : Clock} {field : Field} {family : Family}

/-! ## Conditions with a name -/

theorem readInline?_named {name : String} (h : IsIdentifier name) (values : List Char) :
    Operator.readInline? (name.toList ++ '=' :: values) = none := by
  have htake : (name.toList ++ '=' :: values).takeWhile Operator.continuesName = name.toList := by
    rw [List.takeWhile_append_of_pos (by simpa using h.2), List.takeWhile_cons_of_neg (by decide),
      List.append_nil]
  simp [Operator.readInline?, htake, h.1, Operator.read?]

theorem split_named {name : String} (h : IsIdentifier name) (settings : Settings)
    (values : String) :
    split settings (name ++ "=" ++ values) = .ok (name, values.toList) := by
  have hchars : (name ++ "=" ++ values).toList = name.toList ++ '=' :: values.toList := by simp
  have hname : '=' ∉ name.toList := by
    intro hm
    have := List.all_eq_true.1 h.2 _ hm
    revert this
    decide
  simp only [split, hchars, readInline?_named h, Text.cutAt?_singleton hname, String.ofList_toList]

/-- Reading a condition with fixed answers. -/
theorem readOne_eq (c : String) :
    readOne answers.find settings c =
      match split settings c with
      | .error e => .error e
      | .ok (name, values) =>
        match familyOf name c (answers name) with
        | .error e => .error e
        | .ok (field, family) => ofValues settings.clock field family values c := by
  have hof {α : Type} (x : Except ConditionError α) :
      (MonadExcept.ofExcept x : Except ConditionError α) = x := by cases x <;> rfl
  unfold readOne
  simp only [hof, Answers.find]
  rcases split settings c with _ | ⟨name, values⟩
  · rfl
  · simp only [bind, Except.bind]
    rcases familyOf name c (answers name) with _ | ⟨field, family⟩ <;> rfl

theorem familyOf_ok {name c : String} {found : Except FieldError (Option Field)}
    (h : familyOf name c found = .ok (field, family)) :
    found = .ok (some field) ∧ field.family? = some family := by
  unfold familyOf at h
  split at h
  · cases h
  · cases h
  · split at h
    · next hf => cases h; exact ⟨rfl, hf⟩
    · cases h

theorem readOne_named (hn : IsIdentifier field.name) (ha : answers field.name = .ok (some field))
    (hf : field.family? = some family) (values : String) :
    readOne answers.find settings (field.name ++ "=" ++ values) =
      ofValues settings.clock field family values.toList (field.name ++ "=" ++ values) := by
  simp only [readOne_eq, split_named hn, ha, familyOf, hf]

theorem readOne_ok {c : String} {f : Filter} (h : readOne answers.find settings c = .ok f) :
    ∃ name values field family, split settings c = .ok (name, values) ∧
      answers name = .ok (some field) ∧ field.family? = some family ∧
      ofValues settings.clock field family values c = .ok f := by
  rw [readOne_eq] at h
  split at h
  · cases h
  · next name values hs =>
    split at h
    · cases h
    · next field family hf =>
      obtain ⟨ha, hfam⟩ := familyOf_ok hf
      exact ⟨name, values, field, family, hs, ha, hfam, h⟩

/-! ## Values -/

theorem splitNegation_cases (value : List Char) :
    (∃ literal, Values.splitNegation value = (true, literal) ∧ value = '!' :: literal) ∨
      Values.splitNegation value = (false, value) := by
  unfold Values.splitNegation
  split <;> simp

theorem leaf_read_ok {literal : String} {l : Leaf}
    (h : Leaf.read clock family field literal = .ok l) : l.field = field ∧ l.literal = literal := by
  unfold Leaf.read at h
  dsimp only at h
  split at h <;> cases h
  exact ⟨rfl, rfl⟩

/-- The filter of a value is a leaf or the negation of one, and the value is the literal of the
leaf, perhaps after an exclamation mark. -/
theorem valueFilter_ok {value : List Char} {f : Filter}
    (h : valueFilter clock field family value = .ok f) :
    ∃ l : Leaf, l.field = field ∧ (f = .leaf l ∧ value = l.literal.toList ∨
      f = .not (.leaf l) ∧ value = '!' :: l.literal.toList) := by
  unfold valueFilter at h
  rcases splitNegation_cases value with ⟨literal, hs, rfl⟩ | hs <;> rw [hs] at h <;>
    dsimp only at h <;> split at h
  · next l hl =>
    cases h
    obtain ⟨hfield, hliteral⟩ := leaf_read_ok hl
    exact ⟨l, hfield, .inr ⟨rfl, by rw [hliteral, String.toList_ofList]⟩⟩
  · cases h
  · next l hl =>
    cases h
    obtain ⟨hfield, hliteral⟩ := leaf_read_ok hl
    exact ⟨l, hfield, .inl ⟨rfl, by rw [hliteral, String.toList_ofList]⟩⟩
  · cases h

theorem ofValues_single {value : List Char} (h : value = [] ∨ Values.IsSingle value)
    (c : String) : ofValues clock field family value c = valueFilter clock field family value := by
  rcases h with rfl | h
  · rfl
  · rw [ofValues, if_neg h.ne_nil, h.split_eq]

theorem valueFilters_ok {values : List (List Char)} {members : List Filter} :
    valueFilters clock field family values = .ok members ↔
      List.Forall₂ (fun value f => valueFilter clock field family value = .ok f) values
        members := by
  induction values generalizing members with
  | nil => cases members <;> simp [valueFilters]
  | cons value rest ih =>
    rw [valueFilters]
    cases hf : valueFilter clock field family value with
    | error e => cases members <;> simp [hf]
    | ok f =>
      cases hr : valueFilters clock field family rest with
      | error e => cases members <;> simp [Except.map, ← ih, hf, hr]
      | ok fs => cases members <;> simp [Except.map, ← ih, hf, hr]

theorem exists_value_of_mem {values : List (List Char)} {members : List Filter}
    (h : valueFilters clock field family values = .ok members) :
    ∀ f ∈ members, ∃ value ∈ values, valueFilter clock field family value = .ok f :=
  exists_of_mem_related (valueFilters_ok.1 h)

/-- Values of plain leaves are their literals. -/
theorem values_of_leaves {values : List (List Char)} {leaves : List Leaf}
    (h : valueFilters clock field family values = .ok (leaves.map .leaf)) :
    values = leaves.map (·.literal.toList) := by
  rw [valueFilters_ok, List.forall₂_map_right_iff] at h
  induction h with
  | nil => rfl
  | cons hl _ ih =>
    obtain ⟨l, -, ⟨heq, hv⟩ | ⟨heq, -⟩⟩ := valueFilter_ok hl
    · cases heq
      rw [hv, ih, List.map_cons]
    · cases heq

/-- Several values are accepted if each of them is, and any of their filters is asked for. -/
theorem ofValues_several {values : List Char} (h : 2 ≤ (Values.split values).length) (c : String)
    {f : Filter} :
    ofValues clock field family values c = .ok f ↔
      ∃ members, valueFilters clock field family (Values.split values) = .ok members ∧
        f = .any members := by
  have hne : values ≠ [] := by
    rintro rfl
    simp at h
  rw [ofValues, if_neg hne]
  split
  · next hsplit => simp [hsplit] at h
  · next hsplit => simp [hsplit] at h
  · cases valueFilters clock field family (Values.split values) with
    | error e => simp [Except.map]
    | ok members => simp [Except.map, eq_comm]

/-- Several values in a list. -/
theorem ofValues_join {values : List (List Char)} {members : List Filter}
    (hlen : 2 ≤ values.length) (hs : Values.split (Values.join values) = values)
    (h : valueFilters clock field family values = .ok members) (c : String) :
    ofValues clock field family (Values.join values) c = .ok (.any members) :=
  (ofValues_several (by rwa [hs]) c).2 ⟨members, by rwa [hs], rfl⟩

theorem ofValues_ok {values : List Char} {c : String} {f : Filter}
    (h : ofValues clock field family values c = .ok f) :
    (∃ value, (value = [] ∨ Values.IsSingle value) ∧
      valueFilter clock field family value = .ok f) ∨
    ∃ members, 2 ≤ (Values.split values).length ∧
      valueFilters clock field family (Values.split values) = .ok members ∧ f = .any members := by
  by_cases hv : values = []
  · subst hv
    exact .inl ⟨[], .inl rfl, h⟩
  · rw [ofValues, if_neg hv] at h
    split at h
    · cases h
    · next value hs =>
      exact .inl ⟨value, .inr (Values.isSingle_of_mem (by rw [hs]; simp)), h⟩
    · next list hnil hone =>
      cases hm : valueFilters clock field family (Values.split values) with
      | error e => rw [hm] at h; cases h
      | ok members =>
        rw [hm] at h
        cases h
        refine .inr ⟨members, ?_, rfl, rfl⟩
        rcases hs : Values.split values with _ | ⟨v, _ | ⟨w, rest⟩⟩
        · exact absurd hs hnil
        · exact absurd hs (hone v)
        · simp

/-! ## Conditions are accepted as they are written -/

theorem text_value {value : List Char} {f : Filter}
    (h : valueFilter clock field family value = .ok f) :
    f.text = Token.write (field.name ++ "=" ++ String.ofList value) := by
  obtain ⟨l, rfl, ⟨rfl, rfl⟩ | ⟨rfl, rfl⟩⟩ := valueFilter_ok h
  · rw [text, String.ofList_toList]
  · rw [text]
    simp only [parts?]
    congr 1
    rw [← String.toList_inj]
    simp

theorem text_any_leaves {leaves : List Leaf} {name : String} (hne : leaves ≠ [])
    (h : ∀ l ∈ leaves, l.field.name = name) :
    (Filter.any (leaves.map .leaf)).text =
      Token.write (name ++ "=" ++ String.ofList (Values.join (leaves.map (·.literal.toList)))) := by
  have hcommon : commonField? (leaves.map .leaf) = some name :=
    commonField?_eq_some.2 ⟨leaves, hne, rfl, h⟩
  rw [text, hcommon]
  simp only [valueList_leaves]
  congr 2
  rw [← String.toList_inj]
  simp [Function.comp_def]

theorem canonical_value {value : List Char} {f : Filter} (hn : IsIdentifier field.name)
    (ha : answers field.name = .ok (some field)) (hf : field.family? = some family)
    (hv : value = [] ∨ Values.IsSingle value)
    (h : valueFilter settings.clock field family value = .ok f) :
    Canonical (readOne answers.find settings) f := by
  refine .condition ?_ ?_ (text_value h)
  · simp
  · rw [readOne_named hn ha hf, String.toList_ofList, ofValues_single hv, h]

theorem isIdentifier_of_valueFilter {value : List Char} {f : Filter}
    (h : valueFilter clock field family value = .ok f) (hn : f.Named) :
    IsIdentifier field.name := by
  obtain ⟨l, rfl, ⟨rfl, -⟩ | ⟨rfl, -⟩⟩ := valueFilter_ok h
  · exact hn l (by simp [leaves])
  · exact hn l (by simp [leaves])

theorem canonical_values {values : List Char} {members : List Filter}
    (ha : answers field.name = .ok (some field)) (hf : field.family? = some family)
    (hlen : 2 ≤ (Values.split values).length)
    (h : valueFilters settings.clock field family (Values.split values) = .ok members)
    (hn : (Filter.any members).Named) :
    Canonical (readOne answers.find settings) (.any members) := by
  have hn := allLeaves_any.1 hn
  have hmember := exists_value_of_mem h
  have hmembers : 2 ≤ members.length := (valueFilters_ok.1 h).length_eq ▸ hlen
  have hne : members ≠ [] := List.ne_nil_of_length_pos (by omega)
  have hname : IsIdentifier field.name := by
    obtain ⟨f, rest, rfl⟩ := List.exists_cons_of_ne_nil hne
    obtain ⟨value, -, hv⟩ := hmember f (by simp)
    exact isIdentifier_of_valueFilter hv (hn f (by simp))
  cases hcommon : commonField? members with
  | none =>
    refine .any hmembers hcommon fun f hmem => ?_
    obtain ⟨value, hv, hread⟩ := hmember f hmem
    exact canonical_value hname ha hf (.inr (Values.isSingle_of_mem hv)) hread
  | some name =>
    obtain ⟨leaves, hl, rfl, hleaves⟩ := commonField?_eq_some.1 hcommon
    have hfields : ∀ l ∈ leaves, l.field.name = field.name := by
      intro l hmem
      obtain ⟨value, -, hv⟩ := hmember (.leaf l) (List.mem_map_of_mem hmem)
      obtain ⟨k, rfl, ⟨hk, -⟩ | ⟨hk, -⟩⟩ := valueFilter_ok hv <;> cases hk
      rfl
    refine .condition ?_ ?_ (text_any_leaves hl hfields)
    · simp
    · rw [readOne_named hname ha hf, String.toList_ofList, ← values_of_leaves h]
      exact ofValues_join hlen (Values.split_join_split values) h _

/-- A condition that has been accepted is accepted again as it is written. -/
theorem canonical_of_readOne
    (hown : ∀ {name : String} {field : Field}, answers name = .ok (some field) →
      answers field.name = .ok (some field))
    {c : String} {f : Filter} (h : readOne answers.find settings c = .ok f) (hn : f.Named) :
    Canonical (readOne answers.find settings) f := by
  obtain ⟨name, values, field, family, -, ha, hf, hvalues⟩ := readOne_ok h
  have ha := hown ha
  rcases ofValues_ok hvalues with ⟨value, hv, h⟩ | ⟨members, hlen, hm, rfl⟩
  · exact canonical_value (isIdentifier_of_valueFilter h hn) ha hf hv h
  · exact canonical_values ha hf hlen hm hn

/-- A condition is read as a leaf, the negation of one, or any of several of these. -/
theorem isCondition_of_readOne {c : String} {f : Filter}
    (h : readOne answers.find settings c = .ok f) : f.IsCondition := by
  obtain ⟨name, values, field, family, -, -, -, hvalues⟩ := readOne_ok h
  rcases ofValues_ok hvalues with ⟨value, -, hread⟩ | ⟨members, hlen, hm, rfl⟩
  · obtain ⟨l, -, ⟨rfl, -⟩ | ⟨rfl, -⟩⟩ := valueFilter_ok hread
    · exact .leaf l
    · exact .not l
  · refine .any ((valueFilters_ok.1 hm).length_eq ▸ hlen) fun f hf => ?_
    obtain ⟨value, -, hread⟩ := exists_value_of_mem hm f hf
    obtain ⟨l, -, ⟨heq, -⟩ | ⟨heq, -⟩⟩ := valueFilter_ok hread
    · exact ⟨l, .inl heq⟩
    · exact ⟨l, .inr heq⟩

/-- Canonical text is read as a filter that means the same. -/
theorem Canonical.exists_read {f : Filter} (h : Canonical (readOne answers.find settings) f) :
    ∃ f', read answers.find settings f.text = .ok f' ∧
      ∀ scene, f'.isMatch scene = f.isMatch scene := by
  refine ⟨_, h.read_text fun token f => isCondition_of_readOne, fun scene => ?_⟩
  rw [isMatch_all, allMatch_reread]

end Condition
end DownloadQuery

import DownloadQuery.Proofs.Condition.RoundTrip

/-!
# Alternatives that are written as one condition

Alternatives which are all conditions with one plain value of one field are written as a single
condition with a list of values. The text is read back as the same alternatives exactly if the
values are separate (`read_merged_text_iff`): an empty value is lost, and a value that opens with a
slash may swallow the values up to another slash.
-/

namespace DownloadQuery
namespace Condition

open DownloadQuery.Filter

variable {answers : Answers} {settings : Settings}

theorem accepted_of_mapM {accept : Accept} {r : Run String} {f : Filter}
    (h : r.mapM accept = .ok (.last (.condition f))) : ∃ c, accept c = .ok f := by
  cases r with
  | last p =>
    rw [Run.mapM] at h
    obtain ⟨u, hu, hg⟩ := exists_of_bind_ok h
    cases hg
    cases p with
    | condition c =>
      rw [Part.mapM] at hu
      obtain ⟨k, hk, hg⟩ := exists_of_bind_ok hu
      cases hg
      exact ⟨c, hk⟩
    | group e =>
      rw [Part.mapM] at hu
      obtain ⟨k, -, hg⟩ := exists_of_bind_ok hu
      cases hg
  | and p rest =>
    rw [Run.mapM] at h
    obtain ⟨u, -, h⟩ := exists_of_bind_ok h
    obtain ⟨others, -, hg⟩ := exists_of_bind_ok h
    cases hg

theorem accepted_of_mem_runs {accept : Accept} {a : Alternatives String}
    {b : Alternatives Filter} (h : a.mapM accept = .ok b) {f : Filter}
    (hf : .last (.condition f) ∈ b.runs) : ∃ c, accept c = .ok f := by
  match a with
  | .last run =>
    obtain ⟨r, hr, rfl⟩ := Alternatives.mapM_last h
    rw [Alternatives.runs, List.mem_singleton] at hf
    rw [← hf] at hr
    exact accepted_of_mapM hr
  | .or run rest =>
    rw [Alternatives.mapM] at h
    obtain ⟨r, hr, h⟩ := exists_of_bind_ok h
    obtain ⟨others, ho, hg⟩ := exists_of_bind_ok h
    cases hg
    rw [Alternatives.runs, List.mem_cons] at hf
    rcases hf with hf | hf
    · rw [← hf] at hr
      exact accepted_of_mapM hr
    · exact accepted_of_mem_runs ho hf

/-- A condition that is read as a leaf has one value, the literal of the leaf. -/
theorem leaf_of_readOne
    (hown : ∀ {name : String} {field : Field}, answers name = .ok (some field) →
      answers field.name = .ok (some field))
    {c : String} {l : Leaf} (h : readOne answers.find settings c = .ok (.leaf l)) :
    ∃ family, answers l.field.name = .ok (some l.field) ∧ l.field.family? = some family ∧
      (l.literal.toList = [] ∨ Values.IsSingle l.literal.toList) ∧
      valueFilter settings.clock l.field family l.literal.toList = .ok (.leaf l) := by
  obtain ⟨name, values, field, family, -, ha, hf, hvalues⟩ := readOne_ok h
  rcases ofValues_ok hvalues with ⟨value, hv, hread⟩ | ⟨members, -, -, heq⟩
  · obtain ⟨k, rfl, ⟨hk, rfl⟩ | ⟨hk, -⟩⟩ := valueFilter_ok hread
    · cases hk
      exact ⟨family, hown ha, hf, hv, hread⟩
    · cases hk
  · cases heq

/-- Leaves of one field are the filters of their literals. -/
theorem valueFilters_of_leaves {field : Field} {family : Family} {clock : Clock}
    {leaves : List Leaf}
    (h : ∀ l ∈ leaves, valueFilter clock field family l.literal.toList = .ok (.leaf l)) :
    valueFilters clock field family (leaves.map (·.literal.toList)) = .ok (leaves.map .leaf) := by
  rw [valueFilters_ok, List.forall₂_map_left_iff, List.forall₂_map_right_iff]
  exact List.forall₂_same.2 h

/-- The filter of a list is what its values are filtered by. -/
theorem ofValues_leaves_iff {field : Field} {family : Family} {clock : Clock} {leaves : List Leaf}
    (hlen : 2 ≤ leaves.length) (hs : ∀ l ∈ leaves,
      l.literal.toList = [] ∨ Values.IsSingle l.literal.toList)
    (h : ∀ l ∈ leaves, valueFilter clock field family l.literal.toList = .ok (.leaf l))
    (c : String) :
    ofValues clock field family (Values.join (leaves.map (·.literal.toList))) c =
        .ok (.any (leaves.map .leaf)) ↔
      Values.Separate (leaves.map (·.literal.toList)) := by
  have hsplit := @Values.split_join_iff (leaves.map (·.literal.toList)) (by simpa using hs)
  rw [← hsplit]
  constructor
  · intro hread
    rcases ofValues_ok hread with ⟨value, -, hv⟩ | ⟨members, -, hm, heq⟩
    · obtain ⟨l, -, ⟨hl, -⟩ | ⟨hl, -⟩⟩ := valueFilter_ok hv <;> cases hl
    · cases heq
      exact values_of_leaves hm
  · exact fun hsep => ofValues_join (by simpa using hlen) hsep (valueFilters_of_leaves h) c

/-- A single condition that is written is read as all of its filter. -/
theorem read_write {m : Type → Type} [Monad m] [MonadExceptOf ConditionError m] [LawfulMonad m]
    (find : String → m (Except FieldError (Option Field))) (settings : Settings) {token : String}
    (h : '=' ∈ token.toList) :
    read find settings (Token.write token) =
      (fun f => .all [f]) <$> readOne find settings token := by
  have htoken : token ≠ "" := by
    rintro rfl
    revert h
    decide
  rw [read, ← spaced_singleton, split?_spaced (by simpa using htoken)]
  exact readWithText_singleton find settings (ne_keyword_of_equals h) _

theorem filter_of_runs {b : Alternatives Filter} {leaves : List Leaf} (hlen : 2 ≤ leaves.length)
    (hruns : b.runs = leaves.map fun l => .last (.condition (.leaf l))) :
    b.filter = .any (leaves.map .leaf) := by
  have hmembers : b.members = leaves.map .leaf := by
    rw [b.members_eq, hruns, List.map_map]
    rfl
  cases b with
  | last run =>
    have hone := congrArg List.length hruns
    simp only [Alternatives.runs, List.length_singleton, List.length_map] at hone
    omega
  | or run rest =>
    rw [Alternatives.filter, ← hmembers, Alternatives.members]

/-- Leaves that have been read from conditions on one field have the same field and family. -/
theorem exists_family
    (hown : ∀ {name : String} {field : Field}, answers name = .ok (some field) →
      answers field.name = .ok (some field))
    {leaves : List Leaf} {name : String} (hne : leaves ≠ [])
    (hname : ∀ l ∈ leaves, l.field.name = name)
    (hread : ∀ l ∈ leaves, ∃ c, readOne answers.find settings c = .ok (.leaf l)) :
    ∃ field family, answers name = .ok (some field) ∧ field.name = name ∧
      field.family? = some family ∧ ∀ l ∈ leaves,
        (l.literal.toList = [] ∨ Values.IsSingle l.literal.toList) ∧
        valueFilter settings.clock field family l.literal.toList = .ok (.leaf l) := by
  obtain ⟨k, rest, rfl⟩ := List.exists_cons_of_ne_nil hne
  obtain ⟨c, hc⟩ := hread k (by simp)
  obtain ⟨family, ha, hf, -, -⟩ := leaf_of_readOne hown hc
  rw [hname k (by simp)] at ha
  refine ⟨k.field, family, ha, hname k (by simp), hf, fun l hl => ?_⟩
  obtain ⟨d, hd⟩ := hread l hl
  obtain ⟨family', ha', hf', hs, hv⟩ := leaf_of_readOne hown hd
  rw [hname l hl, ha] at ha'
  have hfield : k.field = l.field := by simpa using ha'
  rw [hfield] at hf ⊢
  rw [hf] at hf'
  cases hf'
  exact ⟨hs, hv⟩

/-- The text of leaves of one field is read as the filter of a list of their literals. -/
theorem exists_read_leaves {field : Field} {family : Family} {leaves : List Leaf}
    (hn : IsIdentifier field.name) (ha : answers field.name = .ok (some field))
    (hf : field.family? = some family) (hne : leaves ≠ [])
    (hname : ∀ l ∈ leaves, l.field.name = field.name) :
    ∃ c, read answers.find settings (Filter.any (leaves.map .leaf)).text =
      (fun f => .all [f]) <$> ofValues settings.clock field family
        (Values.join (leaves.map (·.literal.toList))) c := by
  refine ⟨field.name ++ "=" ++
    String.ofList (Values.join (leaves.map (·.literal.toList))), ?_⟩
  rw [text_any_leaves hne hname, read_write answers.find settings (by simp),
    readOne_named hn ha hf, String.toList_ofList]

/-- The text of alternatives that are single plain leaves of one field is read as the same
alternatives exactly if their literals are separate; then it matches alike. -/
theorem read_merged_text_iff {σ : Type} {lookup : Lookup σ} {s : σ} (hl : lookup.Steady s answers)
    {input : Input} {f : Filter} {s' : σ}
    (hf : (input.read lookup.find settings).run s = (.ok f, s'))
    {tokens : List String} (ht : input.tokens? = some tokens)
    {a : Alternatives String} (ha : (Expression.plain a).Derives tokens)
    {b : Alternatives Filter} (hb : a.mapM (readOne answers.find settings) = .ok b)
    {leaves : List Leaf} (hlen : 2 ≤ leaves.length)
    (hruns : b.runs = leaves.map fun l => .last (.condition (.leaf l)))
    {name : String} (hname : ∀ l ∈ leaves, l.field.name = name) (hid : IsIdentifier name) :
    f = .any (leaves.map .leaf) ∧ ∀ t, lookup.Visits s t →
      ((∃ t', (read lookup.find settings f.text).run t = (.ok (.all [f]), t')) ↔
        Values.Separate (leaves.map (·.literal.toList))) ∧
      (Values.Separate (leaves.map (·.literal.toList)) →
        ∃ f' t', (read lookup.find settings f.text).run t = (.ok f', t') ∧
          ∀ scene r, f'.isMatch scene r = f.isMatch scene r) := by
  have hg : (Expression.plain a).mapM (readOne answers.find settings) = .ok (.plain b) := by
    rw [Expression.mapM, hb]
    rfl
  have hfilter : f = .any (leaves.map .leaf) := by
    rw [← (filter_of_read hl hf ht ha hg).2]
    exact filter_of_runs hlen hruns
  have hne : leaves ≠ [] := by
    rintro rfl
    simp at hlen
  have hread : ∀ l ∈ leaves, ∃ c, readOne answers.find settings c = .ok (.leaf l) := by
    intro l hmem
    refine accepted_of_mem_runs hb ?_
    rw [hruns]
    exact List.mem_map_of_mem hmem
  obtain ⟨field, family, hans, rfl, hfam, hvalues⟩ := exists_family hl.own_name hne hname hread
  obtain ⟨c, hpure⟩ := @exists_read_leaves answers settings _ _ _ hid hans hfam hne hname
  have hiff := ofValues_leaves_iff hlen (fun l hmem => (hvalues l hmem).1)
    (fun l hmem => (hvalues l hmem).2) c
  rw [← hfilter] at hpure hiff
  refine ⟨hfilter, fun t htv => ?_⟩
  obtain ⟨t', -, hrun⟩ := read_yields hl settings f.text t htv
  rw [hrun, hpure, ← hiff]
  refine ⟨⟨?_, ?_⟩, ?_⟩
  · rintro ⟨t'', h⟩
    have hok := (Prod.mk.inj h).1
    cases hv : ofValues settings.clock field family
        (Values.join (leaves.map (·.literal.toList))) c with
    | error e => rw [hv] at hok; cases hok
    | ok k => rw [hv] at hok; cases hok; rfl
  · intro h
    exact ⟨t', by rw [h]; rfl⟩
  · intro h
    refine ⟨.all [f], t', by rw [h]; rfl, fun scene r => ?_⟩
    rw [isMatch_all, allMatch_singleton]

theorem read_merged_text_separate :
    ∃ f : Filter,
      ((Input.written "a=x OR a=z").read openLookup.find ⟨⟨.fixed 0, 0⟩, none⟩).run () =
        (.ok f, ()) ∧
      ∃ f' t', (read openLookup.find ⟨⟨.fixed 0, 0⟩, none⟩ f.text).run () = (.ok f', t') ∧
        ∀ scene r, f'.isMatch scene r = f.isMatch scene r := by
  let x : Leaf := ⟨Catalogue.openField "a", "x", .text (.glob [.literal 'x']), true⟩
  let z : Leaf := ⟨Catalogue.openField "a", "z", .text (.glob [.literal 'z']), true⟩
  let a : Alternatives String :=
    .or (.last (.condition "a=x")) (.last (.last (.condition "a=z")))
  let b : Alternatives Filter :=
    .or (.last (.condition (.leaf x))) (.last (.last (.condition (.leaf z))))
  have hf : ((Input.written "a=x OR a=z").read openLookup.find ⟨⟨.fixed 0, 0⟩, none⟩).run () =
      (.ok (.any [.leaf x, .leaf z]), ()) := by cbv
  have ha : (Expression.plain a).Derives ["a=x", "OR", "a=z"] :=
    ⟨⟨by decide, ⟨by decide, by decide, by decide⟩, by decide, by decide, by decide⟩, rfl⟩
  have hb : a.mapM (readOne (Answers.find fun name => .ok (some (Catalogue.openField name)))
      ⟨⟨.fixed 0, 0⟩, none⟩) = .ok b := by cbv
  have hname : ∀ l ∈ [x, z], l.field.name = "a" := by simp [x, z, Catalogue.openField]
  have hs : Values.Separate ([x, z].map (·.literal.toList)) :=
    ⟨by simp [x], fun _ => Values.not_closes (by simp [z]), by simp [z],
      fun _ => Values.not_closes (by simp), trivial⟩
  exact ⟨_, hf, ((read_merged_text_iff openLookup_steady hf (by decide) ha hb (by decide) rfl hname
    (by decide)).2 () .start).2 hs⟩

/-- An empty value is lost: an item with an empty value no longer matches. -/
theorem read_merged_text_empty :
    ∃ f f' : Filter,
      ((Input.written "a= OR a=x").read openLookup.find ⟨⟨.fixed 0, 0⟩, none⟩).run () =
        (.ok f, ()) ∧
      (read openLookup.find ⟨⟨.fixed 0, 0⟩, none⟩ f.text).run () = (.ok f', ()) ∧
      (f.isMatch ⟨⟨.fixed 0, 0⟩, fun _ => false, fun _ => none⟩
        ⟨.ofSnapshot [("a", .string "")], []⟩).1 = .ok true ∧
      (f'.isMatch ⟨⟨.fixed 0, 0⟩, fun _ => false, fun _ => none⟩
        ⟨.ofSnapshot [("a", .string "")], []⟩).1 = .ok false := by
  let e : Filter := .leaf ⟨Catalogue.openField "a", "", .text .empty, true⟩
  let x : Filter := .leaf ⟨Catalogue.openField "a", "x", .text (.glob [.literal 'x']), true⟩
  refine ⟨.any [e, x], .all [x], ?_, ?_, ?_, ?_⟩
  · cbv
  · cbv
  · cbv
  · cbv

end Condition
end DownloadQuery

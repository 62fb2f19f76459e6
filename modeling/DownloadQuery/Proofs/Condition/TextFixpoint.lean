import DownloadQuery.Proofs.Condition.MergedText
import Mathlib

/-!
# Reading and writing canonical text again

A filter that has been read from canonical text need not have the same text. If all alternatives of
a disjunction are plain leaves of one field, they are written as a list of values; leaves between
brackets are not plain, but lose these brackets in the text, so that the list comes with the next
writing. The text never changes in another way (`read_text_same_iff`): each node of a filter keeps
its text or gives up brackets (`Canonical.shrinks`).

Lists whose values do not stay apart are left out.
-/

namespace DownloadQuery
namespace Filter

/-! ## Disjunctions -/

mutual

/-- The alternatives of each disjunction in a filter. -/
def disjunctions : Filter → List (List Filter)
  | .leaf _ => []
  | .all members => disjunctionsOfAll members
  | .any members => members :: disjunctionsOfAll members
  | .not inner => inner.disjunctions

def disjunctionsOfAll : List Filter → List (List Filter)
  | [] => []
  | f :: rest => f.disjunctions ++ disjunctionsOfAll rest

end

/-- Whether the alternatives of each disjunction have a property. -/
def AllDisjunctions (P : List Filter → Prop) (f : Filter) : Prop :=
  ∀ members ∈ f.disjunctions, P members

section
variable {P : List Filter → Prop}

theorem forall_mem_disjunctionsOfAll {members : List Filter} :
    (∀ alternatives ∈ disjunctionsOfAll members, P alternatives) ↔
      ∀ f ∈ members, f.AllDisjunctions P := by
  induction members with
  | nil => simp [disjunctionsOfAll]
  | cons f rest ih =>
    rw [List.forall_mem_cons, ← ih, disjunctionsOfAll, List.forall_mem_append]
    rfl

@[simp] theorem allDisjunctions_leaf (l : Leaf) : (Filter.leaf l).AllDisjunctions P := by
  simp [AllDisjunctions, disjunctions]

@[simp] theorem allDisjunctions_all {members : List Filter} :
    (Filter.all members).AllDisjunctions P ↔ ∀ f ∈ members, f.AllDisjunctions P :=
  forall_mem_disjunctionsOfAll

@[simp] theorem allDisjunctions_any {members : List Filter} :
    (Filter.any members).AllDisjunctions P ↔
      P members ∧ ∀ f ∈ members, f.AllDisjunctions P := by
  rw [← forall_mem_disjunctionsOfAll]
  exact List.forall_mem_cons

@[simp] theorem allDisjunctions_not {f : Filter} :
    (Filter.not f).AllDisjunctions P ↔ f.AllDisjunctions P :=
  Iff.rfl

end

/-- Whether the values of each list that is written for alternatives stay apart. -/
def ListsSeparate : Filter → Prop :=
  AllDisjunctions fun members => (commonField? members).isSome →
    Values.Separate ((members.filterMap parts?).map (·.2.toList))

/-- Whether a filter is a leaf, perhaps between brackets. -/
inductive Brackets (l : Leaf) : Filter → Prop
  | leaf : Brackets l (.leaf l)
  | all {f : Filter} : Brackets l f → Brackets l (.all [f])

/-- Whether alternatives are leaves of one field, of which some stand between brackets. -/
structure Bracketed (members : List Filter) : Prop where
  leaves : ∃ name, ∀ f ∈ members, ∃ l : Leaf, Brackets l f ∧ l.field.name = name
  brackets : ∃ f ∈ members, f.isLeaf = false

/-- Whether no alternatives become leaves of one field only when they lose brackets. -/
def Unbracketed : Filter → Prop := AllDisjunctions fun members => ¬ Bracketed members

theorem Brackets.reread_eq {l : Leaf} {f : Filter} (h : Brackets l f) : f.reread = [.leaf l] := by
  induction h with
  | leaf => rfl
  | all _ ih =>
    rw [reread, rereads, rereads, ih, List.flatten_cons, List.flatten_nil, List.append_nil]

theorem Brackets.text_eq {l : Leaf} {f : Filter} (h : Brackets l f) :
    f.text = (Filter.leaf l).text := by
  induction h with
  | leaf => rfl
  | all _ ih => rw [text_all_singleton, ih]

theorem unbracketed_of_isCondition {f : Filter} (h : f.IsCondition) : f.Unbracketed := by
  cases h with
  | leaf l => exact allDisjunctions_leaf l
  | not l => exact allDisjunctions_not.2 (allDisjunctions_leaf l)
  | @any members _ hmembers =>
    refine allDisjunctions_any.2 ⟨?_, fun f hf => ?_⟩
    · rintro ⟨⟨name, hleaves⟩, f, hf, hleaf⟩
      obtain ⟨k, hk, -⟩ := hleaves f hf
      obtain ⟨l, rfl | rfl⟩ := hmembers f hf
      · cases hleaf
      · cases hk
    · obtain ⟨l, rfl | rfl⟩ := hmembers f hf
      · exact allDisjunctions_leaf l
      · exact allDisjunctions_not.2 (allDisjunctions_leaf l)

end Filter

namespace Condition

open DownloadQuery.Filter

/-! ## Opening brackets in a text -/

/-- How many opening brackets a text has. -/
def openings (text : String) : ℕ := text.toList.count '['

@[simp] theorem openings_append (front back : String) :
    openings (front ++ back) = openings front + openings back := by
  simp [openings]

theorem openings_write (token : String) : openings (Token.write token) = openings token := by
  have hescape (chars : List Char) :
      (chars.flatMap Token.escapeChar).count '[' = chars.count '[' := by
    induction chars with
    | nil => rfl
    | cons c rest ih =>
      rw [List.flatMap_cons, List.count_append, ih, Token.escapeChar]
      split_ifs with hc
      · rcases hc with rfl | rfl <;> simp
      · rw [← List.count_append, List.singleton_append]
  rw [openings, Token.write, String.toList_ofList, Token.writeChars, openings]
  split_ifs with hspecial
  · simp [hescape]
  · rfl

theorem openings_intercalate {sep : String} (h : openings sep = 0) (pieces : List String) :
    openings (sep.intercalate pieces) = (pieces.map openings).sum := by
  induction pieces with
  | nil => simp [openings]
  | cons piece rest ih =>
    by_cases hrest : rest = []
    · simp [hrest]
    · rw [String.intercalate_cons_of_ne_nil hrest, openings_append, openings_append, h, ih,
        List.map_cons, List.sum_cons, Nat.add_zero]

theorem intercalate_flatten {sep : String} {runs : List (List String)}
    (h : ∀ run ∈ runs, run ≠ []) :
    sep.intercalate runs.flatten = sep.intercalate (runs.map sep.intercalate) := by
  induction runs with
  | nil => rfl
  | cons run rest ih =>
    rw [List.forall_mem_cons] at h
    by_cases hrest : rest = []
    · simp [hrest]
    · have hmap : rest.map sep.intercalate ≠ [] := by simpa using hrest
      have hflatten : rest.flatten ≠ [] := by
        obtain ⟨next, others, rfl⟩ := List.exists_cons_of_ne_nil hrest
        simp [h.2 next (by simp)]
      rw [List.flatten_cons, String.intercalate_append_of_ne_nil h.1 hflatten, ih h.2,
        List.map_cons, String.intercalate_cons_of_ne_nil hmap]

/-- Whether a text stays as it is under a condition, and otherwise gives up opening brackets. -/
structure Shrinks (kept : Prop) (new old : String) : Prop where
  same : kept → new = old
  fewer : ¬ kept → openings new < openings old

namespace Shrinks

variable {kept kept' : Prop} {new new' old old' : String}

theorem refl (h : kept) (text : String) : Shrinks kept text text :=
  ⟨fun _ => rfl, fun hn => absurd h hn⟩

theorem congr (h : Shrinks kept new old) (hk : kept ↔ kept') : Shrinks kept' new old :=
  ⟨fun hkept => h.same (hk.2 hkept), fun hn => h.fewer fun hkept => hn (hk.1 hkept)⟩

theorem openings_le (h : Shrinks kept new old) : openings new ≤ openings old := by
  by_cases hkept : kept
  · exact (congrArg openings (h.same hkept)).le
  · exact (h.fewer hkept).le

theorem eq_iff (h : Shrinks kept new old) : new = old ↔ kept := by
  refine ⟨fun heq => ?_, h.same⟩
  by_contra hkept
  exact (h.fewer hkept).ne (congrArg openings heq)

theorem append (h : Shrinks kept new old) (h' : Shrinks kept' new' old') :
    Shrinks (kept ∧ kept') (new ++ new') (old ++ old') where
  same hkept := by rw [h.same hkept.1, h'.same hkept.2]
  fewer hn := by
    rw [openings_append, openings_append]
    rcases not_and_or.1 hn with hn | hn
    · exact Nat.add_lt_add_of_lt_of_le (h.fewer hn) h'.openings_le
    · exact Nat.add_lt_add_of_le_of_lt h.openings_le (h'.fewer hn)

theorem surround (h : Shrinks kept new old) (front back : String) :
    Shrinks kept (front ++ new ++ back) (front ++ old ++ back) :=
  (((refl trivial front).append h).append (refl trivial back)).congr (by simp)

/-- If each of several texts shrinks, so do the texts put together. -/
theorem intercalate {α : Type} {P : α → Prop} {new old : α → String} (sep : String) {items : List α}
    (h : ∀ x ∈ items, Shrinks (P x) (new x) (old x)) :
    Shrinks (∀ x ∈ items, P x) (sep.intercalate (items.map new))
      (sep.intercalate (items.map old)) := by
  induction items with
  | nil => exact refl (by simp) _
  | cons x rest ih =>
    rw [List.forall_mem_cons] at h
    by_cases hrest : rest = []
    · simpa [hrest] using h.1
    · have hmap (text : α → String) : rest.map text ≠ [] := by simpa using hrest
      rw [List.map_cons, List.map_cons, String.intercalate_cons_of_ne_nil (hmap new),
        String.intercalate_cons_of_ne_nil (hmap old)]
      exact ((h.1.append (refl trivial sep)).append (ih h.2)).congr (by simp)

end Shrinks

/-! ## What becomes of the text of a canonical filter -/

section
variable {accept : Accept}

theorem Canonical.reread_ne_nil (hc : ∀ token f, accept token = .ok f → f.IsCondition) {f : Filter}
    (h : Canonical accept f) : f.reread ≠ [] := by
  obtain ⟨r, q, -, hq⟩ := h.exists_renders hc
  rw [← hq]
  exact q.filters_ne_nil

/-- What is read as a single leaf is that leaf, perhaps between brackets. -/
theorem Canonical.brackets_of_reread (hc : ∀ token f, accept token = .ok f → f.IsCondition)
    {f : Filter} (h : Canonical accept f) {l : Leaf} (hl : f.reread = [.leaf l]) :
    Brackets l f := by
  induction h with
  | @condition token f _ hf _ =>
    rw [reread_of_isCondition (hc token f hf)] at hl
    cases hl
    exact .leaf
  | @all members hne hmembers ih =>
    obtain ⟨f, rest, rfl⟩ := List.exists_cons_of_ne_nil hne
    have hf := (hmembers f (by simp)).reread_ne_nil hc
    rw [reread, rereads, List.flatten_cons] at hl
    cases rest with
    | nil =>
      rw [rereads, List.flatten_nil, List.append_nil] at hl
      exact .all (ih f (by simp) hl)
    | cons g others =>
      -- A second member would leave a second filter behind.
      have hg := (hmembers g (by simp)).reread_ne_nil hc
      have hlength := congrArg List.length hl
      rw [rereads, List.flatten_cons, List.length_append, List.length_append] at hlength
      have hfpos := List.length_pos_of_ne_nil hf
      have hgpos := List.length_pos_of_ne_nil hg
      simp only [List.length_singleton] at hlength
      omega
  | @any members hlength hcommon _ _ =>
    rw [reread_any hcommon, ofRuns_several (by rwa [rereads_eq_map, List.length_map])] at hl
    cases hl
  | @not f hf _ _ =>
    rw [reread_not hf] at hl
    cases hl

theorem eq_of_ofRun_leaf {run : List Filter} {l : Leaf} (h : Progress.ofRun run = .leaf l) :
    run = [.leaf l] := by
  match run with
  | [] => cases h
  | [f] => rw [show f = .leaf l from h]
  | f :: g :: rest => cases h

/-- Members that stand in one run are written as their own runs are. -/
theorem text_all_reread {members : List Filter} (h : ∀ f ∈ members, f.reread ≠ []) :
    (Filter.all (Filter.all members).reread).text =
      " ".intercalate (members.map fun f => (Filter.all f.reread).text) := by
  have hruns : ∀ run ∈ members.map fun f => f.reread.map text, run ≠ [] := by
    intro run hrun
    obtain ⟨f, hf, rfl⟩ := List.mem_map.1 hrun
    simpa using h f hf
  calc (Filter.all (Filter.all members).reread).text
      = " ".intercalate (members.map fun f => f.reread.map text).flatten := by
        rw [reread, text, texts_eq_map, rereads_eq_map, List.map_flatten, List.map_map]
        rfl
    _ = " ".intercalate (members.map fun f => (Filter.all f.reread).text) := by
        rw [intercalate_flatten hruns, List.map_map]
        simp only [Function.comp_def, text, texts_eq_map]

theorem text_any_reread {members : List Filter} (hlength : 2 ≤ members.length)
    (h : commonField? members = none) :
    (Filter.all (Filter.any members).reread).text =
      (Filter.any (members.map (Progress.ofRun ∘ reread))).text := by
  rw [reread_any h, text_all_singleton,
    ofRuns_several (by rwa [rereads_eq_map, List.length_map]), rereads_eq_map, List.map_map]

/-- Leaves of one field have no more brackets in a list than as alternatives. -/
theorem openings_valueList_le {leaves : List Leaf} {name : String} (hne : leaves ≠ [])
    (hname : ∀ l ∈ leaves, l.field.name = name) :
    openings (valueList name (leaves.map .leaf)) ≤
      openings (" OR ".intercalate (texts (leaves.map .leaf))) := by
  have hequals : openings "=" = 0 := rfl
  have htext (l : Leaf) :
      openings (Filter.leaf l).text = openings l.field.name + openings l.literal := by
    rw [text, openings_write, openings_append, openings_append, hequals, Nat.add_zero]
  obtain ⟨l, hl⟩ := List.exists_mem_of_ne_nil leaves hne
  have hfirst : openings name ≤ (leaves.map fun k => openings k.field.name).sum := by
    rw [← hname l hl]
    exact List.le_sum_of_mem (List.mem_map_of_mem hl)
  calc openings (valueList name (leaves.map .leaf))
      = openings name + (leaves.map fun k => openings k.literal).sum := by
        rw [valueList_leaves, openings_append, openings_append, openings_intercalate rfl, hequals,
          List.map_map, Nat.add_zero]
        rfl
    _ ≤ (leaves.map fun k => openings k.field.name).sum +
          (leaves.map fun k => openings k.literal).sum := Nat.add_le_add_right hfirst _
    _ = (leaves.map fun k => openings (Filter.leaf k).text).sum := by
        rw [← List.sum_map_add]
        simp only [htext]
    _ = openings (" OR ".intercalate (texts (leaves.map .leaf))) := by
        rw [openings_intercalate rfl, texts_eq_map, List.map_map, List.map_map]
        rfl

/-- Leaves that stand between brackets are written as the leaves are, and read as them. -/
theorem exists_leaves_of_bracketed {members : List Filter} (h : Bracketed members) :
    ∃ (leaves : List Leaf) (name : String), leaves ≠ [] ∧ (∀ l ∈ leaves, l.field.name = name) ∧
      members.map (Progress.ofRun ∘ reread) = leaves.map .leaf ∧
      texts members = texts (leaves.map .leaf) := by
  obtain ⟨⟨name, hleaves⟩, g, hg, -⟩ := h
  obtain ⟨leaves, hrelated⟩ := exists_related hleaves
  have hne : leaves ≠ [] := by
    rintro rfl
    cases hrelated
    cases hg
  refine ⟨leaves, name, hne, fun l hl => ?_, ?_, ?_⟩
  · obtain ⟨f, -, hf⟩ := exists_of_mem_related hrelated l hl
    exact hf.2
  · refine map_eq_of_related hrelated fun f l hf => ?_
    rw [Function.comp_apply, hf.1.reread_eq]
    rfl
  · rw [texts_eq_map, texts_eq_map, List.map_map]
    exact map_eq_of_related hrelated fun f l hf => hf.1.text_eq

/-- Alternatives that become leaves of one field stand between brackets, if they have not been
leaves before. -/
theorem bracketed_of_commonField (hc : ∀ token f, accept token = .ok f → f.IsCondition)
    {members : List Filter} (hmembers : ∀ f ∈ members, Canonical accept f)
    (hnone : commonField? members = none) {name : String}
    (h : commonField? (members.map (Progress.ofRun ∘ reread)) = some name) :
    Bracketed members := by
  obtain ⟨leaves, hne, heq, hname⟩ := commonField?_eq_some.1 h
  have hbrackets : ∀ f ∈ members, ∃ l : Leaf, Brackets l f ∧ l.field.name = name := by
    intro f hf
    have hmem : Progress.ofRun f.reread ∈ leaves.map Filter.leaf := by
      rw [← heq]
      exact List.mem_map_of_mem hf
    obtain ⟨l, hl, hread⟩ := List.mem_map.1 hmem
    exact ⟨l, (hmembers f hf).brackets_of_reread hc (eq_of_ofRun_leaf hread.symm), hname l hl⟩
  refine ⟨⟨name, hbrackets⟩, ?_⟩
  -- Without brackets the members would have been written as a list at once.
  by_contra hall
  have hparts : ∀ f ∈ members, f.parts?.map (·.1) = some name := by
    intro f hf
    obtain ⟨l, hl, rfl⟩ := hbrackets f hf
    cases hl with
    | leaf => rfl
    | all _ => exact absurd ⟨_, hf, rfl⟩ hall
  obtain ⟨plain, rfl, hplain⟩ := exists_map_leaf hparts
  have hsome : commonField? (plain.map .leaf) = some name := by
    refine commonField?_eq_some.2 ⟨plain, ?_, rfl, hplain⟩
    rintro rfl
    rw [List.map_nil, List.map_nil, eq_comm, List.map_eq_nil_iff] at heq
    exact hne heq
  rw [hnone] at hsome
  cases hsome

/-- The alternatives of a disjunction become a list, if they are leaves of one field between
brackets. Otherwise each is written as it is for itself. -/
theorem shrinks_any (hc : ∀ token f, accept token = .ok f → f.IsCondition) {members : List Filter}
    (hlength : 2 ≤ members.length) (hnone : commonField? members = none)
    (hmembers : ∀ f ∈ members, Canonical accept f)
    (h : ∀ f ∈ members, Shrinks f.Unbracketed (Filter.all f.reread).text f.text) :
    Shrinks (Filter.any members).Unbracketed (Filter.all (Filter.any members).reread).text
      (Filter.any members).text := by
  have hold : (Filter.any members).text = "[ " ++ " OR ".intercalate (texts members) ++ " ]" := by
    rw [text, hnone]
  rw [text_any_reread hlength hnone, hold]
  by_cases hbracketed : Bracketed members
  · refine ⟨fun hkept => absurd hbracketed (allDisjunctions_any.1 hkept).1, fun _ => ?_⟩
    obtain ⟨leaves, name, hne, hname, hread, htexts⟩ := exists_leaves_of_bracketed hbracketed
    have hnew : (Filter.any (leaves.map .leaf)).text =
        Token.write (valueList name (leaves.map .leaf)) := by
      rw [text, commonField?_eq_some.2 ⟨leaves, hne, rfl, hname⟩]
    -- A list needs no brackets around it, so at least one is given up.
    have hopen : openings "[ " = 1 := rfl
    have hlist := openings_valueList_le hne hname
    rw [hread, hnew, openings_write, htexts, openings_append, openings_append, hopen]
    omega
  · have hcommon : commonField? (members.map (Progress.ofRun ∘ reread)) = none := by
      cases hsome : commonField? (members.map (Progress.ofRun ∘ reread)) with
      | none => rfl
      | some name => exact absurd (bracketed_of_commonField hc hmembers hnone hsome) hbracketed
    have hnew : (Filter.any (members.map (Progress.ofRun ∘ reread))).text =
        "[ " ++ " OR ".intercalate (members.map fun f => (Filter.all f.reread).text) ++ " ]" := by
      rw [text, hcommon, texts_eq_map, List.map_map]
      simp only [Function.comp_def, text_ofRun]
    rw [hnew, texts_eq_map]
    refine ((Shrinks.intercalate " OR " h).surround "[ " " ]").congr ?_
    rw [Unbracketed, allDisjunctions_any, and_iff_right hbracketed]

/-- The text of a canonical filter that is read and written stays as it is, unless a disjunction of
leaves between brackets becomes a list. -/
theorem Canonical.shrinks (hc : ∀ token f, accept token = .ok f → f.IsCondition) {f : Filter}
    (h : Canonical accept f) : Shrinks f.Unbracketed (Filter.all f.reread).text f.text := by
  induction h with
  | @condition token f _ hf _ =>
    have hf := hc token f hf
    rw [reread_of_isCondition hf, text_all_singleton]
    exact .refl (unbracketed_of_isCondition hf) f.text
  | @all members _ hmembers ih =>
    rw [text_all_reread fun f hf => (hmembers f hf).reread_ne_nil hc, text, texts_eq_map]
    exact (Shrinks.intercalate " " ih).congr allDisjunctions_all.symm
  | @any members hlength hnone hmembers ih => exact shrinks_any hc hlength hnone hmembers ih
  | @not f hf _ ih =>
    rw [reread_not hf, text_all_singleton, text_not rfl, text_not hf, text_all_singleton]
    exact (ih.surround _ _).congr allDisjunctions_not.symm

end

/-! ## Reading and writing again -/

section
variable {answers : Answers} {settings : Settings}

/-- Alternatives that have been read as leaves of one field are accepted as a list, if their values
stay apart. -/
theorem canonical_leaves
    (hown : ∀ {name : String} {field : Field}, answers name = .ok (some field) →
      answers field.name = .ok (some field))
    {leaves : List Leaf} {name : String} (hlength : 2 ≤ leaves.length)
    (hname : ∀ l ∈ leaves, l.field.name = name) (hid : IsIdentifier name)
    (hs : Values.Separate (leaves.map (·.literal.toList)))
    (h : ∀ l ∈ leaves, Canonical (readOne answers.find settings) (.leaf l)) :
    Canonical (readOne answers.find settings) (.any (leaves.map .leaf)) := by
  have hne : leaves ≠ [] := List.ne_nil_of_length_pos (by omega)
  have hread : ∀ l ∈ leaves, ∃ c, readOne answers.find settings c = .ok (.leaf l) := by
    intro l hl
    cases h l hl with
    | condition _ haccept _ => exact ⟨_, haccept⟩
  obtain ⟨field, family, ha, rfl, hf, hvalues⟩ := exists_family hown hne hname hread
  refine .condition ?_ ?_ (text_any_leaves hne hname)
  · simp
  · rw [readOne_named hid ha hf, String.toList_ofList]
    exact (ofValues_leaves_iff hlength (fun l hl => (hvalues l hl).1)
      (fun l hl => (hvalues l hl).2) _).2 hs

/-- Groups of canonical filters are canonical, if the values of lists stay apart. -/
theorem grouped_canonical
    (hown : ∀ {name : String} {field : Field}, answers name = .ok (some field) →
      answers field.name = .ok (some field)) :
    Grouped fun f => f.Named → f.ListsSeparate → Canonical (readOne answers.find settings) f where
  all hne h hn hs := .all hne fun f hf =>
    h f hf (allLeaves_all.1 hn f hf) (allDisjunctions_all.1 hs f hf)
  any := by
    intro members hlength h hn hs
    obtain ⟨hseparate, hs⟩ := allDisjunctions_any.1 hs
    have hn := allLeaves_any.1 hn
    have hmembers : ∀ f ∈ members, Canonical (readOne answers.find settings) f :=
      fun f hf => h f hf (hn f hf) (hs f hf)
    cases hcommon : commonField? members with
    | none => exact .any hlength hcommon hmembers
    | some name =>
      obtain ⟨leaves, hne, rfl, hname⟩ := commonField?_eq_some.1 hcommon
      have hliterals : ((leaves.map Filter.leaf).filterMap parts?).map (·.2.toList) =
          leaves.map (·.literal.toList) := by
        rw [List.filterMap_map, List.map_filterMap, ← List.filterMap_eq_map]
        rfl
      rw [hcommon, hliterals] at hseparate
      obtain ⟨l, hl⟩ := List.exists_mem_of_ne_nil leaves hne
      have hid : IsIdentifier name := by
        rw [← hname l hl]
        exact allLeaves_leaf.1 (hn (.leaf l) (List.mem_map_of_mem hl))
      rw [List.length_map] at hlength
      exact canonical_leaves hown hlength hname hid (hseparate rfl) fun k hk =>
        hmembers (.leaf k) (List.mem_map_of_mem hk)
  not hf h hn hs := .not hf (h (allLeaves_not.1 hn) (allDisjunctions_not.1 hs))

/-- The text of a filter that has been read is read again, and the filter that is read from it has
the same text exactly if no alternatives become a list when they lose brackets. -/
theorem read_text_same_iff {σ : Type} {lookup : Lookup σ} {s : σ} (hl : lookup.Steady s answers)
    {input : Input} {f : Filter} {s' : σ}
    (hf : (input.read lookup.find settings).run s = (.ok f, s')) (hn : f.Named)
    (hs : f.ListsSeparate) :
    lookup.Visits s s' ∧ ∀ t, lookup.Visits s t →
      ∃ f' t', (read lookup.find settings f.text).run t = (.ok f', t') ∧
        (f'.text = f.text ↔ f.Unbracketed) := by
  obtain ⟨u, hvisit, hrun⟩ := input.read_yields hl settings s .start
  rw [hf] at hrun
  obtain ⟨hread, rfl⟩ := Prod.mk.inj hrun
  have hcondition : ∀ c g, readOne answers.find settings c = .ok g → g.IsCondition :=
    fun c g => isCondition_of_readOne
  have hcanonical : Canonical (readOne answers.find settings) f :=
    Input.holds_of_read (grouped_canonical hl.own_name)
      (fun c g hg hn _ => canonical_of_readOne hl.own_name hg hn) hread.symm hn hs
  refine ⟨hvisit, fun t ht => ?_⟩
  obtain ⟨t', -, hrun'⟩ := read_yields hl settings f.text t ht
  rw [hcanonical.read_text hcondition] at hrun'
  exact ⟨_, t', hrun', (hcanonical.shrinks hcondition).eq_iff⟩

theorem read_text_same_separate_fields :
    ∃ f f' : Filter,
      ((Input.written "[ a=x ] OR b=!y").read openLookup.find ⟨⟨.fixed 0, 0⟩, none⟩).run () =
        (.ok f, ()) ∧
      (read openLookup.find ⟨⟨.fixed 0, 0⟩, none⟩ f.text).run () = (.ok f', ()) ∧
      f'.text = f.text := by
  let x : Leaf := ⟨Catalogue.openField "a", "x", .text (.glob [.literal 'x']), true⟩
  let y : Leaf := ⟨Catalogue.openField "b", "y", .truth true, true⟩
  let f : Filter := .any [.all [.leaf x], .not (.leaf y)]
  have hf : ((Input.written "[ a=x ] OR b=!y").read openLookup.find ⟨⟨.fixed 0, 0⟩, none⟩).run () =
      (.ok f, ()) := by cbv
  have hn : f.Named := by
    have hx : IsIdentifier x.field.name := by decide
    have hy : IsIdentifier y.field.name := by decide
    simp [Named, f, hx, hy]
  have hs : f.ListsSeparate := by
    have hnone : commonField? [.all [.leaf x], .not (.leaf y)] = none := rfl
    simp [ListsSeparate, f, hnone]
  have hunbracketed : f.Unbracketed := by
    have hbracketed : ¬ Bracketed [.all [.leaf x], .not (.leaf y)] := by
      rintro ⟨⟨name, hleaves⟩, -⟩
      obtain ⟨l, hl, -⟩ := hleaves (.not (.leaf y)) (by simp)
      cases hl
    simpa [Unbracketed, f] using hbracketed
  obtain ⟨f', ⟨⟩, hread, hsame⟩ := (read_text_same_iff openLookup_steady hf hn hs).2 () .start
  exact ⟨_, f', hf, hread, hsame.2 hunbracketed⟩

/-- Brackets around a leaf are lost, and with them those around the alternatives. -/
theorem read_text_bracketed_leaf :
    ∃ f f' : Filter,
      ((Input.written "[ a=x ] OR a=y").read openLookup.find ⟨⟨.fixed 0, 0⟩, none⟩).run () =
        (.ok f, ()) ∧
      f.Named ∧
      (read openLookup.find ⟨⟨.fixed 0, 0⟩, none⟩ f.text).run () = (.ok f', ()) ∧
      f.text = "[ a=x OR a=y ]" ∧ f'.text = "a=x,y" := by
  let x : Leaf := ⟨Catalogue.openField "a", "x", .text (.glob [.literal 'x']), true⟩
  let y : Leaf := ⟨Catalogue.openField "a", "y", .truth true, true⟩
  have hid : IsIdentifier "a" := by decide
  refine ⟨.any [.all [.leaf x], .leaf y], .all [.any [.leaf x, .leaf y]], ?_, ?_, ?_, ?_, ?_⟩
  · cbv
  · simp [Named, x, y, Catalogue.openField, hid]
  · cbv
  · cbv
  · cbv

end

end Condition
end DownloadQuery

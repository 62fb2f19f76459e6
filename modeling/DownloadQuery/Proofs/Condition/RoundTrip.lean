import DownloadQuery.Proofs.Condition.ComparedFields
import Mathlib

/-!
# Canonical text is read back

A filter that has been read can be written and read again: the text of a filter is accepted, and the
filter that is read from it matches the same items with the same errors (`exists_read_text`).

One shape is left out, that of alternatives which are all conditions with one plain value of one
field. These are written as a single condition with a list of values, which need not be split into
the same values again.
-/

namespace DownloadQuery
namespace Condition

open DownloadQuery.Filter

/-- The runs of alternatives. -/
def Alternatives.runs {α : Type} : Alternatives α → List (Run α)
  | .last run => [run]
  | .or run rest => run :: rest.runs

/-- Whether there are several alternatives, and all are single plain leaves of one field. -/
def Alternatives.Merged (a : Alternatives Filter) : Prop :=
  2 ≤ a.runs.length ∧
    ∃ name, ∀ run ∈ a.runs, ∃ l : Leaf, run = .last (.condition (.leaf l)) ∧ l.field.name = name

mutual

/-- Whether no alternatives at any depth are single plain leaves of one field. -/
def Expression.Unmerged : Expression Filter → Prop
  | .plain alternatives => ¬ alternatives.Merged ∧ alternatives.Unmerged
  | .negated alternatives => ¬ alternatives.Merged ∧ alternatives.Unmerged

def Alternatives.Unmerged : Alternatives Filter → Prop
  | .last run => run.Unmerged
  | .or run rest => run.Unmerged ∧ rest.Unmerged

def Run.Unmerged : Run Filter → Prop
  | .last part => part.Unmerged
  | .and part rest => part.Unmerged ∧ rest.Unmerged

def Part.Unmerged : Part Filter → Prop
  | .condition _ => True
  | .group e => e.Unmerged

end

theorem Alternatives.members_eq (a : Alternatives Filter) :
    a.members = a.runs.map fun run => Progress.ofRun run.filters := by
  match a with
  | .last run => rfl
  | .or run rest => rw [Alternatives.members, rest.members_eq, Alternatives.runs, List.map_cons]

theorem Alternatives.runs_ne_nil (a : Alternatives Filter) : a.runs ≠ [] := by
  cases a <;> simp [Alternatives.runs]

theorem Run.filters_ne_nil (r : Run Filter) : r.filters ≠ [] := by
  cases r <;> simp [Run.filters]

theorem Alternatives.isCompound_filter (a : Alternatives Filter) : a.filter.isCompound = true := by
  cases a <;> rfl

theorem Expression.filter_ne_leaf (e : Expression Filter) (l : Leaf) : e.filter ≠ .leaf l := by
  rcases e with ⟨_ | _⟩ | _ <;> simp [Expression.filter, Alternatives.filter]

/-- A run whose filter is a leaf is a single condition. -/
theorem Run.eq_of_filter_leaf {r : Run Filter} {l : Leaf}
    (h : Progress.ofRun r.filters = .leaf l) : r = .last (.condition (.leaf l)) := by
  match r with
  | .last (.condition f) => rw [show f = .leaf l from h]
  | .last (.group e) => exact absurd h (e.filter_ne_leaf l)
  | .and p rest =>
    obtain ⟨f, others, hf⟩ := List.exists_cons_of_ne_nil rest.filters_ne_nil
    rw [Run.filters, hf] at h
    cases h

theorem Alternatives.merged_of_commonField {run : Run Filter} {rest : Alternatives Filter}
    {name : String} (h : commonField? (Alternatives.or run rest).members = some name) :
    (Alternatives.or run rest).Merged := by
  obtain ⟨leaves, -, hmembers, hleaves⟩ := commonField?_eq_some.1 h
  refine ⟨?_, name, fun r hr => ?_⟩
  · have := List.length_pos_of_ne_nil rest.runs_ne_nil
    simp only [Alternatives.runs, List.length_cons]
    omega
  · have hmem : Progress.ofRun r.filters ∈ leaves.map Filter.leaf := by
      rw [← hmembers, Alternatives.members_eq]
      exact List.mem_map_of_mem hr
    obtain ⟨l, hl, heq⟩ := List.mem_map.1 hmem
    exact ⟨l, Run.eq_of_filter_leaf heq.symm, hleaves l hl⟩

theorem canonical_ofRun {accept : Accept} {filters : List Filter} (hne : filters ≠ [])
    (h : ∀ f ∈ filters, Canonical accept f) : Canonical accept (Progress.ofRun filters) := by
  match filters with
  | [] => exact absurd rfl hne
  | [f] => exact h f (by simp)
  | f :: g :: rest => exact .all hne h

theorem named_ofRun {filters : List Filter} :
    (Progress.ofRun filters).Named ↔ ∀ f ∈ filters, f.Named := by
  match filters with
  | [] => exact allLeaves_all
  | [f] => simp [Progress.ofRun]
  | f :: g :: rest => exact allLeaves_all

theorem Alternatives.named_filter (b : Alternatives Filter) :
    b.filter.Named ↔ ∀ f ∈ b.members, f.Named := by
  cases b with
  | last r =>
    simp only [Alternatives.members, List.mem_singleton, forall_eq]
    rw [named_ofRun]
    exact allLeaves_all
  | or r rest => exact allLeaves_any

/-- Whether all that is accepted is accepted again as it is written. -/
def Rewrites (accept : Accept) : Prop :=
  ∀ c f, accept c = .ok f → f.Named → Canonical accept f

section
variable {accept : Accept}

mutual

/-- The filter of an expression is canonical if those of its conditions are. -/
theorem Expression.canonical_filter (hc : Rewrites accept) {e : Expression String}
    {g : Expression Filter} (h : e.mapM accept = .ok g) (hn : g.filter.Named) (hu : g.Unmerged) :
    Canonical accept g.filter := by
  cases e with
  | plain a =>
    rw [Expression.mapM] at h
    obtain ⟨b, hb, hg⟩ := exists_of_bind_ok h
    cases hg
    exact (Alternatives.canonical_members hc hb (b.named_filter.1 hn) hu.2).2 hu.1
  | negated a =>
    rw [Expression.mapM] at h
    obtain ⟨b, hb, hg⟩ := exists_of_bind_ok h
    cases hg
    exact .not b.isCompound_filter
      ((Alternatives.canonical_members hc hb (b.named_filter.1 hn) hu.2).2 hu.1)

theorem Alternatives.canonical_members (hc : Rewrites accept) {a : Alternatives String}
    {b : Alternatives Filter} (h : a.mapM accept = .ok b) (hn : ∀ f ∈ b.members, f.Named)
    (hu : b.Unmerged) :
    (∀ f ∈ b.members, Canonical accept f) ∧ (¬ b.Merged → Canonical accept b.filter) := by
  cases a with
  | last run =>
    obtain ⟨r, hr, rfl⟩ := Alternatives.mapM_last h
    simp only [Alternatives.members, List.mem_singleton, forall_eq] at hn ⊢
    rw [named_ofRun] at hn
    have hfilters := Run.canonical_filters hc hr hn hu
    exact ⟨canonical_ofRun r.filters_ne_nil hfilters, fun _ => .all r.filters_ne_nil hfilters⟩
  | or run rest =>
    rw [Alternatives.mapM] at h
    obtain ⟨r, hr, h⟩ := exists_of_bind_ok h
    obtain ⟨others, ho, hg⟩ := exists_of_bind_ok h
    cases hg
    rw [Alternatives.members, List.forall_mem_cons, named_ofRun] at hn
    have hfilters := Run.canonical_filters hc hr hn.1 hu.1
    have hmembers : ∀ f ∈ (Alternatives.or r others).members, Canonical accept f :=
      List.forall_mem_cons.2 ⟨canonical_ofRun r.filters_ne_nil hfilters,
        (Alternatives.canonical_members hc ho hn.2 hu.2).1⟩
    refine ⟨hmembers, fun hm => ?_⟩
    cases hcommon : commonField? (Alternatives.or r others).members with
    | none =>
      have hothers : 0 < others.members.length := by
        rw [others.members_eq, List.length_map]
        exact List.length_pos_of_ne_nil others.runs_ne_nil
      exact .any (Nat.succ_le_succ hothers) hcommon hmembers
    | some name => exact absurd (Alternatives.merged_of_commonField hcommon) hm

theorem Run.canonical_filters (hc : Rewrites accept) {r : Run String} {q : Run Filter}
    (h : r.mapM accept = .ok q) (hn : ∀ f ∈ q.filters, f.Named) (hu : q.Unmerged) :
    ∀ f ∈ q.filters, Canonical accept f := by
  cases r with
  | last p =>
    rw [Run.mapM] at h
    obtain ⟨u, hp, hg⟩ := exists_of_bind_ok h
    cases hg
    simp only [Run.filters, List.mem_singleton, forall_eq] at hn ⊢
    exact Part.canonical_filter hc hp hn hu
  | and p rest =>
    rw [Run.mapM] at h
    obtain ⟨u, hp, h⟩ := exists_of_bind_ok h
    obtain ⟨others, ho, hg⟩ := exists_of_bind_ok h
    cases hg
    rw [Run.filters, List.forall_mem_cons] at hn
    exact List.forall_mem_cons.2
      ⟨Part.canonical_filter hc hp hn.1 hu.1, Run.canonical_filters hc ho hn.2 hu.2⟩

theorem Part.canonical_filter (hc : Rewrites accept) {p : Part String} {u : Part Filter}
    (h : p.mapM accept = .ok u) (hn : u.filter.Named) (hu : u.Unmerged) :
    Canonical accept u.filter := by
  cases p with
  | condition c =>
    rw [Part.mapM] at h
    obtain ⟨f, hf, hg⟩ := exists_of_bind_ok h
    cases hg
    exact hc c f hf hn
  | group e =>
    rw [Part.mapM] at h
    obtain ⟨g, he, hg⟩ := exists_of_bind_ok h
    cases hg
    exact Expression.canonical_filter hc he hn hu

end

end

/-! ## Reading, writing and reading again -/

/-- Conditions as a text or as tokens. -/
inductive Input where
  | written (condition : String)
  | listed (tokens : List String)

namespace Input

def tokens? : Input → Option (List String)
  | .written condition => Token.split? condition
  | .listed tokens => some tokens

def read {m : Type → Type} [Monad m] [MonadExceptOf ConditionError m]
    (find : String → m (Except FieldError (Option Field))) (settings : Settings) :
    Input → m Filter
  | .written condition => Condition.read find settings condition
  | .listed tokens => readTokens find settings tokens

theorem read_eq {m : Type → Type} [Monad m] [MonadExceptOf ConditionError m]
    (find : String → m (Except FieldError (Option Field))) (settings : Settings) {input : Input}
    {tokens : List String} (h : input.tokens? = some tokens) :
    ∃ text, input.read find settings = readWithText find settings tokens text := by
  cases input with
  | written condition =>
    refine ⟨condition, ?_⟩
    have hsplit : Token.split? condition = some tokens := h
    rw [read, Condition.read, hsplit]
  | listed given =>
    cases h
    exact ⟨_, rfl⟩

theorem read_yields {σ : Type} {lookup : Lookup σ} {s : σ} {answers : Answers}
    (h : lookup.Steady s answers) (settings : Settings) (input : Input) :
    (input.read lookup.find settings).Yields (lookup.Visits s)
      (input.read answers.find settings) := by
  cases input with
  | written condition => exact Condition.read_yields h settings condition
  | listed tokens => exact readTokens_yields h settings tokens

/-- What the filters of all conditions have, that of the input has, if groups keep it. -/
theorem holds_of_read {P : Filter → Prop} {answers : Answers} {settings : Settings}
    (hP : Grouped P) (hc : ∀ c f, readOne answers.find settings c = .ok f → P f) {input : Input}
    {f : Filter} (h : input.read answers.find settings = .ok f) : P f := by
  cases input with
  | written condition =>
    rw [read, Condition.read] at h
    split at h
    · exact holds_of_readWithText hP hc h
    · cases h
  | listed tokens => exact holds_of_readWithText hP hc h

/-- Conditions compare the fields that names stand for. -/
theorem allLeaves_of_read {answers : Answers} {settings : Settings}
    (hown : ∀ {name : String} {field : Field}, answers name = .ok (some field) →
      answers field.name = .ok (some field))
    {input : Input} {f : Filter} (h : input.read answers.find settings = .ok f) :
    f.AllLeaves fun l => answers l.field.name = .ok (some l.field) :=
  holds_of_read (grouped_allLeaves _) (fun _ _ => allLeaves_of_readOne hown) h

end Input

/-- The filter that is read is that of any expression which derives the tokens. -/
theorem filter_of_read {σ : Type} {lookup : Lookup σ} {s : σ} {answers : Answers}
    (hl : lookup.Steady s answers) {settings : Settings} {input : Input} {f : Filter} {s' : σ}
    (hf : (input.read lookup.find settings).run s = (.ok f, s'))
    {tokens : List String} (ht : input.tokens? = some tokens)
    {e : Expression String} (he : e.Derives tokens) {g : Expression Filter}
    (hg : e.mapM (readOne answers.find settings) = .ok g) :
    lookup.Visits s s' ∧ g.filter = f := by
  obtain ⟨u, hvisit, hrun⟩ := input.read_yields hl settings s .start
  rw [hf] at hrun
  obtain ⟨hres, rfl⟩ := Prod.mk.inj hrun
  obtain ⟨text, hread⟩ := input.read_eq answers.find settings ht
  rw [hread, ← he.2, readWithText_tokens answers.find settings he.1, hg] at hres
  exact ⟨hvisit, (Except.ok.inj hres).symm⟩

/-- The text of a filter that has been read is read as a filter that matches alike, if no
alternatives are single plain leaves of one field. -/
theorem exists_read_text {σ : Type} {lookup : Lookup σ} {s : σ} {answers : Answers}
    (hl : lookup.Steady s answers) {settings : Settings} {input : Input} {f : Filter} {s' : σ}
    (hf : (input.read lookup.find settings).run s = (.ok f, s')) (hn : f.Named)
    {tokens : List String} (ht : input.tokens? = some tokens)
    {e : Expression String} (he : e.Derives tokens) {g : Expression Filter}
    (hg : e.mapM (readOne answers.find settings) = .ok g) (hu : g.Unmerged) :
    lookup.Visits s s' ∧ ∀ t, lookup.Visits s t →
      ∃ f' t', (read lookup.find settings f.text).run t = (.ok f', t') ∧
        ∀ scene r, f'.isMatch scene r = f.isMatch scene r := by
  obtain ⟨hvisit, rfl⟩ := filter_of_read hl hf ht he hg
  have hc : Rewrites (readOne answers.find settings) :=
    fun c f h hn => canonical_of_readOne hl.own_name h hn
  obtain ⟨f', hread, hmatch⟩ := (Expression.canonical_filter hc hg hn hu).exists_read
  refine ⟨hvisit, fun t htv => ?_⟩
  obtain ⟨t', -, hrun'⟩ := read_yields hl settings g.filter.text t htv
  exact ⟨f', t', by rw [hrun', hread], fun scene r => by rw [hmatch scene]⟩

theorem exists_read_text_openLookup :
    ∃ f f' : Filter,
      ((Input.written "a=x OR b=!y").read openLookup.find ⟨⟨.fixed 0, 0⟩, none⟩).run () =
        (.ok f, ()) ∧
      (read openLookup.find ⟨⟨.fixed 0, 0⟩, none⟩ f.text).run () = (.ok f', ()) ∧
      ∀ scene r, f'.isMatch scene r = f.isMatch scene r := by
  let x : Filter := .leaf ⟨Catalogue.openField "a", "x", .text (.glob [.literal 'x']), true⟩
  let y : Filter := .not (.leaf ⟨Catalogue.openField "b", "y", .truth true, true⟩)
  let e : Expression String :=
    .plain (.or (.last (.condition "a=x")) (.last (.last (.condition "b=!y"))))
  let g : Expression Filter := .plain (.or (.last (.condition x)) (.last (.last (.condition y))))
  have hf : ((Input.written "a=x OR b=!y").read openLookup.find ⟨⟨.fixed 0, 0⟩, none⟩).run () =
      (.ok (.any [x, y]), ()) := by cbv
  have hn : (Filter.any [x, y]).Named := by
    refine allLeaves_any.2 (List.forall_mem_cons.2 ⟨?_, List.forall_mem_singleton.2 ?_⟩)
    · exact allLeaves_leaf.2 (by decide)
    · exact allLeaves_leaf.2 (by decide)
  have he : e.Derives ["a=x", "OR", "b=!y"] :=
    ⟨⟨by decide, ⟨by decide, by decide, by decide⟩, by decide, by decide, by decide⟩, rfl⟩
  have hg : e.mapM (readOne (Answers.find fun name => .ok (some (Catalogue.openField name)))
      ⟨⟨.fixed 0, 0⟩, none⟩) = .ok g := by cbv
  have hu : g.Unmerged := by
    refine ⟨?_, trivial, trivial⟩
    rintro ⟨-, name, h⟩
    obtain ⟨l, hl, -⟩ := h (.last (.condition y)) (by simp [Alternatives.runs])
    simp [y] at hl
  obtain ⟨f', ⟨⟩, hread, hmatch⟩ :=
    (exists_read_text openLookup_steady hf hn (by decide) he hg hu).2 () .start
  exact ⟨_, f', hf, hread, hmatch⟩

end Condition
end DownloadQuery

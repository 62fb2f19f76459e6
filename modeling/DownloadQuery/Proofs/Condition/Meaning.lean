import DownloadQuery.Proofs.Condition.Grammar

/-!
# The meaning of conditions

A filter that has been read matches as its expression says. With the grammar this determines the
reader: it accepts a list of tokens if an expression derives it of which all conditions are
accepted, and the filter means what the expression means.
-/

namespace DownloadQuery

namespace Filter

variable (scene : Scene)

theorem isMatch_all (members : List Filter) :
    isMatch scene (.all members) = allMatch scene members := by
  funext r
  rw [isMatch]

theorem isMatch_any (members : List Filter) :
    isMatch scene (.any members) = anyMatch scene members := by
  funext r
  rw [isMatch]

theorem isMatch_not (f : Filter) :
    isMatch scene (.not f) = Evaluation.complement (isMatch scene f) := by
  funext r
  rw [isMatch, Evaluation.complement]
  rcases isMatch scene f r with ⟨_ | b, r'⟩ <;> rfl

theorem isMatch_not_ok {f : Filter} {r : Reading} {b : Bool} (h : (f.isMatch scene r).1 = .ok b) :
    ((Filter.not f).isMatch scene r).1 = .ok !b := by
  rw [isMatch_not, Evaluation.complement]
  rcases hr : f.isMatch scene r with ⟨_ | c, r'⟩
  · rw [hr] at h
    cases h
  · rw [hr] at h
    cases h
    rfl

theorem allMatch_cons (f : Filter) (rest : List Filter) :
    allMatch scene (f :: rest) = Evaluation.both (isMatch scene f) (allMatch scene rest) := by
  funext r
  rw [allMatch, Evaluation.both]
  rcases isMatch scene f r with ⟨_ | _ | _, r'⟩ <;> rfl

theorem anyMatch_cons (f : Filter) (rest : List Filter) :
    anyMatch scene (f :: rest) = Evaluation.either (isMatch scene f) (anyMatch scene rest) := by
  funext r
  rw [anyMatch, Evaluation.either]
  rcases isMatch scene f r with ⟨_ | _ | _, r'⟩ <;> rfl

/-- All of a single filter is the filter itself. -/
theorem allMatch_singleton (f : Filter) : allMatch scene [f] = isMatch scene f := by
  rw [allMatch_cons]
  funext r
  rw [Evaluation.both]
  rcases isMatch scene f r with ⟨_ | _ | _, r'⟩ <;> simp [allMatch]

theorem anyMatch_singleton (f : Filter) : anyMatch scene [f] = isMatch scene f := by
  rw [anyMatch_cons]
  funext r
  rw [Evaluation.either]
  rcases isMatch scene f r with ⟨_ | _ | _, r'⟩ <;> simp [anyMatch]

end Filter

namespace Condition

open DownloadQuery.Filter

variable (scene : Scene)

theorem isMatch_ofRun (run : List Filter) :
    isMatch scene (Progress.ofRun run) = allMatch scene run := by
  match run with
  | [] => exact isMatch_all scene []
  | [f] => exact (allMatch_singleton scene f).symm
  | f :: g :: rest => exact isMatch_all scene (f :: g :: rest)

mutual

/-- The filter of an expression means what the expression means. -/
theorem Expression.isMatch_filter (e : Expression Filter) :
    isMatch scene e.filter = e.meaning (isMatch scene) := by
  cases e with
  | plain alternatives => exact alternatives.isMatch_filter
  | negated alternatives =>
    rw [Expression.filter, isMatch_not, alternatives.isMatch_filter]
    rfl

theorem Alternatives.isMatch_filter (a : Alternatives Filter) :
    isMatch scene a.filter = a.meaning (isMatch scene) := by
  cases a with
  | last run =>
    rw [Alternatives.filter, isMatch_all, run.allMatch_filters]
    rfl
  | or run rest =>
    rw [Alternatives.filter, isMatch_any, anyMatch_cons, isMatch_ofRun, run.allMatch_filters,
      rest.anyMatch_members]
    rfl

theorem Alternatives.anyMatch_members (a : Alternatives Filter) :
    anyMatch scene a.members = a.meaning (isMatch scene) := by
  cases a with
  | last run =>
    rw [Alternatives.members, anyMatch_singleton, isMatch_ofRun, run.allMatch_filters]
    rfl
  | or run rest =>
    rw [Alternatives.members, anyMatch_cons, isMatch_ofRun, run.allMatch_filters,
      rest.anyMatch_members]
    rfl

theorem Run.allMatch_filters (g : Run Filter) :
    allMatch scene g.filters = g.meaning (isMatch scene) := by
  cases g with
  | last part =>
    rw [Run.filters, allMatch_singleton, part.isMatch_filter]
    rfl
  | and part rest =>
    rw [Run.filters, allMatch_cons, part.isMatch_filter, rest.allMatch_filters]
    rfl

theorem Part.isMatch_filter (p : Part Filter) :
    isMatch scene p.filter = p.meaning (isMatch scene) := by
  cases p with
  | condition f => rfl
  | group e => exact e.isMatch_filter

end

/-- The filter of an expression that has been read comes from the filters of its conditions. -/
theorem exists_mapM_of_readTokens {σ : Type} {lookup : Lookup σ} {settings : Settings}
    {e : Expression String} (h : e.Proper) {s s' : σ} {f : Filter}
    (hf : (readTokens lookup.find settings e.tokens).run s = (.ok f, s')) :
    ∃ g, (e.mapM (readOne lookup.find settings)).run s = (.ok g, s') ∧ g.filter = f := by
  rw [readTokens_tokens lookup.find settings h, map_eq_pure_bind] at hf
  obtain ⟨g, s₁, hg, hp⟩ := Reader.bind_ok hf
  cases hp
  exact ⟨g, hg, rfl⟩

/-- The reader accepts what the grammar derives from accepted conditions, and gives it its meaning.
-/
theorem readTokens_derives {σ : Type} (lookup : Lookup σ) (settings : Settings)
    (tokens : List String) (s : σ) :
    ((∃ f s', (readTokens lookup.find settings tokens).run s = (.ok f, s')) ↔
      ∃ e : Expression String, e.Derives tokens ∧
        ∃ g s', (e.mapM (readOne lookup.find settings)).run s = (.ok g, s')) ∧
    ∀ f s', (readTokens lookup.find settings tokens).run s = (.ok f, s') →
      ∀ e : Expression String, e.Derives tokens →
        ∃ g, (e.mapM (readOne lookup.find settings)).run s = (.ok g, s') ∧
          ∀ (scene : Scene) (r : Reading),
            f.isMatch scene r = g.meaning (Filter.isMatch scene) r := by
  refine ⟨⟨?_, ?_⟩, ?_⟩
  · rintro ⟨f, s', hf⟩
    obtain ⟨e, he, rfl⟩ := derives_of_readWithText hf
    obtain ⟨g, hg, -⟩ := exists_mapM_of_readTokens he hf
    exact ⟨e, ⟨he, rfl⟩, g, s', hg⟩
  · rintro ⟨e, ⟨he, rfl⟩, g, s', hg⟩
    refine ⟨g.filter, s', ?_⟩
    rw [readTokens_tokens lookup.find settings he, map_eq_pure_bind, Reader.run_bind, hg]
    rfl
  · rintro f s' hf e ⟨he, rfl⟩
    obtain ⟨g, hg, rfl⟩ := exists_mapM_of_readTokens he hf
    exact ⟨g, hg, fun scene r => congrFun (g.isMatch_filter scene) r⟩

end Condition
end DownloadQuery

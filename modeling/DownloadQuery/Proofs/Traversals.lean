import DownloadQuery.Proofs.Condition.Grammar
import Mathlib.Data.List.Forall2

/-!
# Traversals with a state

What a program does that goes through a list, keeps a state and may fail is told by relations: the
steps that it takes one after the other (`Chain`), or those up to one that fails (`Stops`). So what
one step does tells what the traversal does (`Performs.mapM`).
-/

namespace DownloadQuery

variable {ε σ α β : Type} {step : σ → α → β → σ → Prop} {fails : σ → α → ε → σ → Prop}
  {s t u : σ} {a : α} {as : List α} {bs : List β} {e : ε}

/-- Steps along a list, each from the state that the one before left. -/
inductive Chain (step : σ → α → β → σ → Prop) : σ → List α → List β → σ → Prop
  | nil (s : σ) : Chain step s [] [] s
  | cons {s t u : σ} {a : α} {b : β} {as : List α} {bs : List β} (hfirst : step s a b t)
    (hrest : Chain step t as bs u) : Chain step s (a :: as) (b :: bs) u

theorem Chain.length_eq (h : Chain step s as bs t) : bs.length = as.length := by
  induction h with
  | nil => rfl
  | cons _ _ ih => rw [List.length_cons, List.length_cons, ih]

/-- What each step preserves holds after all of them, and what each gives is related to where it is
taken. -/
theorem Chain.forall₂ {I : σ → Prop} {Q : α → β → Prop}
    (hstep : ∀ s a b t, I s → step s a b t → Q a b ∧ I t) (hs : I s) (h : Chain step s as bs t) :
    List.Forall₂ Q as bs ∧ I t := by
  induction h with
  | nil => exact ⟨.nil, hs⟩
  | cons hfirst _ ih =>
    obtain ⟨hq, ht⟩ := hstep _ _ _ _ hs hfirst
    obtain ⟨hrest, hu⟩ := ih ht
    exact ⟨.cons hq hrest, hu⟩

theorem chain_nil_iff : Chain step s [] bs t ↔ bs = [] ∧ s = t := by
  constructor
  · intro h
    cases h
    exact ⟨rfl, rfl⟩
  · rintro ⟨rfl, rfl⟩
    exact .nil s

theorem chain_cons_iff :
    Chain step s (a :: as) bs u ↔
      ∃ b t rest, bs = b :: rest ∧ step s a b t ∧ Chain step t as rest u := by
  constructor
  · intro h
    cases h with
    | cons hfirst hrest => exact ⟨_, _, _, rfl, hfirst, hrest⟩
  · rintro ⟨b, t, rest, rfl, hfirst, hrest⟩
    exact .cons hfirst hrest

/-- Steps along a list up to one that fails. -/
def Stops (step : σ → α → β → σ → Prop) (fails : σ → α → ε → σ → Prop) (s : σ) (as : List α) (e : ε)
    (t : σ) : Prop :=
  ∃ before a after bs u, as = before ++ a :: after ∧ Chain step s before bs u ∧ fails u a e t

theorem not_stops_nil : ¬ Stops step fails s [] e t := by
  rintro ⟨before, a, after, bs, u, has, -⟩
  simp at has

/-- Either the first step fails, or it is taken and a later one fails. -/
theorem stops_cons_iff :
    Stops step fails s (a :: as) e u ↔
      fails s a e u ∨ ∃ b t, step s a b t ∧ Stops step fails t as e u := by
  constructor
  · rintro ⟨before, c, after, bs, t, has, hbefore, hfails⟩
    cases hbefore with
    | nil =>
      cases has
      exact .inl hfails
    | cons hfirst hrest =>
      cases has
      exact .inr ⟨_, _, hfirst, _, c, after, _, t, rfl, hrest, hfails⟩
  · rintro (hfails | ⟨b, t, hfirst, before, c, after, bs, v, rfl, hrest, hfails⟩)
    · exact ⟨[], a, as, [], s, rfl, .nil s, hfails⟩
    · exact ⟨a :: before, c, after, b :: bs, v, rfl, .cons hfirst hrest, hfails⟩

theorem run_pure_ok_iff {b c : β} :
    (pure b : ExceptT ε (StateM σ) β).run s = (.ok c, t) ↔ b = c ∧ s = t := by
  constructor
  · intro h
    cases h
    exact ⟨rfl, rfl⟩
  · rintro ⟨rfl, rfl⟩
    rfl

theorem run_pure_ne_error {b : β} :
    (pure b : ExceptT ε (StateM σ) β).run s ≠ (.error e, t) := by
  intro h
  cases h

theorem run_bind_ok_iff {y : ExceptT ε (StateM σ) α} {k : α → ExceptT ε (StateM σ) β} {b : β} :
    (y >>= k).run s = (.ok b, u) ↔ ∃ a t, y.run s = (.ok a, t) ∧ (k a).run t = (.ok b, u) := by
  rw [Condition.Reader.run_bind]
  constructor
  · intro h
    split at h
    · next a t hy => exact ⟨a, t, hy, h⟩
    · cases h
  · rintro ⟨a, t, hy, hk⟩
    rw [hy]
    exact hk

theorem run_bind_error_iff {y : ExceptT ε (StateM σ) α} {k : α → ExceptT ε (StateM σ) β} :
    (y >>= k).run s = (.error e, u) ↔
      y.run s = (.error e, u) ∨ ∃ a t, y.run s = (.ok a, t) ∧ (k a).run t = (.error e, u) := by
  rw [Condition.Reader.run_bind]
  constructor
  · intro h
    split at h
    · next a t hy => exact .inr ⟨a, t, hy, h⟩
    · next hy =>
      cases h
      exact .inl hy
  · rintro (hy | ⟨a, t, hy, hk⟩)
    · rw [hy]
    · rw [hy]
      exact hk

/-- Whether a program succeeds and fails as two relations tell. -/
structure Performs (x : α → ExceptT ε (StateM σ) β) (step : σ → α → β → σ → Prop)
    (fails : σ → α → ε → σ → Prop) : Prop where
  ok_iff {s : σ} {a : α} {b : β} {t : σ} : (x a).run s = (.ok b, t) ↔ step s a b t
  error_iff {s : σ} {a : α} {e : ε} {t : σ} : (x a).run s = (.error e, t) ↔ fails s a e t

theorem Performs.fst_ok_iff {x : α → ExceptT ε (StateM σ) β} (h : Performs x step fails) {b : β} :
    ((x a).run s).1 = .ok b ↔ step s a b ((x a).run s).2 := by
  rw [← h.ok_iff]
  exact ⟨fun hfst => Prod.ext hfst rfl, congrArg Prod.fst⟩

theorem Performs.fst_error_iff {x : α → ExceptT ε (StateM σ) β} (h : Performs x step fails) :
    ((x a).run s).1 = .error e ↔ fails s a e ((x a).run s).2 := by
  rw [← h.error_iff]
  exact ⟨fun hfst => Prod.ext hfst rfl, congrArg Prod.fst⟩

/-- A traversal succeeds along a list of steps, and fails where the first step of it does. -/
theorem Performs.mapM {x : α → ExceptT ε (StateM σ) β} (h : Performs x step fails) :
    Performs (List.mapM x) (Chain step) (Stops step fails) where
  ok_iff {s as bs u} := by
    induction as generalizing s bs with
    | nil => rw [List.mapM_nil, run_pure_ok_iff, chain_nil_iff, eq_comm]
    | cons a rest ih =>
      rw [List.mapM_cons, run_bind_ok_iff, chain_cons_iff]
      simp only [run_bind_ok_iff, run_pure_ok_iff, h.ok_iff]
      constructor
      · rintro ⟨b, t, hfirst, bs', _, hrest, rfl, rfl⟩
        exact ⟨b, t, bs', rfl, hfirst, ih.1 hrest⟩
      · rintro ⟨b, t, bs', rfl, hfirst, hrest⟩
        exact ⟨b, t, hfirst, bs', u, ih.2 hrest, rfl, rfl⟩
  error_iff {s as e u} := by
    induction as generalizing s with
    | nil =>
      rw [List.mapM_nil]
      exact iff_of_false run_pure_ne_error not_stops_nil
    | cons a rest ih =>
      rw [List.mapM_cons, run_bind_error_iff, stops_cons_iff]
      simp only [run_bind_error_iff, run_pure_ne_error, and_false, exists_false, or_false, h.ok_iff,
        h.error_iff, ih]

end DownloadQuery

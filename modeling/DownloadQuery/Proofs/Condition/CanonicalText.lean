import DownloadQuery.Filter.Canonical
import DownloadQuery.Proofs.Condition.Lookups
import DownloadQuery.Proofs.Condition.Quoting
import DownloadQuery.Proofs.Condition.Rereading
import DownloadQuery.Proofs.Steps
import Mathlib.Data.List.Basic

/-!
# Reading canonical text

Canonical text is the text of an expression. Members that must all match are written one after
another, so that the runs of several filters become one run; alternatives and negations stand
between brackets.

A filter is canonical if each of its conditions is accepted as it is written. Its text is then read
as the filters that it is put together from, without the brackets that its text leaves out
(`Canonical.read_text`).
-/

namespace DownloadQuery
namespace Condition

open DownloadQuery.Filter

/-- Written tokens with a blank between each two. -/
def spaced (tokens : List String) : String := " ".intercalate (tokens.map Token.write)

theorem spaced_append {front back : List String} (hf : front ≠ []) (hb : back ≠ []) :
    spaced (front ++ back) = spaced front ++ " " ++ spaced back := by
  rw [spaced, List.map_append, String.intercalate_append_of_ne_nil (by simpa) (by simpa)]
  rfl

theorem spaced_singleton (token : String) : spaced [token] = Token.write token := by
  simp [spaced]

theorem spaced_cons {token : String} {rest : List String} (hr : rest ≠ []) :
    spaced (token :: rest) = Token.write token ++ " " ++ spaced rest := by
  rw [← List.singleton_append, spaced_append (by simp) hr, spaced_singleton]

theorem write_bare {token : String} (h : token.toList.any Token.isSpecial = false) :
    Token.write token = token := by
  simp [Token.write, Token.writeChars, h]

theorem spaced_brackets {tokens : List String} (h : tokens ≠ []) :
    spaced ("[" :: tokens ++ ["]"]) = "[ " ++ spaced tokens ++ " ]" := by
  rw [List.cons_append, spaced_cons (by simp), spaced_append h (by simp), spaced_singleton,
    write_bare (by decide), write_bare (by decide)]
  simp only [String.append_assoc]
  rfl

theorem visible_brackets {tokens : List String} (h : ∀ t ∈ tokens, t ≠ "") :
    ∀ t ∈ "[" :: tokens ++ ["]"], t ≠ "" := by
  intro t ht
  rw [List.cons_append, List.mem_cons, List.mem_append, List.mem_singleton] at ht
  rcases ht with rfl | ht | rfl
  · decide
  · exact h t ht
  · decide

theorem split?_spaced {tokens : List String} (h : ∀ t ∈ tokens, t ≠ "") :
    Token.split? (spaced tokens) = some tokens :=
  Token.split?_intercalate h

mutual

theorem Run.tokens_ne_nil (r : Run String) : r.tokens ≠ [] := by
  cases r with
  | last p => exact p.tokens_ne_nil
  | and p rest => simp [Run.tokens, p.tokens_ne_nil]

theorem Part.tokens_ne_nil (p : Part String) : p.tokens ≠ [] := by
  cases p <;> simp [Part.tokens]

end

theorem Alternatives.tokens_ne_nil (a : Alternatives String) : a.tokens ≠ [] := by
  cases a <;> simp [Alternatives.tokens, Run.tokens_ne_nil]

/-! ## Runs one after another -/

/-- One run after another. -/
def Run.append {α : Type} : Run α → Run α → Run α
  | .last p, r => .and p r
  | .and p rest, r => .and p (rest.append r)

theorem Run.tokens_append (q : Run String) (r : Run String) :
    (q.append r).tokens = q.tokens ++ r.tokens := by
  match q with
  | .last p => rfl
  | .and p rest => simp [Run.append, Run.tokens, rest.tokens_append r]

theorem Run.proper_append {q r : Run String} (hq : q.Proper) (hr : r.Proper) :
    (q.append r).Proper := by
  match q with
  | .last p => exact ⟨hq, hr⟩
  | .and p rest => exact ⟨hq.1, Run.proper_append hq.2 hr⟩

theorem Run.mapM_append {α β : Type} {m : Type → Type} [Monad m] [LawfulMonad m] (f : α → m β)
    (q r : Run α) :
    (q.append r).mapM f = (do
      let q ← q.mapM f
      return q.append (← r.mapM f)) := by
  match q with
  | .last p => simp [Run.append, Run.mapM]
  | .and p rest => simp [Run.append, Run.mapM, Run.mapM_append f rest r]

theorem Run.filters_append (q r : Run Filter) : (q.append r).filters = q.filters ++ r.filters := by
  match q with
  | .last p => rfl
  | .and p rest =>
    rw [Run.append, Run.filters, rest.filters_append r, Run.filters, List.cons_append]

/-! ## Expressions that stand for a text -/

/-- Reads a condition as a filter. -/
abbrev Accept := String → Except ConditionError Filter

/-- Whether the tokens of alternatives are written as a text, and their conditions are read as given
filters. -/
structure Alternatives.Renders (accept : Accept) (a : Alternatives String) (text : String)
    (g : Alternatives Filter) : Prop where
  proper : a.Proper
  /-- The text starts no negation. -/
  head : a.tokens.head? ≠ some "NOT"
  visible : ∀ t ∈ a.tokens, t ≠ ""
  spaced_tokens : spaced a.tokens = text
  accepted : a.mapM accept = .ok g

/-- Whether the tokens of a run are written as a text, and its conditions are read as given
filters. -/
abbrev Run.Renders (accept : Accept) (r : Run String) (text : String) (q : Run Filter) : Prop :=
  (Alternatives.last r).Renders accept text (.last q)

variable {accept : Accept}

theorem Alternatives.mapM_last {r : Run String} {g : Alternatives Filter}
    (h : (Alternatives.last r).mapM accept = .ok g) :
    ∃ q, r.mapM accept = .ok q ∧ g = .last q := by
  rw [Alternatives.mapM] at h
  obtain ⟨q, hq, hg⟩ := exists_of_bind_ok h
  cases hg
  exact ⟨q, hq, rfl⟩

theorem Run.Renders.mapM_eq {r : Run String} {x : String} {q : Run Filter}
    (h : r.Renders accept x q) : r.mapM accept = .ok q := by
  obtain ⟨q', hq', heq⟩ := Alternatives.mapM_last h.accepted
  cases heq
  exact hq'

theorem Run.renders_condition {token : String} {f : Filter} (ht : '=' ∈ token.toList)
    (h : accept token = .ok f) :
    (Run.last (.condition token)).Renders accept (Token.write token) (.last (.condition f)) := by
  have hne {keyword : String} (hk : '=' ∉ keyword.toList) : token ≠ keyword := by
    rintro rfl
    exact hk ht
  constructor
  · exact ⟨hne (by decide), hne (by decide), hne (by decide)⟩
  · simpa [Alternatives.tokens, Run.tokens, Part.tokens] using hne (by decide)
  · simpa [Alternatives.tokens, Run.tokens, Part.tokens] using hne (by decide)
  · exact spaced_singleton token
  · rw [Alternatives.mapM, Run.mapM, Part.mapM, h]
    rfl

theorem Run.Renders.append {q r : Run String} {x y : String} {g k : Run Filter}
    (hq : q.Renders accept x g) (hr : r.Renders accept y k) :
    (q.append r).Renders accept (x ++ " " ++ y) (g.append k) := by
  constructor
  · exact Run.proper_append hq.proper hr.proper
  · rw [Alternatives.tokens, Run.tokens_append, List.head?_append_of_ne_nil _ q.tokens_ne_nil]
    exact hq.head
  · intro t ht
    rw [Alternatives.tokens, Run.tokens_append, List.mem_append] at ht
    exact ht.elim (hq.visible t) (hr.visible t)
  · rw [Alternatives.tokens, Run.tokens_append, spaced_append q.tokens_ne_nil r.tokens_ne_nil,
      ← hq.spaced_tokens, ← hr.spaced_tokens]
    rfl
  · rw [Alternatives.mapM, Run.mapM_append, hq.mapM_eq, hr.mapM_eq]
    rfl

theorem Run.Renders.or {q : Run String} {r : Alternatives String} {x y : String} {g : Run Filter}
    {k : Alternatives Filter} (hq : q.Renders accept x g) (hr : r.Renders accept y k) :
    (Alternatives.or q r).Renders accept (x ++ " OR " ++ y) (.or g k) := by
  constructor
  · exact ⟨hq.proper, hr.proper⟩
  · rw [Alternatives.tokens, List.head?_append_of_ne_nil _ q.tokens_ne_nil]
    exact hq.head
  · intro t ht
    rw [Alternatives.tokens, List.mem_append, List.mem_cons] at ht
    rcases ht with ht | rfl | ht
    · exact hq.visible t ht
    · decide
    · exact hr.visible t ht
  · rw [Alternatives.tokens, spaced_append q.tokens_ne_nil (by simp), spaced_cons r.tokens_ne_nil,
      ← hq.spaced_tokens, ← hr.spaced_tokens, write_bare (by decide)]
    simp only [String.append_assoc]
    rfl
  · rw [Alternatives.mapM, hq.mapM_eq, hr.accepted]
    rfl

theorem Alternatives.Renders.group {a : Alternatives String} {x : String} {g : Alternatives Filter}
    (h : a.Renders accept x g) :
    (Run.last (.group (.plain a))).Renders accept ("[ " ++ x ++ " ]")
      (.last (.group (.plain g))) := by
  constructor
  · exact ⟨h.head, h.proper⟩
  · simp [Alternatives.tokens, Run.tokens, Part.tokens]
  · exact visible_brackets h.visible
  · rw [← h.spaced_tokens]
    exact spaced_brackets a.tokens_ne_nil
  · rw [Alternatives.mapM, Run.mapM, Part.mapM, Expression.mapM, h.accepted]
    rfl

theorem Alternatives.Renders.negated {a : Alternatives String} {x : String}
    {g : Alternatives Filter} (h : a.Renders accept x g) :
    (Run.last (.group (.negated a))).Renders accept ("[ NOT " ++ x ++ " ]")
      (.last (.group (.negated g))) := by
  constructor
  · exact h.proper
  · simp [Alternatives.tokens, Run.tokens, Part.tokens]
  · exact visible_brackets (List.forall_mem_cons.2 ⟨by decide, h.visible⟩)
  · have key : spaced ("[" :: ("NOT" :: a.tokens) ++ ["]"]) = "[ NOT " ++ x ++ " ]" := by
      rw [spaced_brackets (by simp), spaced_cons a.tokens_ne_nil, h.spaced_tokens,
        write_bare (by decide)]
      simp only [← String.append_assoc]
      rfl
    exact key
  · rw [Alternatives.mapM, Run.mapM, Part.mapM, Expression.mapM, h.accepted]
    rfl

/-! ## Canonical filters -/

/-- Whether each condition of a filter is accepted as it is written in the canonical text. -/
inductive Canonical (accept : Accept) : Filter → Prop
  | condition {token f} : '=' ∈ token.toList → accept token = .ok f → f.text = Token.write token →
      Canonical accept f
  | all {members} : members ≠ [] → (∀ f ∈ members, Canonical accept f) →
      Canonical accept (.all members)
  | any {members} : 2 ≤ members.length → commonField? members = none →
      (∀ f ∈ members, Canonical accept f) → Canonical accept (.any members)
  | not {f} : f.isCompound = true → Canonical accept f → Canonical accept (.not f)

theorem texts_ne_nil {members : List Filter} (h : members ≠ []) : texts members ≠ [] := by
  rw [texts_eq_map]
  simpa using h

/-- Members that must all match are written one after another. -/
theorem exists_renders_all {members : List Filter} (hne : members ≠ [])
    (h : ∀ f ∈ members, ∃ (r : Run String) (q : Run Filter),
      r.Renders accept f.text q ∧ q.filters = f.reread) :
    ∃ (r : Run String) (q : Run Filter), r.Renders accept (" ".intercalate (texts members)) q ∧
      q.filters = (rereads members).flatten := by
  induction members with
  | nil => exact absurd rfl hne
  | cons f rest ih =>
    rw [List.forall_mem_cons] at h
    obtain ⟨⟨r, q, hr, hq⟩, hothers⟩ := h
    by_cases hrest : rest = []
    · exact ⟨r, q, by simpa [hrest, texts] using hr, by simp [hrest, rereads, hq]⟩
    · obtain ⟨s, k, hs, hk⟩ := ih hrest hothers
      have key := hr.append hs
      rw [← String.intercalate_cons_of_ne_nil (texts_ne_nil hrest)] at key
      refine ⟨r.append s, q.append k, key, ?_⟩
      rw [Run.filters_append, hq, hk, rereads, List.flatten_cons]

/-- Members of which one must match are written as alternatives. -/
theorem exists_renders_any {members : List Filter} (hne : members ≠ [])
    (h : ∀ f ∈ members, ∃ (r : Run String) (q : Run Filter),
      r.Renders accept f.text q ∧ q.filters = f.reread) :
    ∃ (a : Alternatives String) (g : Alternatives Filter),
      a.Renders accept (" OR ".intercalate (texts members)) g ∧
      g.members = (rereads members).map Progress.ofRun ∧ g.filter = ofRuns (rereads members) := by
  induction members with
  | nil => exact absurd rfl hne
  | cons f rest ih =>
    rw [List.forall_mem_cons] at h
    obtain ⟨⟨r, q, hr, hq⟩, hothers⟩ := h
    by_cases hrest : rest = []
    · refine ⟨.last r, .last q, by simpa [hrest, texts] using hr, ?_, ?_⟩
      · simp [hrest, rereads, Alternatives.members, hq]
      · simp [hrest, rereads, Alternatives.filter, hq, ofRuns]
    · obtain ⟨a, g, ha, hmembers, -⟩ := ih hrest hothers
      have key := hr.or ha
      rw [← String.intercalate_cons_of_ne_nil (texts_ne_nil hrest)] at key
      have hlength : 2 ≤ (rereads (f :: rest)).length := by
        have hpos := List.length_pos_of_ne_nil (rereads_ne_nil hrest)
        simp only [rereads, List.length_cons]
        omega
      refine ⟨.or r a, .or q g, key, ?_, ?_⟩
      · rw [Alternatives.members, hmembers, hq, rereads, List.map_cons]
      · rw [Alternatives.filter, hmembers, hq, ofRuns_several hlength, rereads, List.map_cons]

/-- The canonical text of a canonical filter is the text of a run, which is read as what becomes of
the filter. -/
theorem Canonical.exists_renders (hc : ∀ token f, accept token = .ok f → f.IsCondition) {f : Filter}
    (h : Canonical accept f) :
    ∃ (r : Run String) (q : Run Filter), r.Renders accept f.text q ∧ q.filters = f.reread := by
  induction h with
  | @condition token f ht hf htext =>
    refine ⟨_, _, htext ▸ Run.renders_condition ht hf, ?_⟩
    rw [reread_of_isCondition (hc token f hf)]
    rfl
  | @all members hne _ ih =>
    obtain ⟨r, q, hr, hq⟩ := exists_renders_all hne ih
    exact ⟨r, q, by rwa [text], by rwa [reread]⟩
  | @any members hlength hcommon _ ih =>
    have hne : members ≠ [] := List.ne_nil_of_length_pos (by omega)
    obtain ⟨a, g, ha, -, hg⟩ := exists_renders_any hne ih
    refine ⟨_, _, by simpa only [text, hcommon] using ha.group, ?_⟩
    rw [reread_any hcommon, ← hg]
    rfl
  | @not f hf _ ih =>
    obtain ⟨r, q, hr, hq⟩ := ih
    have htext : (Filter.not f).text = "[ NOT " ++ ("[ " ++ f.text ++ " ]") ++ " ]" := by
      rw [text_not hf, ← String.toList_inj]
      simp
    refine ⟨_, _, htext ▸ (Alternatives.Renders.group hr).negated, ?_⟩
    rw [reread_not hf, ← hq]
    rfl

/-- Canonical text is read as what becomes of the filter. -/
theorem Canonical.read_text {answers : Answers} {settings : Settings} {f : Filter}
    (hc : ∀ token f, readOne answers.find settings token = .ok f → f.IsCondition)
    (h : Canonical (readOne answers.find settings) f) :
    read answers.find settings f.text = .ok (.all f.reread) := by
  obtain ⟨r, q, hr, hq⟩ := h.exists_renders hc
  have hproper : (Expression.plain (.last r)).Proper := ⟨hr.head, hr.proper⟩
  have hmap : (Expression.plain (.last r)).mapM (readOne answers.find settings) =
      .ok (.plain (.last q)) := by
    rw [Expression.mapM, hr.accepted]
    rfl
  rw [read, ← hr.spaced_tokens, split?_spaced hr.visible, ← hq]
  exact (readWithText_tokens answers.find settings hproper _).trans (by rw [hmap]; rfl)

end Condition
end DownloadQuery

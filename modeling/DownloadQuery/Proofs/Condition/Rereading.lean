import DownloadQuery.Filter.Canonical
import DownloadQuery.Proofs.Condition.Meaning

/-!
# What canonical text says

Canonical text keeps what a filter means, but not its shape. Members that must all match lose the
brackets between them, so that a filter becomes a list of filters that must all match
(`Filter.reread`), and a group that is negated gets brackets of its own. What becomes of a filter
matches as the filter does (`allMatch_reread`).
-/

namespace DownloadQuery
namespace Condition

/-- All of the filters of a single run, or any of several runs. -/
def ofRuns : List (List Filter) → Filter
  | [run] => .all run
  | runs => .any (runs.map Progress.ofRun)

theorem ofRuns_several {runs : List (List Filter)} (h : 2 ≤ runs.length) :
    ofRuns runs = .any (runs.map Progress.ofRun) := by
  rcases runs with _ | ⟨first, _ | ⟨second, rest⟩⟩
  · simp at h
  · simp at h
  · rfl

end Condition

namespace Filter

open DownloadQuery.Condition

theorem texts_eq_map (members : List Filter) : texts members = members.map text := by
  induction members with
  | nil => rfl
  | cons f rest ih => rw [texts, ih, List.map_cons]

theorem text_all_singleton (f : Filter) : (Filter.all [f]).text = f.text := by
  simp [text, texts]

theorem text_ofRun (run : List Filter) : (Progress.ofRun run).text = (Filter.all run).text := by
  match run with
  | [] => rfl
  | [f] => exact (text_all_singleton f).symm
  | f :: g :: rest => rfl

/-- A negated group stands between two pairs of brackets. -/
theorem text_not {f : Filter} (h : f.isCompound = true) :
    (Filter.not f).text = "[ NOT [ " ++ f.text ++ " ] ]" := by
  have hparts : f.parts? = none := by cases f <;> simp_all [isCompound, parts?]
  simp only [text, hparts, if_pos h]

mutual

/-- The filters that the text of a filter asks for one after another. -/
def reread : Filter → List Filter
  | .leaf l => [.leaf l]
  | .all members => (rereads members).flatten
  | .any members =>
    if (commonField? members).isSome then [.any members] else [ofRuns (rereads members)]
  | .not inner => if inner.isCompound then [.not (.all [.all inner.reread])] else [.not inner]

def rereads : List Filter → List (List Filter)
  | [] => []
  | f :: rest => f.reread :: rereads rest

end

theorem rereads_eq_map (members : List Filter) : rereads members = members.map reread := by
  induction members with
  | nil => rfl
  | cons f rest ih => rw [rereads, ih, List.map_cons]

theorem reread_any {members : List Filter} (h : commonField? members = none) :
    (Filter.any members).reread = [ofRuns (rereads members)] := by
  rw [reread, h]
  rfl

theorem reread_merged {members : List Filter} {name : String}
    (h : commonField? members = some name) :
    (Filter.any members).reread = [.any members] := by
  rw [reread, h]
  rfl

theorem reread_not {inner : Filter} (h : inner.isCompound = true) :
    (Filter.not inner).reread = [.not (.all [.all inner.reread])] := by
  rw [reread, if_pos h]

theorem rereads_ne_nil {members : List Filter} (h : members ≠ []) : rereads members ≠ [] := by
  obtain ⟨f, rest, rfl⟩ := List.exists_cons_of_ne_nil h
  simp [rereads]

/-- Whether a filter is one that single conditions have: a leaf, the negation of one, or any of
several of these. -/
inductive IsCondition : Filter → Prop
  | leaf (l : Leaf) : IsCondition (.leaf l)
  | not (l : Leaf) : IsCondition (.not (.leaf l))
  | any {members : List Filter} (hlength : 2 ≤ members.length)
      (hmembers : ∀ f ∈ members, ∃ l : Leaf, f = .leaf l ∨ f = .not (.leaf l)) :
      IsCondition (.any members)

/-- A single condition stays as it is. -/
theorem reread_of_isCondition {f : Filter} (h : f.IsCondition) : f.reread = [f] := by
  cases h with
  | leaf l => rfl
  | not l => rfl
  | @any members hlength hmembers =>
    cases hcommon : commonField? members with
    | some name => exact reread_merged hcommon
    | none =>
      have hruns : members.map (Progress.ofRun ∘ reread) = members.map id := by
        refine List.map_congr_left fun f hf => ?_
        obtain ⟨l, rfl | rfl⟩ := hmembers f hf <;> rfl
      rw [reread_any hcommon, ofRuns_several (by rwa [rereads_eq_map, List.length_map]),
        rereads_eq_map, List.map_map, hruns, List.map_id]

variable (scene : Scene)

theorem allMatch_append (front back : List Filter) :
    allMatch scene (front ++ back) =
      Evaluation.both (allMatch scene front) (allMatch scene back) := by
  induction front with
  | nil =>
    funext r
    simp [allMatch, Evaluation.both]
  | cons f front ih =>
    rw [List.cons_append, allMatch_cons, allMatch_cons, ih, Evaluation.both_assoc]

theorem isMatch_ofRuns (runs : List (List Filter)) :
    isMatch scene (ofRuns runs) = anyMatch scene (runs.map Progress.ofRun) := by
  rcases runs with _ | ⟨run, _ | ⟨second, rest⟩⟩
  · exact isMatch_any scene []
  · rw [ofRuns, isMatch_all, List.map_singleton, anyMatch_singleton, isMatch_ofRun]
  · exact isMatch_any scene _

mutual

/-- What is read from the text of a filter matches as the filter does. -/
theorem allMatch_reread (f : Filter) : allMatch scene f.reread = isMatch scene f := by
  cases f with
  | leaf l => exact allMatch_singleton scene _
  | all members => rw [reread, (matches_rereads members).1, isMatch_all]
  | any members =>
    cases hcommon : commonField? members with
    | some name => rw [reread_merged hcommon, allMatch_singleton]
    | none =>
      rw [reread_any hcommon, allMatch_singleton, isMatch_ofRuns, (matches_rereads members).2,
        isMatch_any]
  | not inner =>
    by_cases hinner : inner.isCompound
    · rw [reread_not hinner, allMatch_singleton, isMatch_not, isMatch_all, allMatch_singleton,
        isMatch_all, allMatch_reread inner, isMatch_not]
    · rw [reread, if_neg hinner, allMatch_singleton]

theorem matches_rereads (members : List Filter) :
    allMatch scene (rereads members).flatten = allMatch scene members ∧
      anyMatch scene ((rereads members).map Progress.ofRun) = anyMatch scene members := by
  cases members with
  | nil => exact ⟨rfl, rfl⟩
  | cons f rest =>
    obtain ⟨hall, hany⟩ := matches_rereads rest
    constructor
    · rw [rereads, List.flatten_cons, allMatch_append, allMatch_reread f, hall, allMatch_cons]
    · rw [rereads, List.map_cons, anyMatch_cons, isMatch_ofRun, allMatch_reread f, hany,
        anyMatch_cons]

end

end Filter
end DownloadQuery

import DownloadQuery.Proofs.Condition.Meaning
import DownloadQuery.Proofs.Filter.Leaves
import DownloadQuery.Proofs.Reading.Kept

/-!
# Filters that test one field

A filter that reads one field and is decided by its value leaves nothing behind that a filter of the
same kind would notice, unless the field counts its readings. So alternatives of this kind can be
told apart from the order in which they are tried (`anyMatch_of_tests`).
-/

namespace DownloadQuery
namespace Filter

/-- What members say when they are tried one after another, whatever those before them say. -/
def turns (scene : Scene) : List Filter → Reading → List (Except (Halt FieldError) Bool)
  | [], _ => []
  | f :: rest, r => (f.isMatch scene r).1 :: turns scene rest (f.isMatch scene r).2

/-- If no member fails in its turn, one of them matches if some member does in its turn. -/
theorem anyMatch_turns {scene : Scene} {members : List Filter} {r : Reading}
    (hok : ∀ verdict ∈ turns scene members r, ∃ b, verdict = .ok b) :
    ∃ b, (anyMatch scene members r).1 = .ok b ∧
      (b = true ↔ .ok true ∈ turns scene members r) := by
  induction members generalizing r with
  | nil => exact ⟨false, by rw [anyMatch], by simp [turns]⟩
  | cons f rest ih =>
    rw [turns, List.forall_mem_cons] at hok
    obtain ⟨⟨b, hb⟩, hrest⟩ := hok
    rw [anyMatch_cons, Evaluation.either, turns]
    rcases hf : f.isMatch scene r with ⟨_ | _ | _, left⟩
    · rw [hf] at hb
      cases hb
    · rw [hf] at hrest
      simpa using ih hrest
    · exact ⟨true, rfl, by simp⟩

/-- Whether a filter reads one field once and is decided by its value. -/
def Tests (f : Filter) (field : Field) : Prop :=
  ∃ decide : Except (Halt FieldError) FieldValue → Except (Halt FieldError) Bool, ∀ scene r,
    f.isMatch scene r = (decide (field.value scene r).1, (field.value scene r).2)

theorem tests_leaf (l : Leaf) : (Filter.leaf l).Tests l.field := by
  refine ⟨fun result => result.bind fun v => l.test.passes l.field.name v, ?_⟩
  intro scene r
  rw [isMatch, l.isMatch_eq]

theorem Tests.not {f : Filter} {field : Field} (h : f.Tests field) :
    (Filter.not f).Tests field := by
  obtain ⟨verdict, hf⟩ := h
  refine ⟨fun result => (verdict result).map (! ·), ?_⟩
  intro scene r
  rw [isMatch_not, Evaluation.complement, hf]
  dsimp only
  cases verdict (field.value scene r).1 <;> rfl

theorem Tests.all {f : Filter} {field : Field} (h : f.Tests field) :
    (Filter.all [f]).Tests field := by
  obtain ⟨verdict, hf⟩ := h
  refine ⟨verdict, ?_⟩
  intro scene r
  rw [isMatch_all, allMatch_singleton, hf]

/-- What a filter that tests one field leaves behind does not show in another one's result. -/
theorem Tests.isMatch_again {f g : Filter} {field : Field} (hf : f.Tests field)
    (hg : g.Tests field) (hfield : field.source.Repeatable) (scene : Scene) (r : Reading) :
    (g.isMatch scene (f.isMatch scene r).2).1 = (g.isMatch scene r).1 := by
  obtain ⟨_, hf⟩ := hf
  obtain ⟨_, hg⟩ := hg
  rw [hg, hg, hf, Field.value_again hfield]

/-- Filters that test one field say in their turn what they say by themselves. -/
theorem turns_of_tests {field : Field} (hfield : field.source.Repeatable) {scene : Scene}
    {members : List Filter} (h : ∀ f ∈ members, f.Tests field) (r : Reading) :
    turns scene members r = members.map fun f => (f.isMatch scene r).1 := by
  induction members generalizing r with
  | nil => rfl
  | cons f rest ih =>
    obtain ⟨hf, hrest⟩ := List.forall_mem_cons.1 h
    rw [turns, ih hrest, List.map_cons]
    congr 1
    exact List.map_congr_left fun g hg => hf.isMatch_again (hrest g hg) hfield scene r

/-- Filters that test one field are tried as if each were the only one. -/
theorem anyMatch_of_tests {field : Field} (hfield : field.source.Repeatable) {scene : Scene}
    {members : List Filter} (h : ∀ f ∈ members, f.Tests field) {r : Reading}
    (hok : ∀ f ∈ members, ∃ b, (f.isMatch scene r).1 = .ok b) :
    ∃ b, (anyMatch scene members r).1 = .ok b ∧
      (b = true ↔ ∃ f ∈ members, (f.isMatch scene r).1 = .ok true) := by
  have hturns := @turns_of_tests field hfield scene members h r
  have key := @anyMatch_turns scene members r
  rw [hturns] at key
  simpa using key (by simpa using hok)

end Filter
end DownloadQuery

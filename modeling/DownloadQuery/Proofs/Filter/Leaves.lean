import DownloadQuery.Filter.Basic

/-!
# Leaves of filters

What holds of all leaves of a filter, wherever they stand.
-/

namespace DownloadQuery

/-- A leaf tests the value of its field, and leaves behind what reading the field does. -/
theorem Leaf.isMatch_eq (l : Leaf) (scene : Scene) (r : Reading) :
    l.isMatch scene r =
      ((l.field.value scene r).1.bind fun v => liftM (l.test.passes l.field.name v),
        (l.field.value scene r).2) := by
  rw [isMatch]
  rcases l.field.value scene r with ⟨_ | _, _⟩ <;> rfl

theorem Leaf.isMatch_value {l : Leaf} {scene : Scene} {r : Reading} {v : FieldValue}
    (hv : (l.field.value scene r).1 = .ok v) :
    (l.isMatch scene r).1 = liftM (l.test.passes l.field.name v) := by
  rw [isMatch_eq, hv]
  rfl

namespace Filter

mutual

/-- The leaves of a filter, from the left. -/
def leaves : Filter → List Leaf
  | .leaf l => [l]
  | .all members => leavesOfAll members
  | .any members => leavesOfAll members
  | .not inner => inner.leaves

def leavesOfAll : List Filter → List Leaf
  | [] => []
  | f :: rest => f.leaves ++ leavesOfAll rest

end

/-- Whether all leaves have a property. -/
def AllLeaves (P : Leaf → Prop) (f : Filter) : Prop := ∀ l ∈ f.leaves, P l

variable {P : Leaf → Prop}

@[simp] theorem allLeaves_leaf {l : Leaf} : (Filter.leaf l).AllLeaves P ↔ P l := by
  simp [AllLeaves, leaves]

theorem forall_mem_leavesOfAll {members : List Filter} :
    (∀ l ∈ leavesOfAll members, P l) ↔ ∀ f ∈ members, f.AllLeaves P := by
  induction members with
  | nil => simp [leavesOfAll]
  | cons f rest ih =>
    rw [List.forall_mem_cons, ← ih, leavesOfAll, List.forall_mem_append]
    rfl

@[simp] theorem allLeaves_all {members : List Filter} :
    (Filter.all members).AllLeaves P ↔ ∀ f ∈ members, f.AllLeaves P :=
  forall_mem_leavesOfAll

@[simp] theorem allLeaves_any {members : List Filter} :
    (Filter.any members).AllLeaves P ↔ ∀ f ∈ members, f.AllLeaves P :=
  forall_mem_leavesOfAll

@[simp] theorem allLeaves_not {f : Filter} : (Filter.not f).AllLeaves P ↔ f.AllLeaves P :=
  Iff.rfl

end Filter
end DownloadQuery

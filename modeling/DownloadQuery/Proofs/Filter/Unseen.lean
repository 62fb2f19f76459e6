import DownloadQuery.Proofs.Condition.Meaning
import DownloadQuery.Proofs.Filter.Leaves
import DownloadQuery.Proofs.Reading.Kept

/-!
# What filters do not see

A filter learns of an item what its leaves read. Readings that look the same to each of the fields
it compares, and still do so after these have been read, are the same to the filter
(`Filter.blind_isMatch`). So how often other fields have been computed does not show in a result
(`Filter.isMatch_tally`).
-/

namespace DownloadQuery

namespace Reading

variable {α β : Type} {R : Reading → Reading → Prop}

/-- Whether a step yields the same for related readings and leaves related readings behind. -/
def Blind (R : Reading → Reading → Prop) (x : Reading → α × Reading) : Prop :=
  ∀ r r', R r r' → (x r).1 = (x r').1 ∧ R (x r).2 (x r').2

theorem blind_pure (a : α) : Blind R fun r => (a, r) := fun _ _ h => ⟨rfl, h⟩

theorem Blind.bind {x : Reading → α × Reading} {k : α → Reading → β × Reading} (hx : Blind R x)
    (hk : ∀ a, Blind R (k a)) : Blind R fun r => k (x r).1 (x r).2 := by
  intro r r' h
  obtain ⟨hresult, hleft⟩ := hx r r' h
  dsimp only
  rw [hresult]
  exact hk _ _ _ hleft

variable {a b : Evaluation (Halt FieldError) Reading}

theorem Blind.both (ha : Blind R a) (hb : Blind R b) : Blind R (Evaluation.both a b) := by
  intro r r' h
  obtain ⟨hresult, hleft⟩ := ha r r' h
  rw [Evaluation.both, Evaluation.both]
  rcases hx : a r with ⟨result, left⟩
  rcases hy : a r' with ⟨result', left'⟩
  rw [hx, hy] at hresult hleft
  obtain rfl : result = result' := hresult
  rcases result with _ | _ | _
  · exact ⟨rfl, hleft⟩
  · exact ⟨rfl, hleft⟩
  · exact hb _ _ hleft

theorem Blind.either (ha : Blind R a) (hb : Blind R b) : Blind R (Evaluation.either a b) := by
  intro r r' h
  obtain ⟨hresult, hleft⟩ := ha r r' h
  rw [Evaluation.either, Evaluation.either]
  rcases hx : a r with ⟨result, left⟩
  rcases hy : a r' with ⟨result', left'⟩
  rw [hx, hy] at hresult hleft
  obtain rfl : result = result' := hresult
  rcases result with _ | _ | _
  · exact ⟨rfl, hleft⟩
  · exact hb _ _ hleft
  · exact ⟨rfl, hleft⟩

theorem Blind.complement (ha : Blind R a) : Blind R (Evaluation.complement a) := by
  have heq : Evaluation.complement a = fun r => ((a r).1.map (! ·), (a r).2) := by
    funext r
    rw [Evaluation.complement]
    rcases a r with ⟨_ | _, _⟩ <;> rfl
  rw [heq]
  exact ha.bind fun result => blind_pure _

end Reading

open Reading (Blind)

variable {scene : Scene} {R : Reading → Reading → Prop}

theorem Leaf.blind_isMatch {l : Leaf} (h : Blind R (l.field.value scene)) :
    Blind R (l.isMatch scene) := by
  rw [funext (l.isMatch_eq scene)]
  exact h.bind fun result => Reading.blind_pure (result.bind _)

namespace Filter

mutual

/-- What the fields of a filter do not tell apart, the filter does not either. -/
theorem blind_isMatch {f : Filter} (h : f.AllLeaves fun l => Blind R (l.field.value scene)) :
    Blind R (f.isMatch scene) := by
  cases f with
  | leaf l => exact Leaf.blind_isMatch (allLeaves_leaf.1 h)
  | all members =>
    rw [isMatch_all]
    exact blind_allMatch (allLeaves_all.1 h)
  | any members =>
    rw [isMatch_any]
    exact blind_anyMatch (allLeaves_any.1 h)
  | not inner =>
    rw [isMatch_not]
    exact (blind_isMatch (allLeaves_not.1 h)).complement

theorem blind_allMatch {members : List Filter}
    (h : ∀ f ∈ members, f.AllLeaves fun l => Blind R (l.field.value scene)) :
    Blind R (allMatch scene members) := by
  cases members with
  | nil => exact Reading.blind_pure _
  | cons f rest =>
    obtain ⟨hf, hrest⟩ := List.forall_mem_cons.1 h
    rw [allMatch_cons]
    exact (blind_isMatch hf).both (blind_allMatch hrest)

theorem blind_anyMatch {members : List Filter}
    (h : ∀ f ∈ members, f.AllLeaves fun l => Blind R (l.field.value scene)) :
    Blind R (anyMatch scene members) := by
  cases members with
  | nil => exact Reading.blind_pure _
  | cons f rest =>
    obtain ⟨hf, hrest⟩ := List.forall_mem_cons.1 h
    rw [anyMatch_cons]
    exact (blind_isMatch hf).either (blind_anyMatch hrest)

end

end Filter

/-! ## Tallies -/

/-- What reading a field yields, and what the item keeps then, depends on the value computed anew and
on what the item has kept. -/
theorem Field.value_of_fresh {f : Field} {r r' : Reading}
    (hfresh : f.fresh scene r.item.raw ((f.charge r.tally).count f.name) =
      f.fresh scene r'.item.raw ((f.charge r'.tally).count f.name))
    (hkept : r.item.kept = r'.item.kept) :
    (f.value scene r).1 = (f.value scene r').1 ∧
      (f.value scene r).2.item.kept = (f.value scene r').2.item.kept := by
  obtain ⟨⟨raw, kept⟩, tally⟩ := r
  obtain ⟨⟨raw', _⟩, tally'⟩ := r'
  obtain rfl := hkept
  have hsame (v : FieldValue) :
      (Item.keep ⟨raw, kept⟩ f.name v).kept = (Item.keep ⟨raw', kept⟩ f.name v).kept := rfl
  unfold value fetch Item.kept?
  dsimp only at hfresh ⊢
  rw [hfresh]
  generalize f.fresh scene raw' _ = result
  split
  · cases kept.lookup f.name with
    | some v => exact ⟨rfl, rfl⟩
    | none =>
      cases result with
      | error e => exact ⟨rfl, rfl⟩
      | ok v => exact ⟨rfl, hsame v⟩
  · exact ⟨rfl, rfl⟩

/-- A field that yields the same whenever it is computed does not show how often that has been. -/
theorem Field.blind_value {f : Field} (h : f.source.Repeatable) :
    Blind (fun r r' => r.item = r'.item) (f.value scene) := by
  intro r r' hitem
  have hraw : (f.value scene r).2.item.raw = (f.value scene r').2.item.raw := by
    rw [raw_value, raw_value, hitem]
  have hfresh : f.fresh scene r.item.raw ((f.charge r.tally).count f.name) =
      f.fresh scene r'.item.raw ((f.charge r'.tally).count f.name) := by
    rw [hitem]
    exact fresh_eq h scene _ _ _
  obtain ⟨hresult, hkept⟩ := value_of_fresh hfresh (congrArg Item.kept hitem)
  exact ⟨hresult, (Item.mk.injEq ..).mpr ⟨hraw, hkept⟩⟩

/-- How often fields have been computed does not show in what a filter says of an item, if none of
its fields counts that. -/
theorem Filter.isMatch_tally {f : Filter} (h : f.AllLeaves fun l => l.field.source.Repeatable)
    (scene : Scene) (item : Item) (tally tally' : Tally) :
    (f.isMatch scene ⟨item, tally⟩).1 = (f.isMatch scene ⟨item, tally'⟩).1 :=
  (blind_isMatch (fun l hl => Field.blind_value (h l hl)) ⟨item, tally⟩ ⟨item, tally'⟩ rfl).1

end DownloadQuery

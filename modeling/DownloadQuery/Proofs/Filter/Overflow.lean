import DownloadQuery.Proofs.Condition.Meaning
import DownloadQuery.Proofs.Content.ByteTotals

/-!
# What ends a filter

Only sums of file sizes end the program. So a filter that reads an item whose bytes fit into 64 bits
has an answer or an error (`Filter.isMatch_ne_overflow`), whatever fields it compares.
-/

namespace DownloadQuery

/-- Whether the sizes of the files of an item, if it has files, can be added up. -/
def Snapshot.BytesFit (raw : Snapshot) : Prop :=
  ∀ files, Derivation.filesOf raw = .ok files → TypeShare.bytes files < 2 ^ 64

section
variable {ε α β : Type}

theorem liftM_ne_overflow (x : Except ε α) :
    (liftM x : Except (Halt ε) α) ≠ .error .overflow := by
  cases x <;> intro h <;> cases h

theorem bind_ne_overflow {x : Except (Halt ε) α} {k : α → Except (Halt ε) β}
    (hx : x ≠ .error .overflow) (hk : ∀ a, x = .ok a → k a ≠ .error .overflow) :
    x >>= k ≠ .error .overflow := by
  cases x with
  | error halt =>
    intro h
    exact hx (congrArg Except.error (Except.error.inj h))
  | ok a => exact hk a rfl

theorem pure_ne_overflow (a : α) : (pure a : Except (Halt ε) α) ≠ .error .overflow := by
  intro h
  cases h

end

variable {scene : Scene} {raw : Snapshot} {r : Reading}

namespace Derivation

theorem compute_ne_overflow (h : raw.BytesFit) (d : Derivation) :
    d.compute scene raw ≠ .error .overflow := by
  have hlift {α : Type} {x : Except FieldError α} {k : α → Except (Halt FieldError) Json}
      (hk : ∀ a, x = .ok a → k a ≠ .error .overflow) : liftM x >>= k ≠ .error .overflow := by
    apply bind_ne_overflow (liftM_ne_overflow x)
    intro a ha
    exact hk a (liftM_eq_ok_iff.1 ha)
  cases d with
  | ghost | tracker | trackerAlias => exact hlift fun _ _ => pure_ne_overflow _
  | transferRate | leechTime => exact hlift fun _ _ => hlift fun _ _ => pure_ne_overflow _
  | age | seedTime => exact hlift fun _ _ => pure_ne_overflow _
  | realPath =>
    apply hlift
    intro path _
    split <;> exact pure_ne_overflow _
  | kinds percent =>
    apply hlift
    intro files hfiles
    have htypes : TypeShare.dominantTypes files percent =
        .ok (TypeShare.typesFrom files percent) := by
      rw [TypeShare.dominantTypes_eq, if_pos (h files hfiles)]
    rw [htypes]
    exact pure_ne_overflow _
  | traits table themes =>
    refine hlift fun name _ => hlift fun tracker _ => hlift fun files hfiles => ?_
    rw [mainType?_eq, if_pos (h files hfiles)]
    exact pure_ne_overflow _

end Derivation

namespace Field

theorem fresh_ne_overflow (h : raw.BytesFit) (f : Field) (call : Nat) :
    f.fresh scene raw call ≠ .error .overflow := by
  apply bind_ne_overflow
  · cases hsource : f.source with
    | derived d => exact Derivation.compute_ne_overflow h d
    | stored | other name | failing reason | counter =>
      intro hread
      cases hread
  · intro v _
    exact liftM_ne_overflow _

theorem value_ne_overflow (h : r.item.raw.BytesFit) (f : Field) :
    (f.value scene r).1 ≠ .error .overflow := by
  cases f.outcome scene r with
  | computed call hresult =>
    rw [hresult]
    exact fresh_ne_overflow h f call
  | found v _ _ hresult | stored v _ _ _ _ hresult =>
    rw [hresult]
    exact pure_ne_overflow v

end Field

/-- Whether a step on an item whose bytes fit does not end the program and leaves the raw values. -/
def Reading.Finishes (x : Evaluation (Halt FieldError) Reading) : Prop :=
  ∀ r, r.item.raw.BytesFit → (x r).1 ≠ .error .overflow ∧ (x r).2.item.raw = r.item.raw

namespace Reading

variable {a b : Evaluation (Halt FieldError) Reading}

theorem finishes_pure (b : Bool) : Finishes fun r => (.ok b, r) :=
  fun _ _ => ⟨pure_ne_overflow b, rfl⟩

/-- What goes on after an answer finishes if both parts do. -/
theorem Finishes.andThen (ha : Finishes a) (hb : Finishes b) {r : Reading}
    (h : r.item.raw.BytesFit) :
    (b (a r).2).1 ≠ .error .overflow ∧ (b (a r).2).2.item.raw = r.item.raw := by
  have hraw : (a r).2.item.raw = r.item.raw := (ha r h).2
  obtain ⟨hresult, hleft⟩ := hb (a r).2 (hraw ▸ h)
  exact ⟨hresult, hleft.trans hraw⟩

theorem Finishes.both (ha : Finishes a) (hb : Finishes b) : Finishes (Evaluation.both a b) := by
  intro r h
  have hfirst := ha r h
  have hboth := ha.andThen hb h
  rw [Evaluation.both]
  rcases hr : a r with ⟨_ | _ | _, left⟩ <;> rw [hr] at hfirst hboth
  · exact hfirst
  · exact hfirst
  · exact hboth

theorem Finishes.either (ha : Finishes a) (hb : Finishes b) : Finishes (Evaluation.either a b) := by
  intro r h
  have hfirst := ha r h
  have heither := ha.andThen hb h
  rw [Evaluation.either]
  rcases hr : a r with ⟨_ | _ | _, left⟩ <;> rw [hr] at hfirst heither
  · exact hfirst
  · exact heither
  · exact hfirst

theorem Finishes.complement (ha : Finishes a) : Finishes (Evaluation.complement a) := by
  intro r h
  have hfirst := ha r h
  rw [Evaluation.complement]
  rcases hr : a r with ⟨_ | b, left⟩ <;> rw [hr] at hfirst
  · exact hfirst
  · exact ⟨pure_ne_overflow _, hfirst.2⟩

end Reading

theorem Leaf.finishes_isMatch (l : Leaf) (scene : Scene) : Reading.Finishes (l.isMatch scene) := by
  intro r h
  rw [l.isMatch_eq]
  refine ⟨?_, Field.raw_value⟩
  apply bind_ne_overflow (Field.value_ne_overflow h l.field)
  intro v _
  exact liftM_ne_overflow _

namespace Filter

mutual

theorem finishes_isMatch (f : Filter) (scene : Scene) : Reading.Finishes (f.isMatch scene) := by
  cases f with
  | leaf l => exact l.finishes_isMatch scene
  | all members =>
    rw [isMatch_all]
    exact finishes_allMatch members scene
  | any members =>
    rw [isMatch_any]
    exact finishes_anyMatch members scene
  | not inner =>
    rw [isMatch_not]
    exact (finishes_isMatch inner scene).complement

theorem finishes_allMatch (members : List Filter) (scene : Scene) :
    Reading.Finishes (allMatch scene members) := by
  cases members with
  | nil => exact Reading.finishes_pure true
  | cons f rest =>
    rw [allMatch_cons]
    exact (finishes_isMatch f scene).both (finishes_allMatch rest scene)

theorem finishes_anyMatch (members : List Filter) (scene : Scene) :
    Reading.Finishes (anyMatch scene members) := by
  cases members with
  | nil => exact Reading.finishes_pure false
  | cons f rest =>
    rw [anyMatch_cons]
    exact (finishes_isMatch f scene).either (finishes_anyMatch rest scene)

end

/-- Matching an item whose bytes fit does not end the program. -/
theorem isMatch_ne_overflow (h : r.item.raw.BytesFit) (f : Filter) :
    (f.isMatch scene r).1 ≠ .error .overflow := (f.finishes_isMatch scene r h).1

end Filter
end DownloadQuery

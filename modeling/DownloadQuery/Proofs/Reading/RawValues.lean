import DownloadQuery.Proofs.Steps
import DownloadQuery.Reading

/-!
# Values from raw values

The value of a field is what its kind makes of the raw value, whether the item keeps the value or
not (`Field.HasRaw.value_eq`).
-/

namespace DownloadQuery

theorem ValueKind.convert_of_read? {kind : ValueKind} {field : String} {raw : Json}
    {v : FieldValue} (hnull : raw.isNull = false) (h : kind.read? raw = some v) :
    kind.convert field raw = .ok v := by
  rw [convert, hnull, h, if_neg Bool.false_ne_true]

namespace Field

/-- Whether a field of an item has a raw value, and any value that the item keeps of this field is
what the kind of the field makes of it. -/
structure HasRaw (f : Field) (scene : Scene) (r : Reading) (raw : Json) : Prop where
  read : f.source.read scene r.item.raw f.name ((f.charge r.tally).count f.name) = .ok raw
  kept : ∀ v, r.item.kept? f.name = some v → f.kind.convert f.name raw = .ok v

theorem HasRaw.value_eq {f : Field} {scene : Scene} {r : Reading} {raw : Json} {v : FieldValue}
    (h : f.HasRaw scene r raw) (hv : f.kind.convert f.name raw = .ok v) :
    (f.value scene r).1 = .ok v := by
  have hfetch : (f.fetch scene r).1 = .ok v := by
    rw [fetch]
    dsimp only
    rw [fresh, h.read, ok_bind, hv]
    rfl
  unfold value
  split
  · split
    · next w hw => exact congrArg Except.ok (Except.ok.inj ((h.kept w hw).symm.trans hv))
    · rcases hfetched : f.fetch scene r with ⟨_ | v, r'⟩
      · rwa [hfetched] at hfetch
      · rwa [hfetched] at hfetch
  · exact hfetch

end Field
end DownloadQuery

import DownloadQuery.Field.Basic
import DownloadQuery.Item

/-!
# Reading fields of items

The value of a field of an item. An on-demand field is computed once, and the item keeps its value;
other fields are computed at every reading.
-/

namespace DownloadQuery

/-- How often each derived field has been computed, over all items. -/
abbrev Tally := List (String × Nat)

namespace Tally

def count (t : Tally) (name : String) : Nat := (t.lookup name).getD 0

/-- Counts one more computation. -/
def bump (t : Tally) (name : String) : Tally :=
  (name, t.count name + 1) :: t.filter fun entry => entry.1 != name

end Tally

/-- An item that is being read. -/
structure Reading where
  item : Item
  tally : Tally
  deriving Repr

namespace Field

/-- Counts a computation, if reading the field takes one. -/
def charge (f : Field) (t : Tally) : Tally := if f.source.isDerived then t.bump f.name else t

/-- The value of the field computed anew. -/
def fresh (f : Field) (scene : Scene) (raw : Snapshot) (call : Nat) :
    Except (Halt FieldError) FieldValue := do
  f.kind.convert f.name (← f.source.read scene raw f.name call)

/-- Computes the value of the field and counts that. -/
def fetch (f : Field) (scene : Scene) (r : Reading) :
    Except (Halt FieldError) FieldValue × Reading :=
  let tally := f.charge r.tally
  (f.fresh scene r.item.raw (tally.count f.name), { r with tally })

/-- The value of the field; that of an on-demand field is computed only if the item keeps none. -/
def value (f : Field) (scene : Scene) (r : Reading) :
    Except (Halt FieldError) FieldValue × Reading :=
  match f.freshness with
  | .onDemand =>
    match r.item.kept? f.name with
    | some v => (.ok v, r)
    | none =>
      match f.fetch scene r with
      | (.ok v, r) => (.ok v, { r with item := r.item.keep f.name v })
      | failed => failed
  | _ => f.fetch scene r

end Field
end DownloadQuery

import DownloadQuery.Field.Catalogue
import DownloadQuery.Report.Table
import DownloadQuery.Selection

/-!
# Reports of items

The values of some fields of selected items, as a table of shown values or as a list of objects of raw
ones.
-/

namespace DownloadQuery

/-- The fields that are known and the items that are there. -/
structure Inventory where
  catalogue : Catalogue
  stock : Stock

/-- Reading an inventory; what has been read is kept also when reading fails. -/
abbrev InventoryReader := ExceptT (Halt FieldError) (StateM Inventory)

namespace Inventory

/-- The field of a name, which must be known. -/
def field (name : String) : InventoryReader Field := fun inventory =>
  match inventory.catalogue.lookup name with
  | (.ok (some f), catalogue) => (.ok f, { inventory with catalogue })
  | (.ok none, catalogue) => (.error (.error (.unknown name)), { inventory with catalogue })
  | (.error e, catalogue) => (.error (.error e), { inventory with catalogue })

/-- The value of a field of the item at an index. -/
def value (scene : Scene) (index : Nat) (f : Field) : InventoryReader FieldValue := fun inventory =>
  let stock := inventory.stock
  let item := stock.items.getD index (Item.ofSnapshot [])
  let (result, r) := f.value scene ⟨item, stock.tally⟩
  (result, { inventory with stock := ⟨stock.items.set index r.item, r.tally⟩ })

/-- The field of a name and its value for the item at an index. -/
def read (scene : Scene) (index : Nat) (name : String) : InventoryReader (Field × FieldValue) := do
  let f ← field name
  let v ← value scene index f
  return (f, v)

end Inventory

namespace Report

/-- The most characters that a cell shows. -/
def cellLimit : Nat := 60

/-- A text cut to the limit; dots stand for what is missing. -/
def shortened (s : String) : String :=
  let chars := s.toList
  if chars.length ≤ cellLimit then s
  else String.ofList (chars.take (cellLimit - 3)) ++ "..."

/-- The number of items in words. -/
def itemCount (n : Nat) : String := s!"({n} item" ++ (if n = 1 then ")" else "s)")

/-- The texts that show some fields of the item at an index. -/
def shownRow (scene : Scene) (names : List String) (index : Nat) :
    InventoryReader (List String) :=
  names.mapM fun name => do
    let f ← Inventory.field name
    let v ← Inventory.value scene index f
    return f.shown scene.clock.zone v

/-- The object of the raw values of some fields of the item at an index. -/
def rawRow (scene : Scene) (names : List String) (index : Nat) : InventoryReader Json := do
  let insertRaw (members : List (String × Json)) (name : String) :
      InventoryReader (List (String × Json)) := do
    let f ← Inventory.field name
    let v ← Inventory.value scene index f
    return Json.insertMember name v.toJson members
  return .object (← names.foldlM insertRaw [])

/-- A table of the items at some indices and their number. -/
def itemsText (scene : Scene) (indices : List Nat) (names : List String) :
    InventoryReader String := do
  if indices.isEmpty then return itemCount 0
  let rows ← indices.mapM (shownRow scene names)
  let table := Table.mk names (rows.map (·.map shortened))
  return table.render ++ "\n" ++ itemCount indices.length

/-- The items at some indices as objects of raw values. -/
def itemsJson (scene : Scene) (indices : List Nat) (names : List String) :
    InventoryReader String := do
  let rows ← indices.mapM (rawRow scene names)
  return (Json.array rows).pretty

/-- A table of the fields that are known. -/
def fieldList (c : Catalogue) : String :=
  let row (f : Field) : List String :=
    [f.name, f.kind.label, f.freshness.label, (f.family?.map Family.label).getD "-", f.doc]
  (Table.mk ["Field", "Type", "Cache", "Matcher", "Description"] (c.fields.map row)).render

end Report
end DownloadQuery

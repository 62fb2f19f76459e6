import DownloadQuery.Report.Items

/-!
# Rows of reports

A table shows each value when it has been read, and a list of objects takes it up then. Both read the
same fields of the same items in the same order, so each is what it makes of the rows that are read
(`Report.itemsText_eq`, `Report.itemsJson_eq`).
-/

namespace DownloadQuery

section
variable {m : Type → Type} [Monad m] [LawfulMonad m] {α β γ σ : Type}

/-- A traversal may make something of its results one by one or all at the end. -/
theorem mapM_map_result (g : β → γ) (x : α → m β) (as : List α) :
    (as.mapM fun a => g <$> x a) = List.map g <$> as.mapM x := by
  induction as with
  | nil => simp
  | cons a rest ih => simp [List.mapM_cons, ih]

/-- What is put together on the way may be put together at the end. -/
theorem foldlM_map_result (put : σ → α → β → σ) (x : α → m β) (as : List α) (s : σ) :
    as.foldlM (fun s a => put s a <$> x a) s =
      (fun bs => (as.zip bs).foldl (fun s entry => put s entry.1 entry.2) s) <$> as.mapM x := by
  induction as generalizing s with
  | nil => simp
  | cons a rest ih => simp [List.mapM_cons, ih]

end

namespace Inventory

/-- The fields of some names and their values for the items at some indices, item by item. -/
def readRows (scene : Scene) (indices : List Nat) (names : List String) :
    InventoryReader (List (List (Field × FieldValue))) :=
  indices.mapM fun index => names.mapM (read scene index)

end Inventory

namespace Report

/-- A table of shown values. -/
def table (zone : Zone) (names : List String) (rows : List (List (Field × FieldValue))) : String :=
  (Table.mk names (rows.map fun row => row.map fun (f, v) => shortened (f.shown zone v))).render

/-- A list of objects of raw values. -/
def objects (names : List String) (rows : List (List (Field × FieldValue))) : String :=
  (Json.array (rows.map fun row =>
    Json.ofMembers (List.zip names (row.map fun (_, v) => v.toJson)))).pretty

theorem shownRow_eq (scene : Scene) (names : List String) (index : Nat) :
    shownRow scene names index =
      (List.map fun (f, v) => f.shown scene.clock.zone v) <$>
        names.mapM (Inventory.read scene index) := by
  rw [shownRow, ← mapM_map_result]
  simp only [Inventory.read, map_bind, map_pure]

theorem rawRow_eq (scene : Scene) (names : List String) (index : Nat) :
    rawRow scene names index =
      (fun row => Json.ofMembers (List.zip names (row.map fun (_, v) => v.toJson))) <$>
        names.mapM (Inventory.read scene index) := by
  have hfold := foldlM_map_result
    (fun members name (cell : Field × FieldValue) => Json.insertMember name cell.2.toJson members)
    (Inventory.read scene index) names []
  simp only [Inventory.read, map_bind, map_pure] at hfold
  rw [rawRow, hfold, bind_map_left, map_eq_pure_bind]
  simp only [Json.ofMembers, List.zip_map_right, List.foldl_map, Prod.map, id]

theorem itemsText_eq (scene : Scene) (indices : List Nat) (names : List String) :
    itemsText scene indices names =
      (do
        if indices.isEmpty then return itemCount 0
        let rows ← Inventory.readRows scene indices names
        return table scene.clock.zone names rows ++ "\n" ++ itemCount indices.length) := by
  rw [itemsText, funext (shownRow_eq scene names), mapM_map_result]
  simp only [bind_map_left, Inventory.readRows, table, List.map_map, Function.comp_def]

theorem itemsJson_eq (scene : Scene) (indices : List Nat) (names : List String) :
    itemsJson scene indices names =
      (do
        let rows ← Inventory.readRows scene indices names
        return objects names rows) := by
  rw [itemsJson, funext (rawRow_eq scene names), mapM_map_result]
  simp only [bind_map_left, Inventory.readRows, objects]

end Report
end DownloadQuery

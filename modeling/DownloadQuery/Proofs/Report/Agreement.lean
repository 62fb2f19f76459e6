import DownloadQuery.Proofs.Json.RoundTrip
import DownloadQuery.Proofs.Reading.ExactItems
import DownloadQuery.Proofs.Reading.Inquiry
import DownloadQuery.Proofs.Report.Rows
import DownloadQuery.Proofs.Traversals

/-!
# Reports agree

Whether rows can be read, what is read and what is left is told by relations that say it step by
step: a cell, the cells of a row, the rows of a report (`Inventory.performs_readRows`). As a table
and a list of objects are made of the same rows, one fails just if the other does
(`Report.text_json_agree`).
-/

namespace DownloadQuery

/-! ## Reading rows -/

namespace Inventory

variable {scene : Scene} {index : Nat} {names : List String}

/-- A field is known under a name and has a value for the item at an index. -/
inductive CellRead (scene : Scene) (index : Nat) (inventory : Inventory) (name : String) :
    Field × FieldValue → Inventory → Prop
  | mk {f : Field} {catalogue : Catalogue} {v : FieldValue} {left : Inventory}
    (hfield : inventory.catalogue.lookup name = (.ok (some f), catalogue))
    (hvalue : (value scene index f).run { inventory with catalogue } = (.ok v, left)) :
    CellRead scene index inventory name (f, v) left

/-- A name is not one that can be looked up, no field is known under it, or the field cannot be read
for the item at an index. -/
inductive CellFails (scene : Scene) (index : Nat) (inventory : Inventory) (name : String) :
    Halt FieldError → Inventory → Prop
  | rejected {e : FieldError} {catalogue : Catalogue}
    (hfield : inventory.catalogue.lookup name = (.error e, catalogue)) :
    CellFails scene index inventory name (.error e) { inventory with catalogue }
  | unknown {catalogue : Catalogue}
    (hfield : inventory.catalogue.lookup name = (.ok none, catalogue)) :
    CellFails scene index inventory name (.error (.unknown name)) { inventory with catalogue }
  | unreadable {f : Field} {catalogue : Catalogue} {e : Halt FieldError} {left : Inventory}
    (hfield : inventory.catalogue.lookup name = (.ok (some f), catalogue))
    (hvalue : (value scene index f).run { inventory with catalogue } = (.error e, left)) :
    CellFails scene index inventory name e left

theorem run_field_ok_iff {name : String} {inventory left : Inventory} {f : Field} :
    (field name).run inventory = (.ok f, left) ↔
      ∃ catalogue, inventory.catalogue.lookup name = (.ok (some f), catalogue) ∧
        left = { inventory with catalogue } := by
  rw [ExceptT.run, field]
  constructor
  · intro h
    split at h
    · next hfield =>
      cases h
      exact ⟨_, hfield, rfl⟩
    · cases h
    · cases h
  · rintro ⟨catalogue, hfield, rfl⟩
    rw [hfield]

theorem run_field_error_iff {name : String} {inventory left : Inventory} {halt : Halt FieldError} :
    (field name).run inventory = (.error halt, left) ↔
      ∃ e catalogue, halt = .error e ∧ (inventory.catalogue.lookup name = (.error e, catalogue) ∨
        inventory.catalogue.lookup name = (.ok none, catalogue) ∧ e = .unknown name) ∧
        left = { inventory with catalogue } := by
  rw [ExceptT.run, field]
  constructor
  · intro h
    split at h
    · cases h
    · next hfield =>
      cases h
      exact ⟨_, _, rfl, .inr ⟨hfield, rfl⟩, rfl⟩
    · next hfield =>
      cases h
      exact ⟨_, _, rfl, .inl hfield, rfl⟩
  · rintro ⟨e, catalogue, rfl, hfield | ⟨hfield, rfl⟩, rfl⟩
    · rw [hfield]
    · rw [hfield]

theorem performs_read (scene : Scene) (index : Nat) :
    Performs (read scene index) (CellRead scene index) (CellFails scene index) where
  ok_iff {inventory name cell left} := by
    simp only [read, run_bind_ok_iff, run_pure_ok_iff, run_field_ok_iff]
    constructor
    · rintro ⟨f, _, ⟨catalogue, hfield, rfl⟩, v, _, hvalue, rfl, rfl⟩
      exact .mk hfield hvalue
    · rintro ⟨hfield, hvalue⟩
      exact ⟨_, _, ⟨_, hfield, rfl⟩, _, _, hvalue, rfl, rfl⟩
  error_iff {inventory name e left} := by
    simp only [read, run_bind_error_iff, run_pure_ne_error, and_false, exists_false, or_false,
      run_field_ok_iff, run_field_error_iff]
    constructor
    · rintro (⟨e, catalogue, rfl, hfield | ⟨hfield, rfl⟩, rfl⟩ |
        ⟨f, _, ⟨catalogue, hfield, rfl⟩, hvalue⟩)
      · exact .rejected hfield
      · exact .unknown hfield
      · exact .unreadable hfield hvalue
    · rintro (hfield | hfield | ⟨hfield, hvalue⟩)
      · exact .inl ⟨_, _, rfl, .inl hfield, rfl⟩
      · exact .inl ⟨_, _, rfl, .inr ⟨hfield, rfl⟩, rfl⟩
      · exact .inr ⟨_, _, ⟨_, hfield, rfl⟩, hvalue⟩

/-- The values of some fields for the item at an index. -/
def RowRead (scene : Scene) (names : List String) (inventory : Inventory) (index : Nat)
    (row : List (Field × FieldValue)) (left : Inventory) : Prop :=
  Chain (CellRead scene index) inventory names row left

/-- The first field that fails for the item at an index. -/
def RowFails (scene : Scene) (names : List String) (inventory : Inventory) (index : Nat)
    (e : Halt FieldError) (left : Inventory) : Prop :=
  Stops (CellRead scene index) (CellFails scene index) inventory names e left

/-- The values of some fields for the items at some indices, item by item. -/
def RowsRead (scene : Scene) (names : List String) (inventory : Inventory) (indices : List Nat)
    (rows : List (List (Field × FieldValue))) (left : Inventory) : Prop :=
  Chain (RowRead scene names) inventory indices rows left

/-- The first item of which a field fails, and its first field that does. -/
def RowsFail (scene : Scene) (names : List String) (inventory : Inventory) (indices : List Nat)
    (e : Halt FieldError) (left : Inventory) : Prop :=
  Stops (RowRead scene names) (RowFails scene names) inventory indices e left

theorem performs_readRows (scene : Scene) (names : List String) :
    Performs (fun indices => readRows scene indices names) (RowsRead scene names)
      (RowsFail scene names) := by
  have hrow : Performs (fun index => names.mapM (read scene index)) (RowRead scene names)
      (RowFails scene names) :=
    ⟨fun {_ index _ _} => (performs_read scene index).mapM.ok_iff,
      fun {_ index _ _} => (performs_read scene index).mapM.error_iff⟩
  exact hrow.mapM

/-- A row has a value for each field. -/
theorem length_of_rowsRead {inventory left : Inventory} {indices : List Nat}
    {rows : List (List (Field × FieldValue))}
    (h : RowsRead scene names inventory indices rows left) :
    ∀ row ∈ rows, row.length = names.length := by
  unfold RowsRead at h
  induction h with
  | nil => simp
  | cons hfirst _ ih => exact List.forall_mem_cons.2 ⟨Chain.length_eq hfirst, ih⟩

variable {inventory left : Inventory}

/-- What reading a cell preserves holds after all rows, and what it tells of the cell holds of each
in its row. -/
theorem forall₂_of_rowsRead {I : Inventory → Prop} {Q : Nat → String → Field × FieldValue → Prop}
    (hcell : ∀ index s name cell t, I s → CellRead scene index s name cell t →
      Q index name cell ∧ I t) (hs : I inventory) {indices : List Nat}
    {rows : List (List (Field × FieldValue))}
    (h : RowsRead scene names inventory indices rows left) :
    List.Forall₂ (fun index row => List.Forall₂ (Q index) names row) indices rows ∧ I left :=
  Chain.forall₂ (fun _ index _ _ hs hrow => Chain.forall₂ (hcell index) hs hrow) hs h

theorem run_value (scene : Scene) (index : Nat) (f : Field) (inventory : Inventory) :
    (value scene index f).run inventory = ((inventory.stock.ask scene index f).1,
      { inventory with stock := (inventory.stock.ask scene index f).2 }) := rfl

/-- Exact items stay exact when a cell is read, and its value is exact in its raw form. -/
theorem isExact_of_cellRead {name : String} {cell : Field × FieldValue}
    (hexact : ∀ item ∈ inventory.stock.items, item.IsExact)
    (h : CellRead scene index inventory name cell left) :
    cell.2.toJson.IsExact ∧ ∀ item ∈ left.stock.items, item.IsExact := by
  cases h with
  | mk hfield hvalue =>
    rw [run_value] at hvalue
    obtain ⟨hv, rfl⟩ := Prod.mk.inj hvalue
    have hitem : (inventory.stock.item index).IsExact := by
      by_cases hindex : index < inventory.stock.items.length
      · exact hexact _ (Stock.mem_items_of_lt hindex)
      · rw [Stock.item, List.getD_eq_default _ _ (Nat.not_lt.1 hindex)]
        exact Item.isExact_ofSnapshot (.object (by simp) .nil)
    refine ⟨Field.isExact_value hitem hv, fun item hmem => ?_⟩
    rcases List.mem_or_eq_of_mem_set hmem with hmem | rfl
    · exact hexact item hmem
    · exact Field.isExact_item_value hitem

end Inventory

/-! ## Objects of rows -/

namespace Report

/-- Whether members have the names that are asked for as their names, each once, and as its value
the raw form of what has been read for it; if a name is asked for more than once, what has been read
last counts. -/
structure Exports (names : List String) (row : List (Field × FieldValue))
    (members : List (String × Json)) : Prop where
  ascending : (members.map (·.1)).Pairwise (· < ·)
  mem_names_iff (name : String) : name ∈ members.map (·.1) ↔ name ∈ names
  lookup_last {before after : List (String × Field × FieldValue)} {name : String} {f : Field}
    {v : FieldValue} (hsplit : names.zip row = before ++ (name, f, v) :: after)
    (hlast : name ∉ after.map (·.1)) : members.lookup name = some v.toJson

/-- The members of the object of a row. -/
def membersOf (names : List String) (row : List (Field × FieldValue)) : List (String × Json) :=
  Json.insertAll [] (names.zip (row.map fun (_, v) => v.toJson))

theorem exports_membersOf {names : List String} {row : List (Field × FieldValue)}
    (h : row.length = names.length) : Exports names row (membersOf names row) where
  ascending := Json.ascending_insertAll .nil
  mem_names_iff name := by
    have hkeys : (names.zip (row.map fun (_, v) => v.toJson)).map (·.1) = names :=
      List.map_fst_zip (by simp [h])
    rw [membersOf, Json.mem_keys_insertAll, hkeys]
    simp
  lookup_last {before after name f v} hsplit hlast := by
    rw [membersOf, List.zip_map_right, hsplit, List.map_append, List.map_cons]
    apply Json.lookup_insertAll
    rwa [List.map_map]

theorem isExact_membersOf {names : List String} {row : List (Field × FieldValue)}
    (h : ∀ cell ∈ row, cell.2.toJson.IsExact) : (Json.object (membersOf names row)).IsExact := by
  refine Json.isExact_ofMembers fun entry hentry => ?_
  obtain ⟨cell, hcell, heq⟩ := List.mem_map.1 (List.of_mem_zip hentry).2
  rw [← heq]
  exact h cell hcell

/-- A value is found under its name if it is the only one that has been read for it. -/
theorem lookup_membersOf {names : List String} {row : List (Field × FieldValue)} {name : String}
    {f : Field} {v : FieldValue} (hmem : (name, f, v) ∈ names.zip row)
    (honly : ∀ g w, (name, g, w) ∈ names.zip row → w = v) :
    (membersOf names row).lookup name = some v.toJson := by
  rw [membersOf, List.zip_map_right]
  apply Json.lookup_insertAll_of_only
  · intro w hw
    obtain ⟨⟨_, g, u⟩, hcell, heq⟩ := List.mem_map.1 hw
    obtain ⟨rfl, rfl⟩ := Prod.mk.inj heq
    exact congrArg FieldValue.toJson (honly g u hcell)
  · exact .inl (List.mem_map.2 ⟨(name, f, v), hmem, rfl⟩)

theorem objects_eq (names : List String) (rows : List (List (Field × FieldValue))) :
    objects names rows = (Json.array ((rows.map (membersOf names)).map Json.object)).pretty := by
  rw [List.map_map]
  rfl

/-- The text of a report of rows: nothing but a number if no item is asked for. -/
def textOf (zone : Zone) (names : List String) (indices : List Nat)
    (rows : List (List (Field × FieldValue))) : String :=
  if indices = [] then itemCount 0
  else table zone names rows ++ "\n" ++ itemCount indices.length

theorem run_itemsText (scene : Scene) (indices : List Nat) (names : List String)
    (inventory : Inventory) :
    (itemsText scene indices names).run inventory =
      (((Inventory.readRows scene indices names).run inventory).1.map
          (textOf scene.clock.zone names indices),
        ((Inventory.readRows scene indices names).run inventory).2) := by
  rw [itemsText_eq]
  cases indices with
  | nil => rfl
  | cons index rest =>
    change ExceptT.run (Inventory.readRows scene (index :: rest) names >>= _) inventory = _
    rw [Condition.Reader.run_bind]
    rcases (Inventory.readRows scene (index :: rest) names).run inventory with ⟨e | rows, left⟩ <;>
      rfl

theorem run_itemsJson (scene : Scene) (indices : List Nat) (names : List String)
    (inventory : Inventory) :
    (itemsJson scene indices names).run inventory =
      (((Inventory.readRows scene indices names).run inventory).1.map (objects names),
        ((Inventory.readRows scene indices names).run inventory).2) := by
  rw [itemsJson_eq, Condition.Reader.run_bind]
  rcases (Inventory.readRows scene indices names).run inventory with ⟨e | rows, left⟩ <;> rfl

/-- The rows of which a list of objects has been made. -/
theorem exists_rows_of_itemsJson {scene : Scene} {indices : List Nat} {names : List String}
    {inventory : Inventory} {report : String}
    (h : ((itemsJson scene indices names).run inventory).1 = .ok report) :
    ∃ rows, ((Inventory.readRows scene indices names).run inventory).1 = .ok rows ∧
      Inventory.RowsRead scene names inventory indices rows
        ((itemsJson scene indices names).run inventory).2 ∧
      report = (Json.array ((rows.map (membersOf names)).map Json.object)).pretty := by
  rw [run_itemsJson] at h ⊢
  obtain ⟨rows, hrows, rfl⟩ := exists_of_map_ok h
  exact ⟨rows, hrows, (Inventory.performs_readRows scene names).fst_ok_iff.1 hrows,
    objects_eq names rows⟩

/-- The text of the objects of rows holds the list of them, if the items are exact. -/
theorem read?_objects {scene : Scene} {indices : List Nat} {names : List String}
    {inventory left : Inventory} {rows : List (List (Field × FieldValue))}
    (hexact : ∀ item ∈ inventory.stock.items, item.IsExact)
    (h : Inventory.RowsRead scene names inventory indices rows left) :
    Json.read? (Json.array ((rows.map (membersOf names)).map Json.object)).pretty =
      some (.array ((rows.map (membersOf names)).map Json.object)) := by
  obtain ⟨hrows, -⟩ := Inventory.forall₂_of_rowsRead
    (fun _ _ _ _ _ hs hcell => Inventory.isExact_of_cellRead hs hcell) hexact h
  refine Json.read?_pretty (.array fun v hv => ?_)
  obtain ⟨members, hmembers, rfl⟩ := List.mem_map.1 hv
  obtain ⟨row, hrow, rfl⟩ := List.mem_map.1 hmembers
  obtain ⟨_, _, hcells⟩ := exists_of_mem_related hrows row hrow
  apply isExact_membersOf
  intro cell hcell
  obtain ⟨_, _, hv⟩ := exists_of_mem_related hcells cell hcell
  exact hv

/-- A table and a list of objects of the same items fail together, and leave the same fields known
and the same values kept. The error is that of the first field that fails, of the first item of
which one does. Otherwise the rows of the table are what has been read item by item, and the list
has an object for each of them in this order: its names are those that were asked for and its values
the raw forms of what was read. The text of the list holds just this list, if the items are exact,
as those that a text holds are. -/
theorem text_json_agree (scene : Scene) (inventory : Inventory) (indices : List Nat)
    (names : List String) :
    let text := (itemsText scene indices names).run inventory
    let json := (itemsJson scene indices names).run inventory
    text.2 = json.2 ∧
    (∀ e, text.1 = .error e ↔ json.1 = .error e) ∧
    (∀ e, json.1 = .error e ↔ Inventory.RowsFail scene names inventory indices e json.2) ∧
    ∀ report, json.1 = .ok report → ∃ rows objects,
      Inventory.RowsRead scene names inventory indices rows json.2 ∧
      List.Forall₂ (Exports names) rows objects ∧
      report = (Json.array (objects.map Json.object)).pretty ∧
      ((∀ item ∈ inventory.stock.items, item.IsExact) →
        Json.read? report = some (.array (objects.map Json.object))) ∧
      text.1 = .ok (textOf scene.clock.zone names indices rows) := by
  intro text json
  have hperforms := Inventory.performs_readRows scene names
  have htext : text = _ := run_itemsText scene indices names inventory
  have hjson : json = _ := run_itemsJson scene indices names inventory
  refine ⟨?_, ?_, ?_, ?_⟩
  · rw [htext, hjson]
  · intro e
    rw [htext, hjson, map_eq_error_iff, map_eq_error_iff]
  · intro e
    rw [hjson, map_eq_error_iff]
    exact hperforms.fst_error_iff
  · intro report hreport
    obtain ⟨rows, hrows, hread, rfl⟩ := exists_rows_of_itemsJson hreport
    refine ⟨rows, rows.map (membersOf names), hread, ?_, rfl, ?_, ?_⟩
    · apply List.forall₂_map_right_iff.2
      apply List.forall₂_same.2
      intro row hrow
      exact exports_membersOf (Inventory.length_of_rowsRead hread row hrow)
    · exact fun hexact => read?_objects hexact hread
    · rw [htext, hrows]
      rfl

/-- The text of a report of one exact item holds one object. -/
theorem text_json_agree_one :
    let scene : Scene := ⟨⟨.fixed 0, 0⟩, fun _ => false, fun _ => none⟩
    let item : Item := .ofSnapshot [("name", .string "a"), ("size", .integer 5)]
    let report := "[\n  \x7b\n    \"name\": \"a\",\n    \"size\": 5\n  \x7d\n]"
    item.IsExact ∧ ∃ c members, Config.standard.catalogue = .ok c ∧
      ((itemsJson scene [0] ["size", "name"]).run ⟨c, ⟨[item], []⟩⟩).1 = .ok report ∧
      Json.read? report = some (.array [.object members]) := by
  intro scene item report
  have hexact : item.IsExact := by
    refine Item.isExact_ofSnapshot (.object ?_ (by decide))
    refine List.forall_mem_cons.2 ⟨.string "a", List.forall_mem_singleton.2 ?_⟩
    exact .integer (by decide) (by decide)
  have hcomputed : (Config.standard.catalogue.toOption.map fun c =>
      ((itemsJson scene [0] ["size", "name"]).run ⟨c, ⟨[item], []⟩⟩).1.toOption) =
      some (some report) := by decide +kernel
  refine ⟨hexact, ?_⟩
  cases hc : Config.standard.catalogue with
  | error e =>
    rw [hc] at hcomputed
    cases hcomputed
  | ok c =>
    rw [hc] at hcomputed
    have hjson := eq_ok_of_toOption (Option.some.inj hcomputed)
    obtain ⟨-, -, -, hreports⟩ :=
      text_json_agree scene ⟨c, ⟨[item], []⟩⟩ [0] ["size", "name"]
    obtain ⟨rows, objects, hread, hexports, -, hholds, -⟩ := hreports report hjson
    obtain ⟨members, rfl⟩ : ∃ members, objects = [members] := by
      apply List.length_eq_one_iff.1
      rw [← hexports.length_eq, Chain.length_eq hread]
      rfl
    exact ⟨c, members, rfl, hjson, hholds (List.forall_mem_singleton.2 hexact)⟩

end Report
end DownloadQuery

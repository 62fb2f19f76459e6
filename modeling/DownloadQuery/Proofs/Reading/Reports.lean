import DownloadQuery.Proofs.Condition.Lookups
import DownloadQuery.Proofs.Reading.Inquiry
import DownloadQuery.Proofs.Report.Rows

/-!
# Reports as inquiries

A report looks up the names of fields and asks for their values. As looking up leaves what names
stand for as it is, a report of an inventory is an inquiry into its stock.
-/

namespace DownloadQuery

namespace Inquiry

variable {α β γ : Type}

theorem map_id (x : Inquiry α) : id <$> x = x := by
  induction x with
  | done a => rfl
  | ask index f next ih => exact congrArg (ask index f) (funext ih)

theorem bind_assoc (x : Inquiry α) (k : α → Inquiry β) (l : β → Inquiry γ) :
    x >>= k >>= l = x >>= fun a => k a >>= l := by
  induction x with
  | done a => rfl
  | ask index f next ih => exact congrArg (ask index f) (funext ih)

instance : LawfulMonad Inquiry :=
  .mk' Inquiry map_id (fun _ _ => rfl) bind_assoc

end Inquiry

/-- An inquiry that ends when a field is unknown or cannot be read. -/
abbrev FieldInquiry := ExceptT (Halt FieldError) Inquiry

namespace InventoryReader

variable {α β : Type} {resolve : String → Except FieldError (Option Field)} {scene : Scene}

/-- Whether an inquiry asks for genuine fields only, and does what reading an inventory does whose
names stand for the same fields. -/
structure Follows (resolve : String → Except FieldError (Option Field)) (scene : Scene)
    (x : InventoryReader α) (q : FieldInquiry α) : Prop where
  genuine : Inquiry.Genuine resolve q.run
  run_eq : ∀ inventory : Inventory, inventory.catalogue.resolve = resolve →
    ∃ catalogue : Catalogue, catalogue.resolve = resolve ∧
      x.run inventory = ((Inquiry.run scene q.run inventory.stock).1,
        ⟨catalogue, (Inquiry.run scene q.run inventory.stock).2⟩)

theorem follows_pure (a : α) : Follows resolve scene (pure a) (pure a) where
  genuine := trivial
  run_eq inventory h := ⟨inventory.catalogue, h, rfl⟩

theorem Follows.bind {x : InventoryReader α} {q : FieldInquiry α} {k : α → InventoryReader β}
    {l : α → FieldInquiry β} (hx : Follows resolve scene x q)
    (hk : ∀ a, Follows resolve scene (k a) (l a)) :
    Follows resolve scene (x >>= k) (q >>= l) where
  genuine := by
    rw [ExceptT.run_bind]
    refine Inquiry.genuine_bind hx.genuine fun result => ?_
    cases result with
    | error e => trivial
    | ok a => exact (hk a).genuine
  run_eq inventory h := by
    obtain ⟨catalogue, hc, hrun⟩ := hx.run_eq inventory h
    rw [Condition.Reader.run_bind, hrun, ExceptT.run_bind, Inquiry.run_bind]
    rcases Inquiry.run scene q.run inventory.stock with ⟨e | a, stock⟩
    · exact ⟨catalogue, hc, rfl⟩
    · exact (hk a).run_eq ⟨catalogue, stock⟩ hc

theorem follows_mapM {x : α → InventoryReader β} {q : α → FieldInquiry β}
    (h : ∀ a, Follows resolve scene (x a) (q a)) (as : List α) :
    Follows resolve scene (as.mapM x) (as.mapM q) := by
  induction as with
  | nil => exact follows_pure []
  | cons a rest ih =>
    rw [List.mapM_cons, List.mapM_cons]
    exact (h a).bind fun b => ih.bind fun bs => follows_pure (b :: bs)

end InventoryReader

/-! ## Reading fields by name -/

namespace FieldInquiry

/-- Asks for the value of a field of the item at an index. -/
def value (index : Nat) (f : Field) : FieldInquiry FieldValue := ExceptT.mk (.ask index f .done)

/-- Asks for the value of the field that a name stands for. -/
def read (resolve : String → Except FieldError (Option Field)) (index : Nat) (name : String) :
    FieldInquiry (Field × FieldValue) :=
  match resolve name with
  | .ok (some f) => do return (f, ← value index f)
  | .ok none => throw (.error (.unknown name))
  | .error e => throw (.error e)

theorem run_read (resolve : String → Except FieldError (Option Field)) (scene : Scene)
    (index : Nat) (name : String) (stock : Stock) :
    Inquiry.run scene (read resolve index name).run stock =
      match resolve name with
      | .ok (some f) => ((stock.ask scene index f).1.map (f, ·), (stock.ask scene index f).2)
      | .ok none => (.error (.error (.unknown name)), stock)
      | .error e => (.error (.error e), stock) := by
  unfold read
  split
  · next f _ =>
    have hask : Inquiry.run scene (value index f).run stock = stock.ask scene index f := rfl
    rw [ExceptT.run_bind, Inquiry.run_bind, hask]
    rcases stock.ask scene index f with ⟨_ | v, t⟩ <;> rfl
  · rfl
  · rfl

def readRows (resolve : String → Except FieldError (Option Field)) (indices : List Nat)
    (names : List String) : FieldInquiry (List (List (Field × FieldValue))) :=
  indices.mapM fun index => names.mapM (read resolve index)

def itemsText (resolve : String → Except FieldError (Option Field)) (zone : Zone)
    (indices : List Nat) (names : List String) : FieldInquiry String := do
  if indices.isEmpty then return Report.itemCount 0
  let rows ← readRows resolve indices names
  return Report.table zone names rows ++ "\n" ++ Report.itemCount indices.length

def itemsJson (resolve : String → Except FieldError (Option Field)) (indices : List Nat)
    (names : List String) : FieldInquiry String := do
  let rows ← readRows resolve indices names
  return Report.objects names rows

end FieldInquiry

namespace Inventory

variable {resolve : String → Except FieldError (Option Field)} {scene : Scene}

theorem value_follows {f : Field} (hf : f.Genuine resolve) (index : Nat) :
    InventoryReader.Follows resolve scene (value scene index f) (FieldInquiry.value index f) where
  genuine := ⟨hf, fun _ => trivial⟩
  run_eq inventory h := ⟨inventory.catalogue, h, rfl⟩

variable (hres : ∀ name f, resolve name = .ok (some f) → f.Genuine resolve)
include hres

/-- Reading a field by its name is asking for the value of the field that the name stands for. -/
theorem read_follows (index : Nat) (name : String) :
    InventoryReader.Follows resolve scene (read scene index name)
      (FieldInquiry.read resolve index name) where
  genuine := by
    unfold FieldInquiry.read
    split
    · next f hf => exact ⟨hres name f hf, fun result => by cases result <;> trivial⟩
    · trivial
    · trivial
  run_eq inventory h := by
    have hresult := inventory.catalogue.lookup_fst name
    have hsame := inventory.catalogue.resolve_lookup name
    rw [h] at hresult hsame
    rw [read, Condition.Reader.run_bind, FieldInquiry.read, ← hresult]
    rcases hl : inventory.catalogue.lookup name with ⟨e | _ | f, catalogue⟩
    · have hfield : (field name).run inventory =
          (.error (.error e), { inventory with catalogue }) := by
        rw [ExceptT.run, field, hl]
      rw [hfield]
      exact ⟨catalogue, by rwa [hl] at hsame, rfl⟩
    · have hfield : (field name).run inventory =
          (.error (.error (.unknown name)), { inventory with catalogue }) := by
        rw [ExceptT.run, field, hl]
      rw [hfield]
      exact ⟨catalogue, by rwa [hl] at hsame, rfl⟩
    · have hfield : (field name).run inventory = (.ok f, { inventory with catalogue }) := by
        rw [ExceptT.run, field, hl]
      rw [hl] at hresult hsame
      rw [hfield]
      have hvalue : InventoryReader.Follows resolve scene
          (do let v ← value scene index f; return (f, v))
          (do let v ← FieldInquiry.value index f; return (f, v)) :=
        (value_follows (hres name f hresult.symm) index).bind fun v =>
          InventoryReader.follows_pure (f, v)
      exact hvalue.run_eq ⟨catalogue, inventory.stock⟩ hsame

theorem readRows_follows (indices : List Nat) (names : List String) :
    InventoryReader.Follows resolve scene (readRows scene indices names)
      (FieldInquiry.readRows resolve indices names) :=
  InventoryReader.follows_mapM
    (fun index => InventoryReader.follows_mapM (read_follows hres index) names) indices

end Inventory

namespace Report

variable {resolve : String → Except FieldError (Option Field)}
  (hres : ∀ name f, resolve name = .ok (some f) → f.Genuine resolve)
include hres

theorem itemsText_follows (scene : Scene) (indices : List Nat) (names : List String) :
    InventoryReader.Follows resolve scene (itemsText scene indices names)
      (FieldInquiry.itemsText resolve scene.clock.zone indices names) := by
  rw [itemsText_eq]
  unfold FieldInquiry.itemsText
  split
  · exact InventoryReader.follows_pure _
  · exact (Inventory.readRows_follows hres indices names).bind fun rows =>
      InventoryReader.follows_pure _

theorem itemsJson_follows (scene : Scene) (indices : List Nat) (names : List String) :
    InventoryReader.Follows resolve scene (itemsJson scene indices names)
      (FieldInquiry.itemsJson resolve indices names) := by
  rw [itemsJson_eq]
  exact (Inventory.readRows_follows hres indices names).bind fun _ =>
    InventoryReader.follows_pure _

end Report
end DownloadQuery

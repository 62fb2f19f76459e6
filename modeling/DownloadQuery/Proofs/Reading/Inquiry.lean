import DownloadQuery.Proofs.Reading.Kept
import DownloadQuery.Selection
import Mathlib.Data.List.GetD

/-!
# Inquiries

An inquiry asks for values of fields of items one after another, and its answer and what it asks for
next may depend on the values. Whatever is read of items is read by an inquiry.

Running an inquiry, items keep values of on-demand fields. Its answer does not depend on what they
keep, as long as they are faithful (`run_eq`), and no name is stored twice for an item
(`advances_run`).
-/

namespace DownloadQuery

namespace Stock

/-- The item at an index; beyond the last one, an item without values. -/
def item (stock : Stock) (index : Nat) : Item := stock.items.getD index (Item.ofSnapshot [])

/-- The raw values of all items. -/
def raws (stock : Stock) : List Snapshot := stock.items.map (·.raw)

/-- The item at an index before it is read. -/
def reading (stock : Stock) (index : Nat) : Reading := ⟨stock.item index, stock.tally⟩

/-- The stock after the item at an index has been read. -/
def put (stock : Stock) (index : Nat) (r : Reading) : Stock :=
  ⟨stock.items.set index r.item, r.tally⟩

/-- Reads the item at an index. -/
def readAt {α : Type} (stock : Stock) (index : Nat) (x : Reading → α × Reading) : α × Stock :=
  ((x (stock.reading index)).1, stock.put index (x (stock.reading index)).2)

/-- Reads the value of a field of the item at an index. -/
def ask (stock : Stock) (scene : Scene) (index : Nat) (f : Field) :
    Except (Halt FieldError) FieldValue × Stock :=
  stock.readAt index (f.value scene)

/-- What asking for a field of an item stores: the index of the item and the name of the field. -/
def stores (stock : Stock) (scene : Scene) (index : Nat) (f : Field) : List (Nat × String) :=
  if index < stock.items.length && f.stores scene (stock.reading index) then [(index, f.name)]
  else []

/-- Whether all items are faithful. -/
def Faithful (resolve : String → Except FieldError (Option Field)) (scene : Scene)
    (stock : Stock) : Prop :=
  ∀ item ∈ stock.items, item.Faithful resolve scene

/-- How a stock may follow another if names have been stored in between: raw values and what has
been kept stay the same, and beside that the names that have been stored are kept, each stored once.
-/
structure Advances (s : Stock) (stored : List (Nat × String)) (t : Stock) : Prop where
  raws_eq : t.raws = s.raws
  keeps : ∀ index name v, (s.item index).kept? name = some v → (t.item index).kept? name = some v
  new : ∀ entry ∈ stored, (s.item entry.1).kept? entry.2 = none
  kept : ∀ entry ∈ stored, ∃ v, (t.item entry.1).kept? entry.2 = some v
  origin : ∀ index name v, (t.item index).kept? name = some v →
    (s.item index).kept? name = some v ∨ (index, name) ∈ stored
  nodup : stored.Nodup

theorem Advances.refl (s : Stock) : s.Advances [] s where
  raws_eq := rfl
  keeps _ _ _ h := h
  new := by simp
  kept := by simp
  origin _ _ _ h := .inl h
  nodup := List.nodup_nil

theorem Advances.append {s t u : Stock} {first second : List (Nat × String)}
    (h : s.Advances first t) (h' : t.Advances second u) : s.Advances (first ++ second) u where
  raws_eq := h'.raws_eq.trans h.raws_eq
  keeps index name v hv := h'.keeps index name v (h.keeps index name v hv)
  new entry hentry := by
    rcases List.mem_append.1 hentry with hentry | hentry
    · exact h.new entry hentry
    · cases hk : (s.item entry.1).kept? entry.2 with
      | none => rfl
      | some v =>
        have hnone := h'.new entry hentry
        rw [h.keeps _ _ _ hk] at hnone
        cases hnone
  kept entry hentry := by
    rcases List.mem_append.1 hentry with hentry | hentry
    · obtain ⟨v, hv⟩ := h.kept entry hentry
      exact ⟨v, h'.keeps _ _ _ hv⟩
    · exact h'.kept entry hentry
  origin index name v hv := by
    rcases h'.origin index name v hv with hv | hmem
    · exact (h.origin index name v hv).imp_right (List.mem_append_left second)
    · exact .inr (List.mem_append_right first hmem)
  nodup := by
    refine List.nodup_append.2 ⟨h.nodup, h'.nodup, ?_⟩
    rintro entry hfirst _ hsecond rfl
    obtain ⟨v, hv⟩ := h.kept entry hfirst
    rw [h'.new entry hsecond] at hv
    cases hv

variable {scene : Scene} {stock : Stock} {index : Nat} {f : Field}

theorem mem_items_of_lt (h : index < stock.items.length) : stock.item index ∈ stock.items := by
  rw [item, List.getD_eq_getElem _ _ h]
  exact List.getElem_mem h

theorem raw_item (stock : Stock) (index : Nat) :
    (stock.item index).raw = stock.raws.getD index [] := by
  by_cases h : index < stock.items.length
  · simp [item, raws, h]
  · simp [item, raws, h, Item.ofSnapshot]

theorem set_item (stock : Stock) (index : Nat) :
    stock.items.set index (stock.item index) = stock.items := by
  by_cases h : index < stock.items.length
  · rw [item, List.getD_eq_getElem _ _ h, List.set_getElem_self]
  · exact List.set_eq_of_length_le (by omega)

@[simp] theorem item_reading (stock : Stock) (index : Nat) :
    (stock.reading index).item = stock.item index := rfl

theorem put_reading (stock : Stock) (index : Nat) :
    stock.put index (stock.reading index) = stock := by
  rw [put, reading, set_item]

theorem reading_put {r : Reading} (h : index < stock.items.length) :
    (stock.put index r).reading index = r := by
  simp [put, reading, item, h]

theorem put_put (r r' : Reading) : (stock.put index r).put index r' = stock.put index r' := by
  simp [put]

theorem length_put (r : Reading) : (stock.put index r).items.length = stock.items.length :=
  List.length_set

theorem items_ask : (stock.ask scene index f).2.items =
    stock.items.set index (f.value scene (stock.reading index)).2.item := rfl

/-- The item after asking, which is another only at the index. -/
theorem item_ask (other : Nat) :
    (stock.ask scene index f).2.item other =
      if other = index ∧ index < stock.items.length then
        (f.value scene (stock.reading index)).2.item
      else stock.item other := by
  rw [item, items_ask, List.getD_eq_getElem?_getD, List.getElem?_set]
  by_cases ho : index = other
  · by_cases hi : index < stock.items.length
    · simp [ho, ho ▸ hi]
    · simp [ho, ho ▸ hi, item]
  · simp [ho, Ne.symm ho, item]

theorem raws_ask : (stock.ask scene index f).2.raws = stock.raws := by
  rw [raws, items_ask, List.map_set, Field.raw_value, ← List.map_set, item_reading, set_item]
  rfl

theorem faithful_item {resolve : String → Except FieldError (Option Field)}
    (hs : stock.Faithful resolve scene) (index : Nat) :
    (stock.item index).Faithful resolve scene := by
  by_cases h : index < stock.items.length
  · exact hs _ (mem_items_of_lt h)
  · rw [item, List.getD_eq_default _ _ (by omega)]
    exact Item.faithful_ofSnapshot resolve scene []

theorem faithful_ask {resolve : String → Except FieldError (Option Field)}
    (hf : f.Genuine resolve) (hs : stock.Faithful resolve scene) :
    (stock.ask scene index f).2.Faithful resolve scene := by
  intro item hitem
  rcases List.mem_or_eq_of_mem_set hitem with hmem | rfl
  · exact hs item hmem
  · exact Field.faithful_value hf (faithful_item hs index)

theorem ask_eq_fresh {resolve : String → Except FieldError (Option Field)}
    (hf : f.Genuine resolve) (hs : stock.Faithful resolve scene) :
    (stock.ask scene index f).1 = f.fresh scene (stock.raws.getD index []) 0 := by
  rw [← raw_item]
  exact Field.value_eq_fresh hf (faithful_item hs index)

/-- Asking for a value that cannot be read leaves the items as they are. -/
theorem items_ask_of_error {e : Halt FieldError} (h : (stock.ask scene index f).1 = .error e) :
    (stock.ask scene index f).2.items = stock.items := by
  rw [items_ask, Field.item_value_of_error h, item_reading, set_item]

theorem mem_stores {entry : Nat × String} :
    entry ∈ stock.stores scene index f ↔
      entry = (index, f.name) ∧ index < stock.items.length ∧
        f.stores scene (stock.reading index) = true := by
  unfold stores
  split
  · next h => simpa using fun _ => h
  · next h => simpa using fun _ => by simpa using h

theorem advances_ask :
    stock.Advances (stock.stores scene index f) (stock.ask scene index f).2 where
  raws_eq := raws_ask
  keeps other name v hv := by
    rw [item_ask]
    split
    · next h =>
      rw [h.1] at hv
      exact Field.kept?_value hv
    · exact hv
  new entry hentry := by
    obtain ⟨rfl, -, hstores⟩ := mem_stores.1 hentry
    exact (Field.kept?_of_stores hstores).1
  kept entry hentry := by
    obtain ⟨rfl, hi, hstores⟩ := mem_stores.1 hentry
    rw [item_ask, if_pos ⟨rfl, hi⟩]
    exact (Field.kept?_of_stores hstores).2
  origin other name v hv := by
    rw [item_ask] at hv
    split at hv
    · next h =>
      rw [h.1]
      refine (Field.kept?_or_stores hv).imp_right ?_
      rintro ⟨rfl, hstores⟩
      exact mem_stores.2 ⟨rfl, h.2, hstores⟩
    · exact .inl hv
  nodup := by
    unfold stores
    split <;> simp

end Stock

/-- Values that are asked for, and an answer that depends on them. -/
inductive Inquiry (α : Type) where
  | done (answer : α)
  | ask (index : Nat) (f : Field) (next : Except (Halt FieldError) FieldValue → Inquiry α)

namespace Inquiry

variable {α β : Type}

def bind : Inquiry α → (α → Inquiry β) → Inquiry β
  | done a, k => k a
  | ask index f next, k => ask index f fun result => (next result).bind k

instance : Monad Inquiry where
  pure := done
  bind := bind

/-- The answer, and the stock afterwards. -/
def run (scene : Scene) : Inquiry α → Stock → α × Stock
  | done a, stock => (a, stock)
  | ask index f next, stock =>
    (next (stock.ask scene index f).1).run scene (stock.ask scene index f).2

/-- What running stores, in order. -/
def stored (scene : Scene) : Inquiry α → Stock → List (Nat × String)
  | done _, _ => []
  | ask index f next, stock =>
    stock.stores scene index f ++
      (next (stock.ask scene index f).1).stored scene (stock.ask scene index f).2

/-- Whether all fields that may be asked for are genuine. -/
def Genuine (resolve : String → Except FieldError (Option Field)) : Inquiry α → Prop
  | done _ => True
  | ask _ f next => f.Genuine resolve ∧ ∀ result, (next result).Genuine resolve

variable {scene : Scene} {resolve : String → Except FieldError (Option Field)}

@[simp] theorem run_pure (a : α) (stock : Stock) :
    (pure a : Inquiry α).run scene stock = (a, stock) := rfl

@[simp] theorem run_bind (x : Inquiry α) (k : α → Inquiry β) (stock : Stock) :
    (x >>= k).run scene stock = (k (x.run scene stock).1).run scene (x.run scene stock).2 := by
  induction x generalizing stock with
  | done a => rfl
  | ask index f next ih => exact ih _ _

theorem genuine_bind {x : Inquiry α} {k : α → Inquiry β} (hx : x.Genuine resolve)
    (hk : ∀ a, (k a).Genuine resolve) : (x >>= k).Genuine resolve := by
  induction x with
  | done a => exact hk a
  | ask index f next ih => exact ⟨hx.1, fun result => ih result (hx.2 result)⟩

/-- The answer is the same for all stocks of the same raw values, whatever their items keep. -/
theorem run_eq {x : Inquiry α} (hx : x.Genuine resolve) {s t : Stock}
    (hs : s.Faithful resolve scene) (ht : t.Faithful resolve scene) (hraws : s.raws = t.raws) :
    (x.run scene s).1 = (x.run scene t).1 := by
  induction x generalizing s t with
  | done a => rfl
  | ask index f next ih =>
    have hresult : (s.ask scene index f).1 = (t.ask scene index f).1 := by
      rw [Stock.ask_eq_fresh hx.1 hs, Stock.ask_eq_fresh hx.1 ht, hraws]
    rw [run, run, hresult]
    refine ih _ (hx.2 _) (Stock.faithful_ask hx.1 hs) (Stock.faithful_ask hx.1 ht) ?_
    rw [Stock.raws_ask, Stock.raws_ask, hraws]

theorem faithful_run {x : Inquiry α} (hx : x.Genuine resolve) {stock : Stock}
    (hs : stock.Faithful resolve scene) : (x.run scene stock).2.Faithful resolve scene := by
  induction x generalizing stock with
  | done a => exact hs
  | ask index f next ih => exact ih _ (hx.2 _) (Stock.faithful_ask hx.1 hs)

theorem advances_run (x : Inquiry α) (stock : Stock) :
    stock.Advances (x.stored scene stock) (x.run scene stock).2 := by
  induction x generalizing stock with
  | done a => exact .refl stock
  | ask index f next ih => exact Stock.advances_ask.append (ih _ _)

end Inquiry
end DownloadQuery

import DownloadQuery.Config
import DownloadQuery.Proofs.Catalogue
import DownloadQuery.Reading

/-!
# Values that items keep

An item is faithful if what it keeps is what reading would yield: each name that it keeps stands for
an on-demand field, and the value is that of the field computed anew. Reading a field of a faithful
item yields the same as reading it of an item that keeps nothing, and leaves the item faithful.
-/

namespace DownloadQuery

namespace Source

/-- Whether a reading does not depend on how many came before. -/
def Repeatable (source : Source) : Prop := source ≠ .counter

end Source

namespace Field

theorem fresh_eq {f : Field} (h : f.source.Repeatable) (scene : Scene) (raw : Snapshot)
    (call other : Nat) : f.fresh scene raw call = f.fresh scene raw other := by
  have hread : f.source.read scene raw f.name call = f.source.read scene raw f.name other := by
    cases hs : f.source with
    | counter => exact absurd hs h
    | stored => rfl
    | other name => rfl
    | failing reason => rfl
    | derived d => rfl
  rw [fresh, fresh, hread]

/-- Whether reading the field computes a value that the item keeps from then on. -/
def stores (f : Field) (scene : Scene) (r : Reading) : Bool :=
  f.freshness == .onDemand && (r.item.kept? f.name).isNone && (f.fetch scene r).1.isOk

end Field

namespace Item

theorem mem_kept_of_kept? {item : Item} {name : String} {v : FieldValue}
    (h : item.kept? name = some v) : (name, v) ∈ item.kept := by
  obtain ⟨before, after, heq, -⟩ := List.lookup_eq_some_iff.1 h
  rw [heq]
  exact List.mem_append_right _ List.mem_cons_self

/-- A value under a new name is kept beside the others. -/
theorem kept_keep {item : Item} {name : String} (h : item.kept? name = none) (v : FieldValue) :
    (item.keep name v).kept = (name, v) :: item.kept := by
  have hall : ∀ entry ∈ item.kept, (entry.1 != name) = true := by
    intro entry hentry
    have hne : (name == entry.1) = false := by simpa using List.lookup_eq_none_iff.1 h entry hentry
    rw [bne, BEq.comm, hne]
    rfl
  rw [keep, List.filter_eq_self.2 hall]

theorem kept?_keep {item : Item} {name : String} (h : item.kept? name = none) (v : FieldValue)
    (other : String) :
    (item.keep name v).kept? other = if other = name then some v else item.kept? other := by
  rw [kept?, kept_keep h, List.lookup_cons]
  by_cases ho : other = name
  · simp [ho]
  · have hne : (other == name) = false := by simpa using ho
    simp [ho, hne, kept?]

end Item

namespace Field

/-- What reading the value of a field does, in the three ways it may go. -/
inductive Outcome (f : Field) (scene : Scene) (r : Reading) : Prop
  /-- The value is computed, and the item stays as it is. -/
  | computed (call : Nat) (hresult : (f.value scene r).1 = f.fresh scene r.item.raw call)
      (hitem : (f.value scene r).2.item = r.item) (hstores : f.stores scene r = false)
  /-- The item keeps the value. -/
  | found (v : FieldValue) (hd : f.freshness = .onDemand) (hk : r.item.kept? f.name = some v)
      (hresult : (f.value scene r).1 = .ok v) (hitem : (f.value scene r).2.item = r.item)
      (hstores : f.stores scene r = false)
  /-- The value is computed, and the item keeps it from then on. -/
  | stored (v : FieldValue) (call : Nat) (hd : f.freshness = .onDemand)
      (hk : r.item.kept? f.name = none) (hv : f.fresh scene r.item.raw call = .ok v)
      (hresult : (f.value scene r).1 = .ok v)
      (hitem : (f.value scene r).2.item = r.item.keep f.name v) (hstores : f.stores scene r = true)

theorem outcome (f : Field) (scene : Scene) (r : Reading) : f.Outcome scene r := by
  have hfetch : f.fetch scene r = (f.fresh scene r.item.raw ((f.charge r.tally).count f.name),
      { r with tally := f.charge r.tally }) := rfl
  by_cases hf : f.freshness = .onDemand
  · cases hk : r.item.kept? f.name with
    | some v =>
      refine .found v hf hk ?_ ?_ ?_
      · simp [value, hf, hk]
      · simp [value, hf, hk]
      · simp [stores, hk]
    | none =>
      cases hv : f.fresh scene r.item.raw ((f.charge r.tally).count f.name) with
      | ok v =>
        refine .stored v _ hf hk hv ?_ ?_ ?_
        · simp [value, hf, hk, hfetch, hv]
        · simp [value, hf, hk, hfetch, hv]
        · simp [stores, hf, hk, hfetch, hv, Except.isOk, Except.toBool]
      | error e =>
        refine .computed _ (Eq.trans ?_ hv.symm) ?_ ?_
        · simp [value, hf, hk, hfetch, hv]
        · simp [value, hf, hk, hfetch, hv]
        · simp [stores, hfetch, hv, Except.isOk, Except.toBool]
  · have hvalue : f.value scene r = f.fetch scene r := by
      rw [value]
      split
      · next h => exact absurd h hf
      · rfl
    have hne : (f.freshness == .onDemand) = false := by simpa using hf
    refine .computed ((f.charge r.tally).count f.name) ?_ ?_ ?_
    · rw [hvalue, hfetch]
    · rw [hvalue, hfetch]
    · rw [stores, hne]
      rfl

theorem value_of_kept? {f : Field} {scene : Scene} {r : Reading} {v : FieldValue}
    (hd : f.freshness = .onDemand) (hk : r.item.kept? f.name = some v) :
    f.value scene r = (.ok v, r) := by
  rw [value, hd]
  simp only [hk]

/-- The value of a field that items do not keep is computed anew. -/
theorem exists_value_eq_fresh {f : Field} (h : f.freshness ≠ .onDemand) (scene : Scene)
    (r : Reading) : ∃ call, (f.value scene r).1 = f.fresh scene r.item.raw call := by
  cases f.outcome scene r with
  | computed call hresult => exact ⟨call, hresult⟩
  | found v hd => exact absurd hd h
  | stored v call hd => exact absurd hd h

/-- A field that is read again has the same value. -/
theorem value_again {f : Field} (h : f.source.Repeatable) (scene : Scene) (r : Reading) :
    (f.value scene (f.value scene r).2).1 = (f.value scene r).1 := by
  cases f.outcome scene r with
  | computed call hresult hitem =>
    cases f.outcome scene (f.value scene r).2 with
    | computed other hagain =>
      rw [hagain, hresult, hitem]
      exact fresh_eq h scene _ _ _
    | found v hd hk hagain =>
      rw [hitem] at hk
      rw [hagain, value_of_kept? hd hk]
    | stored v other hd hk hv hagain =>
      rw [hagain, hresult, ← hv, hitem]
      exact fresh_eq h scene _ _ _
  | found v hd hk hresult hitem =>
    rw [← hitem] at hk
    rw [value_of_kept? hd hk, hresult]
  | stored v call hd hk hv hresult hitem =>
    have hkept : (f.value scene r).2.item.kept? f.name = some v := by
      rw [hitem, Item.kept?_keep hk, if_pos rfl]
    rw [value_of_kept? hd hkept, hresult]

/-! ## Faithful items -/

/-- Whether a field is the one its name stands for, and its values do not depend on earlier
readings. -/
structure Genuine (resolve : String → Except FieldError (Option Field)) (f : Field) : Prop where
  resolved : resolve f.name = .ok (some f)
  repeatable : f.source.Repeatable

end Field

/-- Whether all that an item keeps is what reading on-demand fields anew would yield. -/
def Item.Faithful (resolve : String → Except FieldError (Option Field)) (scene : Scene)
    (item : Item) : Prop :=
  ∀ entry ∈ item.kept, ∃ f, resolve entry.1 = .ok (some f) ∧ f.freshness = .onDemand ∧
    ∀ call, f.fresh scene item.raw call = .ok entry.2

theorem Item.faithful_ofSnapshot (resolve : String → Except FieldError (Option Field))
    (scene : Scene) (raw : Snapshot) : (Item.ofSnapshot raw).Faithful resolve scene := by
  simp [Item.Faithful, Item.ofSnapshot]

namespace Field

variable {resolve : String → Except FieldError (Option Field)} {f : Field} {scene : Scene}
  {r : Reading}

theorem raw_value : (f.value scene r).2.item.raw = r.item.raw := by
  cases f.outcome scene r with
  | computed _ _ hitem => rw [hitem]
  | found _ _ _ _ hitem => rw [hitem]
  | stored _ _ _ _ _ _ hitem => rw [hitem]; rfl

/-- The value of a field of a faithful item is what reading it anew yields. -/
theorem value_eq_fresh (hf : f.Genuine resolve) (hr : r.item.Faithful resolve scene) :
    (f.value scene r).1 = f.fresh scene r.item.raw 0 := by
  cases f.outcome scene r with
  | computed _ hresult =>
    rw [hresult]
    exact fresh_eq hf.repeatable scene _ _ _
  | found v _ hk hresult =>
    obtain ⟨g, hg, -, hv⟩ := hr _ (Item.mem_kept_of_kept? hk)
    rw [hf.resolved] at hg
    cases hg
    rw [hresult, hv]
  | stored _ _ _ _ hv hresult =>
    rw [hresult, ← hv]
    exact fresh_eq hf.repeatable scene _ _ _

theorem faithful_value (hf : f.Genuine resolve) (hr : r.item.Faithful resolve scene) :
    (f.value scene r).2.item.Faithful resolve scene := by
  cases f.outcome scene r with
  | computed _ _ hitem => rwa [hitem]
  | found _ _ _ _ hitem => rwa [hitem]
  | stored v call hd hk hv _ hitem =>
    rw [hitem]
    intro entry hentry
    rw [Item.kept_keep hk, List.mem_cons] at hentry
    rcases hentry with rfl | hentry
    · refine ⟨f, hf.resolved, hd, fun other => ?_⟩
      rw [← hv]
      exact fresh_eq hf.repeatable scene _ _ _
    · exact hr entry hentry

/-- What an item keeps stays as it is. -/
theorem kept?_value {name : String} {v : FieldValue} (h : r.item.kept? name = some v) :
    (f.value scene r).2.item.kept? name = some v := by
  cases f.outcome scene r with
  | computed _ _ hitem => rwa [hitem]
  | found _ _ _ _ hitem => rwa [hitem]
  | stored w _ _ hk _ _ hitem =>
    have hne : name ≠ f.name := by
      rintro rfl
      rw [hk] at h
      cases h
    rw [hitem, Item.kept?_keep hk, if_neg hne, h]

/-- What an item keeps afterwards has been kept before or is stored. -/
theorem kept?_or_stores {name : String} {v : FieldValue}
    (h : (f.value scene r).2.item.kept? name = some v) :
    r.item.kept? name = some v ∨ name = f.name ∧ f.stores scene r = true := by
  cases f.outcome scene r with
  | computed _ _ hitem =>
    rw [hitem] at h
    exact .inl h
  | found _ _ _ _ hitem =>
    rw [hitem] at h
    exact .inl h
  | stored w _ _ hk _ _ hitem hstores =>
    rw [hitem, Item.kept?_keep hk] at h
    split at h
    · next hname => exact .inr ⟨hname, hstores⟩
    · exact .inl h

/-- A value that cannot be read leaves the item as it is. -/
theorem item_value_of_error {e : Halt FieldError} (h : (f.value scene r).1 = .error e) :
    (f.value scene r).2.item = r.item := by
  cases f.outcome scene r with
  | computed _ _ hitem => exact hitem
  | found _ _ _ _ hitem => exact hitem
  | stored _ _ _ _ _ hresult => rw [hresult] at h; cases h

/-- A value that is stored was not kept before, and is kept afterwards. -/
theorem kept?_of_stores (h : f.stores scene r = true) :
    r.item.kept? f.name = none ∧ ∃ v, (f.value scene r).2.item.kept? f.name = some v := by
  cases f.outcome scene r with
  | computed _ _ _ hstores => rw [hstores] at h; cases h
  | found _ _ _ _ _ hstores => rw [hstores] at h; cases h
  | stored v _ _ hk _ _ hitem =>
    refine ⟨hk, v, ?_⟩
    rw [hitem, Item.kept?_keep hk, if_pos rfl]

end Field
end DownloadQuery

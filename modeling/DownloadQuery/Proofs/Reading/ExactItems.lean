import DownloadQuery.Proofs.Field.Export
import DownloadQuery.Proofs.Json.ExactValues
import DownloadQuery.Proofs.Reading.Kept

/-!
# Exact items

The items that a text holds have exact raw values (`Item.isExact_of_read`). What is read from exact
raw values is exact in its raw form, whatever the field: the number of a reading alone may be out of
range, and no kind leaves it so. Hence items stay exact as they are read
(`Field.isExact_item_value`).
-/

namespace DownloadQuery

namespace Json

variable {raw : Json}

theorem IsExact.isRounded (h : raw.IsExact) : raw.IsRounded := by
  rintro x rfl
  cases h with
  | number hx => exact hx

theorem isExact_int64 {n : Int} (hlow : -Int.pow 2 63 ≤ n) (hhigh : n < Int.pow 2 63) :
    (Json.integer n).IsExact :=
  .integer hlow (hhigh.trans (show (2 : Int) ^ 63 < 2 ^ 64 by decide))

theorem isExact_strings (texts : List String) : (Json.array (texts.map .string)).IsExact := by
  refine .array fun v hv => ?_
  obtain ⟨s, -, rfl⟩ := List.mem_map.1 hv
  exact .string s

/-- What a source may give: an exact value, or the number of a reading, which has no bound. -/
structure FromSource (raw : Json) : Prop where
  low : ∀ n, raw = .integer n → -Int.pow 2 63 ≤ n
  rounded : raw.IsRounded
  elements : ∀ vs, raw = .array vs → ∀ v ∈ vs, v.IsExact

theorem IsExact.fromSource (h : raw.IsExact) : raw.FromSource where
  low n hn := by
    subst hn
    cases h with
    | integer hlow => exact hlow
  rounded := h.isRounded
  elements vs hvs := by
    subst hvs
    cases h with
    | array h => exact h

theorem fromSource_natCast (n : Nat) : (Json.integer n).FromSource where
  low m hm := by
    rw [← Json.integer.inj hm]
    exact (show -Int.pow 2 63 ≤ 0 by decide).trans (Int.natCast_nonneg n)
  rounded := by
    rintro x ⟨⟩
  elements := by
    rintro vs ⟨⟩

end Json

theorem Snapshot.isExact_value {raw : Snapshot} (h : (Json.object raw).IsExact) (name : String) :
    (raw.value name).IsExact := by
  rw [value]
  split
  · next v hv => exact h.lookup hv
  · split
    · next key _ =>
      cases hvalue : (raw.lookup "custom").bind (Json.get? key) with
      | none => exact .null
      | some v =>
        obtain ⟨custom, hcustom, hv⟩ := Option.bind_eq_some_iff.1 hvalue
        exact (h.lookup hcustom).get? hv
    · exact .null

theorem Snapshot.isExact_getD {raws : List Snapshot} (h : ∀ raw ∈ raws, (Json.object raw).IsExact)
    (index : Nat) : (Json.object (raws.getD index [])).IsExact := by
  rw [List.getD_eq_getElem?_getD]
  cases hraw : raws[index]? with
  | none => exact .object (by simp) .nil
  | some raw => exact h raw (List.mem_of_getElem? hraw)

/-! ## Kinds -/

namespace FileEntry

variable {entry : FileEntry} {raw : Json}

theorem isExact_toJson (hlow : -Int.pow 2 63 ≤ entry.priority)
    (hhigh : entry.priority < Int.pow 2 63)
    (hchanged : ∀ x, entry.changed = some x → x.IsRounded) : entry.toJson.IsExact := by
  have hsize : (Json.integer entry.size.toNat).IsExact :=
    .integer (by omega) (Int.ofNat_lt.2 entry.size.toNat_lt)
  have hpriority : (Json.integer entry.priority).IsExact := Json.isExact_int64 hlow hhigh
  rw [toJson]
  cases hentry : entry.changed with
  | none =>
    refine .object (by simp [hsize, hpriority, Json.IsExact.string]) ?_
    exact (show ["path", "prio", "size"].Pairwise (· < ·) by decide)
  | some x =>
    have hx := Json.isExact_ofBinary64 (hchanged x hentry)
    refine .object (by simp [hx, hsize, hpriority, Json.IsExact.string]) ?_
    exact (show ["mtime", "path", "prio", "size"].Pairwise (· < ·) by decide)

theorem le_priority {priority : Option Json} {n : Int}
    (hexact : ∀ raw, priority = some raw → raw.IsExact)
    (h : part? Json.toInt64? 0 priority = some n) : -Int.pow 2 63 ≤ n := by
  cases priority with
  | none =>
    rw [← Option.some.inj h]
    decide
  | some raw =>
    have hraw := hexact raw rfl
    cases raw with
    | integer m =>
      rw [part?, Json.toInt64?] at h
      split_ifs at h
      rw [← Option.some.inj h]
      exact hraw.fromSource.low m rfl
    | null | bool | number | string | array | object => cases h

theorem isRounded_changed {changed : Option Json} {x : Binary64}
    (hexact : ∀ raw, changed = some raw → raw.IsExact)
    (h : part? readChanged? none changed = some (some x)) : x.IsRounded := by
  cases changed with
  | none => cases h
  | some raw =>
    have hraw := hexact raw rfl
    cases raw with
    | integer n =>
      rw [← Option.some.inj (Option.some.inj h)]
      exact Binary64.isRounded_ofInt n
    | number y =>
      rw [← Option.some.inj (Option.some.inj h)]
      exact hraw.isRounded y rfl
    | null | bool | string | array | object => cases h

/-- A file that is read from an exact value has an exact raw form. -/
theorem isExact_of_ofJson? (hraw : raw.IsExact) (h : ofJson? raw = some entry) :
    entry.toJson.IsExact := by
  have hparts {path size changed priority : Option Json}
      (hentry : ofParts? path size changed priority = some entry)
      (hchanged : ∀ part, changed = some part → part.IsExact)
      (hpriority : ∀ part, priority = some part → part.IsExact) : entry.toJson.IsExact := by
    obtain ⟨-, -, hentryChanged, hentryPriority⟩ := ofParts?_eq_some_iff.1 hentry
    refine isExact_toJson (le_priority hpriority hentryPriority) (priority_lt h) fun x hx => ?_
    rw [hx] at hentryChanged
    exact isRounded_changed hchanged hentryChanged
  cases raw with
  | string path =>
    rw [← Option.some.inj h]
    refine isExact_toJson ?_ ?_ ?_
    · exact (show -Int.pow 2 63 ≤ 1 by decide)
    · exact (show (1 : Int) < Int.pow 2 63 by decide)
    · rintro x ⟨⟩
  | object members => exact hparts h (fun _ => hraw.lookup) (fun _ => hraw.lookup)
  | array parts =>
    rw [ofJson?] at h
    split_ifs at h
    cases hraw with
    | array hall =>
      exact hparts h (fun part hpart => hall part (List.mem_of_getElem? hpart))
        (fun part hpart => hall part (List.mem_of_getElem? hpart))
  | null | bool | integer | number => cases h

end FileEntry

theorem FieldValue.isExact_float {x : Binary64} (hx : x.IsRounded) :
    (FieldValue.float x).toJson.IsExact := by
  rw [toJson]
  exact Json.isExact_ofBinary64 hx

namespace ValueKind

variable {raw : Json}

theorem le_of_readInteger? (hraw : raw.FromSource) {n : Int} (h : readInteger? raw = some n) :
    -Int.pow 2 63 ≤ n := by
  cases raw with
  | integer m =>
    rw [readInteger?] at h
    split_ifs at h
    · rw [← Option.some.inj h]
      exact hraw.low m rfl
    · rw [← Option.some.inj h]
      exact Binary64.le_toInt64 _
  | number x =>
    rw [← Option.some.inj h]
    exact x.le_toInt64
  | bool b =>
    rw [← Option.some.inj h]
    cases b <;> decide
  | string s =>
    rw [readInteger?] at h
    split_ifs at h
    · rw [← Option.some.inj h]
      decide
    · exact Whole.le_readInt64 (eq_ok_of_toOption h)
  | null | array | object => cases h

theorem isRounded_of_readRatio? (hraw : raw.FromSource) {x : Binary64}
    (h : readRatio? raw = some x) : x.IsRounded := by
  cases raw with
  | integer n =>
    rw [← Option.some.inj h]
    exact Binary64.isRounded_div _ _
  | null | bool | number | string | array | object => exact isRounded_of_readNumber? hraw.rounded h

theorem isExact_readUntyped (hraw : raw.FromSource) : (readUntyped raw).toJson.IsExact := by
  cases raw with
  | integer n =>
    rw [readUntyped]
    split_ifs with hlt
    · exact Json.isExact_int64 (hraw.low n rfl) hlt
    · exact FieldValue.isExact_float (Binary64.isRounded_ofInt n)
  | number x => exact FieldValue.isExact_float (hraw.rounded x rfl)
  | array elements => exact Json.isExact_strings _
  | null => exact .null
  | bool b => exact .bool b
  | string s => exact .string s
  | object members => exact .string _

theorem isExact_timestampValue {x : Binary64} (hx : x.IsRounded) :
    (timestampValue x).toJson.IsExact := by
  rw [timestampValue]
  split_ifs
  · exact .null
  · exact Json.isExact_int64 x.le_toInt64 x.toInt64_lt
  · exact FieldValue.isExact_float hx

theorem isExact_files (hraw : raw.FromSource) {entries : List FileEntry}
    (h : readFiles? raw = some entries) : (FieldValue.files entries).toJson.IsExact := by
  cases raw with
  | array elements =>
    refine .array fun v hv => ?_
    obtain ⟨entry, hentry, rfl⟩ := List.mem_map.1 hv
    obtain ⟨element, helement, hread⟩ := exists_of_mem_related (mapM_eq_some_iff.1 h) entry hentry
    exact FileEntry.isExact_of_ofJson? (hraw.elements elements rfl element helement) hread
  | null | bool | integer | number | string | object => cases h

/-- The raw form of a value that a kind has read is exact. -/
theorem isExact_of_read? {kind : ValueKind} (hraw : raw.FromSource) {v : FieldValue}
    (h : kind.read? raw = some v) : v.toJson.IsExact := by
  cases kind with
  | untyped =>
    rw [← Option.some.inj h]
    exact isExact_readUntyped hraw
  | integer =>
    obtain ⟨n, hn, rfl⟩ := Option.map_eq_some_iff.1 h
    exact Json.isExact_int64 (le_of_readInteger? hraw hn) (lt_of_readInteger? hn)
  | float | duration =>
    obtain ⟨x, hx, rfl⟩ := Option.map_eq_some_iff.1 h
    exact FieldValue.isExact_float (isRounded_of_readNumber? hraw.rounded hx)
  | ratio =>
    obtain ⟨x, hx, rfl⟩ := Option.map_eq_some_iff.1 h
    exact FieldValue.isExact_float (isRounded_of_readRatio? hraw hx)
  | text =>
    obtain ⟨s, -, rfl⟩ := Option.map_eq_some_iff.1 h
    exact .string s
  | boolean =>
    obtain ⟨b, -, rfl⟩ := Option.map_eq_some_iff.1 h
    exact .bool b
  | tags =>
    obtain ⟨t, -, rfl⟩ := Option.map_eq_some_iff.1 h
    exact Json.isExact_strings _
  | files =>
    obtain ⟨entries, hentries, rfl⟩ := Option.map_eq_some_iff.1 h
    exact isExact_files hraw hentries
  | list =>
    obtain ⟨parts, -, rfl⟩ := Option.map_eq_some_iff.1 h
    exact Json.isExact_strings _
  | timestamp =>
    obtain ⟨x, hx, rfl⟩ := Option.map_eq_some_iff.1 h
    exact isExact_timestampValue (isRounded_of_readNumber? hraw.rounded hx)

theorem isExact_of_convert {kind : ValueKind} {field : String} (hraw : raw.FromSource)
    {v : FieldValue} (h : kind.convert field raw = .ok v) : v.toJson.IsExact := by
  rw [convert] at h
  split_ifs at h
  · cases h
    exact .null
  · split at h
    · next w hw =>
      cases h
      exact isExact_of_read? hraw hw
    · cases h

end ValueKind

/-! ## Sources -/

namespace Derivation

theorem isExact_spanBetween (stop start : Option Binary64) : (spanBetween stop start).IsExact := by
  cases stop with
  | none => exact .null
  | some stop =>
    cases start with
    | none => exact .null
    | some start => exact Json.isExact_ofBinary64 (Binary64.isRounded_sub stop start)

/-- What is computed is exact, whatever it is computed from. -/
theorem isExact_of_compute {d : Derivation} {scene : Scene} {raw : Snapshot} {v : Json}
    (h : d.compute scene raw = .ok v) : v.IsExact := by
  cases d with
  | ghost =>
    obtain ⟨path, -, h⟩ := exists_of_bind_ok h
    cases h
    exact .bool _
  | transferRate =>
    obtain ⟨up, -, h⟩ := exists_of_bind_ok h
    obtain ⟨down, -, h⟩ := exists_of_bind_ok h
    cases h
    exact Json.isExact_int64 (Binary64.le_toInt64 _) (Binary64.toInt64_lt _)
  | age | seedTime =>
    obtain ⟨since, -, h⟩ := exists_of_bind_ok h
    cases h
    exact isExact_spanBetween _ _
  | leechTime =>
    obtain ⟨completed, -, h⟩ := exists_of_bind_ok h
    obtain ⟨started, -, h⟩ := exists_of_bind_ok h
    cases h
    exact isExact_spanBetween _ _
  | realPath =>
    obtain ⟨path, -, h⟩ := exists_of_bind_ok h
    split_ifs at h
    · cases h
      exact .null
    · cases h
      exact .string _
  | tracker | trackerAlias =>
    obtain ⟨text, -, h⟩ := exists_of_bind_ok h
    cases h
    exact .string text
  | kinds percent =>
    obtain ⟨files, -, h⟩ := exists_of_bind_ok h
    obtain ⟨types, -, h⟩ := exists_of_bind_ok h
    cases h
    exact Json.isExact_strings types
  | traits table themes =>
    obtain ⟨name, -, h⟩ := exists_of_bind_ok h
    obtain ⟨tracker, -, h⟩ := exists_of_bind_ok h
    obtain ⟨files, -, h⟩ := exists_of_bind_ok h
    obtain ⟨type?, -, h⟩ := exists_of_bind_ok h
    cases h
    exact Json.isExact_strings _

end Derivation

theorem Source.fromSource_of_read {source : Source} {scene : Scene} {raw : Snapshot}
    {field : String} {call : Nat} {v : Json} (hraw : (Json.object raw).IsExact)
    (h : source.read scene raw field call = .ok v) : v.FromSource := by
  cases source with
  | stored =>
    cases h
    exact (Snapshot.isExact_value hraw field).fromSource
  | other name =>
    cases h
    exact (Snapshot.isExact_value hraw name).fromSource
  | failing reason => cases h
  | counter =>
    cases h
    exact Json.fromSource_natCast call
  | derived d => exact (Derivation.isExact_of_compute h).fromSource

/-! ## Items -/

/-- Whether the raw values of an item are exact, and those that it keeps are in their raw form. -/
structure Item.IsExact (item : Item) : Prop where
  raw : (Json.object item.raw).IsExact
  kept : ∀ entry ∈ item.kept, entry.2.toJson.IsExact

namespace Item

theorem isExact_ofSnapshot {raw : Snapshot} (h : (Json.object raw).IsExact) :
    (ofSnapshot raw).IsExact where
  raw := h
  kept := by simp [ofSnapshot]

theorem isExact_of_ofElements {index : Nat} {elements : List Json} {items : List Item}
    (h : ofElements index elements = .ok items) (helements : ∀ v ∈ elements, v.IsExact) :
    ∀ item ∈ items, item.IsExact := by
  induction elements generalizing index items with
  | nil =>
    cases h
    simp
  | cons v rest ih =>
    obtain ⟨hv, hrest⟩ := List.forall_mem_cons.1 helements
    cases v with
    | object members =>
      obtain ⟨others, hothers, rfl⟩ := exists_of_map_ok h
      exact List.forall_mem_cons.2 ⟨isExact_ofSnapshot hv, ih hothers hrest⟩
    | null | bool | integer | number | string | array => cases h

/-- The items that a text holds are exact. -/
theorem isExact_of_read {text : String} {items : List Item} (h : read text = .ok items) :
    ∀ item ∈ items, item.IsExact := by
  rw [read] at h
  split at h
  · next v hv =>
    have hread := Json.isExact_of_read? hv
    cases v with
    | array elements =>
      cases hread with
      | array helements => exact isExact_of_ofElements h helements
    | null | bool | integer | number | string | object => cases h
  · cases h

end Item

namespace Field

variable {f : Field} {scene : Scene} {r : Reading} {v : FieldValue}

theorem isExact_of_fresh {raw : Snapshot} {call : Nat} (hraw : (Json.object raw).IsExact)
    (h : f.fresh scene raw call = .ok v) : v.toJson.IsExact := by
  obtain ⟨given, hgiven, hconvert⟩ := exists_of_bind_ok h
  exact ValueKind.isExact_of_convert (Source.fromSource_of_read hraw hgiven)
    (liftM_eq_ok_iff.1 hconvert)

theorem isExact_value (hr : r.item.IsExact) (h : (f.value scene r).1 = .ok v) :
    v.toJson.IsExact := by
  cases f.outcome scene r with
  | computed call hresult => exact isExact_of_fresh hr.raw (hresult.symm.trans h)
  | found w _ hk hresult =>
    obtain rfl := Except.ok.inj (hresult.symm.trans h)
    exact hr.kept _ (Item.mem_kept_of_kept? hk)
  | stored w call _ _ hw hresult =>
    obtain rfl := Except.ok.inj (hresult.symm.trans h)
    exact isExact_of_fresh hr.raw hw

/-- An item that is read stays exact. -/
theorem isExact_item_value (hr : r.item.IsExact) : (f.value scene r).2.item.IsExact := by
  cases f.outcome scene r with
  | computed _ _ hitem => rwa [hitem]
  | found _ _ _ _ hitem => rwa [hitem]
  | stored w call _ hk hw _ hitem =>
    rw [hitem]
    refine ⟨hr.raw, ?_⟩
    rw [Item.kept_keep hk]
    exact List.forall_mem_cons.2 ⟨isExact_of_fresh hr.raw hw, hr.kept⟩

end Field

/-- A faithful item is exact if its raw values are. -/
theorem Item.Faithful.isExact {resolve : String → Except FieldError (Option Field)} {scene : Scene}
    {item : Item} (h : item.Faithful resolve scene) (hraw : (Json.object item.raw).IsExact) :
    item.IsExact where
  raw := hraw
  kept entry hentry := by
    obtain ⟨f, -, -, hv⟩ := h entry hentry
    exact Field.isExact_of_fresh hraw (hv 0)

end DownloadQuery

import DownloadQuery.Proofs.Field.Tags
import DownloadQuery.Proofs.Json.Members
import DownloadQuery.Proofs.Number.Digits
import DownloadQuery.Proofs.Number.Rounding
import DownloadQuery.Proofs.Reading.RawValues

/-!
# Exported values

The raw form of a value reads back as the value (`ValueKind.convert_toJson`), so each kind reads
what it has written as it was. Times take most care: a whole number of seconds that is out of range
is held at the end of the range, and stays there.
-/

namespace DownloadQuery

/-- Whether the number of a raw value, if it is one, is one that binary64 has. -/
def Json.IsRounded (raw : Json) : Prop := ∀ x, raw = .number x → x.IsRounded

/-- Whether all numbers of a value that may have a fraction are finite. -/
def FieldValue.IsFinite (v : FieldValue) : Prop :=
  (∀ x, v = .float x → x.IsFinite) ∧
    ∀ entries, v = .files entries → ∀ entry ∈ entries, ∀ x, entry.changed = some x → x.IsFinite

theorem Json.ofBinary64_of_isFinite {x : Binary64} (h : x.IsFinite) :
    Json.ofBinary64 x = .number x := by
  obtain ⟨negative, units, rfl⟩ := h
  rfl

namespace FileEntry

variable {entry : FileEntry}

theorem ofParts?_eq_some_iff {path size changed priority : Option Json} :
    ofParts? path size changed priority = some entry ↔
      path.bind readPath? = some entry.path ∧ part? readSize? 0 size = some entry.size ∧
        part? readChanged? none changed = some entry.changed ∧
        part? Json.toInt64? 0 priority = some entry.priority := by
  obtain ⟨path', size', changed', priority'⟩ := entry
  simp only [ofParts?, Option.bind_eq_bind, Option.pure_def, Option.bind_eq_some_iff,
    Option.some.injEq, mk.injEq]
  constructor
  · rintro ⟨path, rfl, _, hpath, _, hsize, _, hchanged, _, hpriority, rfl, rfl, rfl, rfl⟩
    exact ⟨⟨path, rfl, hpath⟩, hsize, hchanged, hpriority⟩
  · rintro ⟨⟨path, rfl, hpath⟩, hsize, hchanged, hpriority⟩
    exact ⟨path, rfl, _, hpath, _, hsize, _, hchanged, _, hpriority, rfl, rfl, rfl, rfl⟩

theorem lt_of_toInt64? {raw : Json} {n : Int} (h : raw.toInt64? = some n) :
    n < Int.pow 2 63 := by
  cases raw with
  | integer m =>
    rw [Json.toInt64?] at h
    split_ifs at h with hlt
    cases h
    exact hlt
  | null | bool | number | string | array | object => cases h

/-- A priority is within the signed 64-bit words. -/
theorem priority_lt {raw : Json} (h : ofJson? raw = some entry) :
    entry.priority < Int.pow 2 63 := by
  have hparts {path size changed priority : Option Json}
      (hentry : ofParts? path size changed priority = some entry) :
      entry.priority < Int.pow 2 63 := by
    have hpriority := (ofParts?_eq_some_iff.1 hentry).2.2.2
    cases priority with
    | none =>
      rw [← Option.some.inj hpriority]
      decide
    | some raw => exact lt_of_toInt64? hpriority
  cases raw with
  | string path =>
    rw [← Option.some.inj h]
    exact (show (1 : Int) < Int.pow 2 63 by decide)
  | object members => exact hparts h
  | array parts =>
    rw [ofJson?] at h
    split_ifs at h
    exact hparts h
  | null | bool | integer | number => cases h

/-- The object of a file reads back as the file. -/
theorem ofJson?_toJson (hpriority : entry.priority < Int.pow 2 63)
    (hchanged : ∀ x, entry.changed = some x → x.IsFinite) : ofJson? entry.toJson = some entry := by
  have hsize : readSize? (.integer entry.size.toNat) = some entry.size := by
    simp [readSize?]
  have hnumber : Json.toInt64? (.integer entry.priority) = some entry.priority :=
    if_pos hpriority
  rw [toJson, ofJson?]
  cases hentry : entry.changed with
  | none => exact ofParts?_eq_some_iff.2 ⟨rfl, hsize, hentry.symm ▸ rfl, hnumber⟩
  | some x =>
    have hx : readChanged? (Json.ofBinary64 x) = some entry.changed := by
      rw [Json.ofBinary64_of_isFinite (hchanged x hentry), hentry]
      rfl
    exact ofParts?_eq_some_iff.2 ⟨rfl, hsize, hx, hnumber⟩

end FileEntry

namespace ValueKind

theorem readUntyped_toJson (raw : Json) (h : (readUntyped raw).IsFinite) :
    readUntyped (readUntyped raw).toJson = readUntyped raw := by
  cases raw with
  | integer n =>
    rw [readUntyped] at h ⊢
    split_ifs at h ⊢ with hlt
    · rw [FieldValue.toJson, readUntyped, if_pos hlt]
    · rw [FieldValue.toJson, Json.ofBinary64_of_isFinite (h.1 _ rfl), readUntyped]
  | number x =>
    rw [readUntyped, FieldValue.toJson, Json.ofBinary64_of_isFinite (h.1 _ rfl), readUntyped]
  | array elements =>
    simp [readUntyped, FieldValue.toJson, Function.comp_def]
  | null | bool | string | object => rfl

/-- An integer that is read is within the signed 64-bit words. -/
theorem lt_of_readInteger? {raw : Json} {n : Int} (h : readInteger? raw = some n) :
    n < Int.pow 2 63 := by
  cases raw with
  | integer m =>
    rw [readInteger?] at h
    split_ifs at h with hlt
    · rwa [← Option.some.inj h]
    · rw [← Option.some.inj h]
      exact Binary64.toInt64_lt _
  | number x =>
    rw [← Option.some.inj h]
    exact x.toInt64_lt
  | bool b =>
    rw [← Option.some.inj h]
    cases b <;> decide
  | string s =>
    rw [readInteger?] at h
    split_ifs at h
    · rw [← Option.some.inj h]
      decide
    · exact Whole.readInt64_lt (eq_ok_of_toOption h)
  | null | array | object => cases h

/-- The number that is read is rounded. -/
theorem isRounded_of_readNumber? {raw : Json} (hraw : raw.IsRounded) {x : Binary64}
    (h : readNumber? raw = some x) : x.IsRounded := by
  cases raw with
  | integer n =>
    rw [← Option.some.inj h]
    exact Binary64.isRounded_ofInt n
  | number y =>
    rw [← Option.some.inj h]
    exact hraw y rfl
  | bool b =>
    rw [← Option.some.inj h]
    cases b with
    | false => exact Binary64.isRounded_literal 0
    | true => exact Binary64.isRounded_literal 1
  | string s =>
    rw [readNumber?, FieldValue.numberOfText] at h
    split_ifs at h
    · rw [← Option.some.inj h]
      exact Binary64.isRounded_literal 0
    · exact Decimal.isRounded_of_read (eq_ok_of_toOption h)
  | null | array | object => cases h

/-- A whole number of seconds reads back as it is, also at the ends of the range. -/
theorem timestampValue_toInt64 {x : Binary64} (hx : x.IsRounded) (hwhole : x.isWhole = true)
    (hne : x.eq 0 = false) : timestampValue (.ofInt x.toInt64) = .int x.toInt64 := by
  rcases Binary64.ofInt_toInt64 hx hwhole hne with hsame | hhigh | hlow
  · rw [hsame, timestampValue, hne, hwhole, if_neg Bool.false_ne_true, if_pos rfl]
  · rw [hhigh]
    decide +kernel
  · rw [hlow]
    decide +kernel

/-- A point in time reads back as it is. -/
theorem convert_timestampValue {field : String} {x : Binary64} (hx : x.IsRounded)
    (hfinite : (timestampValue x).IsFinite) :
    convert .timestamp field (timestampValue x).toJson = .ok (timestampValue x) := by
  cases hzero : x.eq 0 with
  | true =>
    have hv : timestampValue x = .null := by rw [timestampValue, hzero, if_pos rfl]
    rw [hv]
    rfl
  | false =>
    cases hwhole : x.isWhole with
    | true =>
      have hv : timestampValue x = .int x.toInt64 := by
        rw [timestampValue, hzero, hwhole, if_neg Bool.false_ne_true, if_pos rfl]
      have hread : read? .timestamp (.integer x.toInt64) =
          some (timestampValue (.ofInt x.toInt64)) := rfl
      rw [hv, FieldValue.toJson, convert, hread, timestampValue_toInt64 hx hwhole hzero]
      rfl
    | false =>
      have hv : timestampValue x = .float x := by
        rw [timestampValue, hzero, hwhole, if_neg Bool.false_ne_true, if_neg Bool.false_ne_true]
      have hread : read? .timestamp (.number x) = some (timestampValue x) := rfl
      rw [hv] at hfinite
      rw [hv, FieldValue.toJson, Json.ofBinary64_of_isFinite (hfinite.1 x rfl), convert, hread, hv]
      rfl

/-- The tags of texts read back as they are. -/
theorem readTags?_toJson {raw : Json} {t : TagSet} (h : readTags? raw = some t) :
    readTags? (FieldValue.tags t).toJson = some t := by
  obtain ⟨texts, htexts, -⟩ := Option.map_eq_some_iff.1 h
  obtain ⟨_, hread, htags⟩ := exists_readTags? (readTexts?_eq_some_iff.1 htexts)
  obtain rfl := Option.some.inj (h.symm.trans hread)
  obtain ⟨t', hread', htags'⟩ := exists_readTags? (.many t.toList)
  have hsame : t' = t := TagSet.ext fun tag => by
    rw [htags', isTagOf_tags fun tag htag => (htags tag).1 htag]
  rw [FieldValue.toJson, hread', hsame]

theorem readFiles?_toJson {raw : Json} {entries : List FileEntry}
    (h : readFiles? raw = some entries) (hfinite : (FieldValue.files entries).IsFinite) :
    readFiles? (FieldValue.files entries).toJson = some entries := by
  cases raw with
  | array elements =>
    refine mapM_map_eq_some fun entry hentry => ?_
    obtain ⟨raw, -, hraw⟩ := exists_of_mem_related (mapM_eq_some_iff.1 h) entry hentry
    exact FileEntry.ofJson?_toJson (FileEntry.priority_lt hraw) (hfinite.2 _ rfl entry hentry)
  | null | bool | integer | number | string | object => cases h

theorem convert_untyped (field : String) (raw : Json) :
    convert .untyped field raw = .ok (readUntyped raw) := by
  cases raw <;> rfl

/-- What a kind has read reads back as it is. -/
theorem convert_of_read?_toJson {kind : ValueKind} (field : String) {raw : Json}
    (hraw : raw.IsRounded) {v : FieldValue} (hv : v.IsFinite) (h : kind.read? raw = some v) :
    kind.convert field v.toJson = .ok v := by
  cases kind with
  | untyped =>
    obtain rfl := Option.some.inj h
    rw [convert_untyped, readUntyped_toJson raw hv]
  | integer =>
    obtain ⟨n, hn, rfl⟩ := Option.map_eq_some_iff.1 h
    have hread : readInteger? (.integer n) = some n := if_pos (lt_of_readInteger? hn)
    exact convert_of_read? rfl (congrArg (Option.map _) hread)
  | float | duration | ratio =>
    obtain ⟨x, -, rfl⟩ := Option.map_eq_some_iff.1 h
    have hx := hv.1 x rfl
    rw [FieldValue.toJson, Json.ofBinary64_of_isFinite hx]
    exact convert_of_read? rfl rfl
  | text | boolean =>
    obtain ⟨x, -, rfl⟩ := Option.map_eq_some_iff.1 h
    exact convert_of_read? rfl rfl
  | tags =>
    obtain ⟨t, ht, rfl⟩ := Option.map_eq_some_iff.1 h
    exact convert_of_read? rfl (congrArg (Option.map _) (readTags?_toJson ht))
  | files =>
    obtain ⟨entries, hentries, rfl⟩ := Option.map_eq_some_iff.1 h
    exact convert_of_read? rfl (congrArg (Option.map _) (readFiles?_toJson hentries hv))
  | list =>
    obtain ⟨parts, -, rfl⟩ := Option.map_eq_some_iff.1 h
    exact convert_of_read? rfl (congrArg (Option.map _) (readTexts?_eq_some_iff.2 (.many parts)))
  | timestamp =>
    obtain ⟨x, hx, rfl⟩ := Option.map_eq_some_iff.1 h
    exact convert_timestampValue (isRounded_of_readNumber? hraw hx) hv

theorem convert_toJson {kind : ValueKind} {field : String} {raw : Json} (hraw : raw.IsRounded)
    {v : FieldValue} (hv : v.IsFinite) (h : kind.convert field raw = .ok v) :
    kind.convert field v.toJson = .ok v := by
  rw [convert] at h
  split_ifs at h
  · cases h
    rfl
  · split at h
    · next w hw =>
      cases h
      exact convert_of_read?_toJson field hraw hv hw
    · cases h

end ValueKind

end DownloadQuery

import DownloadQuery.Field.Builtin
import DownloadQuery.Proofs.Content.TypeShares
import DownloadQuery.Proofs.Field.Support
import DownloadQuery.Proofs.Reading.RawValues

/-!
# Classification with and without a list of files

An item without files is classified by the extension of its name, and one with files by the type of
most of its bytes. The two differ in that the type of a file goes under its common name and an
extension is taken as it is. So the traits of an item stay the same once its one file is listed, but
for the volumes of an archive, `jpeg` and `mpeg` (`Field.traits_listed`).
-/

namespace DownloadQuery

/-! ## Traits of types under another name -/

namespace Traits

variable {name type : String} {themes : List (String × String)}

/-- No type that is told apart is that of a volume. -/
theorem ofType?_of_isVolume (h : FileType.IsVolume type) : ofType? type = none := by
  obtain ⟨digit, digits, htype, hall⟩ := FileType.isVolume_iff.1 h
  have hdigit : digit.isDigit = true := List.all_eq_true.1 hall digit List.mem_cons_self
  have hnot {types : List String}
      (htypes : ∀ t ∈ types, t.toList[0]? = some 'r' → t.toList[1]?.any Char.isDigit = false) :
      type ∉ types := by
    intro hmem
    have hfalse := htypes type hmem (by rw [htype]; rfl)
    rw [htype, List.getElem?_cons_succ, List.getElem?_cons_zero, Option.any_some, hdigit] at hfalse
    cases hfalse
  rw [ofType?, if_neg (hnot (by decide)), if_neg (hnot (by decide)), if_neg (hnot (by decide)),
    if_neg (hnot (by decide)), if_neg (hnot (by decide))]

/-- The traits of a type that is told apart end with it, and other types have no traits. -/
theorem ofDownload_cases (name : String) (themes : List (String × String))
    (hdot : type.toList.head? ≠ some '.') :
    ofType? type = none ∧ ofDownload name none (some type) themes = [] ∨
      ofType? type ≠ none ∧
        ∃ general, ofDownload name none (some type) themes = [general, type] := by
  have hsame : String.ofList (type.toList.dropWhile (· == '.')) = type := by
    have hdrop : type.toList.dropWhile (· == '.') = type.toList := by
      cases htype : type.toList with
      | nil => rfl
      | cons c rest =>
        apply List.dropWhile_cons_of_neg
        rintro hc
        exact hdot (by rw [htype, beq_iff_eq.1 hc]; rfl)
    rw [hdrop, String.ofList_toList]
  have htheme : theme? themes none = none := rfl
  simp only [ofDownload, Option.map_some, Option.getD_some, hsame, htheme]
  cases ofType? type with
  | none => exact .inl ⟨rfl, rfl⟩
  | some found =>
    refine .inr ⟨Option.some_ne_none _, ?_⟩
    dsimp only
    cases if found.2 then Release.ofName? name else none with
    | none => exact ⟨found.1, rfl⟩
    | some release => exact ⟨release.label, rfl⟩

theorem ofDownload_normalized_iff : ofDownload name none (some (FileType.normalized type)) themes =
      ofDownload name none (some type) themes ↔
    ¬ FileType.IsVolume type ∧ type ≠ "jpeg" ∧ type ≠ "mpeg" := by
  have hends {t : String} (hdot : t.toList.head? ≠ some '.') (htype : ofType? t ≠ none) :
      ∃ general, ofDownload name none (some t) themes = [general, t] :=
    ((ofDownload_cases name themes hdot).resolve_left fun h => htype h.1).2
  have hnone {t : String} (hdot : t.toList.head? ≠ some '.') (htype : ofType? t = none) :
      ofDownload name none (some t) themes = [] :=
    ((ofDownload_cases name themes hdot).resolve_right fun h => h.1 htype).2
  rcases FileType.normalized_cases type with ⟨hvolume, heq⟩ | ⟨rfl, heq⟩ | ⟨rfl, heq⟩ | ⟨hplain, heq⟩
  · have hdot : type.toList.head? ≠ some '.' := by
      obtain ⟨digits, -, htype, -⟩ := hvolume
      rw [htype, List.head?_cons]
      decide
    obtain ⟨general, hrar⟩ := hends (t := "rar") (by decide) (by decide)
    rw [heq, hrar, hnone hdot (ofType?_of_isVolume hvolume)]
    simp [hvolume]
  · obtain ⟨general, hjpg⟩ := hends (t := "jpg") (by decide) (by decide)
    rw [heq, hjpg, hnone (by decide) (by decide)]
    simp
  · obtain ⟨general, hmpg⟩ := hends (t := "mpg") (by decide) (by decide)
    obtain ⟨general', hmpeg⟩ := hends (t := "mpeg") (by decide) (by decide)
    rw [heq, hmpg, hmpeg]
    simp
  · rw [heq]
    simp [hplain]

end Traits

/-! ## The files of an item -/

/-- Whether a snapshot is another one, which has no files, with a list of files. -/
structure Snapshot.Lists (listed raw : Snapshot) (entries : List Json) : Prop where
  unlisted : raw.lookup "files" = none
  files : listed.lookup "files" = some (.array entries)
  others : ∀ name, name ≠ "files" → listed.lookup name = raw.lookup name

theorem Snapshot.lists_append {raw : Snapshot} (h : raw.lookup "files" = none)
    (entries : List Json) : Lists (raw ++ [("files", .array entries)]) raw entries where
  unlisted := h
  files := by
    rw [List.lookup_append, h]
    rfl
  others name hname := by
    have hfiles : (name == "files") = false := beq_eq_false_iff_ne.2 hname
    rw [List.lookup_append, List.lookup_cons, hfiles, List.lookup_nil, Option.or_none]

theorem Snapshot.Lists.value_eq {listed raw : Snapshot} {entries : List Json}
    (h : listed.Lists raw entries) {name : String} (hname : name ≠ "files") :
    listed.value name = raw.value name := by
  rw [value, value, h.others name hname, h.others "custom" (by decide)]

namespace Derivation

variable {listed raw : Snapshot} {entries : List Json} {table : AnnounceTable}

/-- The tracker of an item has nothing to do with its files. -/
theorem aliasOf_listed (h : listed.Lists raw entries) : aliasOf listed table = aliasOf raw table :=
  aliasOf_congr table (h.value_eq (by decide)) (h.value_eq (by decide)) (h.value_eq (by decide))

theorem filesOf_unlisted (h : raw.lookup "files" = none) : filesOf raw = .ok [] := by
  have hvalue : raw.value "files" = .null := by
    rw [Snapshot.value, h]
    rfl
  rw [filesOf, hvalue]
  rfl

theorem filesOf_listed {files : List FileEntry}
    (h : raw.lookup "files" = some (.array entries))
    (hfiles : entries.mapM FileEntry.ofJson? = some files) : filesOf raw = .ok files := by
  have hread : ValueKind.files.convert "files" (.array entries) = .ok (.files files) := by
    apply ValueKind.convert_of_read? rfl
    rw [ValueKind.read?, ValueKind.readFiles?, hfiles]
    rfl
  rw [filesOf, Snapshot.value, h]
  simp only [hread]
  rfl

theorem mainType?_eq (name : String) (files : List FileEntry) :
    mainType? name files =
      if TypeShare.bytes files < 2 ^ 64 then
        .ok (((TypeShare.shares files).find? (·.type != "")).elim (FileType.extension? name)
          fun share => some share.type)
      else .error ⟨⟩ := by
  rw [mainType?, TypeShare.ofFiles_eq]
  split
  · rw [ok_bind]
    cases (TypeShare.shares files).find? (·.type != "") <;> rfl
  · rfl

theorem mainType?_nil (name : String) : mainType? name [] = .ok (FileType.extension? name) := by
  have hnone : TypeShare.shares [] = [] :=
    List.map_eq_nil_iff.1 (List.perm_nil.1 (TypeShare.types_perm []))
  have hbytes : TypeShare.bytes [] < 2 ^ 64 := by decide
  rw [mainType?_eq, if_pos hbytes, hnone]
  rfl

theorem mainType?_singleton (name : String) {file : FileEntry}
    (h : FileType.ofPath file.path ≠ "") :
    mainType? name [file] = .ok (some (FileType.ofPath file.path)) := by
  have htypes : (TypeShare.shares [file]).map (·.type) = [FileType.ofPath file.path] :=
    List.perm_singleton.1 (TypeShare.types_perm [file])
  obtain ⟨s, hs, htype⟩ := List.map_eq_singleton_iff.1 htypes
  have hfound : (TypeShare.shares [file]).find? (·.type != "") = some s := by
    rw [hs, List.find?_cons_of_pos]
    rw [htype]
    exact bne_iff_ne.2 h
  -- One size is a word.
  have hbytes : TypeShare.bytes [file] < 2 ^ 64 := file.size.toNat_lt
  rw [mainType?_eq, if_pos hbytes, hfound, ← htype]
  rfl

theorem compute_traits {themes : List (String × String)} {name tracker : String}
    {files : List FileEntry} {type? : Option String} (hname : textOf raw "name" = .ok name)
    (halias : aliasOf raw table = .ok tracker) (hfiles : filesOf raw = .ok files)
    (htype : mainType? name files = .ok type?) (scene : Scene) :
    compute scene raw (.traits table themes) =
      .ok (.array ((Traits.ofDownload name (if tracker = "" then none else some tracker)
        type? themes).map .string)) := by
  rw [compute, hname, halias, hfiles]
  change (liftM (mainType? name files) : Except (Halt FieldError) (Option String)) >>= _ = _
  rw [htype]
  rfl

end Derivation

/-! ## The field -/

namespace Field

variable {table : AnnounceTable} {themes : List (String × String)} {f : Field} {r : Reading}
  {path ext : String}

theorem traits_of_mem_builtins (hf : f ∈ builtins table themes) (hname : f.name = "traits") :
    f.kind = .list ∧ f.freshness = .dynamic ∧ f.source = .derived (.traits table themes) := by
  revert f
  simp [builtins, textual, flag, bytes, timestamp, duration, tags, kinds]

theorem exists_traits (table : AnnounceTable) (themes : List (String × String)) :
    ∃ f ∈ builtins table themes, f.name = "traits" :=
  ⟨_, List.getLast_mem (List.cons_ne_nil _ _), rfl⟩

theorem value_traits (hf : f ∈ builtins table themes) (hname : f.name = "traits")
    {tracker : String} {files : List FileEntry} {type? : Option String}
    (htext : Derivation.textOf r.item.raw "name" = .ok path)
    (halias : Derivation.aliasOf r.item.raw table = .ok tracker)
    (hfiles : Derivation.filesOf r.item.raw = .ok files)
    (htype : Derivation.mainType? path files = .ok type?) (scene : Scene) :
    (f.value scene r).1 =
      .ok (.list (Traits.ofDownload path (if tracker = "" then none else some tracker) type?
        themes)) := by
  obtain ⟨hkind, hfresh, hsource⟩ := traits_of_mem_builtins hf hname
  obtain ⟨call, hvalue⟩ := exists_value_eq_fresh (f := f) (by rw [hfresh]; decide) scene r
  have htexts (texts : List String) :
      ValueKind.list.convert f.name (.array (texts.map .string)) = .ok (.list texts) := by
    apply ValueKind.convert_of_read? rfl
    rw [ValueKind.read?, ValueKind.readTexts?_eq_some_iff.2 (.many texts)]
    rfl
  rw [hvalue, fresh, hsource, Source.read, Derivation.compute_traits htext halias hfiles htype,
    ok_bind, hkind, htexts]
  rfl

/-- The traits of an item without a tracker alias are those of its main type. -/
theorem value_traits_of_type (hf : f ∈ builtins table themes) (hname : f.name = "traits")
    {files : List FileEntry} {type : String}
    (htext : Derivation.textOf r.item.raw "name" = .ok path)
    (halias : Derivation.aliasOf r.item.raw table = .ok "")
    (hfiles : Derivation.filesOf r.item.raw = .ok files)
    (htype : Derivation.mainType? path files = .ok (some type)) (scene : Scene) :
    (f.value scene r).1 = .ok (.list (Traits.ofDownload path none (some type) themes)) := by
  rw [value_traits hf hname htext halias hfiles htype, if_pos rfl]

/-- The traits of an item without a tracker alias are those of the extension of its name. Once the
one file of that name is listed, they are those of the type that the extension goes under. -/
theorem traits_listed (hf : f ∈ builtins table themes) (hname : f.name = "traits") {s : Reading}
    {entry : Json} {file : FileEntry} (hpath : FileType.IsName path ext)
    (htext : Derivation.textOf r.item.raw "name" = .ok path)
    (halias : Derivation.aliasOf r.item.raw table = .ok "")
    (hlisted : s.item.raw.Lists r.item.raw [entry])
    (hentry : FileEntry.ofJson? entry = some file) (hfile : file.path = path)
    (scene later : Scene) :
    (f.value scene r).1 =
      .ok (.list (Traits.ofDownload path none (some (Text.lower ext)) themes)) ∧
    (f.value later s).1 = .ok (.list
      (Traits.ofDownload path none (some (FileType.normalized (Text.lower ext))) themes)) ∧
    ((f.value later s).1 = (f.value scene r).1 ↔
      ¬ FileType.IsVolume (Text.lower ext) ∧ Text.lower ext ≠ "jpeg" ∧
        Text.lower ext ≠ "mpeg") := by
  have hext : FileType.extension? path = some (Text.lower ext) := FileType.extension?_of_isName hpath
  have hunlisted : (f.value scene r).1 =
      .ok (.list (Traits.ofDownload path none (some (Text.lower ext)) themes)) :=
    value_traits_of_type hf hname htext halias (Derivation.filesOf_unlisted hlisted.unlisted)
      ((Derivation.mainType?_nil path).trans (congrArg _ hext)) scene
  have hvalue : (f.value later s).1 = .ok (.list
      (Traits.ofDownload path none (some (FileType.normalized (Text.lower ext))) themes)) := by
    have hone : FileType.ofPath file.path = FileType.normalized (Text.lower ext) := by
      rw [FileType.ofPath, hfile, hext, Option.getD_some]
    have hne : FileType.normalized (Text.lower ext) ≠ "" :=
      FileType.normalized_ne_empty (Text.lower_eq_empty_iff.not.2 hpath.ext_ne_empty)
    have hfiles : Derivation.filesOf s.item.raw = .ok [file] := by
      apply Derivation.filesOf_listed hlisted.files
      rw [List.mapM_cons, hentry]
      rfl
    apply value_traits_of_type hf hname ?named ?tracked hfiles ?main
    case named => rw [Derivation.textOf_congr (hlisted.value_eq (by decide)), htext]
    case tracked => rw [Derivation.aliasOf_listed hlisted, halias]
    case main => rw [Derivation.mainType?_singleton path (hone ▸ hne), hone]
  refine ⟨hunlisted, hvalue, ?_⟩
  rw [hunlisted, hvalue, Except.ok.injEq, FieldValue.list.injEq]
  exact Traits.ofDownload_normalized_iff

/-- An episode is one whether its file is listed or not. -/
theorem traits_listed_episode :
    let scene : Scene := ⟨⟨.fixed 0, 0⟩, fun _ => false, fun _ => none⟩
    let raw : Snapshot := [("name", .string "Show.S01E02.MKV")]
    let listed : Snapshot := raw ++ [("files", .array [.string "Show.S01E02.MKV"])]
    ∃ f ∈ builtins [] [], f.name = "traits" ∧
      (f.value scene ⟨.ofSnapshot listed, []⟩).1 = (f.value scene ⟨.ofSnapshot raw, []⟩).1 := by
  intro scene raw listed
  obtain ⟨f, hf, hname⟩ := exists_traits [] []
  have hpath : FileType.IsName "Show.S01E02.MKV" "MKV" :=
    ⟨⟨"Show.S01E02".toList, by decide, rfl⟩, by decide, by decide, by decide⟩
  have hlisted : listed.Lists raw [.string "Show.S01E02.MKV"] := Snapshot.lists_append rfl _
  obtain ⟨-, -, hsame⟩ := traits_listed (r := ⟨.ofSnapshot raw, []⟩)
    (s := ⟨.ofSnapshot listed, []⟩) hf hname hpath rfl rfl hlisted rfl rfl scene scene
  refine ⟨f, hf, hname, hsame.2 ⟨?_, by decide, by decide⟩⟩
  rintro ⟨digits, -, htype, -⟩
  cases htype

/-- A picture has no traits until its file is listed. -/
theorem traits_listed_picture :
    let scene : Scene := ⟨⟨.fixed 0, 0⟩, fun _ => false, fun _ => none⟩
    let raw : Snapshot := [("name", .string "photo.jpeg")]
    let listed : Snapshot := raw ++ [("files", .array [.string "photo.jpeg"])]
    ∃ f ∈ builtins [] [], f.name = "traits" ∧
      (f.value scene ⟨.ofSnapshot raw, []⟩).1 = .ok (.list []) ∧
      (f.value scene ⟨.ofSnapshot listed, []⟩).1 = .ok (.list ["img", "jpg"]) := by
  intro scene raw listed
  obtain ⟨f, hf, hname⟩ := exists_traits [] []
  refine ⟨f, hf, hname, ?unlisted, ?listed⟩
  case unlisted =>
    have htype : Derivation.mainType? "photo.jpeg" [] = .ok (some "jpeg") :=
      (Derivation.mainType?_nil _).trans (by decide)
    exact value_traits_of_type (r := ⟨.ofSnapshot raw, []⟩) hf hname rfl rfl rfl htype scene
  case listed =>
    have htype : Derivation.mainType? "photo.jpeg" [.ofPath "photo.jpeg"] = .ok (some "jpg") :=
      (Derivation.mainType?_singleton _ (by decide)).trans (by decide)
    exact value_traits_of_type (r := ⟨.ofSnapshot listed, []⟩) hf hname rfl rfl rfl htype scene

end Field
end DownloadQuery

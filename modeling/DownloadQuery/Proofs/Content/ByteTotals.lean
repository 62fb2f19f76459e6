import DownloadQuery.Proofs.Content.Classification
import DownloadQuery.Proofs.Field.Export
import DownloadQuery.Proofs.Filter.Leaves

/-!
# Totals of bytes

The sizes of files are added up in 64 bits. There are sums just if the bytes of all files fit
(`TypeShare.sumsFit_iff`), and nothing that is known of an item says that they do. Kinds and traits
are about the true shares then; otherwise reading them ends the program (`TypeShare.byte_totals`).
-/

namespace DownloadQuery

namespace TypeShare

variable {files : List FileEntry} {type : String}

/-- Whether there are sums of sizes: those of each type, however far the files have been gone
through, and with that of all files the shares. -/
structure SumsFit (files : List FileEntry) : Prop where
  running {before after : List FileEntry} (hsplit : files = before ++ after) (type : String) :
    ∃ total, sizeOf before type = .ok total ∧ total.toNat = bytesOf before type
  total : ∃ shares, ofFiles files = .ok shares

/-- No sum is greater than that of all files. -/
theorem sumsFit_iff : SumsFit files ↔ bytes files < 2 ^ 64 := by
  constructor
  · intro h
    obtain ⟨shares, hshares⟩ := h.total
    by_contra hbytes
    rw [ofFiles_of_overflow (Nat.not_lt.1 hbytes)] at hshares
    cases hshares
  · intro hbytes
    constructor
    · rintro before after rfl type
      have hbefore : bytes before ≤ bytes (before ++ after) := by
        rw [bytes_append]
        exact Nat.le_add_right _ _
      have htype : bytesOf before type < 2 ^ 64 :=
        (bytesOf_le before type).trans_lt (hbefore.trans_lt hbytes)
      refine ⟨.ofNat (bytesOf before type), ?_, UInt64.toNat_ofNat_of_lt' htype⟩
      rw [sizeOf_eq, if_pos htype]
    · exact ⟨shares files, ofFiles_of_fits hbytes⟩

/-- Whether a type is that with the greatest share among those with a name; of equal shares the
greater name counts. -/
structure Leads (files : List FileEntry) (type : String) : Prop where
  named : type ≠ ""
  hasType : HasType files type
  greatest {other : String} (hnamed : other ≠ "") (hother : HasType files other) :
    (shareOf files other).rank ≤ (shareOf files type).rank

/-- What may be the main type of an item: the type that leads among its files, or that of its name
if no file has a type. -/
inductive IsMain (files : List FileEntry) (name : String) : Option String → Prop
  | leads {type : String} (h : Leads files type) : IsMain files name (some type)
  | unnamed (h : ∀ type, HasType files type → type = "") :
    IsMain files name (FileType.extension? name)

theorem shareOf_mem (h : HasType files type) : shareOf files type ∈ shares files :=
  mem_shares.2 ⟨h, rfl⟩

/-- The first share with a name is that of the type that leads. -/
theorem leads_of_find? {s : TypeShare} (h : (shares files).find? (·.type != "") = some s) :
    Leads files s.type := by
  obtain ⟨hnamed, before, after, hsplit, hbefore⟩ := List.find?_eq_some_iff_append.1 h
  obtain ⟨htype, hpercent⟩ := mem_shares.1 (List.mem_of_find?_eq_some h)
  have hs : shareOf files s.type = s := by rw [shareOf, ← hpercent]
  refine ⟨bne_iff_ne.1 hnamed, htype, ?_⟩
  intro other hother htypeOther
  have hmem := shareOf_mem htypeOther
  have hdown := shares_descending files
  rw [hsplit] at hmem hdown
  rw [hs]
  rcases List.mem_append.1 hmem with hmem | hmem
  · exact absurd (hbefore _ hmem) (by simpa [shareOf] using hother)
  · rcases List.mem_cons.1 hmem with heq | hmem
    · rw [heq]
    · have hafter := (List.pairwise_append.1 hdown).2.1
      exact ((List.pairwise_cons.1 hafter).1 _ hmem).le

end TypeShare

namespace Derivation

open TypeShare

theorem exists_mainType? (name : String) {files : List FileEntry} (h : SumsFit files) :
    ∃ type?, mainType? name files = .ok type? ∧ IsMain files name type? := by
  refine ⟨_, by rw [mainType?_eq, if_pos (sumsFit_iff.1 h)], ?_⟩
  cases hfound : (shares files).find? (·.type != "") with
  | none =>
    apply IsMain.unnamed
    intro type htype
    simpa [shareOf] using List.find?_eq_none.1 hfound _ (shareOf_mem htype)
  | some s => exact .leads (leads_of_find? hfound)

/-- Any files can be those of an item. -/
theorem filesOf_toJson {files : List FileEntry}
    (h : ∀ f ∈ files, f.priority < Int.pow 2 63 ∧ f.changed = none) :
    filesOf [("files", .array (files.map FileEntry.toJson))] = .ok files := by
  apply filesOf_listed rfl
  apply mapM_map_eq_some
  intro f hf
  obtain ⟨hpriority, hchanged⟩ := h f hf
  exact FileEntry.ofJson?_toJson hpriority (by simp [hchanged])

/-- An item may have any number of bytes. -/
theorem exists_le_bytes (n : Nat) :
    ∃ raw files, filesOf raw = .ok files ∧ n ≤ bytes files := by
  let files : List FileEntry := List.replicate n ⟨"a.mkv", 1, none, 0⟩
  refine ⟨_, files, filesOf_toJson ?_, ?_⟩
  · intro f hf
    rw [List.eq_of_mem_replicate hf]
    exact ⟨by decide, rfl⟩
  · have hsum : bytes files = n := by
      simp [files, bytes]
    exact hsum.ge

variable {raw : Snapshot} {files : List FileEntry}

theorem compute_kinds (hfiles : filesOf raw = .ok files) (scene : Scene) (percent : Nat) :
    compute scene raw (.kinds percent) =
      if bytes files < 2 ^ 64 then .ok (.array ((typesFrom files percent).map .string))
      else .error .overflow := by
  rw [compute, hfiles]
  change (liftM (dominantTypes files percent) : Except (Halt FieldError) (List String)) >>= _ = _
  rw [dominantTypes_eq]
  split <;> rfl

theorem compute_traits_overflow {table : AnnounceTable} {themes : List (String × String)}
    {name tracker : String} (hname : textOf raw "name" = .ok name)
    (halias : aliasOf raw table = .ok tracker) (hfiles : filesOf raw = .ok files)
    (hbytes : ¬ bytes files < 2 ^ 64) (scene : Scene) :
    compute scene raw (.traits table themes) = .error .overflow := by
  rw [compute, hname, halias, hfiles]
  change (liftM (mainType? name files) : Except (Halt FieldError) (Option String)) >>= _ = _
  rw [mainType?_eq, if_neg hbytes]
  rfl

end Derivation

namespace Field

variable {files : List FileEntry} {r : Reading} {name : String} {scene : Scene}

/-- Reading a field ends as computing its raw value does, unless the item keeps a value. -/
theorem value_of_read_error {f : Field} {halt : Halt FieldError}
    (hread : ∀ call, f.source.read scene r.item.raw f.name call = .error halt)
    (hkept : f.freshness = .onDemand → r.item.kept? f.name = none) :
    (f.value scene r).1 = .error halt := by
  have hfresh (call : Nat) : f.fresh scene r.item.raw call = .error halt := by
    rw [fresh, hread]
    rfl
  cases f.outcome scene r with
  | computed call hresult => rw [hresult, hfresh]
  | found v hd hk =>
    rw [hkept hd] at hk
    cases hk
  | stored v call _ _ hv =>
    rw [hfresh] at hv
    cases hv

/-- The kinds of an item are the words of the types with a share of its bytes. -/
theorem value_kinds (hfiles : Derivation.filesOf r.item.raw = .ok files)
    (hkept : r.item.kept? name = none) (hfit : TypeShare.SumsFit files) (scene : Scene)
    (percent : Nat) :
    ∃ tags, ((kinds name percent).value scene r).1 = .ok (.tags tags) ∧
      ∀ tag, tag ∈ tags.toList ↔ ∃ type, type ≠ "" ∧ TypeShare.HasType files type ∧
        percent ≤ TypeShare.share (TypeShare.bytesOf files type) (TypeShare.bytes files) ∧
        IsTagOf tag [type] := by
  obtain ⟨tags, hread, htags⟩ :=
    ValueKind.exists_readTags? (.many (TypeShare.typesFrom files percent))
  have hraw : (kinds name percent).HasRaw scene r
      (.array ((TypeShare.typesFrom files percent).map .string)) :=
    { read := by
        change Derivation.compute scene r.item.raw (.kinds percent) = _
        rw [Derivation.compute_kinds hfiles, if_pos (TypeShare.sumsFit_iff.1 hfit)]
      kept := by
        intro v hv
        have hnone : r.item.kept? (kinds name percent).name = none := hkept
        rw [hnone] at hv
        cases hv }
  have hconvert : (kinds name percent).kind.convert (kinds name percent).name
      (.array ((TypeShare.typesFrom files percent).map .string)) = .ok (.tags tags) := by
    apply ValueKind.convert_of_read? rfl
    change (ValueKind.readTags? _).map FieldValue.tags = _
    rw [hread]
    rfl
  refine ⟨tags, hraw.value_eq hconvert, ?_⟩
  intro tag
  rw [htags, isTagOf_iff]
  simp only [TypeShare.mem_typesFrom, and_assoc]

theorem value_kinds_overflow (hfiles : Derivation.filesOf r.item.raw = .ok files)
    (hkept : r.item.kept? name = none) (hfit : ¬ TypeShare.SumsFit files) (scene : Scene)
    (percent : Nat) : ((kinds name percent).value scene r).1 = .error .overflow := by
  apply value_of_read_error
  · intro call
    change Derivation.compute scene r.item.raw (.kinds percent) = _
    rw [Derivation.compute_kinds hfiles, if_neg (mt TypeShare.sumsFit_iff.2 hfit)]
  · exact fun _ => hkept

theorem value_traits_overflow {table : AnnounceTable} {themes : List (String × String)} {f : Field}
    (hf : f ∈ builtins table themes) (hname : f.name = "traits") {path tracker : String}
    (htext : Derivation.textOf r.item.raw "name" = .ok path)
    (halias : Derivation.aliasOf r.item.raw table = .ok tracker)
    (hfiles : Derivation.filesOf r.item.raw = .ok files) (hfit : ¬ TypeShare.SumsFit files)
    (scene : Scene) : (f.value scene r).1 = .error .overflow := by
  obtain ⟨-, hfresh, hsource⟩ := traits_of_mem_builtins hf hname
  apply value_of_read_error
  · intro call
    rw [hsource, Source.read]
    exact Derivation.compute_traits_overflow htext halias hfiles
      (mt TypeShare.sumsFit_iff.2 hfit) scene
  · intro hd
    rw [hfresh] at hd
    cases hd

end Field

namespace TypeShare

variable {raw : Snapshot} {files : List FileEntry}

/-- There are sums of the sizes of files just if all bytes fit into 64 bits; otherwise the shares
end in an overflow. There are items whose bytes do not fit, as an item may have any number of them.
If they fit, the kinds of an item are the words of the types with a share, and its traits follow the
type with the greatest share. If they do not, reading its kinds or its traits ends the program, and
so does matching a condition on them. -/
theorem byte_totals (hfiles : Derivation.filesOf raw = .ok files) :
    (SumsFit files ↔ bytes files < 2 ^ 64) ∧
    (¬ SumsFit files → ofFiles files = .error ⟨⟩) ∧
    (∀ n, ∃ other entries, Derivation.filesOf other = .ok entries ∧ n ≤ bytes entries) ∧
    (∀ (r : Reading) name, r.item.raw = raw → r.item.kept? name = none → ∀ scene percent,
      (SumsFit files → ∃ tags, ((Field.kinds name percent).value scene r).1 = .ok (.tags tags) ∧
        ∀ tag, tag ∈ tags.toList ↔ ∃ type, type ≠ "" ∧ HasType files type ∧
          percent ≤ share (bytesOf files type) (bytes files) ∧ IsTagOf tag [type]) ∧
      (¬ SumsFit files → ((Field.kinds name percent).value scene r).1 = .error .overflow ∧
        ∀ l : Leaf, l.field = .kinds name percent → (l.isMatch scene r).1 = .error .overflow)) ∧
    ∀ (r : Reading) table themes, r.item.raw = raw → ∀ f ∈ Field.builtins table themes,
      f.name = "traits" → ∀ path tracker, Derivation.textOf raw "name" = .ok path →
      Derivation.aliasOf raw table = .ok tracker → ∀ scene,
        (SumsFit files → ∃ main?, IsMain files path main? ∧
          (f.value scene r).1 = .ok (.list (Traits.ofDownload path
            (if tracker = "" then none else some tracker) main? themes))) ∧
        (¬ SumsFit files → (f.value scene r).1 = .error .overflow ∧
          ∀ l : Leaf, l.field = f → (l.isMatch scene r).1 = .error .overflow) := by
  -- A leaf ends where its field does.
  have hleaf {f : Field} {scene : Scene} {r : Reading}
      (h : (f.value scene r).1 = .error .overflow) (l : Leaf) (hl : l.field = f) :
      (l.isMatch scene r).1 = .error .overflow := by
    rw [l.isMatch_eq, hl, h]
    rfl
  refine ⟨sumsFit_iff, ?overflow, Derivation.exists_le_bytes, ?kinds, ?traits⟩
  case overflow =>
    intro hfit
    exact ofFiles_of_overflow (Nat.not_lt.1 (mt sumsFit_iff.2 hfit))
  case kinds =>
    rintro r name rfl hkept scene percent
    refine ⟨fun hfit => Field.value_kinds hfiles hkept hfit scene percent, fun hfit => ?_⟩
    have hvalue := Field.value_kinds_overflow hfiles hkept hfit scene percent
    exact ⟨hvalue, hleaf hvalue⟩
  case traits =>
    rintro r table themes rfl f hf hname path tracker htext halias scene
    constructor
    · intro hfit
      obtain ⟨main?, htype, hmain⟩ := Derivation.exists_mainType? path hfit
      exact ⟨main?, hmain, Field.value_traits hf hname htext halias hfiles htype scene⟩
    · intro hfit
      have hvalue := Field.value_traits_overflow hf hname htext halias hfiles hfit scene
      exact ⟨hvalue, hleaf hvalue⟩

/-- Two files whose bytes just fit. -/
def fullFiles : List FileEntry :=
  [⟨"a.mkv", 9223372036854775808, none, 0⟩, ⟨"b.avi", 9223372036854775807, none, 0⟩]

/-- The greatest total is added up. -/
theorem byte_totals_full :
    let raw : Snapshot := [("files", .array (fullFiles.map FileEntry.toJson))]
    Derivation.filesOf raw = .ok fullFiles ∧ bytes fullFiles = 2 ^ 64 - 1 ∧ SumsFit fullFiles := by
  intro raw
  have hfiles : Derivation.filesOf raw = .ok fullFiles := by
    apply Derivation.filesOf_toJson
    decide
  have hbytes : bytes fullFiles = 2 ^ 64 - 1 := by decide
  obtain ⟨hfit, -⟩ := byte_totals hfiles
  refine ⟨hfiles, hbytes, hfit.2 ?_⟩
  rw [hbytes]
  decide

/-- Two files with half of the bytes each, whose total is one too great for 64 bits. -/
def halfFiles : List FileEntry :=
  [⟨"a.mkv", 9223372036854775808, none, 0⟩, ⟨"b.avi", 9223372036854775808, none, 0⟩]

/-- Reading which types make up half of the bytes of an item ends the program for an item that has
two such types, if its bytes are one too many. -/
theorem byte_totals_overflow :
    let scene : Scene := ⟨⟨.fixed 0, 0⟩, fun _ => false, fun _ => none⟩
    let raw : Snapshot := [("files", .array (halfFiles.map FileEntry.toJson))]
    Derivation.filesOf raw = .ok halfFiles ∧ bytes halfFiles = 2 ^ 64 ∧ ¬ SumsFit halfFiles ∧
      share (bytesOf halfFiles "mkv") (bytes halfFiles) = 50 ∧
      ((Field.kinds "kind_50" 50).value scene ⟨.ofSnapshot raw, []⟩).1 = .error .overflow := by
  intro scene raw
  have hfiles : Derivation.filesOf raw = .ok halfFiles := by
    apply Derivation.filesOf_toJson
    decide
  have hbytes : bytes halfFiles = 2 ^ 64 := by decide
  have hfit : ¬ SumsFit halfFiles := by
    rw [sumsFit_iff, hbytes]
    exact Nat.lt_irrefl _
  refine ⟨hfiles, hbytes, hfit, by decide +kernel, ?_⟩
  exact Field.value_kinds_overflow (r := ⟨.ofSnapshot raw, []⟩) hfiles rfl hfit scene 50

end TypeShare
end DownloadQuery

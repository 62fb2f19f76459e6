import DownloadQuery.Proofs.Content.FileTypes
import DownloadQuery.Proofs.Field.Tags
import DownloadQuery.Proofs.Steps
import Mathlib

/-!
# Shares of file types

Sums of sizes are had just if the bytes of all files fit into 64 bits, as the bytes of all types are
those of all files (`TypeShare.ofFiles_eq`). The list of shares is made from the types that files
have and from the bytes of each type (`TypeShare.shares_congr`), so neither the order of files nor
how bytes are spread over files of one type plays a part. Shares are listed from the greatest to the
least, each type once, and the types of a greater share are a front part of those of a smaller one
(`TypeShare.ofFiles_by_bytes`).
-/

namespace DownloadQuery
namespace TypeShare

/-- The bytes of all files. -/
def bytes (files : List FileEntry) : Nat := (files.map (·.size.toNat)).sum

/-- The bytes of the files of one type. -/
def bytesOf (files : List FileEntry) (type : String) : Nat :=
  bytes (files.filter fun f => FileType.ofPath f.path == type)

/-- Whether some file has a type. -/
def HasType (files : List FileEntry) (type : String) : Prop :=
  ∃ f ∈ files, FileType.ofPath f.path = type

/-- Lists of files with the same types and the same bytes of each. -/
structure SameBytes (files other : List FileEntry) : Prop where
  hasType : ∀ type, HasType other type ↔ HasType files type
  bytesOf : ∀ type, bytesOf other type = bytesOf files type

/-- Whether a file is another one under a path of the same type. -/
structure Renamed (f g : FileEntry) : Prop where
  path : FileType.ofPath g.path = FileType.ofPath f.path ∨
    g.path.toList.map Char.toLower = f.path.toList.map Char.toLower
  size : g.size = f.size

/-- The place of a share in the order: the percentage decides first, and then the type. -/
def rank (s : TypeShare) : Nat ×ₗ String := toLex (s.percent, s.type)

/-- A part of a total in percent, rounded, but a half and a little more is rounded down. -/
def share (part total : Nat) : Nat :=
  if total = 0 then 0
  else (Binary64.ofInt part * 100 / Binary64.ofInt total + Binary64.ofRatio false 499 1000).toNat32

variable {files other : List FileEntry}

/-! ## Bytes -/

@[simp] theorem bytes_cons (f : FileEntry) (rest : List FileEntry) :
    bytes (f :: rest) = f.size.toNat + bytes rest := by
  rw [bytes, List.map_cons, List.sum_cons, bytes]

theorem bytes_append (files other : List FileEntry) :
    bytes (files ++ other) = bytes files + bytes other := by
  rw [bytes, List.map_append, List.sum_append, bytes, bytes]

theorem bytesOf_append (files other : List FileEntry) (type : String) :
    bytesOf (files ++ other) type = bytesOf files type + bytesOf other type := by
  rw [bytesOf, List.filter_append, bytes_append, bytesOf, bytesOf]

theorem bytesOf_cons (f : FileEntry) (rest : List FileEntry) (type : String) :
    bytesOf (f :: rest) type =
      (if FileType.ofPath f.path = type then f.size.toNat else 0) + bytesOf rest type := by
  rw [bytesOf, bytesOf, List.filter_cons]
  by_cases htype : FileType.ofPath f.path = type <;> simp [htype]

theorem bytesOf_le (files : List FileEntry) (type : String) : bytesOf files type ≤ bytes files := by
  induction files with
  | nil => exact le_rfl
  | cons f rest ih =>
    rw [bytesOf_cons, bytes_cons]
    split <;> omega

theorem hasType_cons {f : FileEntry} {rest : List FileEntry} {type : String} :
    HasType (f :: rest) type ↔ FileType.ofPath f.path = type ∨ HasType rest type :=
  List.exists_mem_cons_iff _ f rest

theorem hasType_append {type : String} :
    HasType (files ++ other) type ↔ HasType files type ∨ HasType other type := by
  simp only [HasType, List.mem_append, or_and_right, exists_or]

/-- The bytes of all types make up the bytes of all files. -/
theorem sum_bytesOf {types : List String} (hnodup : types.Nodup)
    (htypes : ∀ type, HasType files type → type ∈ types) :
    (types.map (bytesOf files)).sum = bytes files := by
  induction files with
  | nil => exact List.sum_eq_zero (by simp [bytesOf, bytes])
  | cons f rest ih =>
    have hmem : FileType.ofPath f.path ∈ types := htypes _ ⟨f, List.mem_cons_self, rfl⟩
    have hrest : (types.map (bytesOf rest)).sum = bytes rest := by
      apply ih
      rintro type ⟨g, hg, htype⟩
      exact htypes type ⟨g, List.mem_cons_of_mem f hg, htype⟩
    have hone : (types.map fun type =>
        if FileType.ofPath f.path = type then f.size.toNat else 0).sum = f.size.toNat := by
      rw [List.sum_map_eq_nsmul_single (FileType.ofPath f.path) _ fun type hne _ =>
        if_neg hne.symm, List.count_eq_one_of_mem hnodup hmem, if_pos rfl, one_smul]
    rw [bytes_cons, ← hrest, ← hone, ← List.sum_map_add]
    exact congrArg (fun counts => (types.map counts).sum) (funext (bytesOf_cons f rest))

/-! ## Lists of files with the same bytes -/

theorem SameBytes.of_perm (h : other.Perm files) : SameBytes files other where
  hasType type := by simp only [HasType, h.mem_iff]
  bytesOf type := ((h.filter _).map _).sum_nat

/-- The bytes of a file may be spread over two files of its type. -/
theorem SameBytes.of_split (before after : List FileEntry) {f g h : FileEntry}
    (hg : FileType.ofPath g.path = FileType.ofPath f.path)
    (hh : FileType.ofPath h.path = FileType.ofPath f.path)
    (hsize : g.size.toNat + h.size.toNat = f.size.toNat) :
    SameBytes (before ++ f :: after) (before ++ g :: h :: after) where
  hasType type := by simp only [hasType_append, hasType_cons, hg, hh, or_self_left]
  bytesOf type := by
    simp only [bytesOf_append, bytesOf_cons, hg, hh]
    split <;> omega

theorem SameBytes.of_renamed (h : List.Forall₂ Renamed files other) : SameBytes files other := by
  induction h with
  | nil => exact ⟨fun type => Iff.rfl, fun type => rfl⟩
  | @cons f g rest others hfirst hrest ih =>
    have htype : FileType.ofPath g.path = FileType.ofPath f.path :=
      hfirst.path.elim id FileType.ofPath_congr
    constructor <;> intro type
    · rw [hasType_cons, hasType_cons, htype, ih.hasType]
    · rw [bytesOf_cons, bytesOf_cons, htype, hfirst.size, ih.bytesOf]

/-! ## Sums of sizes -/

/-- Sizes are added up to their sum if that fits, and otherwise there is none. -/
theorem sum_eq (sizes : List UInt64) :
    sum sizes =
      if (sizes.map UInt64.toNat).sum < 2 ^ 64 then
        .ok (.ofNat (sizes.map UInt64.toNat).sum)
      else .error ⟨⟩ := by
  -- While sizes are added up, the word that is reached is the sum so far.
  have hfold (rest : List UInt64) (total : UInt64) :
      rest.foldlM (fun total size =>
          if total.toNat + size.toNat < UInt64.size then Except.ok (total + size)
          else Except.error Overflow.mk) total =
        if total.toNat + (rest.map UInt64.toNat).sum < 2 ^ 64 then
          .ok (.ofNat (total.toNat + (rest.map UInt64.toNat).sum))
        else .error ⟨⟩ := by
    induction rest generalizing total with
    | nil =>
      have hfits : total.toNat + ([].map UInt64.toNat).sum < 2 ^ 64 := total.toNat_lt
      rw [if_pos hfits, List.map_nil, List.sum_nil, Nat.add_zero, UInt64.ofNat_toNat]
      rfl
    | cons size rest ih =>
      rw [List.foldlM_cons, List.map_cons, List.sum_cons]
      by_cases hsize : total.toNat + size.toNat < UInt64.size
      · have hadd : (total + size).toNat = total.toNat + size.toNat := by
          rw [UInt64.toNat_add, Nat.mod_eq_of_lt hsize]
        rw [if_pos hsize, ok_bind, ih, hadd, Nat.add_assoc]
      · have htotal : ¬ total.toNat + (size.toNat + (rest.map UInt64.toNat).sum) < 2 ^ 64 := by
          have hword : UInt64.size = 2 ^ 64 := rfl
          omega
        rw [if_neg hsize, if_neg htotal]
        rfl
  have hsum := hfold sizes 0
  rwa [UInt64.toNat_zero, Nat.zero_add] at hsum

theorem sizeOf_eq (files : List FileEntry) (type : String) :
    sizeOf files type =
      if bytesOf files type < 2 ^ 64 then .ok (.ofNat (bytesOf files type)) else .error ⟨⟩ := by
  have hbytes : (((files.filter fun f => FileType.ofPath f.path == type).map (·.size)).map
      UInt64.toNat).sum = bytesOf files type := by
    rw [List.map_map]
    rfl
  rw [sizeOf, sum_eq, hbytes]

theorem percentOf_ofNat {part total : Nat} (hpart : part < 2 ^ 64) (htotal : total < 2 ^ 64) :
    percentOf (.ofNat part) (.ofNat total) = share part total := by
  have hzero : UInt64.ofNat total = 0 ↔ total = 0 := by
    rw [← UInt64.toNat_inj, UInt64.toNat_ofNat_of_lt' htotal, UInt64.toNat_zero]
  rw [percentOf, share, UInt64.toNat_ofNat_of_lt' hpart, UInt64.toNat_ofNat_of_lt' htotal]
  simp only [hzero]

/-! ## The list of shares -/

/-- The types of files, each once. -/
def types (files : List FileEntry) : List String :=
  (TagSet.ofList (files.map fun f => FileType.ofPath f.path)).toList

/-- The share that a type has in the bytes of all files. -/
def shareOf (files : List FileEntry) (type : String) : TypeShare :=
  ⟨share (bytesOf files type) (bytes files), type⟩

/-- The shares of all types in their order. -/
def shares (files : List FileEntry) : List TypeShare :=
  ((types files).map (shareOf files)).mergeSort before

theorem mem_types {type : String} : type ∈ types files ↔ HasType files type := by
  rw [types, TagSet.mem_ofList, List.mem_map, HasType]

theorem sum_types (files : List FileEntry) :
    ((types files).map (bytesOf files)).sum = bytes files :=
  sum_bytesOf (TagSet.nodup _) fun _ htype => mem_types.2 htype

theorem mapM_sizeOf (files : List FileEntry) (types : List String) :
    types.mapM (sizeOf files) =
      if ∀ type ∈ types, bytesOf files type < 2 ^ 64 then
        .ok (types.map fun type => .ofNat (bytesOf files type))
      else .error ⟨⟩ := by
  induction types with
  | nil => rfl
  | cons type rest ih =>
    rw [List.mapM_cons, ih, sizeOf_eq]
    simp only [List.forall_mem_cons, ite_and]
    split
    · split <;> rfl
    · rfl

/-- The bytes of the types as words add up to those of all files, if each fits. -/
theorem sum_words (heach : ∀ type ∈ types files, bytesOf files type < 2 ^ 64) :
    sum ((types files).map fun type => .ofNat (bytesOf files type)) =
      if bytes files < 2 ^ 64 then .ok (.ofNat (bytes files)) else .error ⟨⟩ := by
  have htotal : (((types files).map fun type => UInt64.ofNat (bytesOf files type)).map
      UInt64.toNat).sum = bytes files := by
    rw [List.map_map, ← sum_types]
    apply congrArg List.sum
    apply List.map_congr_left
    intro type htype
    exact UInt64.toNat_ofNat_of_lt' (heach type htype)
  rw [sum_eq, htotal]

/-- There is a list of shares just if all bytes fit into 64 bits. -/
theorem ofFiles_eq (files : List FileEntry) :
    ofFiles files = if bytes files < 2 ^ 64 then .ok (shares files) else .error ⟨⟩ := by
  have hunfold : ofFiles files = (do
      let sizes ← (types files).mapM (sizeOf files)
      let total ← sum sizes
      return (List.zipWith (fun type size => ⟨percentOf size total, type⟩)
        (types files) sizes).mergeSort before) := rfl
  rw [hunfold, mapM_sizeOf]
  by_cases heach : ∀ type ∈ types files, bytesOf files type < 2 ^ 64
  · rw [if_pos heach, ok_bind, sum_words heach]
    by_cases hbytes : bytes files < 2 ^ 64
    · have hshare (type : String) (htype : type ∈ types files) :
          (⟨percentOf (.ofNat (bytesOf files type)) (.ofNat (bytes files)), type⟩ : TypeShare) =
            shareOf files type := by
        rw [percentOf_ofNat (heach type htype) hbytes, shareOf]
      rw [if_pos hbytes, if_pos hbytes, ok_bind, List.zipWith_map_right, List.zipWith_self,
        List.map_congr_left hshare]
      rfl
    · rw [if_neg hbytes, if_neg hbytes]
      rfl
  · have hbytes : ¬ bytes files < 2 ^ 64 := fun hbytes =>
      heach fun type _ => (bytesOf_le files type).trans_lt hbytes
    rw [if_neg heach, if_neg hbytes]
    rfl

theorem ofFiles_of_fits (hbytes : bytes files < 2 ^ 64) : ofFiles files = .ok (shares files) := by
  rw [ofFiles_eq, if_pos hbytes]

theorem ofFiles_of_overflow (hbytes : 2 ^ 64 ≤ bytes files) : ofFiles files = .error ⟨⟩ := by
  rw [ofFiles_eq, if_neg (Nat.not_lt.2 hbytes)]

theorem SameBytes.types_eq (h : SameBytes files other) : types other = types files := by
  apply congrArg TagSet.toList
  apply TagSet.ext
  intro type
  exact mem_types.trans ((h.hasType type).trans mem_types.symm)

theorem SameBytes.bytes_eq (h : SameBytes files other) : bytes other = bytes files := by
  rw [← sum_types, ← sum_types, h.types_eq, funext h.bytesOf]

theorem shares_congr (h : SameBytes files other) : shares other = shares files := by
  have hshare : shareOf other = shareOf files := by
    funext type
    rw [shareOf, shareOf, h.bytesOf, h.bytes_eq]
  rw [shares, shares, h.types_eq, hshare]

/-- Shares depend on the bytes of each type alone. -/
theorem ofFiles_congr (h : SameBytes files other) : ofFiles other = ofFiles files := by
  rw [ofFiles_eq, ofFiles_eq, h.bytes_eq, shares_congr h]

theorem mem_shares {s : TypeShare} : s ∈ shares files ↔
    HasType files s.type ∧ s.percent = share (bytesOf files s.type) (bytes files) := by
  rw [shares, List.mem_mergeSort, List.mem_map]
  constructor
  · rintro ⟨type, htype, rfl⟩
    exact ⟨mem_types.1 htype, rfl⟩
  · rintro ⟨htype, hpercent⟩
    exact ⟨s.type, mem_types.2 htype, by rw [shareOf, ← hpercent]⟩

theorem types_perm (files : List FileEntry) :
    ((shares files).map (·.type)).Perm (types files) := by
  refine ((List.mergeSort_perm _ before).map (·.type)).trans ?_
  rw [List.map_map]
  exact .of_eq (List.map_id (types files))

/-! ## The order of shares -/

theorem before_iff {a b : TypeShare} : before a b = true ↔ b.rank ≤ a.rank := by
  rw [before, rank, rank, Prod.Lex.toLex_le_toLex]
  simp only [Bool.or_eq_true, Bool.and_eq_true, decide_eq_true_eq, beq_iff_eq, Bool.not_eq_true',
    decide_eq_false_iff_not, not_lt]

theorem shares_descending (files : List FileEntry) :
    (shares files).Pairwise fun a b => b.rank < a.rank := by
  have hsorted : (shares files).Pairwise (before · ·) := by
    apply List.pairwise_mergeSort
    · intro a b c hab hbc
      exact before_iff.2 ((before_iff.1 hbc).trans (before_iff.1 hab))
    · intro a b
      rw [Bool.or_eq_true, before_iff, before_iff]
      exact le_total _ _
  have hdistinct : (shares files).Pairwise (·.type ≠ ·.type) :=
    List.pairwise_map.1 ((types_perm files).nodup_iff.2 (TagSet.nodup _))
  refine (hsorted.and hdistinct).imp ?_
  rintro a b ⟨hle, hne⟩
  apply lt_of_le_of_ne (before_iff.1 hle)
  intro heq
  exact hne (congrArg Prod.snd (toLex.injective heq)).symm

theorem percent_le_of_rank_lt {a b : TypeShare} (h : b.rank < a.rank) : b.percent ≤ a.percent := by
  rcases Prod.Lex.toLex_lt_toLex.1 h with hlt | ⟨heq, -⟩
  · exact hlt.le
  · exact heq.le

/-- Of a list with falling percentages the greater ones come first. -/
theorem filter_front {shares : List TypeShare} (h : shares.Pairwise (·.percent ≥ ·.percent))
    {low high : Nat} (hle : low ≤ high) :
    (shares.filter fun s => s.type != "" && high ≤ s.percent) <+:
      shares.filter fun s => s.type != "" && low ≤ s.percent := by
  induction shares with
  | nil => exact List.nil_prefix
  | cons s rest ih =>
    obtain ⟨hfirst, hrest⟩ := List.pairwise_cons.1 h
    by_cases hhigh : high ≤ s.percent
    · have hlow : low ≤ s.percent := hle.trans hhigh
      by_cases htype : s.type = ""
      · simpa [htype] using ih hrest
      · simpa [htype, hhigh, hlow] using ih hrest
    · have hnone : ((s :: rest).filter fun s => s.type != "" && high ≤ s.percent) = [] := by
        rw [List.filter_eq_nil_iff]
        intro t ht
        have hpercent : t.percent ≤ s.percent := by
          rcases List.mem_cons.1 ht with rfl | ht
          · exact le_rfl
          · exact hfirst t ht
        simp only [Bool.and_eq_true, decide_eq_true_eq]
        omega
      rw [hnone]
      exact List.nil_prefix

/-- The types that have a name and at least a share of the bytes. -/
def typesFrom (files : List FileEntry) (percent : Nat) : List String :=
  ((shares files).filter fun s => s.type != "" && percent ≤ s.percent).map (·.type)

theorem dominantTypes_eq (files : List FileEntry) (percent : Nat) :
    dominantTypes files percent =
      if bytes files < 2 ^ 64 then .ok (typesFrom files percent) else .error ⟨⟩ := by
  rw [dominantTypes, ofFiles_eq]
  split <;> rfl

theorem typesFrom_front (files : List FileEntry) {low high : Nat} (h : low ≤ high) :
    typesFrom files high <+: typesFrom files low :=
  have hdown : (shares files).Pairwise (·.percent ≥ ·.percent) :=
    (shares_descending files).imp percent_le_of_rank_lt
  List.IsPrefix.map (fun s : TypeShare => s.type) (filter_front hdown h)

theorem mem_typesFrom {type : String} {percent : Nat} :
    type ∈ typesFrom files percent ↔
      type ≠ "" ∧ HasType files type ∧ percent ≤ share (bytesOf files type) (bytes files) := by
  rw [typesFrom, List.mem_map]
  simp only [List.mem_filter, Bool.and_eq_true, bne_iff_ne, decide_eq_true_eq, mem_shares]
  constructor
  · rintro ⟨s, ⟨⟨htype, hpercent⟩, hnamed, hle⟩, rfl⟩
    exact ⟨hnamed, htype, hpercent ▸ hle⟩
  · rintro ⟨hnamed, htype, hle⟩
    exact ⟨shareOf files type, ⟨⟨htype, rfl⟩, hnamed, hle⟩, rfl⟩

/-! ## Shares by bytes -/

/-- If the bytes of all files fit into 64 bits, each type of a file has one share, which the bytes
of that type and of all files tell, and the greatest shares come first. Files in another order, in
more parts or under other names have the same shares. A lower limit adds types behind those of a
higher one, and zero lets each type with a name through. -/
theorem ofFiles_by_bytes (hbytes : bytes files < 2 ^ 64) :
    ∃ shares, ofFiles files = .ok shares ∧
    (∀ s, s ∈ shares ↔
      HasType files s.type ∧ s.percent = share (bytesOf files s.type) (bytes files)) ∧
    (shares.map (·.type)).Nodup ∧
    shares.Pairwise (fun a b => b.rank < a.rank) ∧
    (∀ other, SameBytes files other → ofFiles other = .ok shares) ∧
    (∀ other, other.Perm files → ofFiles other = .ok shares) ∧
    (∀ before after f g h, files = before ++ f :: after →
      FileType.ofPath g.path = FileType.ofPath f.path →
      FileType.ofPath h.path = FileType.ofPath f.path →
      g.size.toNat + h.size.toNat = f.size.toNat →
        ofFiles (before ++ g :: h :: after) = .ok shares) ∧
    (∀ other, List.Forall₂ Renamed files other → ofFiles other = .ok shares) ∧
    ∃ dominant : Nat → List String, (∀ limit, dominantTypes files limit = .ok (dominant limit)) ∧
      (∀ low high, low ≤ high → dominant high <+: dominant low) ∧
      ∀ type, type ∈ dominant 0 ↔ type ≠ "" ∧ HasType files type := by
  have hshares := ofFiles_of_fits hbytes
  have hsame {other : List FileEntry} (h : SameBytes files other) :
      ofFiles other = .ok (shares files) := (ofFiles_congr h).trans hshares
  refine ⟨shares files, hshares, fun s => mem_shares,
    (types_perm files).nodup_iff.2 (TagSet.nodup _), shares_descending files, fun other => hsame,
    ?permuted, ?split, ?renamed, typesFrom files, ?dominant,
    fun low high => typesFrom_front files, ?zero⟩
  case permuted =>
    intro other hperm
    exact hsame (.of_perm hperm)
  case split =>
    rintro before after f g h rfl hg hh hsize
    exact hsame (.of_split before after hg hh hsize)
  case renamed =>
    intro other hrenamed
    exact hsame (.of_renamed hrenamed)
  case dominant =>
    intro limit
    rw [dominantTypes_eq, if_pos hbytes]
  case zero =>
    intro type
    simp [mem_typesFrom]

/-- Two volumes of an archive that name its type in different ways, and a text about it. -/
def volumes : List FileEntry :=
  [⟨"show/show.R00", 50, none, 1⟩, ⟨"show/show.nfo", 1, none, 1⟩, ⟨"show/show.rar", 40, none, 1⟩]

theorem ofFiles_by_bytes_volumes : bytes volumes < 2 ^ 64 ∧
    ofFiles volumes.reverse = ofFiles volumes ∧
      ∃ types, dominantTypes volumes 0 = .ok types ∧ "rar" ∈ types := by
  have hvolumes : bytes volumes < 2 ^ 64 := by decide
  obtain ⟨shares, hshares, -, -, -, -, hperm, -, -, dominant, hdominant, -, hzero⟩ :=
    ofFiles_by_bytes hvolumes
  refine ⟨hvolumes, (hperm _ (List.reverse_perm volumes)).trans hshares.symm, dominant 0,
    hdominant 0, (hzero "rar").2 ⟨by decide, ?_⟩⟩
  exact ⟨_, List.mem_cons_self, by decide⟩

end TypeShare
end DownloadQuery

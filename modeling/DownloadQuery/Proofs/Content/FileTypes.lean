import DownloadQuery.Content.FileType
import DownloadQuery.Proofs.Text.Categories
import DownloadQuery.Proofs.Text.Splitting

/-!
# Types of files

The extension of a file name is what follows its last dot, in lower case
(`FileType.extension?_of_isName`). Three kinds of extensions go under another name: those of the
volumes of an archive, `jpeg` and `mpeg` (`FileType.normalized_cases`). The letter case of ASCII
letters makes no difference to the type (`FileType.ofPath_congr`).
-/

namespace DownloadQuery

theorem Text.eq_nil_of_splitAt {mark : Char} {text : List Char} (h : splitAt mark text = [[]]) :
    text = [] := by
  cases text with
  | nil => rfl
  | cons c rest =>
    rw [splitAt] at h
    split at h
    · exact absurd (List.cons.inj h).2 (splitAt_ne_nil rest)
    · split at h <;> cases h

namespace FileType

/-- Whether a path is a single file name with an extension that is not empty. -/
structure IsName (path ext : String) : Prop where
  exists_stem : ∃ stem, stem ≠ [] ∧ path.toList = stem ++ '.' :: ext.toList
  ext_ne_empty : ext ≠ ""
  no_dot : '.' ∉ ext.toList
  no_slash : '/' ∉ path.toList

/-- Whether an extension is that of a volume of an archive: an `r` and digits. -/
def IsVolume (ext : String) : Prop :=
  ∃ digits, digits ≠ [] ∧ ext.toList = 'r' :: digits ∧ ∀ c ∈ digits, c.isDigit = true

/-! ## Extensions -/

theorem extensionOfName?_stem {stem ext : List Char} (hstem : stem ≠ []) (hdot : '.' ∉ ext) :
    extensionOfName? (stem ++ '.' :: ext) = some ext := by
  rw [extensionOfName?, Text.splitAt_append_last stem hdot, List.reverse_append]
  cases hpieces : (Text.splitAt '.' stem).reverse with
  | nil => exact absurd (List.reverse_eq_nil_iff.1 hpieces) (Text.splitAt_ne_nil stem)
  | cons first rest =>
    rcases first with _ | ⟨c, first⟩
    · cases rest with
      | nil => exact absurd (Text.eq_nil_of_splitAt (List.reverse_eq_iff.1 hpieces)) hstem
      | cons second rest => rfl
    · cases rest <;> rfl

theorem extension?_of_isName {path ext : String} (h : IsName path ext) :
    extension? path = some (Text.lower ext) := by
  obtain ⟨stem, hstem, hpath⟩ := h.exists_stem
  have hlength : 3 ≤ path.toList.length := by
    have hstem := List.length_pos_iff.2 hstem
    have hext := List.length_pos_iff.2 (String.toList_eq_nil_iff.not.2 h.ext_ne_empty)
    simp only [hpath, List.length_append, List.length_cons]
    omega
  have hne (name : List Char) (hname : name.length < 3) : path.toList ≠ name := by
    rintro rfl
    omega
  have hlast : lastName? path.toList = some path.toList := by
    have hnames : [path.toList].filter (fun name => name != [] && name != ['.']) =
        [path.toList] := by
      simp [hne [] (by decide), hne ['.'] (by decide)]
    rw [lastName?, Text.splitAt_of_not_mem h.no_slash, hnames]
    exact if_neg (hne _ (by decide))
  rw [extension?, hlast, Option.bind_some, hpath, extensionOfName?_stem hstem h.no_dot]
  rfl

/-! ## Extensions under another name -/

theorem isVolume_iff {ext : String} : IsVolume ext ↔
    ∃ digit digits, ext.toList = 'r' :: digit :: digits ∧
      (digit :: digits).all Char.isDigit = true := by
  constructor
  · rintro ⟨_ | ⟨digit, digits⟩, hne, hext, hall⟩
    · exact absurd rfl hne
    · exact ⟨digit, digits, hext, List.all_eq_true.2 hall⟩
  · rintro ⟨digit, digits, hext, hall⟩
    exact ⟨digit :: digits, List.cons_ne_nil _ _, hext, List.all_eq_true.1 hall⟩

theorem normalized_cases (ext : String) :
    IsVolume ext ∧ normalized ext = "rar" ∨ ext = "jpeg" ∧ normalized ext = "jpg" ∨
      ext = "mpeg" ∧ normalized ext = "mpg" ∨
        (¬ IsVolume ext ∧ ext ≠ "jpeg" ∧ ext ≠ "mpeg") ∧ normalized ext = ext := by
  unfold normalized
  split
  · next digit digits hext =>
    have hne {word : String} (hword : word.toList.head? ≠ some 'r') : ext ≠ word := by
      rintro rfl
      exact hword (by rw [hext]; rfl)
    split_ifs with hall
    · exact .inl ⟨isVolume_iff.2 ⟨digit, digits, hext, hall⟩, rfl⟩
    · refine .inr (.inr (.inr ⟨⟨?_, hne (by decide), hne (by decide)⟩, rfl⟩))
      rintro hvolume
      obtain ⟨digit', digits', hext', hall'⟩ := isVolume_iff.1 hvolume
      cases hext.symm.trans hext'
      exact hall hall'
  · next hother =>
    have hvolume : ¬ IsVolume ext := by
      rintro hvolume
      obtain ⟨digit, digits, hext, -⟩ := isVolume_iff.1 hvolume
      exact hother digit digits hext
    split_ifs with hjpeg hmpeg
    · exact .inr (.inl ⟨hjpeg, rfl⟩)
    · exact .inr (.inr (.inl ⟨hmpeg, rfl⟩))
    · exact .inr (.inr (.inr ⟨⟨hvolume, hjpeg, hmpeg⟩, rfl⟩))

theorem normalized_ne_empty {ext : String} (h : ext ≠ "") : normalized ext ≠ "" := by
  rcases normalized_cases ext with ⟨-, heq⟩ | ⟨-, heq⟩ | ⟨-, heq⟩ | ⟨-, heq⟩
  · rw [heq]
    decide
  · rw [heq]
    decide
  · rw [heq]
    decide
  · rwa [heq]

/-! ## Letter case -/

section
variable {f : Char → Char}

theorem lastName?_map (hdot : ∀ c, f c = '.' ↔ c = '.') (hslash : ∀ c, f c = '/' ↔ c = '/')
    (path : List Char) : lastName? (path.map f) = (lastName? path).map (List.map f) := by
  have hdots (n : Nat) (name : List Char) :
      name.map f = List.replicate n '.' ↔ name = List.replicate n '.' := by
    simp [List.eq_replicate_iff, hdot]
  have hkeeps : ((fun name : List Char => name != [] && name != ['.']) ∘ List.map f) =
      fun name => name != [] && name != ['.'] := by
    funext name
    have hone := hdots 1 name
    simp only [List.replicate_one] at hone
    rw [Function.comp_apply, Bool.eq_iff_iff]
    simp [hone]
  rw [lastName?, lastName?, Text.splitAt_map hslash, List.filter_map, hkeeps, List.getLast?_map]
  cases ((Text.splitAt '/' path).filter fun name => name != [] && name != ['.']).getLast? with
  | none => rfl
  | some name =>
    have htwo : name.map f = ['.', '.'] ↔ name = ['.', '.'] := hdots 2 name
    by_cases hname : name = ['.', '.']
    · simp [hname, hdot]
    · simp [hname, htwo]

theorem extensionOfName?_map (hdot : ∀ c, f c = '.' ↔ c = '.') (name : List Char) :
    extensionOfName? (name.map f) = (extensionOfName? name).map (List.map f) := by
  rw [extensionOfName?, extensionOfName?, Text.splitAt_map hdot, ← List.map_reverse]
  rcases (Text.splitAt '.' name).reverse with _ | ⟨last, _ | ⟨_ | ⟨c, first⟩, _ | ⟨second, rest⟩⟩⟩ <;>
    rfl

end

/-- Paths that are the same but for the case of ASCII letters have files of the same type. -/
theorem ofPath_congr {path other : String}
    (h : path.toList.map Char.toLower = other.toList.map Char.toLower) :
    ofPath path = ofPath other := by
  have hext (path : String) : extension? path =
      ((lastName? (path.toList.map Char.toLower)).bind extensionOfName?).map fun ext =>
        String.ofList (Text.lowerChars ext) := by
    have hdot (c : Char) : c.toLower = '.' ↔ c = '.' := Text.toLower_eq_iff (by decide)
    have hslash (c : Char) : c.toLower = '/' ↔ c = '/' := Text.toLower_eq_iff (by decide)
    rw [extension?, lastName?_map hdot hslash]
    cases lastName? path.toList with
    | none => rfl
    | some name =>
      rw [Option.map_some, Option.bind_some, Option.bind_some, extensionOfName?_map hdot,
        Option.map_map]
      congr 1
      funext ext
      rw [Function.comp_apply, Text.lowerChars_map_toLower]
  rw [ofPath, ofPath, hext, hext, h]

end FileType
end DownloadQuery

import DownloadQuery.Field.Conversion
import DownloadQuery.Proofs.Steps
import DownloadQuery.Proofs.Text.Words

/-!
# Sets of tags

A set of tags is told by its members (`TagSet.ext`). The tags of raw texts are their words in lower
case (`ValueKind.exists_readTags?`).
-/

namespace DownloadQuery

namespace TagSet

theorem nodup (t : TagSet) : t.toList.Nodup := by
  apply t.ascending.imp
  rintro word _ hlt rfl
  exact String.lt_irrefl word hlt

/-- Sets with the same members are equal. -/
theorem ext {t u : TagSet} (h : ∀ word, word ∈ t.toList ↔ word ∈ u.toList) : t = u := by
  have hperm : t.toList.Perm u.toList := (List.perm_ext_iff_of_nodup t.nodup u.nodup).2 h
  have hasymm (a b : String) (hab : a < b) (hba : b < a) : a = b :=
    absurd (String.lt_trans hab hba) (String.lt_irrefl a)
  have hlists : t.toList = u.toList :=
    hperm.eq_of_pairwise (fun a b _ _ => hasymm a b) t.ascending u.ascending
  cases t
  cases u
  congr

theorem ext_iff {t u : TagSet} : t = u ↔ ∀ word, word ∈ t.toList ↔ word ∈ u.toList :=
  ⟨fun h _ => h ▸ Iff.rfl, ext⟩

theorem contains_iff {t : TagSet} {word : String} : t.contains word = true ↔ word ∈ t.toList :=
  List.contains_iff_mem

end TagSet

/-- Whether a tag is the lower-case form of a word of some text. -/
def IsTagOf (tag : String) (texts : List String) : Prop :=
  ∃ text ∈ texts, ∃ word, Text.IsWordOf word text.toList ∧
    tag = String.ofList (Text.lowerChars word)

theorem isTagOf_singleton {tag text : String} :
    IsTagOf tag [text] ↔ ∃ word, Text.IsWordOf word text.toList ∧
      tag = String.ofList (Text.lowerChars word) := by
  simp [IsTagOf]

/-- The tags of a text are its words in lower case. -/
theorem mem_lowered_words {tag text : String} :
    tag ∈ (Text.words text).map Text.lower ↔ ∃ word, Text.IsWordOf word text.toList ∧
      tag = String.ofList (Text.lowerChars word) := by
  rw [Text.words, List.map_map, List.mem_map]
  simp only [Text.mem_wordsOfChars_iff, Function.comp, Text.lower, String.toList_ofList,
    eq_comm (a := tag)]

theorem isTagOf_iff {tag : String} {texts : List String} :
    IsTagOf tag texts ↔ ∃ text ∈ texts, IsTagOf tag [text] := by
  simp only [IsTagOf, List.mem_singleton, exists_eq_left]

/-- A tag has no tag but itself. -/
theorem IsTagOf.isTagOf_iff_eq {tag other : String} {texts : List String} (h : IsTagOf tag texts) :
    IsTagOf other [tag] ↔ other = tag := by
  obtain ⟨_, _, word, hword, rfl⟩ := h
  have hwords : Text.words (String.ofList (Text.lowerChars word)) =
      [Text.lower (String.ofList word)] := by
    rw [Text.words, String.toList_ofList,
      Text.wordsOfChars_solid (Text.lowerChars_ne_nil hword.ne_nil) hword.solid.lowerChars,
      Text.lower, String.toList_ofList]
    rfl
  rw [isTagOf_singleton, ← mem_lowered_words, hwords, List.map_singleton, List.mem_singleton,
    Text.lower_lower, Text.lower, String.toList_ofList]

/-- The tags of tags are these tags. -/
theorem isTagOf_tags {tags texts : List String} (h : ∀ tag ∈ tags, IsTagOf tag texts)
    {tag : String} : IsTagOf tag tags ↔ tag ∈ tags := by
  rw [isTagOf_iff]
  constructor
  · rintro ⟨text, htext, htag⟩
    rwa [(h text htext).isTagOf_iff_eq.1 htag]
  · intro htag
    exact ⟨tag, htag, (h tag htag).isTagOf_iff_eq.2 rfl⟩

/-- Whether a raw value is a text, or a list of texts. -/
inductive Json.HasTexts : Json → List String → Prop
  | one (text : String) : HasTexts (.string text) [text]
  | many (texts : List String) : HasTexts (.array (texts.map .string)) texts

theorem Json.HasTexts.isNull {raw : Json} {texts : List String} (h : raw.HasTexts texts) :
    raw.isNull = false := by
  cases h <;> rfl

namespace ValueKind

theorem readTexts?_eq_some_iff {raw : Json} {texts : List String} :
    readTexts? raw = some texts ↔ raw.HasTexts texts := by
  constructor
  · intro h
    cases raw with
    | string text =>
      cases h
      exact .one text
    | array elements =>
      have htexts : List.Forall₂ (fun a text => a = Json.string text) elements texts := by
        refine (mapM_eq_some_iff.1 h).imp ?_
        rintro (_ | _ | _ | _ | _ | _ | _) text htext <;> cases htext
        rfl
      rw [← List.forall₂_map_right_iff (R := Eq), List.forall₂_eq_eq_eq] at htexts
      rw [htexts]
      exact .many texts
    | null | bool | integer | number | object => cases h
  · rintro (text | texts)
    · rfl
    · exact mapM_map_eq_some fun _ _ => rfl

/-- The tags of texts are their words in lower case. -/
theorem exists_readTags? {raw : Json} {texts : List String} (h : raw.HasTexts texts) :
    ∃ tags, readTags? raw = some tags ∧ ∀ tag, tag ∈ tags.toList ↔ IsTagOf tag texts := by
  rw [readTags?, readTexts?_eq_some_iff.2 h]
  refine ⟨_, rfl, fun tag => ?_⟩
  rw [TagSet.mem_ofList, List.map_flatMap, List.mem_flatMap]
  simp only [mem_lowered_words, IsTagOf]

end ValueKind

end DownloadQuery

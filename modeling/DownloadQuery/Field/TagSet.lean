import DownloadQuery.Ascending

/-!
# Tag sets

Sets of words in ascending order, so that equal sets are equal values.
-/

namespace DownloadQuery

/-- A set of words, listed in ascending order. -/
structure TagSet where
  toList : List String
  ascending : toList.Pairwise (· < ·)
  deriving DecidableEq

instance : Repr TagSet := ⟨fun t n => reprPrec t.toList n⟩

namespace TagSet

def empty : TagSet := ⟨[], .nil⟩

/-- The set with one more word. -/
def insert (word : String) (t : TagSet) : TagSet :=
  ⟨Ascending.place id word t.toList, Ascending.place_ascending id word t.ascending⟩

/-- The set of the words of a list. -/
def ofList (words : List String) : TagSet := words.foldr insert empty

def contains (t : TagSet) (word : String) : Bool := t.toList.contains word

theorem mem_insert {word x : String} {t : TagSet} :
    x ∈ (t.insert word).toList ↔ x = word ∨ x ∈ t.toList := by
  refine ⟨Ascending.mem_of_mem_place id, ?_⟩
  rintro (rfl | h)
  · obtain ⟨y, hy, rfl⟩ := Ascending.exists_key_place id x t.toList
    exact hy
  · exact Ascending.mem_place_of_mem id h

theorem mem_ofList {x : String} {words : List String} : x ∈ (ofList words).toList ↔ x ∈ words := by
  induction words with
  | nil => simp [ofList, empty]
  | cons w rest ih =>
    have h : ofList (w :: rest) = (ofList rest).insert w := rfl
    rw [h, mem_insert, ih, List.mem_cons]

end TagSet
end DownloadQuery

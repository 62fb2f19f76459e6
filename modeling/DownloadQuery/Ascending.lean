/-!
# Ascending lists

Lists without repetition in ascending order of a key. A new element is put in its place; one whose
key is taken changes nothing.
-/

namespace DownloadQuery
namespace Ascending

variable {α : Type} (key : α → String)

/-- Puts an element in its place, unless its key is taken. -/
def place (x : α) : List α → List α
  | [] => [x]
  | y :: rest =>
    if key x < key y then x :: y :: rest
    else if key x = key y then y :: rest
    else y :: place x rest

theorem mem_of_mem_place {x z : α} {ys : List α} (h : z ∈ place key x ys) : z = x ∨ z ∈ ys := by
  induction ys with
  | nil => simpa [place] using h
  | cons y rest ih =>
    simp only [place] at h
    split at h
    · simpa using h
    · split at h
      · exact .inr h
      · rcases List.mem_cons.1 h with rfl | h
        · exact .inr (by simp)
        · exact (ih h).imp_right (List.mem_cons_of_mem y)

theorem mem_place_of_mem {x z : α} {ys : List α} (h : z ∈ ys) : z ∈ place key x ys := by
  induction ys with
  | nil => simp at h
  | cons y rest ih =>
    simp only [place]
    split
    · exact List.mem_cons_of_mem x h
    · split
      · exact h
      · rcases List.mem_cons.1 h with rfl | h
        · simp
        · exact List.mem_cons_of_mem y (ih h)

/-- The key of the element is there afterwards. -/
theorem exists_key_place (x : α) (ys : List α) : ∃ z ∈ place key x ys, key z = key x := by
  induction ys with
  | nil => exact ⟨x, by simp [place], rfl⟩
  | cons y rest ih =>
    simp only [place]
    split
    · exact ⟨x, by simp, rfl⟩
    · split
      · next h => exact ⟨y, by simp, h.symm⟩
      · obtain ⟨z, hz, h⟩ := ih
        exact ⟨z, List.mem_cons_of_mem y hz, h⟩

theorem place_ascending (x : α) {ys : List α} (h : ys.Pairwise (key · < key ·)) :
    (place key x ys).Pairwise (key · < key ·) := by
  induction ys with
  | nil => simp [place]
  | cons y rest ih =>
    obtain ⟨first, others⟩ := List.pairwise_cons.1 h
    simp only [place]
    split
    · next hlt =>
      refine List.pairwise_cons.2 ⟨?_, h⟩
      intro z hz
      rcases List.mem_cons.1 hz with rfl | hz
      · exact hlt
      · exact String.lt_trans hlt (first z hz)
    · split
      · exact h
      · next hlt hne =>
        refine List.pairwise_cons.2 ⟨?_, ih others⟩
        intro z hz
        rcases mem_of_mem_place key hz with rfl | hz
        · exact Decidable.byContradiction fun hn => hne (String.le_antisymm hn hlt)
        · exact first z hz

end Ascending
end DownloadQuery

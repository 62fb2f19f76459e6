import DownloadQuery.Text.Split
import Mathlib

/-!
# Pieces of texts

Splitting a text at a mark takes back what joining pieces with the mark makes of them
(`Text.splitAt_intercalate`), and does not depend on the other characters (`Text.splitAt_map`).
Cutting it at a longer mark, or stripping its front, leaves the parts it is made of.
-/

namespace DownloadQuery
namespace Text

section
variable {mark : Char}

theorem exists_piece {c : Char} {text : List Char} (hc : c ∈ text) (hmark : c ≠ mark) :
    ∃ piece ∈ splitAt mark text, c ∈ piece := by
  induction text with
  | nil => cases hc
  | cons d rest ih =>
    rw [splitAt]
    by_cases hd : d = mark
    · rw [if_pos hd]
      have hrest : c ∈ rest := (List.mem_cons.1 hc).resolve_left fun hcd => hmark (hcd.trans hd)
      obtain ⟨piece, hpiece, hmem⟩ := ih hrest
      exact ⟨piece, List.mem_cons_of_mem _ hpiece, hmem⟩
    · rw [if_neg hd]
      rcases List.mem_cons.1 hc with rfl | hrest
      · cases splitAt mark rest with
        | nil => exact ⟨[c], by simp⟩
        | cons piece pieces => exact ⟨c :: piece, by simp⟩
      · obtain ⟨piece, hpiece, hmem⟩ := ih hrest
        cases hpieces : splitAt mark rest with
        | nil =>
          rw [hpieces] at hpiece
          cases hpiece
        | cons first pieces =>
          rw [hpieces] at hpiece
          rcases List.mem_cons.1 hpiece with rfl | hlater
          · exact ⟨d :: piece, List.mem_cons_self, List.mem_cons_of_mem d hmem⟩
          · exact ⟨piece, List.mem_cons_of_mem _ hlater, hmem⟩

theorem splitAt_ne_nil (text : List Char) : splitAt mark text ≠ [] := by
  cases text with
  | nil => exact List.cons_ne_nil _ _
  | cons c rest =>
    rw [splitAt]
    split
    · exact List.cons_ne_nil _ _
    · split <;> exact List.cons_ne_nil _ _

theorem splitAt_of_not_mem {text : List Char} (h : mark ∉ text) : splitAt mark text = [text] := by
  induction text with
  | nil => rfl
  | cons c rest ih =>
    rw [List.mem_cons, not_or] at h
    obtain ⟨hc, hrest⟩ := h
    rw [splitAt, if_neg (Ne.symm hc), ih hrest]

theorem splitAt_append {piece : List Char} (h : mark ∉ piece) (rest : List Char) :
    splitAt mark (piece ++ mark :: rest) = piece :: splitAt mark rest := by
  induction piece with
  | nil => rw [List.nil_append, splitAt, if_pos rfl]
  | cons c piece ih =>
    rw [List.mem_cons, not_or] at h
    obtain ⟨hc, hpiece⟩ := h
    rw [List.cons_append, splitAt, if_neg (Ne.symm hc), ih hpiece]

/-- The last piece of a text is what follows its last mark. -/
theorem splitAt_append_last (before : List Char) {last : List Char} (h : mark ∉ last) :
    splitAt mark (before ++ mark :: last) = splitAt mark before ++ [last] := by
  induction before with
  | nil =>
    rw [splitAt_append List.not_mem_nil, splitAt_of_not_mem h]
    rfl
  | cons c before ih =>
    rw [List.cons_append, splitAt, splitAt, ih]
    by_cases hc : c = mark
    · rw [if_pos hc, if_pos hc, List.cons_append]
    · rw [if_neg hc, if_neg hc]
      cases hpieces : splitAt mark before with
      | nil => exact absurd hpieces (splitAt_ne_nil before)
      | cons piece pieces => rfl

/-- Splitting takes back what joining puts between pieces. -/
theorem splitAt_intercalate {pieces : List (List Char)} (hne : pieces ≠ [])
    (h : ∀ piece ∈ pieces, mark ∉ piece) : splitAt mark ([mark].intercalate pieces) = pieces := by
  induction pieces with
  | nil => exact absurd rfl hne
  | cons piece pieces ih =>
    obtain ⟨hpiece, hpieces⟩ := List.forall_mem_cons.1 h
    cases pieces with
    | nil =>
      rw [List.intercalate_singleton]
      exact splitAt_of_not_mem hpiece
    | cons next pieces =>
      rw [List.intercalate_cons_cons, List.append_assoc, List.singleton_append,
        splitAt_append hpiece, ih (List.cons_ne_nil _ _) hpieces]

theorem mem_intercalate {pieces : List (List Char)} {c : Char}
    (hc : c ∈ [mark].intercalate pieces) : c = mark ∨ ∃ piece ∈ pieces, c ∈ piece := by
  induction pieces with
  | nil => cases hc
  | cons piece pieces ih =>
    cases pieces with
    | nil =>
      rw [List.intercalate_singleton] at hc
      exact .inr ⟨piece, List.mem_cons_self, hc⟩
    | cons next pieces =>
      rw [List.intercalate_cons_cons, List.append_assoc, List.singleton_append, List.mem_append,
        List.mem_cons] at hc
      rcases hc with hc | hc | hc
      · exact .inr ⟨piece, List.mem_cons_self, hc⟩
      · exact .inl hc
      · obtain hmark | ⟨later, hlater, hmem⟩ := ih hc
        · exact .inl hmark
        · exact .inr ⟨later, List.mem_cons_of_mem piece hlater, hmem⟩

/-- A change of characters that leaves the mark alone changes the pieces in the same way. -/
theorem splitAt_map {f : Char → Char} (hf : ∀ c, f c = mark ↔ c = mark) (text : List Char) :
    splitAt mark (text.map f) = (splitAt mark text).map (List.map f) := by
  induction text with
  | nil => rfl
  | cons c rest ih =>
    rw [List.map_cons, splitAt, splitAt, ih]
    by_cases hc : c = mark
    · rw [if_pos hc, if_pos ((hf c).2 hc)]
      rfl
    · rw [if_neg hc, if_neg (fun h => hc ((hf c).1 h))]
      cases splitAt mark rest <;> rfl

end

section
variable {mark before after text : List Char}

theorem eq_of_cutAt? (h : cutAt? mark text = some (before, after)) :
    text = before ++ mark ++ after := by
  induction text generalizing before with
  | nil =>
    rw [cutAt?] at h
    split at h
    · next hmark =>
      cases h
      rw [hmark]
      rfl
    · cases h
  | cons c rest ih =>
    rw [cutAt?] at h
    split at h
    · next hprefix =>
      cases h
      obtain ⟨after, hafter⟩ := List.isPrefixOf_iff_prefix.1 hprefix
      rw [← hafter, List.drop_left]
      rfl
    · obtain ⟨⟨before', after'⟩, hcut, heq⟩ := Option.map_eq_some_iff.1 h
      cases heq
      rw [ih hcut]
      rfl

/-- A mark that a text starts with is found there. -/
theorem cutAt?_append (hmark : mark ≠ []) (after : List Char) :
    cutAt? mark (mark ++ after) = some ([], after) := by
  obtain ⟨c, rest, rfl⟩ := List.exists_cons_of_ne_nil hmark
  have hprefix : (c :: rest).isPrefixOf (c :: (rest ++ after)) = true :=
    List.isPrefixOf_iff_prefix.2 (List.prefix_append (c :: rest) after)
  rw [List.cons_append, cutAt?, if_pos hprefix, ← List.cons_append, List.drop_left]

theorem stripFront?_eq_some_iff {front rest : List Char} :
    stripFront? front text = some rest ↔ text = front ++ rest := by
  induction front generalizing text with
  | nil => simp [stripFront?]
  | cons f front ih =>
    cases text with
    | nil => simp [stripFront?]
    | cons c text =>
      rw [stripFront?]
      by_cases hc : f = c
      · rw [if_pos hc, ih, hc, List.cons_append, List.cons.injEq, eq_self, true_and]
      · rw [if_neg hc]
        simp [Ne.symm hc]

end

end Text
end DownloadQuery

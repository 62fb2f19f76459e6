import DownloadQuery.Condition.Token

/-!
# Tokens are read as they are written

A written token, up to a blank or the end of the text, is read back unchanged; so is a list of
tokens with a blank between each two.
-/

namespace DownloadQuery
namespace Token

/-- What has been read of a token that holds `t`; it is held reversed. -/
def pending (token : Option (List Char)) (t : List Char) : Option (List Char) :=
  some (t.reverse ++ token.getD [])

theorem push_eq_pending (c : Char) (token : Option (List Char)) :
    push c token = pending token [c] :=
  rfl

theorem begun_eq_pending (token : Option (List Char)) : begun token = pending token [] := rfl

@[simp] theorem pending_pending (token : Option (List Char)) (a b : List Char) :
    pending (pending token a) b = pending token (a ++ b) := by
  simp [pending]

theorem splitFrom_bare_cons {c : Char} (hc : isSpecial c = false) (token : Option (List Char))
    (rest : List Char) :
    splitFrom .bare token (c :: rest) = splitFrom .bare (push c token) rest := by
  simp only [isSpecial, Bool.or_eq_false_iff, beq_eq_false_iff_ne] at hc
  obtain ⟨⟨⟨hblank, hsingle⟩, hdouble⟩, hslash⟩ := hc
  cases token <;> rw [splitFrom] <;> simp [hblank, hsingle, hdouble, hslash]

/-- A bare token that is not empty takes all its characters. -/
theorem splitFrom_bare {t : List Char} (ht : t ≠ []) (hs : t.any isSpecial = false)
    (token : Option (List Char)) (rest : List Char) :
    splitFrom .bare token (t ++ rest) = splitFrom .bare (pending token t) rest := by
  induction t generalizing token with
  | nil => exact absurd rfl ht
  | cons c others ih =>
    simp only [List.any_cons, Bool.or_eq_false_iff] at hs
    rw [List.cons_append, splitFrom_bare_cons hs.1, push_eq_pending]
    cases others with
    | nil => rfl
    | cons d others => rw [ih (by simp) hs.2, pending_pending, List.singleton_append]

theorem splitFrom_double_escapeChar (c : Char) (token : Option (List Char)) (rest : List Char) :
    splitFrom .double token (escapeChar c ++ rest) = splitFrom .double (push c token) rest := by
  by_cases hc : c = '\\' ∨ c = '\x22'
  · rw [escapeChar, if_pos hc]
    rcases hc with rfl | rfl <;> simp [splitFrom]
  · rw [escapeChar, if_neg hc]
    rw [not_or] at hc
    rw [List.singleton_append, splitFrom] <;> simp [hc.1, hc.2]

theorem splitFrom_double (t : List Char) (token : Option (List Char)) (rest : List Char) :
    splitFrom .double (begun token) (t.flatMap escapeChar ++ '\x22' :: rest) =
      splitFrom .bare (pending token t) rest := by
  rw [begun_eq_pending]
  suffices ∀ a, splitFrom .double (pending token a) (t.flatMap escapeChar ++ '\x22' :: rest) =
      splitFrom .bare (pending token (a ++ t)) rest by simpa using this []
  induction t with
  | nil =>
    intro a
    rw [List.flatMap_nil, List.nil_append, splitFrom] <;> simp
  | cons c others ih =>
    intro a
    rw [List.flatMap_cons, List.append_assoc, splitFrom_double_escapeChar, push_eq_pending,
      pending_pending, ih]
    simp

/-- A written token is taken whole. -/
theorem splitFrom_writeChars {t : List Char} (ht : t ≠ []) (rest : List Char) :
    splitFrom .bare none (writeChars t ++ rest) = splitFrom .bare (some t.reverse) rest := by
  have hp : some t.reverse = pending none t := by simp [pending]
  rw [hp, writeChars]
  split
  · have hopen : splitFrom .bare none ('\x22' :: t.flatMap escapeChar ++ ['\x22'] ++ rest) =
        splitFrom .double (begun none) (t.flatMap escapeChar ++ '\x22' :: rest) := by
      rw [List.cons_append, List.cons_append, List.append_assoc, List.singleton_append, splitFrom] <;>
        simp
    rw [hopen, splitFrom_double]
  · next hs =>
    exact splitFrom_bare ht (by simpa using hs) none rest

/-- A blank ends the token that has been begun. -/
theorem splitFrom_blank {c : Char} (hc : Text.isBlank c = true) (token : Option (List Char))
    (rest : List Char) :
    splitFrom .bare token (c :: rest) =
      match token with
      | none => splitFrom .bare none rest
      | some t => (splitFrom .bare none rest).map (t.reverse :: ·) := by
  have hslash : c ≠ '\\' := by rintro rfl; exact absurd hc (by decide)
  have hsingle : c ≠ '\x27' := by rintro rfl; exact absurd hc (by decide)
  have hdouble : c ≠ '\x22' := by rintro rfl; exact absurd hc (by decide)
  cases token <;> rw [splitFrom] <;> simp [hc, hslash, hsingle, hdouble]

/-- The token that has been begun ends at the end of the text and before a blank. -/
theorem splitFrom_end {rest : List Char} (hr : ∀ c ∈ rest.head?, Text.isBlank c = true)
    (t : List Char) :
    splitFrom .bare (some t) rest = (splitFrom .bare none rest).map (t.reverse :: ·) := by
  cases rest with
  | nil => simp [splitFrom]
  | cons c rest => rw [splitFrom_blank (hr c rfl), splitFrom_blank (hr c rfl)]

/-- A written token is read back unchanged. -/
theorem splitFrom_token {t : List Char} (ht : t ≠ []) {rest : List Char}
    (hr : ∀ c ∈ rest.head?, Text.isBlank c = true) :
    splitFrom .bare none (writeChars t ++ rest) =
      (splitFrom .bare none rest).map (t :: ·) := by
  rw [splitFrom_writeChars ht, splitFrom_end hr, List.reverse_reverse]

theorem splitFrom_intercalate {tokens : List (List Char)} (ht : ∀ t ∈ tokens, t ≠ []) :
    splitFrom .bare none ([' '].intercalate (tokens.map writeChars)) = some tokens := by
  induction tokens with
  | nil => simp [splitFrom]
  | cons t rest ih =>
    simp only [List.mem_cons, forall_eq_or_imp] at ht
    cases rest with
    | nil =>
      have key := @splitFrom_token t ht.1 [] (by simp)
      rw [List.append_nil] at key
      simp [key, splitFrom]
    | cons u others =>
      rw [List.map_cons, List.map_cons, List.intercalate_cons_cons, List.append_assoc,
        splitFrom_token ht.1 (by simp [Text.isBlank]), List.singleton_append,
        splitFrom_blank (by decide) none]
      rw [List.map_cons] at ih
      simp only [ih ht.2, Option.map_some]

/-- Tokens that are written with a blank between each two are read back unchanged. -/
theorem split?_intercalate {tokens : List String} (ht : ∀ t ∈ tokens, t ≠ "") :
    split? (" ".intercalate (tokens.map write)) = some tokens := by
  have hchars : (" ".intercalate (tokens.map write)).toList =
      [' '].intercalate ((tokens.map String.toList).map writeChars) := by
    simp [write, Function.comp_def]
  have hne : ∀ t ∈ tokens.map String.toList, t ≠ [] := by
    simpa using ht
  rw [split?, hchars, splitFrom_intercalate hne]
  simp [Function.comp_def]

end Token
end DownloadQuery

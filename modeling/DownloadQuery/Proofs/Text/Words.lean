import DownloadQuery.Proofs.Text.Categories

/-!
# Words

Blanks take a text apart: what stands before a blank and what stands after it have their words each
(`wordsOfChars_append`). So the words of a text are its longest runs of characters that are not
blank (`mem_wordsOfChars_iff`). Lowering a text lowers its words (`wordsOfChars_lowerChars`),
because what stands beyond a blank has no part in how a sigma is lowered (`lowerChars_append`).
-/

namespace DownloadQuery
namespace Text

/-- Whether no character of a text is blank. -/
def IsSolid (text : List Char) : Prop := ∀ c ∈ text, isBlank c = false

/-- A text that is not solid has a first blank. -/
theorem exists_blank {text : List Char} (h : ¬ IsSolid text) :
    ∃ before c after, text = before ++ c :: after ∧ IsSolid before ∧ isBlank c = true := by
  induction text with
  | nil => exact absurd (fun _ hc => absurd hc List.not_mem_nil) h
  | cons c rest ih =>
    cases hc : isBlank c with
    | true => exact ⟨[], c, rest, rfl, nofun, hc⟩
    | false =>
      have hrest : ¬ IsSolid rest := fun hsolid => h (List.forall_mem_cons.2 ⟨hc, hsolid⟩)
      obtain ⟨before, b, after, rfl, hbefore, hb⟩ := ih hrest
      exact ⟨c :: before, b, after, rfl, List.forall_mem_cons.2 ⟨hc, hbefore⟩, hb⟩

/-- What holds of solid texts, and goes over from a text to what has a solid text and a blank in
front of it, holds of all texts. -/
@[elab_as_elim]
theorem blank_induction {P : List Char → Prop} (text : List Char)
    (solid : ∀ text, IsSolid text → P text)
    (blank : ∀ before c after, IsSolid before → isBlank c = true → P after →
      P (before ++ c :: after)) : P text := by
  induction hlength : text.length using Nat.strong_induction_on generalizing text with
  | h n ih =>
    by_cases h : IsSolid text
    · exact solid text h
    · obtain ⟨before, c, after, rfl, hbefore, hc⟩ := exists_blank h
      have hshorter : after.length < n := by
        rw [← hlength, List.length_append, List.length_cons]
        omega
      exact blank before c after hbefore hc (ih _ hshorter after rfl)

theorem wordsFrom_cons (word : List Char) (c : Char) (rest : List Char) :
    wordsFrom word (c :: rest) =
      if isBlank c then
        if word = [] then wordsFrom [] rest else word.reverse :: wordsFrom [] rest
      else wordsFrom (c :: word) rest := by
  cases word <;> rfl

theorem wordsFrom_blank {c : Char} (hc : isBlank c = true) (word before after : List Char) :
    wordsFrom word (before ++ c :: after) = wordsFrom word before ++ wordsOfChars after := by
  induction before generalizing word with
  | nil =>
    rw [List.nil_append, wordsFrom_cons, if_pos hc, wordsOfChars]
    cases word <;> rfl
  | cons d before ih =>
    rw [List.cons_append, wordsFrom_cons, wordsFrom_cons]
    split_ifs with hd hword
    · exact ih []
    · rw [ih [], List.cons_append]
    · exact ih (d :: word)

/-- A blank parts the words before it from those after it. -/
theorem wordsOfChars_append {c : Char} (hc : isBlank c = true) (before after : List Char) :
    wordsOfChars (before ++ c :: after) = wordsOfChars before ++ wordsOfChars after :=
  wordsFrom_blank hc [] before after

theorem wordsFrom_solid {word text : List Char} (h : IsSolid text) :
    wordsFrom word text = wordsFrom (text.reverse ++ word) [] := by
  induction text generalizing word with
  | nil => rfl
  | cons c rest ih =>
    obtain ⟨hc, hrest⟩ := List.forall_mem_cons.1 h
    rw [wordsFrom_cons, hc, if_neg Bool.false_ne_true, ih hrest, List.reverse_cons,
      List.append_assoc]
    rfl

/-- A solid text is its only word. -/
theorem wordsOfChars_solid {text : List Char} (hne : text ≠ []) (h : IsSolid text) :
    wordsOfChars text = [text] := by
  rw [wordsOfChars, wordsFrom_solid h, List.append_nil]
  obtain ⟨c, rest, hreverse⟩ := List.exists_cons_of_ne_nil (List.reverse_ne_nil_iff.2 hne)
  have hword : wordsFrom text.reverse [] = [text.reverse.reverse] := by
    rw [hreverse]
    rfl
  rw [hword, List.reverse_reverse]

/-- Whether a text is a word of another: a longest run of characters that are not blank. -/
structure IsWordOf (word text : List Char) : Prop where
  ne_nil : word ≠ []
  solid : IsSolid word
  parted : ∃ before after, text = before ++ word ++ after ∧
    (∀ c ∈ before.getLast?, isBlank c = true) ∧ ∀ c ∈ after.head?, isBlank c = true

theorem isWordOf_of_mem {word text : List Char} (h : word ∈ wordsOfChars text) :
    IsWordOf word text := by
  induction text using blank_induction with
  | solid text hsolid =>
    by_cases hne : text = []
    · rw [hne] at h
      cases h
    · rw [wordsOfChars_solid hne hsolid, List.mem_singleton] at h
      subst h
      exact ⟨hne, hsolid, [], [], (List.append_nil _).symm, nofun, nofun⟩
  | blank before c after hbefore hc ih =>
    rw [wordsOfChars_append hc, List.mem_append] at h
    rcases h with hfirst | hlater
    · by_cases hne : before = []
      · rw [hne] at hfirst
        cases hfirst
      · rw [wordsOfChars_solid hne hbefore, List.mem_singleton] at hfirst
        subst hfirst
        refine ⟨hne, hbefore, [], c :: after, rfl, nofun, ?_⟩
        rintro d ⟨⟩
        exact hc
    · obtain ⟨hne, hsolid, before', after', rfl, hstart, hend⟩ := ih hlater
      refine ⟨hne, hsolid, before ++ c :: before', after', by simp, ?_, hend⟩
      rw [List.getLast?_append_of_ne_nil _ (List.cons_ne_nil _ _)]
      cases before' with
      | nil =>
        rintro d ⟨⟩
        exact hc
      | cons d before' => exact hstart

/-- The words of a text are its longest runs of characters that are not blank. -/
theorem mem_wordsOfChars_iff {word text : List Char} :
    word ∈ wordsOfChars text ↔ IsWordOf word text := by
  refine ⟨isWordOf_of_mem, ?_⟩
  rintro ⟨hne, hsolid, before, after, rfl, hstart, hend⟩
  have hhead : word ∈ wordsOfChars (word ++ after) := by
    cases after with
    | nil => simp [wordsOfChars_solid hne hsolid]
    | cons c after => simp [wordsOfChars_append (hend c rfl), wordsOfChars_solid hne hsolid]
  rw [List.append_assoc]
  rcases List.eq_nil_or_concat before with rfl | ⟨before, c, rfl⟩
  · exact hhead
  · rw [List.concat_eq_append, List.append_assoc, List.singleton_append, wordsOfChars_append]
    · exact List.mem_append_right _ hhead
    · exact hstart c (by simp)

/-- Casing does not look past a blank. -/
theorem meetsCased_blank {c : Char} (hc : isBlank c = true) (before after : List Char) :
    meetsCased (before ++ c :: after) = meetsCased before := by
  have hstop : ¬ isCaseIgnorable c = true := by simp [isCaseIgnorable_blank hc]
  rw [meetsCased_eq, meetsCased_eq, List.dropWhile_append]
  cases before.dropWhile isCaseIgnorable with
  | cons d rest => rfl
  | nil =>
    simp only [List.isEmpty_nil, if_true]
    rw [List.dropWhile_cons_of_neg hstop, List.head?_cons, Option.any_some, isCased_blank hc]
    rfl

theorem lowerFrom_after_blank {c : Char} (hc : isBlank c = true) (before earlier text : List Char) :
    lowerFrom (before ++ c :: earlier) text = lowerFrom before text := by
  induction text generalizing before with
  | nil => rfl
  | cons d rest ih =>
    have hends : endsWord (before ++ c :: earlier) rest = endsWord before rest := by
      rw [endsWord, endsWord, meetsCased_blank hc]
    rw [lowerFrom, lowerFrom, hends, ← List.cons_append, ih]

theorem lowerFrom_blank {c : Char} (hc : isBlank c = true) (earlier before after : List Char) :
    lowerFrom earlier (before ++ c :: after) =
      lowerFrom earlier before ++ c :: lowerChars after := by
  induction before generalizing earlier with
  | nil =>
    have hsigma : c ≠ 'Σ' := by
      rintro rfl
      revert hc
      decide
    rw [List.nil_append, lowerFrom, lowerFrom, if_neg hsigma, lowerChar_blank hc]
    exact congrArg (c :: ·) (lowerFrom_after_blank hc [] earlier after)
  | cons d before ih =>
    have hends : endsWord earlier (before ++ c :: after) = endsWord earlier before := by
      rw [endsWord, endsWord, meetsCased_blank hc]
    rw [List.cons_append, lowerFrom, lowerFrom, hends, ih, List.append_assoc]

/-- What stands before a blank and what stands after it are lowered apart. -/
theorem lowerChars_append {c : Char} (hc : isBlank c = true) (before after : List Char) :
    lowerChars (before ++ c :: after) = lowerChars before ++ c :: lowerChars after :=
  lowerFrom_blank hc [] before after

theorem lowerChars_ne_nil {text : List Char} (h : text ≠ []) : lowerChars text ≠ [] :=
  lowerFrom_ne_nil h

theorem IsSolid.lowerChars {text : List Char} (h : IsSolid text) : IsSolid (lowerChars text) :=
  isBlank_of_mem_lowerFrom h

/-- The words of a lowered text are the lowered words of the text. -/
theorem wordsOfChars_lowerChars (text : List Char) :
    wordsOfChars (lowerChars text) = (wordsOfChars text).map lowerChars := by
  induction text using blank_induction with
  | solid text hsolid =>
    by_cases hne : text = []
    · rw [hne]
      rfl
    · rw [wordsOfChars_solid hne hsolid,
        wordsOfChars_solid (lowerChars_ne_nil hne) hsolid.lowerChars, List.map_singleton]
  | blank before c after hbefore hc ih =>
    rw [lowerChars_append hc, wordsOfChars_append hc, wordsOfChars_append hc, ih, List.map_append]
    congr 1
    by_cases hne : before = []
    · rw [hne]
      rfl
    · rw [wordsOfChars_solid hne hbefore,
        wordsOfChars_solid (lowerChars_ne_nil hne) hbefore.lowerChars, List.map_singleton]

end Text
end DownloadQuery

import DownloadQuery.Text.Lower
import Mathlib

/-!
# Lower case and marks

The ASCII characters that are no letters, which are digits, signs, brackets and other marks, have no
case. Lowering keeps them in their order, and makes no others (`filter_lowerFrom`); it leaves no
ASCII capitals (`isUpper_lowerFrom`). A mark in front of a text has no part in how the text is
lowered (`lowerChars_mark`).
-/

namespace DownloadQuery
namespace Text

/-- What holds of the first 128 codes holds of every ASCII character. -/
theorem forall_ascii {p : Char → Prop} (h : ∀ n < 0x80, p (Char.ofNat n)) {c : Char}
    (hc : c.toNat < 0x80) : p c := by
  have hcode := h c.toNat hc
  rwa [Char.ofNat_toNat] at hcode

/-- Whether a character is an ASCII one that is no letter. -/
def IsMark (c : Char) : Prop := 0 < c.toNat ∧ c.toNat < 0x80 ∧ c.isAlpha = false

instance (c : Char) : Decidable (IsMark c) := inferInstanceAs (Decidable (_ ∧ _))

theorem lowerChar_mark {c : Char} (h : IsMark c) : lowerChar c = [c] :=
  forall_ascii (p := fun c => c.isAlpha = false → lowerChar c = [c]) (by decide) h.2.1 h.2.2

theorem isCased_mark {c : Char} (h : IsMark c) : isCased c = false :=
  forall_ascii (p := fun c => c.isAlpha = false → isCased c = false) (by decide) h.2.1 h.2.2

/-- From beyond ASCII the runs of the lower-case mapping lead to small ASCII letters or to no ASCII
characters. -/
theorem image_lowerRuns {code : Nat} (h : 0x80 ≤ code) :
    0x61 ≤ CaseRun.image lowerRuns code ∧ CaseRun.image lowerRuns code ≤ 0x7A ∨
      0x80 ≤ CaseRun.image lowerRuns code := by
  have hruns : ∀ r ∈ lowerRuns, r.last < 0x80 ∨
      0x61 ≤ (r.first : Int) + r.shift ∧ (r.last : Int) + r.shift ≤ 0x7A ∨
        0x80 ≤ (r.first : Int) + r.shift := by decide +kernel
  rw [CaseRun.image]
  split
  · next r hr =>
    have hmem := hruns r (List.mem_of_find?_eq_some hr)
    have hcovers := List.find?_some hr
    simp only [CaseRun.covers, Bool.and_eq_true, decide_eq_true_eq] at hcovers
    omega
  · exact .inr h

theorem toNat_ofNat (code : Nat) : (Char.ofNat code).toNat = code ∨ Char.ofNat code = '\x00' := by
  by_cases hv : code.isValidChar
  · left
    rw [Char.ofNat, dif_pos hv]
    simp [Char.ofNatAux, Char.toNat]
  · right
    rw [Char.ofNat, dif_neg hv]
    rfl

theorem isUpper_eq_false {c : Char} (h : 0x5A < c.toNat) : c.isUpper = false := by
  have hval : ¬ c.val ≤ 'Z'.val := fun hle => absurd (UInt32.le_iff_toNat_le.1 hle) (by
    show ¬ c.toNat ≤ 0x5A
    omega)
  exact decide_eq_false fun hrange => hval hrange.2

/-- The lower-case form of a character beyond ASCII has no marks and no ASCII capitals. -/
theorem lowerChar_beyond {c d : Char} (hc : ¬ c.toNat < 0x80) (h : d ∈ lowerChar c) :
    ¬ IsMark d ∧ d.isUpper = false := by
  rw [lowerChar, if_neg hc] at h
  split at h
  · have hform : ∀ e ∈ ['i', '\u0307'], ¬ IsMark e ∧ e.isUpper = false :=
      List.forall_mem_cons.2 ⟨by decide, List.forall_mem_singleton.2 (by decide)⟩
    exact hform d h
  · rw [List.mem_singleton] at h
    subst h
    have himage := image_lowerRuns (Nat.not_lt.1 hc)
    rcases toNat_ofNat (CaseRun.image lowerRuns c.toNat) with hcode | hzero
    · rw [← hcode] at himage
      generalize Char.ofNat (CaseRun.image lowerRuns c.toNat) = d at himage
      refine ⟨fun hmark => ?_, isUpper_eq_false (by omega)⟩
      rcases himage with ⟨hlow, hhigh⟩ | hbeyond
      · have hletter : ¬ IsMark d :=
          forall_ascii (p := fun d => 0x61 ≤ d.toNat → d.toNat ≤ 0x7A → ¬ IsMark d) (by decide)
            hmark.2.1 hlow hhigh
        exact hletter hmark
      · exact absurd hmark.2.1 (by omega)
    · rw [hzero]
      decide

/-- The lower-case form of an ASCII character. -/
theorem lowerChar_ascii {c : Char} (hc : c.toNat < 0x80) :
    lowerChar c = [c.toLower] ∧ c.toLower.isUpper = false ∧
      (IsMark c ∧ c.toLower = c ∨ ¬ IsMark c ∧ ¬ IsMark c.toLower) :=
  ⟨if_pos hc, forall_ascii (p := fun c => c.toLower.isUpper = false ∧
    (IsMark c ∧ c.toLower = c ∨ ¬ IsMark c ∧ ¬ IsMark c.toLower)) (by decide) hc⟩

/-- What the lower-case form of a character within a text may be: that of a mark is the mark, and
that of another character has no marks. There are no ASCII capitals in it. -/
structure IsFormOf (here : List Char) (c : Char) : Prop where
  ne_nil : here ≠ []
  isUpper : ∀ d ∈ here, d.isUpper = false
  marks : IsMark c ∧ here = [c] ∨ ¬ IsMark c ∧ ∀ d ∈ here, ¬ IsMark d

theorem isFormOf_lowerChar (c : Char) : IsFormOf (lowerChar c) c := by
  by_cases hc : c.toNat < 0x80
  · obtain ⟨hform, hupper, hmarks⟩ := lowerChar_ascii hc
    rw [hform]
    refine ⟨List.cons_ne_nil _ _, List.forall_mem_singleton.2 hupper, ?_⟩
    rcases hmarks with ⟨hmark, hsame⟩ | ⟨hmark, hnone⟩
    · exact .inl ⟨hmark, congrArg (fun d => [d]) hsame⟩
    · exact .inr ⟨hmark, List.forall_mem_singleton.2 hnone⟩
  · have hne : lowerChar c ≠ [] := by
      unfold lowerChar
      split_ifs <;> exact List.cons_ne_nil _ _
    exact ⟨hne, fun d hd => (lowerChar_beyond hc hd).2,
      .inr ⟨fun hmark => hc hmark.2.1, fun d hd => (lowerChar_beyond hc hd).1⟩⟩

theorem exists_lowerFrom (before : List Char) (c : Char) (rest : List Char) :
    ∃ here, lowerFrom before (c :: rest) = here ++ lowerFrom (c :: before) rest ∧
      IsFormOf here c := by
  have hsigma {d : Char} (hd : ¬ IsMark d ∧ d.isUpper = false) : IsFormOf [d] 'Σ' :=
    ⟨List.cons_ne_nil _ _, List.forall_mem_singleton.2 hd.2,
      .inr ⟨by decide, List.forall_mem_singleton.2 hd.1⟩⟩
  rw [lowerFrom]
  split_ifs with hc
  · subst hc
    exact ⟨_, rfl, hsigma (by decide)⟩
  · subst hc
    exact ⟨_, rfl, hsigma (by decide)⟩
  · exact ⟨_, rfl, isFormOf_lowerChar c⟩

/-- Lowering keeps the marks of a text in their order, and makes no others. -/
theorem filter_lowerFrom (before text : List Char) :
    (lowerFrom before text).filter IsMark = text.filter IsMark := by
  induction text generalizing before with
  | nil => rfl
  | cons c rest ih =>
    obtain ⟨here, heq, hform⟩ := exists_lowerFrom before c rest
    rw [heq, List.filter_append, ih]
    rcases hform.marks with ⟨hc, rfl⟩ | ⟨hc, hnone⟩
    · simp [hc]
    · have hempty : here.filter IsMark = [] := by simpa [List.filter_eq_nil_iff] using hnone
      rw [hempty, List.filter_cons_of_neg (by simpa using hc), List.nil_append]

/-- Lowering leaves no ASCII capitals. -/
theorem isUpper_lowerFrom {before text : List Char} :
    ∀ d ∈ lowerFrom before text, d.isUpper = false := by
  induction text generalizing before with
  | nil => exact nofun
  | cons c rest ih =>
    obtain ⟨here, heq, hform⟩ := exists_lowerFrom before c rest
    rw [heq, List.forall_mem_append]
    exact ⟨hform.isUpper, ih⟩

/-- Lowering makes no marks. -/
theorem mem_of_mem_lowerFrom {d : Char} (hd : IsMark d) {before text : List Char}
    (h : d ∈ lowerFrom before text) : d ∈ text := by
  have hmem : d ∈ (lowerFrom before text).filter IsMark := List.mem_filter.2 ⟨h, decide_eq_true hd⟩
  rw [filter_lowerFrom] at hmem
  exact (List.mem_filter.1 hmem).1

/-- A lowered text starts with a mark only if the text does. -/
theorem head?_of_lowerFrom {d : Char} (hd : IsMark d) {before text : List Char}
    (h : (lowerFrom before text).head? = some d) : text.head? = some d := by
  cases text with
  | nil => exact h
  | cons c rest =>
    obtain ⟨here, heq, hform⟩ := exists_lowerFrom before c rest
    obtain ⟨e, more, rfl⟩ := List.exists_cons_of_ne_nil hform.ne_nil
    rw [heq] at h
    obtain rfl : e = d := by simpa using h
    rcases hform.marks with ⟨-, hsame⟩ | ⟨-, hnone⟩
    · cases hsame
      rfl
    · exact absurd hd (hnone e List.mem_cons_self)

theorem lowerFrom_ne_nil {before text : List Char} (h : text ≠ []) :
    lowerFrom before text ≠ [] := by
  obtain ⟨c, rest, rfl⟩ := List.exists_cons_of_ne_nil h
  obtain ⟨here, heq, hform⟩ := exists_lowerFrom before c rest
  rw [heq]
  exact List.append_ne_nil_of_left_ne_nil hform.ne_nil _

theorem lower_eq_empty_iff {s : String} : lower s = "" ↔ s = "" := by
  constructor
  · intro h
    by_contra hne
    have hchars : lowerChars s.toList = [] := String.ofList_injective h
    exact lowerFrom_ne_nil (by simpa using hne) hchars
  · rintro rfl
    decide

theorem meetsCased_eq (text : List Char) :
    meetsCased text = (text.dropWhile isCaseIgnorable).head?.any isCased := by
  unfold meetsCased
  cases text.dropWhile isCaseIgnorable <;> rfl

/-- A character without case is not met. -/
theorem meetsCased_append {c : Char} (hc : isCased c = false) (before : List Char) :
    meetsCased (before ++ [c]) = meetsCased before := by
  rw [meetsCased_eq, meetsCased_eq, List.dropWhile_append]
  cases before.dropWhile isCaseIgnorable with
  | cons d rest => rfl
  | nil =>
    simp only [List.isEmpty_nil, if_true]
    cases hi : isCaseIgnorable c with
    | true =>
      rw [List.dropWhile_cons_of_pos hi]
      rfl
    | false =>
      have hn : ¬ isCaseIgnorable c = true := by simp [hi]
      rw [List.dropWhile_cons_of_neg hn, List.head?_cons, Option.any_some, hc]
      rfl

theorem lowerFrom_append {c : Char} (hc : isCased c = false) (before text : List Char) :
    lowerFrom (before ++ [c]) text = lowerFrom before text := by
  induction text generalizing before with
  | nil => rfl
  | cons d rest ih =>
    have hends : endsWord (before ++ [c]) rest = endsWord before rest := by
      rw [endsWord, endsWord, meetsCased_append hc]
    rw [lowerFrom, lowerFrom, hends, ← List.cons_append, ih]

/-- A mark in front of a text stays in front of it. -/
theorem lowerChars_mark {c : Char} (hc : IsMark c) (text : List Char) :
    lowerChars (c :: text) = c :: lowerChars text := by
  have hsigma : c ≠ 'Σ' := by
    rintro rfl
    revert hc
    decide
  rw [lowerChars, lowerFrom, if_neg hsigma, lowerChar_mark hc]
  exact congrArg (c :: ·) (lowerFrom_append (isCased_mark hc) [] text)

end Text
end DownloadQuery

import DownloadQuery.Proofs.Text.Lowering
import DownloadQuery.Text.Blank

/-!
# Lowering twice

What the lower-case mapping leads to, it leads to itself (`image_image`): its runs keep off their
own images. So a text in lower case is its own lower-case form (`lower_lower`). Lowering keeps
blanks as they are and makes no others (`lowerChar_blank`, `isBlank_of_mem_lowerFrom`).
-/

namespace DownloadQuery
namespace Text

/-- The spans of code points of blanks. -/
def blankSpans : List (Nat × Nat) :=
  [(0x9, 0xD), (0x20, 0x20), (0x85, 0x85), (0xA0, 0xA0), (0x1680, 0x1680), (0x2000, 0x200A),
   (0x2028, 0x2028), (0x2029, 0x2029), (0x202F, 0x202F), (0x205F, 0x205F), (0x3000, 0x3000)]

theorem exists_blankSpan {c : Char} (h : isBlank c = true) :
    ∃ span ∈ blankSpans, span.1 ≤ c.toNat ∧ c.toNat ≤ span.2 := by
  simp only [isBlank, Bool.or_eq_true, Bool.and_eq_true, decide_eq_true_eq, beq_iff_eq] at h
  simp only [blankSpans, List.exists_mem_cons_iff, List.not_mem_nil, false_and, exists_false]
  omega

namespace CaseRun

/-- The code point that a run leads to. -/
def target (r : CaseRun) (code : Nat) : Nat := ((code : Int) + r.shift).toNat

/-- Whether no run starts from where a run leads to. They may cross if both go by twos, over code
points of different parity. -/
def keepsOff (runs : List CaseRun) (r : CaseRun) : Bool :=
  let low := r.target r.first
  let high := r.target r.last
  let strided := r.step == 2 || r.first == r.last
  runs.all fun s => Nat.blt high s.first || Nat.blt s.last low ||
    strided && s.step == 2 && (low + s.first) % 2 == 1

theorem covers_iff {r : CaseRun} {code : Nat} : r.covers code = true ↔
    r.first ≤ code ∧ code ≤ r.last ∧ (code - r.first) % r.step = 0 := by
  simp [covers, and_assoc]

end CaseRun

theorem keepsOff_lowerRuns : ∀ r ∈ lowerRuns, r.keepsOff lowerRuns = true := by decide +kernel

theorem shift_lowerRuns : ∀ r ∈ lowerRuns, 0 ≤ (r.first : Int) + r.shift := by decide +kernel

/-- Neither blanks nor `İ` are in a run, or where a run leads to. -/
theorem lowerRuns_apart : ∀ r ∈ lowerRuns, ∀ span ∈ (0x130, 0x130) :: blankSpans,
    (r.last < span.1 ∨ span.2 < r.first) ∧
      (r.target r.last < span.1 ∨ span.2 < r.target r.first) := by
  decide +kernel

/-- A code point is its own image, or a run leads to its image. -/
theorem image_cases (code : Nat) : CaseRun.image lowerRuns code = code ∨
    ∃ r ∈ lowerRuns, r.covers code = true ∧ CaseRun.image lowerRuns code = r.target code := by
  rw [CaseRun.image]
  cases hfind : lowerRuns.find? (·.covers code) with
  | none => exact .inl rfl
  | some r =>
    have hcovers := List.find?_some hfind
    exact .inr ⟨r, List.mem_of_find?_eq_some hfind, hcovers, rfl⟩

theorem not_covers_target {r s : CaseRun} (hr : r ∈ lowerRuns) (hs : s ∈ lowerRuns) {code : Nat}
    (hcovers : r.covers code = true) : s.covers (r.target code) = false := by
  have hshift := shift_lowerRuns r hr
  have hoff := List.all_eq_true.1 (keepsOff_lowerRuns r hr) s hs
  simp only [CaseRun.target, Bool.or_eq_true, Bool.and_eq_true, beq_iff_eq, Nat.blt_eq] at hoff
  obtain ⟨hfirst, hlast, hstep⟩ := CaseRun.covers_iff.1 hcovers
  rw [Bool.eq_false_iff, Ne, CaseRun.covers_iff, CaseRun.target]
  rintro ⟨hfirst', hlast', hstep'⟩
  rcases hoff with (hbelow | habove) | ⟨⟨hstrided, htwo⟩, hparity⟩
  · omega
  · omega
  · rw [htwo] at hstep'
    have heven : (code - r.first) % 2 = 0 := by
      rcases hstrided with htwo' | hone
      · rwa [htwo'] at hstep
      · omega
    omega

theorem image_image (code : Nat) :
    CaseRun.image lowerRuns (CaseRun.image lowerRuns code) = CaseRun.image lowerRuns code := by
  rcases image_cases code with hsame | ⟨r, hr, hcovers, himage⟩
  · rw [hsame, hsame]
  · have hnone : lowerRuns.find? (·.covers (r.target code)) = none := by
      rw [List.find?_eq_none]
      intro s hs
      rw [not_covers_target hr hs hcovers]
      exact Bool.false_ne_true
    rw [himage, CaseRun.image, hnone]

/-- A code point that lies apart from the runs is its own image, and that of no other. -/
theorem image_eq_iff {code : Nat} {span : Nat × Nat} (hspan : span ∈ (0x130, 0x130) :: blankSpans)
    (hfirst : span.1 ≤ code) (hlast : code ≤ span.2) {source : Nat} :
    CaseRun.image lowerRuns source = code ↔ source = code := by
  rcases image_cases source with hsame | ⟨r, hr, hcovers, himage⟩
  · rw [hsame]
  · obtain ⟨hfirst', hlast', -⟩ := CaseRun.covers_iff.1 hcovers
    have hapart := lowerRuns_apart r hr span hspan
    rw [himage]
    simp only [CaseRun.target] at hapart ⊢
    omega

/-- Whether lowering keeps a character wherever it stands. -/
def IsSettled (c : Char) : Prop := lowerChar c = [c] ∧ c ≠ 'Σ'

instance (c : Char) : Decidable (IsSettled c) := inferInstanceAs (Decidable (_ ∧ _))

theorem isSettled_ascii {c : Char} (hc : c.toNat < 0x80) (hlower : c.isUpper = false) :
    IsSettled c :=
  forall_ascii (p := fun c => c.isUpper = false → IsSettled c) (by decide) hc hlower

/-- A character beyond ASCII is settled if it is its own image and not `İ`. -/
theorem isSettled_of_image {c : Char} (hc : ¬ c.toNat < 0x80) (hdotted : c ≠ 'İ')
    (himage : CaseRun.image lowerRuns c.toNat = c.toNat) : IsSettled c := by
  constructor
  · rw [lowerChar, if_neg hc, if_neg hdotted, himage, Char.ofNat_toNat]
  · rintro rfl
    revert himage
    decide +kernel

theorem isSettled_dot : IsSettled '\u0307' :=
  isSettled_of_image (by decide) (by decide) (by decide +kernel)

theorem isSettled_sigma : IsSettled 'ς' ∧ IsSettled 'σ' :=
  ⟨isSettled_of_image (by decide) (by decide) (by decide +kernel),
    isSettled_of_image (by decide) (by decide) (by decide +kernel)⟩

/-- The lower-case form of a character is settled. -/
theorem isSettled_of_mem_lowerChar {c d : Char} (h : d ∈ lowerChar c) : IsSettled d := by
  have hupper := (isFormOf_lowerChar c).isUpper d h
  by_cases hascii : d.toNat < 0x80
  · exact isSettled_ascii hascii hupper
  · by_cases hc : c.toNat < 0x80
    · rw [(lowerChar_ascii hc).1, List.mem_singleton] at h
      have hform : c.toLower.toNat < 0x80 :=
        forall_ascii (p := fun c => c.toLower.toNat < 0x80) (by decide) hc
      exact absurd (h ▸ hform) hascii
    · rw [lowerChar, if_neg hc] at h
      split_ifs at h with hdotted
      · have hforms : ∀ e ∈ ['i', '\u0307'], IsSettled e :=
          List.forall_mem_cons.2 ⟨isSettled_ascii (by decide) (by decide),
            List.forall_mem_singleton.2 isSettled_dot⟩
        exact hforms d h
      · rw [List.mem_singleton] at h
        subst h
        rcases toNat_ofNat (CaseRun.image lowerRuns c.toNat) with hcode | hzero
        · refine isSettled_of_image hascii ?_ ?_
          · intro hform
            rw [hform] at hcode
            have hsource := (image_eq_iff List.mem_cons_self (by decide) (by decide)).1 hcode.symm
            exact hdotted (Char.toNat_inj.1 hsource)
          · rw [hcode, image_image]
        · exact absurd (by rw [hzero]; decide) hascii

/-- Lowering leaves settled characters only. -/
theorem isSettled_of_mem_lowerFrom {before text : List Char} :
    ∀ d ∈ lowerFrom before text, IsSettled d := by
  induction text generalizing before with
  | nil => exact nofun
  | cons c rest ih =>
    rw [lowerFrom]
    intro d hd
    rcases List.mem_append.1 hd with hhere | hrest
    · split_ifs at hhere with hc hends
      · exact List.mem_singleton.1 hhere ▸ isSettled_sigma.1
      · exact List.mem_singleton.1 hhere ▸ isSettled_sigma.2
      · exact isSettled_of_mem_lowerChar hhere
    · exact ih d hrest

theorem lowerFrom_settled {before text : List Char} (h : ∀ c ∈ text, IsSettled c) :
    lowerFrom before text = text := by
  induction text generalizing before with
  | nil => rfl
  | cons c rest ih =>
    obtain ⟨⟨hform, hsigma⟩, hrest⟩ := List.forall_mem_cons.1 h
    rw [lowerFrom, if_neg hsigma, hform, ih hrest, List.singleton_append]

/-- The lower-case form of a text is its own. -/
theorem lower_lower (s : String) : lower (lower s) = lower s := by
  rw [lower, lower, String.toList_ofList]
  exact congrArg String.ofList (lowerFrom_settled isSettled_of_mem_lowerFrom)

theorem lowerChar_blank {c : Char} (h : isBlank c = true) : lowerChar c = [c] := by
  by_cases hascii : c.toNat < 0x80
  · exact forall_ascii (p := fun c => isBlank c = true → lowerChar c = [c]) (by decide) hascii h
  · obtain ⟨span, hspan, hfirst, hlast⟩ := exists_blankSpan h
    have himage : CaseRun.image lowerRuns c.toNat = c.toNat :=
      (image_eq_iff (List.mem_cons_of_mem _ hspan) hfirst hlast).2 rfl
    have hdotted : c ≠ 'İ' := by
      rintro rfl
      revert h
      decide
    exact (isSettled_of_image hascii hdotted himage).1

/-- Only blanks have blanks in their lower-case form. -/
theorem isBlank_of_mem_lowerChar {c d : Char} (h : d ∈ lowerChar c) (hd : isBlank d = true) :
    isBlank c = true := by
  by_cases hascii : c.toNat < 0x80
  · rw [(lowerChar_ascii hascii).1, List.mem_singleton] at h
    exact forall_ascii (p := fun c => isBlank c.toLower = true → isBlank c = true) (by decide)
      hascii (h ▸ hd)
  · rw [lowerChar, if_neg hascii] at h
    split_ifs at h with hdotted
    · have hforms : ∀ e ∈ ['i', '\u0307'], isBlank e = false :=
        List.forall_mem_cons.2 ⟨by decide, List.forall_mem_singleton.2 (by decide)⟩
      rw [hforms d h] at hd
      cases hd
    · rw [List.mem_singleton] at h
      subst h
      rcases toNat_ofNat (CaseRun.image lowerRuns c.toNat) with hcode | hzero
      · obtain ⟨span, hspan, hfirst, hlast⟩ := exists_blankSpan hd
        have hsource :=
          (image_eq_iff (List.mem_cons_of_mem _ hspan) hfirst hlast).1 hcode.symm
        rwa [← Char.toNat_inj.1 hsource] at hd
      · rw [hzero] at hd
        cases hd

/-- Lowering makes no blanks. -/
theorem isBlank_of_mem_lowerFrom {before text : List Char} (h : ∀ c ∈ text, isBlank c = false) :
    ∀ d ∈ lowerFrom before text, isBlank d = false := by
  induction text generalizing before with
  | nil => exact nofun
  | cons c rest ih =>
    obtain ⟨hc, hrest⟩ := List.forall_mem_cons.1 h
    rw [lowerFrom]
    intro d hd
    rcases List.mem_append.1 hd with hhere | hlater
    · split_ifs at hhere with hcapital hends
      · rw [List.mem_singleton.1 hhere]
        decide
      · rw [List.mem_singleton.1 hhere]
        decide
      · rw [Bool.eq_false_iff]
        intro hblank
        rw [isBlank_of_mem_lowerChar hhere hblank] at hc
        cases hc
    · exact ih hrest d hlater

end Text
end DownloadQuery

import DownloadQuery.Proofs.Text.Relowering
import Mathlib

/-!
# Looking up categories

The table of categories lists runs of code points that follow one another from zero on. The search
by halves finds the run of a code point (`Category.ofCode_of_mem`), so that the category of a code
point is told by any run that it lies in. Blanks lie in runs of control characters and separators:
they have no case, and casing does not look through them (`isCased_blank`, `isCaseIgnorable_blank`).
Nor does it look through ASCII letters, so that the letter case of these makes no difference to the
lower-case form of a text (`lowerChars_map_toLower`).
-/

namespace DownloadQuery
namespace Text

/-- The spans of code points of ASCII letters. -/
def letterSpans : List (Nat × Nat) := [(0x41, 0x5A), (0x61, 0x7A)]

namespace Category

/-- The runs of a table whose first run has been begun. -/
def runsFrom : Run → List Char → List Run
  | r, [] => [r]
  | r, c :: rest =>
    if c.isDigit then runsFrom { r with length := 10 * r.length + (c.toNat - '0'.toNat) } rest
    else r :: runsFrom ⟨ofLetter c, 0, r.stop⟩ rest

/-- What the table keeps of a run. -/
def Run.entry (r : Run) : Nat × Category := (r.start, r.category)

theorem collect_eq (r : Run) (found : Array (Nat × Category)) (text : List Char) :
    collect (some r) found text = found ++ ((runsFrom r text).map Run.entry).toArray := by
  induction text generalizing r found with
  | nil => simp [collect, runsFrom, Run.entry]
  | cons c rest ih =>
    rw [collect, runsFrom]
    split_ifs with hc
    · exact ih _ _
    · rw [ih, List.map_cons]
      simp [Run.entry]

theorem Run.start_lt_stop (r : Run) : r.start < r.stop := by
  rw [Run.stop]
  omega

theorem start_le_of_mem {r s : Run} {text : List Char} (h : s ∈ runsFrom r text) :
    r.start ≤ s.start := by
  induction text generalizing r with
  | nil =>
    rw [runsFrom, List.mem_singleton] at h
    rw [h]
  | cons c rest ih =>
    rw [runsFrom] at h
    split_ifs at h with hc
    · exact (ih h :)
    · rcases List.mem_cons.1 h with rfl | h
      · exact le_rfl
      · exact r.start_lt_stop.le.trans (ih h)

theorem start_of_head? {r s : Run} {text : List Char} (h : s ∈ (runsFrom r text).head?) :
    s.start = r.start := by
  induction text generalizing r with
  | nil => exact congrArg Run.start (Option.some_inj.1 h).symm
  | cons c rest ih =>
    rw [runsFrom] at h
    split_ifs at h with hc
    · exact (ih h :)
    · exact congrArg Run.start (Option.some_inj.1 h).symm

/-- A run ends before all later ones start. -/
theorem pairwise_runsFrom (r : Run) (text : List Char) :
    (runsFrom r text).Pairwise (·.stop ≤ ·.start) := by
  induction text generalizing r with
  | nil => exact List.pairwise_singleton _ _
  | cons c rest ih =>
    rw [runsFrom]
    split_ifs with hc
    · exact ih _
    · exact List.pairwise_cons.2 ⟨fun s hs => start_le_of_mem hs, ih _⟩

theorem length_runsFrom_le (r : Run) (text : List Char) :
    (runsFrom r text).length ≤ text.length + 1 := by
  induction text generalizing r with
  | nil => exact le_rfl
  | cons c rest ih =>
    rw [runsFrom]
    split_ifs with hc
    · exact (ih _).trans (Nat.le_succ _)
    · exact Nat.succ_le_succ (ih _)

/-- Control characters and separators. -/
def isSeparator : Category → Bool
  | .control | .spaceSeparator | .lineSeparator | .paragraphSeparator => true
  | _ => false

theorem isModifying_of_isSeparator {category : Category} (h : category.isSeparator = true) :
    category.isModifying = false := by
  cases category with
  | control | spaceSeparator | lineSeparator | paragraphSeparator => rfl
  | _ => cases h

theorem cons_eq_map {line : List Char} {lines : List (List Char)} {texts : List String}
    (h : texts = lines.map String.ofList) :
    String.ofList line :: texts = (line :: lines).map String.ofList := by
  rw [h, List.map_cons]

/-- Whether a part of a table starts at or before a code point, and what follows it after. -/
structure Encloses (table : Array (Nat × Category)) (code lo hi : Nat) : Prop where
  lo_lt : lo < hi
  hi_le : hi ≤ table.size
  start_le : ∀ entry, table[lo]? = some entry → entry.1 ≤ code
  lt_start : ∀ entry, table[hi]? = some entry → code < entry.1

/-- Halving comes down to one entry. -/
theorem Encloses.lastStart {table : Array (Nat × Category)} {code fuel lo hi : Nat}
    (h : Encloses table code lo hi) (hfuel : hi - lo ≤ 2 ^ fuel) :
    Encloses table code (lastStart table code fuel lo hi)
      (lastStart table code fuel lo hi + 1) := by
  have hlt := h.lo_lt
  have hle := h.hi_le
  induction fuel generalizing lo hi with
  | zero =>
    obtain rfl : hi = lo + 1 := by omega
    exact h
  | succ fuel ih =>
    rw [Category.lastStart]
    split_ifs with hdone
    · obtain rfl : hi = lo + 1 := by omega
      exact h
    · obtain ⟨hlo, hhi⟩ : lo < (lo + hi) / 2 ∧ (lo + hi) / 2 < hi := by omega
      have hentry : table[(lo + hi) / 2]? = some table[(lo + hi) / 2] :=
        Array.getElem?_eq_getElem (hhi.trans_le hle)
      dsimp only
      rw [hentry]
      dsimp only
      split_ifs with hmid
      · refine ih ⟨hhi, hle, fun entry he => ?_, h.lt_start⟩ (by omega) hhi hle
        rw [hentry, Option.some_inj] at he
        exact he ▸ hmid
      · refine ih ⟨hlo, hhi.le.trans hle, h.start_le, fun entry he => ?_⟩ (by omega) hlo
          (hhi.le.trans hle)
        rw [hentry, Option.some_inj] at he
        exact he ▸ Nat.lt_of_not_le hmid

/-- The search finds the run that a code point lies in. -/
theorem find_of_mem {list : List Run} (hruns : list.Pairwise (·.stop ≤ ·.start))
    (hfirst : ∀ r ∈ list.head?, r.start = 0) (hlength : list.length ≤ 2 ^ 16)
    {table : Array (Nat × Category)} (htable : table = (list.map Run.entry).toArray) {r : Run}
    (hr : r ∈ list) {code : Nat} (hstart : r.start ≤ code) (hstop : code < r.stop) :
    find table code = r.category := by
  have hget (i : Nat) : table[i]? = list[i]?.map Run.entry := by simp [htable]
  have hsize : table.size = list.length := by simp [htable]
  obtain ⟨k, hk, rfl⟩ := List.mem_iff_getElem.1 hr
  have hwhole : Encloses table code 0 table.size := by
    refine ⟨by omega, le_rfl, fun entry he => ?_, fun entry he => ?_⟩
    · rw [hget, Option.map_eq_some_iff] at he
      obtain ⟨s, hs, rfl⟩ := he
      exact (hfirst s (List.head?_eq_getElem? ▸ hs)).le.trans (Nat.zero_le _)
    · simp at he
  have hfuel : table.size - 0 ≤ 2 ^ 16 := by omega
  obtain ⟨-, hi, hbelow, habove⟩ := hwhole.lastStart hfuel
  rw [find]
  generalize lastStart table code 16 0 table.size = i at hi hbelow habove
  have hlater {a b : Nat} (ha : a < list.length) (hb : b < list.length) (hab : a < b) :
      list[a].stop ≤ list[b].start := List.pairwise_iff_getElem.1 hruns a b ha hb hab
  have hin : i < list.length := by omega
  have hfound : list[i].start ≤ code := hbelow list[i].entry (by simp [hget, hin])
  rcases Nat.lt_trichotomy k i with hki | rfl | hik
  · exact absurd (hlater hk hin hki) (by omega)
  · simp [hget, hk, Run.entry]
  · have hnext : i + 1 < list.length := by omega
    have hcode : code < list[i + 1].start :=
      habove list[i + 1].entry (by simp [hget, hnext])
    have hle : list[i + 1].start ≤ list[k].start := by
      rcases Nat.lt_or_eq_of_le (show i + 1 ≤ k from hik) with hlt | rfl
      · exact (list[i + 1].start_lt_stop.le).trans (hlater hnext hk hlt)
      · exact le_rfl
    exact absurd hstart (by omega)

/-- The category of a code point is that of the run that it lies in. -/
theorem ofCode_of_mem {c : Char} {text : List Char} (hruns : runs.flatMap String.toList = c :: text)
    (hlength : (c :: text).length ≤ 2 ^ 16) {r : Run} (hr : r ∈ runsFrom ⟨ofLetter c, 0, 0⟩ text)
    {code : Nat} (hstart : r.start ≤ code) (hstop : code < r.stop) : ofCode code = r.category := by
  have hstarts : starts = ((runsFrom ⟨ofLetter c, 0, 0⟩ text).map Run.entry).toArray := by
    rw [starts, hruns, collect, collect_eq]
    exact Array.empty_append
  have hfirst : ∀ s ∈ (runsFrom ⟨ofLetter c, 0, 0⟩ text).head?, s.start = 0 :=
    fun s hs => start_of_head? hs
  have hcount : (runsFrom ⟨ofLetter c, 0, 0⟩ text).length ≤ 2 ^ 16 :=
    (length_runsFrom_le _ _).trans hlength
  exact find_of_mem (pairwise_runsFrom _ _) hfirst hcount hstarts hr hstart hstop

/-- Letters with case that stand alone. -/
def isCaseLetter : Category → Bool
  | .uppercaseLetter | .lowercaseLetter => true
  | _ => false

theorem isModifying_of_isCaseLetter {category : Category} (h : category.isCaseLetter = true) :
    category.isModifying = false := by
  cases category <;> first | rfl | cases h

/-- Whether each span lies in a run of a kind of categories. -/
def Holds (list : List Run) (spans : List (Nat × Nat)) (kind : Category → Bool) : Prop :=
  ∀ span ∈ spans, ∃ r ∈ list, r.start ≤ span.1 ∧ span.2 < r.stop ∧ kind r.category = true

instance (list : List Run) (spans : List (Nat × Nat)) (kind : Category → Bool) :
    Decidable (Holds list spans kind) := inferInstanceAs (Decidable (∀ span ∈ spans, _))

/-- The lines of the table, and spans of it that have control characters and separators only, or
letters only. -/
theorem exists_lines : ∃ lines : List (List Char), runs = lines.map String.ofList ∧
    lines.flatten.head? = some 'Z' ∧ lines.flatten.length ≤ 2 ^ 16 ∧
      Holds (runsFrom ⟨ofLetter 'Z', 0, 0⟩ lines.flatten.tail) blankSpans isSeparator ∧
      Holds (runsFrom ⟨ofLetter 'Z', 0, 0⟩ lines.flatten.tail) letterSpans isCaseLetter := by
  apply Exists.intro
  apply And.intro
  · unfold runs
    repeat apply cons_eq_map
    apply List.map_nil.symm
  · decide +kernel

/-- The runs of the table, which tell the category of every code point in them. -/
theorem exists_runs : ∃ list : List Run,
    (∀ r ∈ list, ∀ code, r.start ≤ code → code < r.stop → ofCode code = r.category) ∧
      Holds list blankSpans isSeparator ∧ Holds list letterSpans isCaseLetter := by
  obtain ⟨lines, hlines, hhead, hlength, hblanks, hletters⟩ := exists_lines
  obtain ⟨text, htext⟩ := List.head?_eq_some_iff.1 hhead
  rw [htext] at hlength hblanks hletters
  have hchars : runs.flatMap String.toList = 'Z' :: text := by
    rw [hlines, ← htext, List.flatMap_def, List.map_map]
    simp [Function.comp_def]
  refine ⟨_, ?_, hblanks, hletters⟩
  intro r hr code hstart hstop
  exact ofCode_of_mem hchars hlength hr hstart hstop

theorem of_span {list : List Run}
    (hlist : ∀ r ∈ list, ∀ code, r.start ≤ code → code < r.stop → ofCode code = r.category)
    {spans : List (Nat × Nat)} {kind : Category → Bool} (hspans : Holds list spans kind) {c : Char}
    (hc : ∃ span ∈ spans, span.1 ≤ c.toNat ∧ c.toNat ≤ span.2) : kind (of c) = true := by
  obtain ⟨span, hspan, hfirst, hlast⟩ := hc
  obtain ⟨r, hr, hstart, hstop, hkind⟩ := hspans span hspan
  rw [of, hlist r hr _ (hstart.trans hfirst) (hlast.trans_lt hstop)]
  exact hkind

/-- Blanks are control characters and separators. -/
theorem isSeparator_blank {c : Char} (h : isBlank c = true) : isSeparator (of c) = true := by
  obtain ⟨list, hlist, hblanks, -⟩ := exists_runs
  exact of_span hlist hblanks (exists_blankSpan h)

theorem isCaseLetter_ascii {c : Char}
    (h : ∃ span ∈ letterSpans, span.1 ≤ c.toNat ∧ c.toNat ≤ span.2) :
    isCaseLetter (of c) = true := by
  obtain ⟨list, hlist, -, hletters⟩ := exists_runs
  exact of_span hlist hletters h

end Category

theorem inRanges_eq_false {ranges : List (Nat × Nat)} {code : Nat}
    (h : ∀ range ∈ ranges, code < range.1 ∨ range.2 < code) : inRanges ranges code = false := by
  rw [inRanges, List.any_eq_false]
  intro range hrange
  have hapart := h range hrange
  simp only [Bool.and_eq_true, decide_eq_true_eq, not_and]
  omega

/-- A blank is in no ranges that keep off the spans of blanks. -/
theorem inRanges_blank {ranges : List (Nat × Nat)}
    (h : ∀ range ∈ ranges, ∀ span ∈ blankSpans, span.2 < range.1 ∨ range.2 < span.1)
    {c : Char} (hc : isBlank c = true) : inRanges ranges c.toNat = false := by
  obtain ⟨span, hspan, hfirst, hlast⟩ := exists_blankSpan hc
  refine inRanges_eq_false fun range hrange => ?_
  have hapart := h range hrange span hspan
  omega

/-- Casing does not look through blanks. -/
theorem isCaseIgnorable_blank {c : Char} (h : isBlank c = true) : isCaseIgnorable c = false := by
  have hcategory := Category.isSeparator_blank h
  have hmid : inRanges midWord c.toNat = false := inRanges_blank (by decide) h
  rw [isCaseIgnorable, Category.isModifying_of_isSeparator hcategory, hmid, Bool.or_false]

/-- Blanks have no case. -/
theorem isCased_blank {c : Char} (h : isBlank c = true) : isCased c = false := by
  by_cases hascii : c.toNat < 0x80
  · exact forall_ascii (p := fun c => isBlank c = true → isCased c = false) (by decide) hascii h
  · have hcategory := Category.isSeparator_blank h
    have hother {other : Category} (hletter : other.isSeparator = false) :
        (Category.of c == other) = false := by
      rw [beq_eq_false_iff_ne]
      intro heq
      rw [heq, hletter] at hcategory
      cases hcategory
    have hlower : inRanges otherLowercase c.toNat = false := inRanges_blank (by decide) h
    have hupper : inRanges otherUppercase c.toNat = false := inRanges_blank (by decide) h
    rw [isCased, isLowercase, isUppercase, if_neg hascii, if_neg hascii, hlower, hupper,
      hother rfl, hother rfl, hother rfl, Bool.and_false]
    rfl

/-! ## ASCII letters in either case -/

/-- An ASCII capital becomes a small letter; other characters stay. -/
theorem toLower_cases (c : Char) : c.toLower = c ∨
    0x41 ≤ c.toNat ∧ c.toNat ≤ 0x5A ∧ 0x61 ≤ c.toLower.toNat ∧ c.toLower.toNat ≤ 0x7A := by
  by_cases hcapital : 'A'.val ≤ c.val ∧ c.val ≤ 'Z'.val
  · right
    have hfirst : 0x41 ≤ c.toNat := UInt32.le_iff_toNat_le.1 hcapital.1
    have hlast : c.toNat ≤ 0x5A := UInt32.le_iff_toNat_le.1 hcapital.2
    exact ⟨hfirst, hlast, forall_ascii (p := fun c => 0x41 ≤ c.toNat → c.toNat ≤ 0x5A →
      0x61 ≤ c.toLower.toNat ∧ c.toLower.toNat ≤ 0x7A) (by decide) (by omega) hfirst hlast⟩
  · left
    exact dif_neg hcapital

/-- Only a letter is the small form of another character. -/
theorem toLower_eq_iff {c d : Char}
    (hd : ∀ span ∈ letterSpans, d.toNat < span.1 ∨ span.2 < d.toNat) : c.toLower = d ↔ c = d := by
  obtain ⟨hcapitals, hsmall⟩ := List.forall_mem_cons.1 hd
  have hsmall := hsmall _ List.mem_cons_self
  rcases toLower_cases c with hsame | ⟨hfirst, hlast, hfirst', hlast'⟩
  · rw [hsame]
  · apply iff_of_false
    · rintro rfl
      omega
    · rintro rfl
      omega

theorem isCaseIgnorable_letter {c : Char}
    (h : ∃ span ∈ letterSpans, span.1 ≤ c.toNat ∧ c.toNat ≤ span.2) :
    isCaseIgnorable c = false := by
  have hmid : inRanges midWord c.toNat = false := by
    obtain ⟨span, hspan, hfirst, hlast⟩ := h
    have hapart : ∀ range ∈ midWord, ∀ span ∈ letterSpans,
        span.2 < range.1 ∨ range.2 < span.1 := by decide
    refine inRanges_eq_false fun range hrange => ?_
    have hspans := hapart range hrange span hspan
    omega
  rw [isCaseIgnorable, Category.isModifying_of_isCaseLetter (Category.isCaseLetter_ascii h), hmid,
    Bool.or_false]

theorem isCaseIgnorable_toLower (c : Char) : isCaseIgnorable c.toLower = isCaseIgnorable c := by
  rcases toLower_cases c with hsame | ⟨hfirst, hlast, hfirst', hlast'⟩
  · rw [hsame]
  · rw [isCaseIgnorable_letter ⟨_, List.mem_cons_self, hfirst, hlast⟩,
      isCaseIgnorable_letter ⟨_, List.mem_cons_of_mem _ List.mem_cons_self, hfirst', hlast'⟩]

theorem isCased_toLower (c : Char) : isCased c.toLower = isCased c := by
  rcases toLower_cases c with hsame | ⟨-, hlast, -⟩
  · rw [hsame]
  · exact forall_ascii (p := fun c => isCased c.toLower = isCased c) (by decide) (by omega)

theorem lowerChar_toLower (c : Char) : lowerChar c.toLower = lowerChar c := by
  rcases toLower_cases c with hsame | ⟨-, hlast, hfirst', hlast'⟩
  · rw [hsame]
  · have hagain : c.toLower.toLower = c.toLower := by
      rcases toLower_cases c.toLower with hsame | ⟨-, hcapital, -⟩
      · exact hsame
      · omega
    rw [(lowerChar_ascii (c := c) (by omega)).1, (lowerChar_ascii (c := c.toLower) (by omega)).1,
      hagain]

theorem meetsCased_map_toLower (text : List Char) :
    meetsCased (text.map Char.toLower) = meetsCased text := by
  have hignorable : isCaseIgnorable ∘ Char.toLower = isCaseIgnorable := by
    funext c
    rw [Function.comp_apply, isCaseIgnorable_toLower]
  rw [meetsCased_eq, meetsCased_eq, List.dropWhile_map, hignorable, List.head?_map]
  cases (text.dropWhile isCaseIgnorable).head? with
  | none => rfl
  | some c => exact isCased_toLower c

theorem lowerFrom_map_toLower (before text : List Char) :
    lowerFrom (before.map Char.toLower) (text.map Char.toLower) = lowerFrom before text := by
  induction text generalizing before with
  | nil => rfl
  | cons c rest ih =>
    have hsigma : c.toLower = 'Σ' ↔ c = 'Σ' := toLower_eq_iff (by decide)
    rw [List.map_cons, lowerFrom, lowerFrom, ← List.map_cons, ih, endsWord, endsWord,
      meetsCased_map_toLower, meetsCased_map_toLower, lowerChar_toLower]
    simp only [hsigma]

/-- The letter case of ASCII letters makes no difference to the lower-case form of a text. -/
theorem lowerChars_map_toLower (text : List Char) :
    lowerChars (text.map Char.toLower) = lowerChars text := lowerFrom_map_toLower [] text

end Text
end DownloadQuery

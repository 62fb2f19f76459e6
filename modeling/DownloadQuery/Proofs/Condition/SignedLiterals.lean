import DownloadQuery.Filter.Leaf
import DownloadQuery.Proofs.Text.Lowering

/-!
# Literals with and without a sign

A literal that is accepted with a sign in front is accepted without it (`Leaf.read_of_signed`),
whatever the field is compared as, if it is not empty and has no slash. What the literal asks for
may become something else: `yes` is a truth value, but `+yes` is a text.
-/

namespace DownloadQuery

/-- Whether a value stands for itself after any operator: it is not empty, starts with no mark that
conditions know, and has no comma, no slash and no line feed. -/
structure Values.IsPlain (value : List Char) : Prop where
  ne_nil : value ≠ []
  unmarked : ∀ mark ∈ ['+', '-', '!'], value.head? ≠ some mark
  commaFree : ',' ∉ value
  slashFree : '/' ∉ value
  lineFree : '\n' ∉ value

namespace Glob

theorem escapeFrom_cons {c : Char} (h : c ≠ '\x7b' ∧ c ≠ '\x7d' ∧ c ≠ '[') (rest : List Char) :
    escapeFrom 0 (c :: rest) = c :: escapeFrom 0 rest := by
  simp [escapeFrom, h]

/-- Escaping makes no characters but the brackets of classes. -/
theorem mem_of_mem_escapeFrom {d : Char} (hd : d ≠ '[' ∧ d ≠ ']') {pending : Nat}
    {text : List Char} (h : d ∈ escapeFrom pending text) : d ∈ text := by
  fun_induction escapeFrom pending text with
  | case1 => exact h
  | case2 pending c rest ih =>
    rcases List.mem_cons.1 h with rfl | h
    · exact List.mem_cons_self
    · exact List.mem_cons_of_mem c (ih h)
  | case3 c rest hc ih =>
    simp only [List.mem_cons, hd, false_or] at h ⊢
    exact h.imp_right ih
  | case4 rest hbrace inside after hclose ih =>
    simp only [List.mem_cons, hd, false_or] at h
    exact List.mem_cons_of_mem _ (ih h)
  | case5 rest hbrace hclose ih =>
    simp only [List.mem_cons, hd, false_or] at h
    exact List.mem_cons_of_mem _ (ih h)
  | case6 c rest hbrace hbracket ih =>
    rcases List.mem_cons.1 h with rfl | h
    · exact List.mem_cons_self
    · exact List.mem_cons_of_mem c (ih h)

/-- Without slashes it does not matter whether a glob starts here. -/
theorem readFrom_start {text : List Char} (h : '/' ∉ text) :
    readFrom .start text = readFrom .middle text ∨ text = ['*', '*'] := by
  cases text with
  | nil => left; simp [readFrom]
  | cons c rest =>
    have hc : c ≠ '/' := by rintro rfl; simp at h
    by_cases hstar : c = '*'
    · subst hstar
      cases rest with
      | nil => left; simp [readFrom]
      | cons d rest =>
        by_cases hd : d = '*'
        · subst hd
          cases rest with
          | nil => right; rfl
          | cons e rest =>
            have he : e ≠ '/' := by rintro rfl; simp at h
            left
            simp [readFrom, he]
        · left
          simp [readFrom, hd]
    · left
      rw [readFrom.eq_def, readFrom.eq_def .middle]
      split <;> simp_all

/-- A glob after a mark is a glob by itself. -/
theorem read_of_cons {c : Char} (hc : c = '+' ∨ c = '-') {text : List Char} (h : '/' ∉ text)
    {g : Glob} (hg : read (escape (c :: text)) = .ok g) : ∃ g', read (escape text) = .ok g' := by
  have hescape : escape (c :: text) = c :: escape text :=
    escapeFrom_cons (by rcases hc with rfl | rfl <;> decide) text
  have hread : read (c :: escape text) =
      (readFrom .middle (escape text)).map (.literal c :: ·) := by
    rcases hc with rfl | rfl <;> simp [read, readFrom]
  rw [hescape, hread] at hg
  rcases readFrom_start (fun hslash => h (mem_of_mem_escapeFrom (by decide) hslash)) with hstart | hstars
  · cases hm : readFrom .middle (escape text) with
    | error fault =>
      rw [hm] at hg
      cases hg
    | ok g' => exact ⟨g', by rw [read, ← hm]; exact hstart⟩
  · refine ⟨[.leadingDirs], ?_⟩
    rw [escape, hstars]
    rfl

end Glob

theorem Text.lowerChars_sign {sign : Char} (hsign : sign = '+' ∨ sign = '-') (text : List Char) :
    Text.lowerChars (sign :: text) = sign :: Text.lowerChars text :=
  Text.lowerChars_mark (by rcases hsign with rfl | rfl <;> decide) text

namespace Values.IsPlain

variable {value : List Char}

theorem slash_lowerChars (h : IsPlain value) : '/' ∉ Text.lowerChars value := fun hslash =>
  h.slashFree (Text.mem_of_mem_lowerFrom (by decide) hslash)

theorem regexBody?_eq_none (h : IsPlain value) : TextPattern.regexBody? value = none := by
  unfold TextPattern.regexBody?
  split
  · have hslash := h.slashFree
    simp at hslash
  · rfl

end Values.IsPlain

namespace TextPattern

/-- A plain literal is read as a glob. -/
theorem read_plain {literal : List Char} (hne : literal ≠ []) (hbody : regexBody? literal = none) :
    read (String.ofList literal) =
      match Glob.read (Glob.escape (Text.lowerChars literal)) with
      | .ok g => .ok (.glob g)
      | .error fault =>
        .error (.glob (String.ofList (Glob.escape (Text.lowerChars literal))) fault) := by
  have hempty : ¬ (String.ofList literal).isEmpty = true := by simpa using hne
  rw [read, String.toList_ofList, hbody]
  exact if_neg hempty

theorem read_of_signed {sign : Char} (hsign : sign = '+' ∨ sign = '-') {value : List Char}
    (hvalue : Values.IsPlain value) {p : TextPattern}
    (h : read (String.ofList (sign :: value)) = .ok p) :
    ∃ q, read (String.ofList value) = .ok q := by
  have hbody : regexBody? (sign :: value) = none := by rcases hsign with rfl | rfl <;> rfl
  rw [read_plain (List.cons_ne_nil sign value) hbody, Text.lowerChars_sign hsign] at h
  cases hg : Glob.read (Glob.escape (sign :: Text.lowerChars value)) with
  | error fault =>
    rw [hg] at h
    cases h
  | ok g =>
    obtain ⟨g', hg'⟩ := Glob.read_of_cons hsign hvalue.slash_lowerChars hg
    rw [read_plain hvalue.ne_nil hvalue.regexBody?_eq_none, hg']
    exact ⟨.glob g', rfl⟩

end TextPattern

namespace Truth

/-- No word for truth starts with a sign and goes on. -/
theorem not_mem_words {sign : Char} (hsign : sign = '+' ∨ sign = '-') {rest : List Char}
    (hne : rest ≠ []) : String.ofList (sign :: rest) ∉ trueWords ++ falseWords := by
  have hwords : ∀ w ∈ trueWords ++ falseWords,
      w.toList.head? ≠ some '+' ∧ w.toList.head? ≠ some '-' ∨ w.toList.tail = [] := by decide
  intro hmem
  have hword := hwords _ hmem
  rw [String.toList_ofList, List.head?_cons, List.tail_cons] at hword
  rcases hword with ⟨hplus, hminus⟩ | htail
  · rcases hsign with rfl | rfl
    · exact hplus rfl
    · exact hminus rfl
  · exact hne htail

theorem ofWord?_signed {sign : Char} (hsign : sign = '+' ∨ sign = '-') {value : List Char}
    (hne : value ≠ []) : ofWord? (String.ofList (sign :: value)) = none := by
  have hlower : Text.lower (String.ofList (sign :: value)) =
      String.ofList (sign :: Text.lowerChars value) := by
    rw [Text.lower, String.toList_ofList, Text.lowerChars_sign hsign]
  have hne : Text.lowerChars value ≠ [] := Text.lowerFrom_ne_nil hne
  have hnot := not_mem_words hsign hne
  rw [List.mem_append, not_or] at hnot
  simp only [ofWord?, hlower, hnot.1, hnot.2, if_false]

/-- The words for truth stand for something. -/
theorem exists_ofWord? {word : String} (h : word ∈ trueWords ++ falseWords) :
    ∃ b, ofWord? word = some b := by
  have hwords : ∀ w ∈ trueWords ++ falseWords, (ofWord? w).isSome := by decide
  exact Option.isSome_iff_exists.1 (hwords word h)

end Truth

namespace Family

theorem plainLiteral_sign {sign : Char} (hsign : sign = '+' ∨ sign = '-') (value : List Char) :
    plainLiteral (String.ofList (sign :: value)) = Text.lowerChars value := by
  rw [plainLiteral, String.toList_ofList, Text.lowerChars_sign hsign]
  rcases hsign with rfl | rfl <;> rfl

theorem plainLiteral_plain {value : List Char} (h : Values.IsPlain value) :
    plainLiteral (String.ofList value) = Text.lowerChars value := by
  have hhead {mark : Char} (hmark : Text.IsMark mark) (hmem : mark ∈ ['+', '-', '!'])
      {rest : List Char} : Text.lowerChars value ≠ mark :: rest := by
    intro heq
    exact h.unmarked mark hmem (Text.head?_of_lowerFrom hmark (congrArg List.head? heq))
  rw [plainLiteral, String.toList_ofList]
  split
  · next heq => exact absurd heq (hhead (by decide) (by decide))
  · next heq => exact absurd heq (hhead (by decide) (by decide))
  · rfl

/-- Without its sign a literal suggests the same family, or is a word for truth. -/
theorem ofLiteral_of_signed {sign : Char} (hsign : sign = '+' ∨ sign = '-') {value : List Char}
    (hvalue : Values.IsPlain value) :
    ofLiteral (String.ofList value) = ofLiteral (String.ofList (sign :: value)) ∨
      ofLiteral (String.ofList value) = .bool ∧
        String.ofList value ∈ Truth.trueWords ++ Truth.falseWords := by
  have hsigned := Truth.not_mem_words hsign hvalue.ne_nil
  simp only [ofLiteral, plainLiteral_sign hsign, plainLiteral_plain hvalue, hsigned, if_false]
  by_cases hword : String.ofList value ∈ Truth.trueWords ++ Truth.falseWords
  · simp only [hword, if_true, and_true]
    split_ifs <;> simp
  · simp only [hword, if_false]
    exact .inl trivial

end Family

namespace Test

theorem readPattern_of_signed {sign : Char} (hsign : sign = '+' ∨ sign = '-') {value : List Char}
    (hvalue : Values.IsPlain value) {p : TextPattern}
    (h : readPattern (String.ofList (sign :: value)) = .ok p) :
    ∃ q, readPattern (String.ofList value) = .ok q := by
  rw [readPattern] at h
  cases hp : TextPattern.read (String.ofList (sign :: value)) with
  | error e =>
    rw [hp] at h
    cases h
  | ok p =>
    obtain ⟨q, hq⟩ := TextPattern.read_of_signed hsign hvalue hp
    exact ⟨q, by rw [readPattern, hq]⟩

/-- What is made of a result does not decide whether there is one. -/
theorem exists_map_ok {α β γ : Type} {x y : Except LiteralFault α} {f : α → β} {b : β}
    (h : x.map f = .ok b) (hxy : ∀ a, x = .ok a → ∃ c, y = .ok c) (g : α → γ) :
    ∃ c, y.map g = .ok c := by
  cases x with
  | error e => cases h
  | ok a =>
    obtain ⟨c, rfl⟩ := hxy a rfl
    exact ⟨g c, rfl⟩

/-- A literal that a family accepts with a sign is accepted without it. -/
theorem ofLiteral_of_signed {sign : Char} (hsign : sign = '+' ∨ sign = '-') {value : List Char}
    (hvalue : Values.IsPlain value) {clock : Clock} {family : Family} {t : Test}
    (h : ofLiteral clock family (String.ofList (sign :: value)) = .ok t) :
    ∃ u, ofLiteral clock family (String.ofList value) = .ok u := by
  have hsplit : Comparison.splitSign value = (.equal, value) := by
    unfold Comparison.splitSign
    split
    · exact absurd rfl (hvalue.unmarked '+' (by decide))
    · exact absurd rfl (hvalue.unmarked '-' (by decide))
    · rfl
  obtain ⟨c, hsigned⟩ : ∃ c, Comparison.splitSign (sign :: value) = (c, value) := by
    rcases hsign with rfl | rfl <;> exact ⟨_, rfl⟩
  rw [ofLiteral, String.toList_ofList, hsigned] at h
  rw [ofLiteral, String.toList_ofList, hsplit]
  -- what follows the sign is read in the same way, but for patterns and truth values
  cases family with
  | tagged => exact ⟨_, rfl⟩
  | bool =>
    dsimp only at h
    rw [Truth.ofWord?_signed hsign hvalue.ne_nil] at h
    cases h
  | pattern | magic | files =>
    exact exists_map_ok h (fun _ hp => readPattern_of_signed hsign hvalue hp) _
  | float | byteSize | time | timeNotNull | duration =>
    exact exists_map_ok h (fun a ha => ⟨a, ha⟩) _

end Test

namespace Leaf

variable {clock : Clock} {family : Family} {field : Field}

theorem exists_read_iff {literal : String} :
    (∃ l, read clock family field literal = .ok l) ↔
      ∃ t, Test.ofLiteral clock
        (if family == .magic then Family.ofLiteral literal else family) literal = .ok t := by
  rw [read]
  cases Test.ofLiteral clock
      (if family == .magic then Family.ofLiteral literal else family) literal with
  | ok t => exact ⟨fun _ => ⟨t, rfl⟩, fun _ => ⟨_, rfl⟩⟩
  | error fault =>
    constructor
    · rintro ⟨_, h⟩
      cases h
    · rintro ⟨_, h⟩
      cases h

/-- A literal that makes a leaf with a sign makes one without it. -/
theorem read_of_signed {sign : Char} (hsign : sign = '+' ∨ sign = '-') {value : List Char}
    (hvalue : Values.IsPlain value)
    (h : ∃ l, read clock family field (String.ofList (sign :: value)) = .ok l) :
    ∃ l, read clock family field (String.ofList value) = .ok l := by
  obtain ⟨t, ht⟩ := exists_read_iff.1 h
  rw [exists_read_iff]
  by_cases hmagic : family = .magic
  · subst hmagic
    rcases Family.ofLiteral_of_signed hsign hvalue with hsame | ⟨hbool, hword⟩
    · simp only [beq_self_eq_true, if_true] at ht ⊢
      rw [hsame]
      exact Test.ofLiteral_of_signed hsign hvalue ht
    · obtain ⟨b, hb⟩ := Truth.exists_ofWord? hword
      simp only [beq_self_eq_true, if_true, hbool]
      exact ⟨.truth b, by rw [Test.ofLiteral]; simp only [hb]⟩
  · have hplain : (family == .magic) = false := by simpa using hmagic
    simp only [hplain, Bool.false_eq_true, if_false] at ht ⊢
    exact Test.ofLiteral_of_signed hsign hvalue ht

end Leaf
end DownloadQuery

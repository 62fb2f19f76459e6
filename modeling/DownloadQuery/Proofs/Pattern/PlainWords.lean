import DownloadQuery.Proofs.Condition.PatternLiterals
import DownloadQuery.Proofs.Condition.SignedLiterals
import DownloadQuery.Proofs.Pattern.Bytes
import DownloadQuery.Proofs.Pattern.Spelling
import DownloadQuery.Proofs.Text.Lowering

/-!
# Plain words

A literal without wildcards, and without an opening bracket that is closed later, is a plain word.
Its braces and opening brackets are written as classes of their own (`Glob.escape_of_isWord`), each
of its characters is read as one part of a glob (`Glob.read_escape`), and the glob matches the word
alone (`Glob.isMatch_charPart_iff`). So a value passes if and only if it is the word up to letter
case.
-/

namespace DownloadQuery
namespace Glob

/-- Whether a character is a brace or an opening bracket, which a class keeps from its meaning. -/
def IsBracket (c : Char) : Prop := c = '\x7b' ∨ c = '\x7d' ∨ c = '['

instance (c : Char) : Decidable (IsBracket c) := inferInstanceAs (Decidable (_ ∨ _ ∨ _))

/-- A character of a plain word as it is written in a glob. -/
def escapeChar (c : Char) : List Char := if IsBracket c then ['[', c, ']'] else [c]

/-- The part of a glob that stands for a character. -/
def charPart (c : Char) : GlobPart :=
  if IsBracket c then .byteClass false [(c, c)] else .literal c

/-- A text without wildcards and without an opening bracket that is closed later. -/
structure IsWord (text : List Char) : Prop where
  star : '*' ∉ text
  question : '?' ∉ text
  brackets : ¬ ['[', ']'].Sublist text

theorem IsWord.of_cons {c : Char} {text : List Char} (h : IsWord (c :: text)) : IsWord text where
  star := List.not_mem_of_not_mem_cons h.star
  question := List.not_mem_of_not_mem_cons h.question
  brackets hsub := h.brackets (hsub.cons c)

/-- Lowering a plain word leaves it plain. -/
theorem IsWord.lowerChars {text : List Char} (h : IsWord text) :
    IsWord (Text.lowerChars text) where
  star hmem := h.star (Text.mem_of_mem_lowerFrom (by decide) hmem)
  question hmem := h.question (Text.mem_of_mem_lowerFrom (by decide) hmem)
  brackets hsub := by
    have hmarks : ['[', ']'].Sublist ((Text.lowerChars text).filter Text.IsMark) :=
      hsub.filter fun c => decide (Text.IsMark c)
    rw [Text.lowerChars, Text.filter_lowerFrom] at hmarks
    exact h.brackets (hmarks.trans List.filter_sublist)

theorem closeClass?_eq_none {text : List Char} (h : ']' ∉ text) : closeClass? text = none := by
  unfold closeClass?
  split
  next mark afterMark hmark =>
  have hafterMark : ']' ∉ afterMark := by
    split at hmark <;> cases hmark
    · exact List.not_mem_of_not_mem_cons h
    · exact h
  split
  next first members hfirst =>
  have hmembers : ']' ∉ members := by
    split at hfirst <;> cases hfirst
    · exact absurd List.mem_cons_self hafterMark
    · exact hafterMark
  have hall : members.takeWhile (· != ']') = members :=
    List.takeWhile_eq_self_iff.2 fun c hc => bne_iff_ne.2 (ne_of_mem_of_not_mem hc hmembers)
  simp only [hall, List.drop_length]

/-- In a plain word each brace and each opening bracket is written as a class. -/
theorem escape_of_isWord {text : List Char} (h : IsWord text) :
    escape text = text.flatMap escapeChar := by
  rw [escape]
  induction text with
  | nil => rfl
  | cons c rest ih =>
    rw [List.flatMap_cons, escapeChar, ← ih h.of_cons]
    split_ifs with hbracket
    · rcases hbracket with rfl | rfl | rfl
      · simp [escapeFrom]
      · simp [escapeFrom]
      · have hclose : ']' ∉ rest := fun hmem =>
          h.brackets ((List.singleton_sublist.2 hmem).cons_cons '[')
        simp [escapeFrom, closeClass?_eq_none hclose]
    · have hplain : c ≠ '\x7b' ∧ c ≠ '\x7d' ∧ c ≠ '[' := by
        simpa [IsBracket] using hbracket
      exact escapeFrom_cons hplain rest

/-- Whether no class has been opened before the text that is left to read. -/
def Context.IsOutside : Context → Prop
  | .inClass .. => False
  | _ => True

/-- A class of one character, which is no sign of negation. -/
theorem readFrom_class {context : Context} (hcontext : context.IsOutside) {c : Char}
    (hc : c ≠ '!' ∧ c ≠ '^') (rest : List Char) :
    readFrom context ('[' :: c :: ']' :: rest) =
      (readFrom .middle rest).map (.byteClass false [(c, c)] :: ·) := by
  cases context with
  | inClass => exact hcontext.elim
  | start => simp [readFrom, hc]
  | middle => simp [readFrom, hc]

/-- A character that is no wildcard and opens no class, before a text without stars. -/
theorem readFrom_literal {context : Context} (hcontext : context.IsOutside) {c : Char}
    (hc : c ≠ '[' ∧ c ≠ '*' ∧ c ≠ '?') {rest : List Char} (hrest : '*' ∉ rest) :
    readFrom context (c :: rest) = (readFrom .middle rest).map (.literal c :: ·) := by
  -- all other steps need a class, a wildcard here, or a star after a slash
  conv_lhs => unfold readFrom
  split <;> simp_all [Context.IsOutside]

theorem not_mem_flatMap_escapeChar {text : List Char} (h : '*' ∉ text) :
    '*' ∉ text.flatMap escapeChar := by
  intro hmem
  obtain ⟨c, hc, hstar⟩ := List.mem_flatMap.1 hmem
  have hne : '*' ≠ c := fun heq => h (heq ▸ hc)
  unfold escapeChar at hstar
  split_ifs at hstar <;> simp [hne] at hstar

/-- A plain word is read character by character. -/
theorem readFrom_escapeChar {context : Context} (hcontext : context.IsOutside) {text : List Char}
    (hstar : '*' ∉ text) (hquestion : '?' ∉ text) :
    readFrom context (text.flatMap escapeChar) = .ok (text.map charPart) := by
  induction text generalizing context with
  | nil =>
    cases context with
    | inClass => exact hcontext.elim
    | start => rfl
    | middle => rfl
  | cons c rest ih =>
    obtain ⟨hcstar, hrest⟩ := List.ne_and_not_mem_of_not_mem_cons hstar
    obtain ⟨hcquestion, hrest'⟩ := List.ne_and_not_mem_of_not_mem_cons hquestion
    have houtside : Context.middle.IsOutside := trivial
    have hnext := ih houtside hrest hrest'
    rw [List.flatMap_cons, List.map_cons, escapeChar, charPart]
    split_ifs with hbracket
    · have hsign : c ≠ '!' ∧ c ≠ '^' := by
        rcases hbracket with rfl | rfl | rfl <;> decide
      show readFrom context ('[' :: c :: ']' :: rest.flatMap escapeChar) = _
      rw [readFrom_class hcontext hsign, hnext]
      rfl
    · have hopen : c ≠ '[' := fun heq => hbracket (.inr (.inr heq))
      rw [List.singleton_append, readFrom_literal hcontext
        ⟨hopen, hcstar.symm, hcquestion.symm⟩ (not_mem_flatMap_escapeChar hrest), hnext]
      rfl

theorem read_escape {text : List Char} (h : IsWord text) :
    read (escape text) = .ok (text.map charPart) := by
  rw [read, escape_of_isWord h]
  have houtside : Context.start.IsOutside := trivial
  exact readFrom_escapeChar houtside h.star h.question

/-- The sets of bytes that the part of a character asks for. -/
def charSets (c : Char) : List CodeSet :=
  if IsBracket c then [classSet false [(c, c)]]
  else (bytesOfChar c).map fun b => .asciiFolded (.codes [b])

theorem spells_charPart (c : Char) : (partRegex (charPart c)).Spells (charSets c) := by
  unfold charPart charSets
  split_ifs
  · exact .set _
  · have hbytes : (Regex.ofList ((bytesOfChar c).map byte)).Spells
        ((bytesOfChar c).flatMap fun b => [.asciiFolded (.codes [b])]) :=
      Regex.spells_ofList fun b _ => .set _
    rwa [← List.map_eq_flatMap] at hbytes

/-- The part of a character that is no capital asks for its bytes. -/
theorem names_charSets {c : Char} (hc : c.isUpper = false) :
    List.Forall₂ CodeSet.Names (charSets c) (bytesOfChar c) := by
  have hbytes := not_isCapital_of_mem_bytesOfChar hc
  unfold charSets
  split_ifs with hbracket
  · have hascii : bytesOfChar c = [c.toNat] :=
      bytesOfChar_ascii (by rcases hbracket with rfl | rfl | rfl <;> decide)
    have hset : classSet false [(c, c)] = .asciiFolded (.ranges [(c.toNat, c.toNat)]) := by
      simp [classSet, byteRanges, hascii]
    rw [hascii] at hbytes ⊢
    rw [hset]
    refine .cons (CodeSet.names_asciiFolded (hbytes _ List.mem_cons_self) fun d => ?_) .nil
    have hrange : c.toNat ≤ d ∧ d ≤ c.toNat ↔ c.toNat = d := by omega
    simpa [CodeSet.contains, Text.inRanges] using hrange
  · rw [List.forall₂_map_left_iff, List.forall₂_same]
    intro b hb
    refine CodeSet.names_asciiFolded (hbytes b hb) fun d => ?_
    simp [CodeSet.contains, eq_comm]

theorem names_flatMap_charSets {text : List Char} (h : ∀ c ∈ text, c.isUpper = false) :
    List.Forall₂ CodeSet.Names (text.flatMap charSets) (bytes text) := by
  induction text with
  | nil => exact .nil
  | cons c rest ih =>
    obtain ⟨hc, hrest⟩ := List.forall_mem_cons.1 h
    exact List.rel_append (names_charSets hc) (ih hrest)

/-- Of the texts without ASCII capitals, the parts of the characters of one match this one alone. -/
theorem isMatch_charPart_iff {text value : List Char} (htext : ∀ c ∈ text, c.isUpper = false)
    (hvalue : ∀ c ∈ value, c.isUpper = false) :
    isMatch (text.map charPart) value = true ↔ value = text := by
  have hdirs : text.map charPart ≠ [.leadingDirs] := by
    intro heq
    have hmem : GlobPart.leadingDirs ∈ text.map charPart := heq ▸ List.mem_cons_self
    obtain ⟨c, -, hc⟩ := List.mem_map.1 hmem
    unfold charPart at hc
    split_ifs at hc
  have hregex : regex (text.map charPart) =
      Regex.ofList (text.map fun c => partRegex (charPart c)) := by
    rw [regex, if_neg hdirs, List.map_map]
    rfl
  have hspells : (regex (text.map charPart)).Spells (text.flatMap charSets) :=
    hregex ▸ Regex.spells_ofList fun c _ => spells_charPart c
  rw [isMatch, hspells.matchesWhole_iff,
    CodeSet.forall₂_contains_iff (names_flatMap_charSets htext) (not_isCapital_of_mem_bytes hvalue)]
  exact bytes_injective.eq_iff

end Glob

open DownloadQuery.Values (slashed)

namespace TextPattern

theorem regexBody?_eq_none {literal : List Char} (h : ∀ body, literal ≠ slashed body) :
    regexBody? literal = none := by
  unfold regexBody?
  split
  · next rest =>
    split
    · next hlast =>
      refine absurd ?_ (h rest.dropLast)
      rw [slashed, List.cons_append, List.dropLast_append_getLast? _ hlast]
    · rfl
  · rfl

/-- The pattern of a plain word matches the word alone, up to letter case. -/
theorem exists_read_word {word : String} (hslashed : ∀ body, word.toList ≠ slashed body)
    (hword : Glob.IsWord word.toList) :
    ∃ p, read word = .ok p ∧
      ∀ value, p.isMatch value = true ↔ Text.lower value = Text.lower word := by
  have hlower (value : String) : Text.lower value = Text.lower word ↔
      Text.lowerChars value.toList = Text.lowerChars word.toList := String.ofList_inj
  by_cases hempty : word = ""
  · subst hempty
    refine ⟨.empty, by decide, fun value => ?_⟩
    rw [hlower, isMatch, List.isEmpty_iff]
    rfl
  · refine ⟨.glob ((Text.lowerChars word.toList).map Glob.charPart), ?_, fun value => ?_⟩
    · have hread := read_plain (by simpa using hempty) (regexBody?_eq_none hslashed)
      rwa [String.ofList_toList, Glob.read_escape hword.lowerChars] at hread
    · rw [hlower]
      exact Glob.isMatch_charPart_iff Text.isUpper_lowerFrom Text.isUpper_lowerFrom

end TextPattern

/-- What a plain word says as the literal of a condition: the text of a value is this word, up to
letter case. -/
structure Leaf.AsksForWord (word : String) (p : TextPattern) : Prop where
  /-- The word is accepted wherever nothing but a pattern is. -/
  read : ∀ {family : Family} {test : TextPattern → Test}, family.patternTest? = some test →
    ∀ (clock : Clock) (field : Field),
      Leaf.read clock family field word = .ok ⟨field, word, test p, false⟩
  isMatch_iff : ∀ value, p.isMatch value = true ↔ Text.lower value = Text.lower word
  isMatch_empty : word = "" → ∀ value, p.isMatch value = true ↔ value = ""
  isMatch_field : ∀ (field : Field) (scene : Scene) (r after : Reading) (value : String),
    field.value scene r = (.ok (.text value), after) →
      Leaf.isMatch ⟨field, word, .text p, false⟩ scene r =
        (.ok (decide (Text.lower value = Text.lower word)), after)

/-- A plain word that is no text between slashes asks for the texts that are this word, up to letter
case. -/
theorem Leaf.asksForWord {word : String} (hslashed : ∀ body, word.toList ≠ slashed body)
    (hword : Glob.IsWord word.toList) :
    ∃ p, TextPattern.read word = .ok p ∧ AsksForWord word p := by
  obtain ⟨p, hread, hmatch⟩ := TextPattern.exists_read_word hslashed hword
  refine ⟨p, hread, fun hfamily => read_of_pattern hfamily hread, hmatch, ?_, ?_⟩
  · rintro rfl value
    have hempty : Text.lower "" = "" := Text.lower_eq_empty_iff.2 rfl
    rw [hmatch, hempty, Text.lower_eq_empty_iff]
  · intro field scene r after value hvalue
    have hdecide : p.isMatch value = decide (Text.lower value = Text.lower word) := by
      rw [Bool.eq_iff_iff, hmatch, decide_eq_true_eq]
    rw [isMatch, hvalue, ← hdecide]
    rfl

/-- Braces are no alternatives, and a bracket that closes nothing opens none. A letter beyond ASCII is
the same in both cases too. -/
theorem Leaf.asksForWord_marks :
    ∃ p, TextPattern.read "]\x7bé,\\B\x7d!^/[" = .ok p ∧
      p.isMatch "]\x7bÉ,\\b\x7d!^/[" = true ∧ p.isMatch "]é!^/[" = false := by
  obtain ⟨p, hread, hasks⟩ : ∃ p, TextPattern.read "]\x7bé,\\B\x7d!^/[" = .ok p ∧
      AsksForWord "]\x7bé,\\B\x7d!^/[" p := by
    refine asksForWord (fun body hbody => ?_) ⟨by decide, by decide, by decide⟩
    simp [slashed] at hbody
  refine ⟨p, hread, (hasks.isMatch_iff _).2 (by decide +kernel), ?_⟩
  rw [Bool.eq_false_iff, Ne, hasks.isMatch_iff]
  decide +kernel

end DownloadQuery

import DownloadQuery.Proofs.Json.ExactValues
import DownloadQuery.Proofs.Json.NumberText
import DownloadQuery.Proofs.Json.StringText

/-!
# Indented text reads back

The indented text of an exact value is read as the value (`Json.read?_pretty`), so a value is exact
just if some text holds it (`Json.isExact_iff_exists_read?`). By induction on the value, its text is
read wherever it may stand (`Reader.Reads`). The text bounds how deep the reader goes: each step
into a value or to the next part takes a character at least.
-/

namespace DownloadQuery
namespace Json
namespace Reader

variable {v : Json} {rest : List Char}

/-! ## Between values -/

/-- Whether a character is neither skipped nor starts what is. -/
structure IsVisible (c : Char) : Prop where
  not_space : isSpace c = false
  ne_slash : c ≠ '/'

theorem skip_visible {c : Char} (hc : IsVisible c) (rest : List Char) :
    skip (c :: rest) = some (c :: rest) := by
  obtain ⟨hspace, hslash⟩ := hc
  unfold skip skipFrom
  split
  · next heq => exact absurd (List.cons.inj heq).1 hslash
  · next heq => exact absurd (List.cons.inj heq).1 hslash
  all_goals simp_all

theorem skip_blanks {c : Char} (hc : IsVisible c) (n : Nat) (rest : List Char) :
    skip (List.replicate n ' ' ++ c :: rest) = some (c :: rest) := by
  induction n with
  | zero => exact skip_visible hc rest
  | succ n ih => exact ih

theorem toList_newline (level : Nat) :
    (newline level).toList = '\n' :: List.replicate (2 * level) ' ' := by
  simp [newline]

theorem skip_newline {c : Char} (hc : IsVisible c) (level : Nat) (rest : List Char) :
    skip ((newline level).toList ++ c :: rest) = some (c :: rest) := by
  rw [toList_newline]
  exact skip_blanks hc (2 * level) rest

theorem follows_newline (level : Nat) (rest : List Char) :
    Follows ((newline level).toList ++ rest) := by
  rw [toList_newline]
  rintro c ⟨⟩
  exact .inr rfl

theorem follows_comma (rest : List Char) : Follows (',' :: rest) := by
  rintro c ⟨⟩
  exact .inl rfl

theorem isVisible_of_isDigit {c : Char} (h : c.isDigit = true) : IsVisible c := by
  have hascii : ¬ 0x80 ≤ c.toNat := by
    rw [Char.isDigit, Bool.and_eq_true, decide_eq_true_eq, decide_eq_true_eq] at h
    have hle : c.toNat ≤ 57 := h.2
    omega
  refine ⟨?_, ne_of_isDigit h rfl⟩
  simp only [isSpace, isLineEnd, hascii, Bool.or_eq_false_iff, beq_eq_false_iff_ne, decide_false,
    Bool.false_and, and_true]
  and_intros
  all_goals exact ne_of_isDigit h (by decide)

/-- Whether a text starts with a character that is not skipped and closes nothing. -/
def Opens (text : List Char) : Prop :=
  ∃ c rest, text = c :: rest ∧ IsVisible c ∧ c ≠ ']' ∧ c ≠ '\x7d'

theorem Opens.append {text : List Char} (h : Opens text) (rest : List Char) :
    Opens (text ++ rest) := by
  obtain ⟨c, start, rfl, hc⟩ := h
  exact ⟨c, start ++ rest, rfl, hc⟩

theorem Opens.skip_newline {text : List Char} (h : Opens text) (level : Nat) :
    skip ((newline level).toList ++ text) = some text := by
  obtain ⟨c, start, rfl, hc, -⟩ := h
  exact Reader.skip_newline hc level start

/-! ## Values -/

/-- Whether the indented text of a value can stand in a text and is read as the value there. -/
structure Reads (v : Json) : Prop where
  opens : ∀ level, Opens (prettyAt level v).toList
  read : ∀ (level fuel : Nat) (rest : List Char), Follows rest →
    (prettyAt level v).toList.length ≤ fuel →
      readValue fuel ((prettyAt level v).toList ++ rest) = some (v, rest)

theorem readValue_of_isDigit {c : Char} (hc : c.isDigit = true) (fuel : Nat) (text : List Char) :
    readValue (fuel + 1) (c :: text) = readUnsigned false (c :: text) := by
  have hnull : readWord? "null" (c :: text) = none := readWord?_of_isDigit hc rfl rfl text
  have htrue : readWord? "true" (c :: text) = none := readWord?_of_isDigit hc rfl rfl text
  have hfalse : readWord? "false" (c :: text) = none := readWord?_of_isDigit hc rfl rfl text
  unfold readValue
  dsimp only
  split
  all_goals first
    | cases hc
    | rw [hnull, htrue, hfalse]

/-- A text is read as its value if it is from its first character, with as much fuel as the text is
long. -/
theorem reads_of_cons (h : ∀ level, ∃ c text, (prettyAt level v).toList = c :: text ∧
    IsVisible c ∧ c ≠ ']' ∧ c ≠ '\x7d' ∧ ∀ (fuel : Nat) (rest : List Char), Follows rest →
      text.length ≤ fuel → readValue (fuel + 1) (c :: (text ++ rest)) = some (v, rest)) :
    Reads v where
  opens level := by
    obtain ⟨c, text, htext, hc, hbracket, hbrace, -⟩ := h level
    exact ⟨c, text, htext, hc, hbracket, hbrace⟩
  read level fuel rest hrest hfuel := by
    obtain ⟨c, text, htext, -, -, -, hread⟩ := h level
    rw [htext] at hfuel ⊢
    obtain ⟨fuel, rfl⟩ := Nat.exists_eq_add_one.2 (Nat.zero_lt_of_lt hfuel)
    exact hread fuel rest hrest (Nat.le_of_succ_le_succ hfuel)

theorem reads_null : Reads .null := by
  refine reads_of_cons fun level => ⟨'n', ['u', 'l', 'l'], ?_, ⟨rfl, by decide⟩, by decide,
    by decide, fun _ _ _ _ => ?_⟩
  · simp [prettyAt, scalarText]
  · rfl

theorem reads_bool (b : Bool) : Reads (.bool b) := by
  cases b
  · refine reads_of_cons fun level => ⟨'f', ['a', 'l', 's', 'e'], ?_, ⟨rfl, by decide⟩, by decide,
      by decide, fun _ _ _ _ => ?_⟩
    · simp [prettyAt, scalarText]
    · rfl
  · refine reads_of_cons fun level => ⟨'t', ['r', 'u', 'e'], ?_, ⟨rfl, by decide⟩, by decide,
      by decide, fun _ _ _ _ => ?_⟩
    · simp [prettyAt, scalarText]
    · rfl

theorem reads_string (s : String) : Reads (.string s) := by
  refine reads_of_cons fun level => ⟨'\x22', s.toList.flatMap escapeChar ++ ['\x22'], ?_,
    ⟨rfl, by decide⟩, by decide, by decide, fun fuel rest _ _ => ?_⟩
  · simp [prettyAt, scalarText, toList_quote]
  · rw [List.append_assoc]
    show (readString '\x22' _).map _ = _
    rw [List.singleton_append, readString_quoted]
    rfl

/-- A text that does not change with the level, of a digit and more, after a minus or not. -/
theorem reads_of_unsigned (negative : Bool) (digits : List Char)
    (htext : ∀ level, (prettyAt level v).toList = if negative then '-' :: digits else digits)
    (hdigit : ∃ c text, digits = c :: text ∧ c.isDigit = true)
    (hread : ∀ rest, Follows rest → readUnsigned negative (digits ++ rest) = some (v, rest)) :
    Reads v := by
  refine reads_of_cons fun level => ?_
  rw [htext level]
  cases negative
  · obtain ⟨c, text, rfl, hc⟩ := hdigit
    refine ⟨c, text, rfl, isVisible_of_isDigit hc, ne_of_isDigit hc rfl, ne_of_isDigit hc rfl, ?_⟩
    intro fuel rest hrest _
    rw [readValue_of_isDigit hc]
    exact hread rest hrest
  · refine ⟨'-', digits, rfl, ⟨rfl, by decide⟩, by decide, by decide, ?_⟩
    intro fuel rest hrest _
    exact hread rest hrest

theorem reads_number {negative : Bool} {units : Nat}
    (hx : (Binary64.finite negative units).IsRounded) :
    Reads (.number (.finite negative units)) := by
  refine reads_of_unsigned negative (unsignedText units) (fun level => ?_)
    (exists_unsignedText hx) (fun rest hrest => readUnsigned_unsignedText hx hrest)
  rw [prettyAt, scalarText, toList_jsonText]

theorem ofWhole_of_nonneg {n : Nat} (h : n < 2 ^ 64) : ofWhole false n = .integer n := by
  have hpow63 : Int.pow 2 63 = 9223372036854775808 := rfl
  have hpow64 : Int.pow 2 64 = 18446744073709551616 := rfl
  have hrange : ¬ ((n : Int) < -Int.pow 2 63 ∨ Int.pow 2 64 ≤ (n : Int)) := by omega
  unfold ofWhole
  rw [if_neg Bool.false_ne_true]
  dsimp only
  rw [if_neg]
  simpa using hrange

theorem ofWhole_of_neg {n : Nat} (h : n + 1 ≤ 2 ^ 63) :
    ofWhole true (n + 1) = .integer (Int.negSucc n) := by
  have hpow63 : Int.pow 2 63 = 9223372036854775808 := rfl
  have hpow64 : Int.pow 2 64 = 18446744073709551616 := rfl
  have hrange : ¬ (Int.negSucc n < -Int.pow 2 63 ∨ Int.pow 2 64 ≤ Int.negSucc n) := by omega
  have hsucc : -((n + 1 : Nat) : Int) = Int.negSucc n := rfl
  unfold ofWhole
  rw [if_pos rfl, hsucc]
  dsimp only
  rw [if_neg]
  simpa using hrange

theorem exists_toDigits (n : Nat) :
    ∃ c text, Nat.toDigits 10 n = c :: text ∧ c.isDigit = true := by
  have hwhole := isWholePart_toDigits n
  obtain ⟨c, text, htext⟩ := List.exists_cons_of_ne_nil hwhole.ne_nil
  exact ⟨c, text, htext, hwhole.digits c (htext ▸ List.mem_cons_self)⟩

theorem reads_integer {n : Int} (hlow : -2 ^ 63 ≤ n) (hhigh : n < 2 ^ 64) :
    Reads (.integer n) := by
  cases n with
  | ofNat n =>
    have hn : n < 2 ^ 64 := Int.ofNat_lt.1 hhigh
    have htext : toString (Int.ofNat n) = String.ofList (Nat.toDigits 10 n) :=
      Nat.toString_eq_ofList_toDigits
    refine reads_of_unsigned false (Nat.toDigits 10 n) (fun level => ?_) (exists_toDigits n)
      fun rest hrest => ?_
    · rw [prettyAt, scalarText, htext, String.toList_ofList]
      rfl
    · rw [readUnsigned_toDigits false n hrest, ofWhole_of_nonneg hn]
      rfl
  | negSucc n =>
    have htext : toString (Int.negSucc n) = "-" ++ String.ofList (Nat.toDigits 10 (n + 1)) :=
      congrArg ("-" ++ ·) Nat.toString_eq_ofList_toDigits
    refine reads_of_unsigned true (Nat.toDigits 10 (n + 1)) (fun level => ?_)
      (exists_toDigits (n + 1)) fun rest hrest => ?_
    · simp [prettyAt, scalarText, htext]
    · rw [readUnsigned_toDigits true (n + 1) hrest, ofWhole_of_neg (by omega)]

/-! ## Parts of a value -/

/-- Parts, one a line. -/
def lines (level : Nat) (parts : List String) : List Char :=
  (("," ++ newline level).intercalate parts).toList

theorem lines_singleton (level : Nat) (part : String) : lines level [part] = part.toList := by
  simp [lines]

theorem lines_cons_cons (level : Nat) (part next : String) (parts : List String) :
    lines level (part :: next :: parts) =
      part.toList ++ ',' :: ((newline level).toList ++ lines level (next :: parts)) := by
  simp [lines, String.toList_intercalate]

theorem opens_lines {level : Nat} {part : String} (h : Opens part.toList) (parts : List String) :
    Opens (lines level (part :: parts)) := by
  cases parts with
  | nil =>
    rw [lines_singleton]
    exact h
  | cons next parts =>
    rw [lines_cons_cons]
    exact h.append _

/-- What stands after the opening bracket of parts. -/
def enclosed (level : Nat) (parts : List String) (closing : Char) : List Char :=
  (newline (level + 1)).toList ++ (lines (level + 1) parts ++ ((newline level).toList ++ [closing]))

theorem toList_enclose (opening closing : Char) (level : Nat) (part : String)
    (parts : List String) :
    (enclose (String.singleton opening) (String.singleton closing) level (part :: parts)).toList =
      opening :: enclosed level (part :: parts) closing := by
  simp [enclose, enclosed, lines]

theorem enclosed_append (level : Nat) (parts : List String) (closing : Char) (rest : List Char) :
    enclosed level parts closing ++ rest = (newline (level + 1)).toList ++
      (lines (level + 1) parts ++ ((newline level).toList ++ closing :: rest)) := by
  simp [enclosed]

theorem length_lines_lt (level : Nat) (parts : List String) (closing : Char) :
    (lines (level + 1) parts).length < (enclosed level parts closing).length := by
  simp only [enclosed, List.length_append, List.length_singleton]
  omega

/-! ## Elements -/

variable {vs : List Json} {fuel : Nat} {text after next start : List Char}

theorem readElements_last (hv : readValue fuel text = some (v, after))
    (hafter : skip after = some (']' :: rest)) :
    readElements (fuel + 1) text = some ([v], rest) := by
  unfold readElements
  simp [hv, hafter]

theorem readElements_next (hv : readValue fuel text = some (v, after))
    (hafter : skip after = some (',' :: next)) (hnext : skip next = some start)
    (hstart : Opens start) (hvs : readElements fuel start = some (vs, rest)) :
    readElements (fuel + 1) text = some (v :: vs, rest) := by
  obtain ⟨c, tail, rfl, -, hbracket, -⟩ := hstart
  unfold readElements
  simp [hv, hafter, hnext, hvs, hbracket]

theorem skip_comma (rest : List Char) : skip (',' :: rest) = some (',' :: rest) :=
  skip_visible ⟨rfl, by decide⟩ rest

/-- The elements of an array, one a line, up to the bracket. -/
theorem readElements_lines {elements : List Json} (hne : elements ≠ [])
    (hread : ∀ v ∈ elements, Reads v) (level outer : Nat) (rest : List Char) :
    ∀ fuel, (lines level (prettyAll level elements)).length < fuel →
      readElements fuel (lines level (prettyAll level elements) ++
        ((newline outer).toList ++ ']' :: rest)) = some (elements, rest) := by
  induction elements with
  | nil => exact absurd rfl hne
  | cons v elements ih =>
    intro fuel hfuel
    obtain ⟨hv, helements⟩ := List.forall_mem_cons.1 hread
    obtain ⟨fuel, rfl⟩ := Nat.exists_eq_add_one.2 (Nat.zero_lt_of_lt hfuel)
    cases elements with
    | nil =>
      rw [prettyAll, prettyAll, lines_singleton] at hfuel ⊢
      exact readElements_last
        (hv.read level fuel _ (follows_newline outer _) (Nat.le_of_lt_succ hfuel))
        (skip_newline ⟨rfl, by decide⟩ outer rest)
    | cons w elements =>
      have hrest := ih (List.cons_ne_nil w elements) helements fuel
      have hopens : Opens (lines level (prettyAll level (w :: elements)) ++
          ((newline outer).toList ++ ']' :: rest)) := by
        rw [prettyAll]
        exact (opens_lines ((helements w List.mem_cons_self).opens level) _).append _
      rw [prettyAll, prettyAll, lines_cons_cons, ← prettyAll] at hfuel ⊢
      simp only [List.length_append, List.length_cons] at hfuel
      rw [List.append_assoc, List.cons_append, List.append_assoc]
      exact readElements_next (hv.read level fuel _ (follows_comma _) (by omega)) (skip_comma _)
        (hopens.skip_newline level) hopens (hrest (by omega))

/-! ## Members -/

variable {name : String} {members : List (String × Json)}

/-- A member in its line. -/
def memberText (level : Nat) (name : String) (v : Json) : String :=
  quote name ++ ": " ++ prettyAt level v

theorem opens_memberText (level : Nat) (name : String) (v : Json) :
    Opens (memberText level name v).toList := by
  have hquote : Opens (quote name).toList :=
    ⟨'\x22', _, toList_quote name, ⟨rfl, by decide⟩, by decide, by decide⟩
  rw [memberText, String.toList_append, String.toList_append, List.append_assoc]
  exact hquote.append _

theorem prettyMembers_cons (level : Nat) (name : String) (v : Json)
    (members : List (String × Json)) :
    prettyMembers level ((name, v) :: members) =
      memberText level name v :: prettyMembers level members := by
  rw [prettyMembers, memberText]

/-- A member is read: its name, the colon and its value. -/
inductive ReadsMember (fuel : Nat) (text : List Char) (name : String) (v : Json)
    (after : List Char) : Prop
  | mk {colon blank value : List Char} (hname : readName text = some (name, colon))
    (hcolon : skip colon = some (':' :: blank)) (hblank : skip blank = some value)
    (hvalue : readValue fuel value = some (v, after))

theorem readMembers_last (h : ReadsMember fuel text name v after)
    (hafter : skip after = some ('\x7d' :: rest)) :
    readMembers (fuel + 1) text = some ([(name, v)], rest) := by
  obtain ⟨hname, hcolon, hblank, hv⟩ := h
  unfold readMembers
  simp [hname, hcolon, hblank, hv, hafter]

theorem readMembers_next (h : ReadsMember fuel text name v after)
    (hafter : skip after = some (',' :: next)) (hnext : skip next = some start)
    (hstart : Opens start) (hmembers : readMembers fuel start = some (members, rest)) :
    readMembers (fuel + 1) text = some ((name, v) :: members, rest) := by
  obtain ⟨hname, hcolon, hblank, hv⟩ := h
  obtain ⟨c, tail, rfl, -, -, hbrace⟩ := hstart
  unfold readMembers
  simp [hname, hcolon, hblank, hv, hafter, hnext, hmembers, hbrace]

theorem readsMember_memberText (hv : Reads v) (name : String) {level : Nat}
    (hafter : Follows after) (hfuel : (memberText level name v).toList.length ≤ fuel) :
    ReadsMember fuel ((memberText level name v).toList ++ after) name v after := by
  have hlength : (prettyAt level v).toList.length ≤ fuel := by
    simp only [memberText, String.toList_append, List.length_append] at hfuel
    omega
  have hcolon := skip_visible (c := ':') ⟨rfl, by decide⟩
    (' ' :: ((prettyAt level v).toList ++ after))
  refine .mk ?_ hcolon ?_ (hv.read level fuel after hafter hlength)
  · rw [memberText, String.toList_append, String.toList_append, toList_quote]
    have hname := readString_quoted name (':' :: ' ' :: ((prettyAt level v).toList ++ after))
    simpa [readName] using hname
  · obtain ⟨c, tail, htail, hc, -⟩ := (hv.opens level).append after
    rw [htail]
    exact skip_blanks hc 1 tail

/-- The members of an object, one a line, up to the brace. -/
theorem readMembers_lines (hne : members ≠ []) (hread : ∀ entry ∈ members, Reads entry.2)
    (level outer : Nat) (rest : List Char) :
    ∀ fuel, (lines level (prettyMembers level members)).length < fuel →
      readMembers fuel (lines level (prettyMembers level members) ++
        ((newline outer).toList ++ '\x7d' :: rest)) = some (members, rest) := by
  induction members with
  | nil => exact absurd rfl hne
  | cons entry members ih =>
    obtain ⟨name, v⟩ := entry
    intro fuel hfuel
    obtain ⟨hv, hmembers⟩ : Reads v ∧ ∀ entry ∈ members, Reads entry.2 :=
      List.forall_mem_cons.1 hread
    obtain ⟨fuel, rfl⟩ := Nat.exists_eq_add_one.2 (Nat.zero_lt_of_lt hfuel)
    cases members with
    | nil =>
      rw [prettyMembers_cons, prettyMembers, lines_singleton] at hfuel ⊢
      exact readMembers_last
        (readsMember_memberText hv name (follows_newline outer _) (Nat.le_of_lt_succ hfuel))
        (skip_newline ⟨rfl, by decide⟩ outer rest)
    | cons second members =>
      obtain ⟨other, w⟩ := second
      have hrest := ih (List.cons_ne_nil (other, w) members) hmembers fuel
      have hopens : Opens (lines level (prettyMembers level ((other, w) :: members)) ++
          ((newline outer).toList ++ '\x7d' :: rest)) := by
        rw [prettyMembers_cons]
        exact (opens_lines (opens_memberText level other w) _).append _
      rw [prettyMembers_cons, prettyMembers_cons, lines_cons_cons, ← prettyMembers_cons]
        at hfuel ⊢
      simp only [List.length_append, List.length_cons] at hfuel
      rw [List.append_assoc, List.cons_append, List.append_assoc]
      exact readMembers_next (readsMember_memberText hv name (follows_comma _) (by omega))
        (skip_comma _) (hopens.skip_newline level) hopens (hrest (by omega))

/-! ## Arrays and objects -/

theorem readValue_array (hskip : skip text = some start) (hstart : Opens start)
    (hvs : readElements fuel start = some (vs, rest)) :
    readValue (fuel + 1) ('[' :: text) = some (.array vs, rest) := by
  obtain ⟨c, tail, rfl, -, hbracket, -⟩ := hstart
  unfold readValue
  simp [hskip, hvs, hbracket]

theorem readValue_object (hskip : skip text = some start) (hstart : Opens start)
    (hmembers : readMembers fuel start = some (members, rest)) :
    readValue (fuel + 1) ('\x7b' :: text) = some (ofMembers members, rest) := by
  obtain ⟨c, tail, rfl, -, -, hbrace⟩ := hstart
  unfold readValue
  simp [hskip, hmembers, hbrace]

theorem reads_array {elements : List Json} (hread : ∀ v ∈ elements, Reads v) :
    Reads (.array elements) := by
  refine reads_of_cons fun level => ?_
  cases elements with
  | nil =>
    refine ⟨'[', [']'], ?_, ⟨rfl, by decide⟩, by decide, by decide, fun _ _ _ _ => rfl⟩
    simp [prettyAt, prettyAll, enclose]
  | cons v elements =>
    refine ⟨'[', enclosed level (prettyAll (level + 1) (v :: elements)) ']', ?_,
      ⟨rfl, by decide⟩, by decide, by decide, fun fuel rest _ hfuel => ?_⟩
    · rw [prettyAt, prettyAll]
      exact toList_enclose '[' ']' level _ _
    · have hopens : Opens (lines (level + 1) (prettyAll (level + 1) (v :: elements))) := by
        rw [prettyAll]
        exact opens_lines ((hread v List.mem_cons_self).opens (level + 1)) _
      have hlength := length_lines_lt level (prettyAll (level + 1) (v :: elements)) ']'
      rw [enclosed_append]
      exact readValue_array ((hopens.append _).skip_newline _) (hopens.append _)
        (readElements_lines (List.cons_ne_nil _ _) hread _ _ rest fuel
          (Nat.lt_of_lt_of_le hlength hfuel))

theorem reads_object (hread : ∀ entry ∈ members, Reads entry.2)
    (ascending : (members.map (·.1)).Pairwise (· < ·)) : Reads (.object members) := by
  refine reads_of_cons fun level => ?_
  cases members with
  | nil =>
    refine ⟨'\x7b', ['\x7d'], ?_, ⟨rfl, by decide⟩, by decide, by decide, fun _ _ _ _ => rfl⟩
    simp [prettyAt, prettyMembers, enclose]
  | cons entry members =>
    obtain ⟨name, v⟩ := entry
    refine ⟨'\x7b', enclosed level (prettyMembers (level + 1) ((name, v) :: members)) '\x7d', ?_,
      ⟨rfl, by decide⟩, by decide, by decide, fun fuel rest _ hfuel => ?_⟩
    · rw [prettyAt, prettyMembers]
      exact toList_enclose '\x7b' '\x7d' level _ _
    · have hopens :
          Opens (lines (level + 1) (prettyMembers (level + 1) ((name, v) :: members))) := by
        rw [prettyMembers_cons]
        exact opens_lines (opens_memberText _ _ _) _
      have hlength :=
        length_lines_lt level (prettyMembers (level + 1) ((name, v) :: members)) '\x7d'
      rw [enclosed_append, ← ofMembers_eq_object ascending]
      exact readValue_object ((hopens.append _).skip_newline _) (hopens.append _)
        (readMembers_lines (List.cons_ne_nil _ _) hread _ _ rest fuel
          (Nat.lt_of_lt_of_le hlength hfuel))

theorem IsExact.reads (h : v.IsExact) : Reads v := by
  induction h with
  | null => exact reads_null
  | bool b => exact reads_bool b
  | integer hlow hhigh => exact reads_integer hlow hhigh
  | number hx => exact reads_number hx
  | string s => exact reads_string s
  | array _ ih => exact reads_array ih
  | object _ ascending ih => exact reads_object ih ascending

end Reader

/-- The indented text of an exact value holds the value. -/
theorem read?_pretty {v : Json} (h : v.IsExact) : read? v.pretty = some v := by
  have hreads := Reader.IsExact.reads h
  obtain ⟨c, text, htext, hc, -⟩ := hreads.opens 0
  have hskip : Reader.skip v.pretty.toList = some v.pretty.toList := by
    rw [pretty, htext]
    exact Reader.skip_visible hc text
  have hvalue : Reader.readValue (v.pretty.toList.length + 1) v.pretty.toList = some (v, []) := by
    have hread := hreads.read 0 (v.pretty.toList.length + 1) [] nofun (Nat.le_succ _)
    rwa [List.append_nil] at hread
  have hend : Reader.skip [] = some [] := rfl
  simp [read?, hskip, hvalue, hend]

/-- A value is exact just if some text holds it. -/
theorem isExact_iff_exists_read? {v : Json} : v.IsExact ↔ ∃ text, read? text = some v :=
  ⟨fun h => ⟨v.pretty, read?_pretty h⟩, fun ⟨_, h⟩ => isExact_of_read? h⟩

end Json
end DownloadQuery

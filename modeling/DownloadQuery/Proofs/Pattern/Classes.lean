import DownloadQuery.Proofs.Condition.PatternLiterals
import DownloadQuery.Proofs.Condition.SignedLiterals
import DownloadQuery.Proofs.Pattern.PlainWords
import Mathlib

/-!
# Classes of globs

A literal is taken apart into pieces, of which a class that is closed is kept as it is, and braces
and other opening brackets are put into classes of their own (`Glob.escape_eq`). A glob ends a class
at the bracket that escaping has found, but for one: behind a caret alone the bracket belongs to the
class, and the class goes on. Some later piece may close it. So without hyphens a literal that is no
regular expression is refused if and only if its pieces leave a class open (`Leaf.read_brackets`).
-/

namespace DownloadQuery
namespace Glob

/-! ## Reading classes -/

/-- Where the next character of a glob stands: outside of classes, right behind the bracket or
behind the mark that opens one, or within one. -/
inductive Place where
  | outside
  | opened
  | marked
  | within
  deriving DecidableEq

/-- The place behind a character. -/
def Place.step : Place → Char → Place
  | .outside, c => if c = '[' then .opened else .outside
  | .opened, c => if c = '!' ∨ c = '^' then .marked else .within
  | .marked, _ => .within
  | .within, c => if c = ']' then .outside else .within

/-- The place behind a text. -/
def Place.after (p : Place) (text : List Char) : Place := text.foldl step p

namespace Place

@[simp]
theorem after_nil (p : Place) : p.after [] = p := rfl

@[simp]
theorem after_cons (p : Place) (c : Char) (rest : List Char) :
    p.after (c :: rest) = (p.step c).after rest := rfl

theorem step_outside (c : Char) : outside.step c = if c = '[' then .opened else .outside := rfl

theorem step_opened (c : Char) :
    opened.step c = if c = '!' ∨ c = '^' then .marked else .within := rfl

theorem step_marked (c : Char) : marked.step c = .within := rfl

theorem step_within (c : Char) : within.step c = if c = ']' then .outside else .within := rfl

theorem after_append (p : Place) (before rest : List Char) :
    p.after (before ++ rest) = (p.after before).after rest := List.foldl_append

/-- Without a mark it does not matter whether there might be one. -/
theorem after_opened {text : List Char} (hmark : text.head? ≠ some '!' ∧ text.head? ≠ some '^') :
    opened.after text = outside ↔ marked.after text = outside := by
  cases text with
  | nil => simp
  | cons c rest =>
    have hc : ¬ (c = '!' ∨ c = '^') := by simpa [not_or] using hmark
    rw [after_cons, after_cons, step_opened, step_marked, if_neg hc]

end Place

/-- The place of what is left to read. -/
def Context.place : Context → Place
  | .inClass _ _ true _ => .within
  | .inClass _ _ false _ => .marked
  | _ => .outside

theorem Context.place_eq {context : Context}
    (h : ∀ negated ranges begun inRange, context = .inClass negated ranges begun inRange → False) :
    context.place = .outside := by
  cases context with
  | inClass => exact (h _ _ _ _ rfl).elim
  | start | middle => rfl

/-- Whether no hyphen waits for the end of a range. -/
def Context.IsSettled : Context → Prop
  | .inClass _ _ _ inRange => inRange = false
  | _ => True

/-- Whether reading fails if and only if a class is still open at the end. -/
structure EndsAt (result : Except GlobFault Glob) (p : Place) : Prop where
  ok : p = .outside → ∃ g, result = .ok g
  error : p ≠ .outside → result = .error .unclosedClass

theorem EndsAt.map {result : Except GlobFault Glob} {p : Place} (h : EndsAt result p)
    (f : Glob → Glob) : EndsAt (result.map f) p where
  ok hp := by
    obtain ⟨g, rfl⟩ := h.ok hp
    exact ⟨f g, rfl⟩
  error hp := by rw [h.error hp]; rfl

theorem EndsAt.congr {result : Except GlobFault Glob} {p q : Place} (h : EndsAt result p)
    (hpq : q = .outside ↔ p = .outside) : EndsAt result q where
  ok hq := h.ok (hpq.1 hq)
  error hq := h.error (hpq.not.1 hq)

/-- Without hyphens the only fault of a glob is a class that is open at its end. -/
theorem readFrom_endsAt {context : Context} (hcontext : context.IsSettled) {text : List Char}
    (h : '-' ∉ text) : EndsAt (readFrom context text) (context.place.after text) := by
  fun_induction readFrom context text with
  -- within a class
  | case1 _ _ begun => cases begun <;> exact ⟨nofun, fun _ => rfl⟩
  | case2 _ _ _ _ _ _ hclose _ ih =>
    obtain ⟨rfl, rfl⟩ := hclose
    exact (ih trivial (List.not_mem_of_not_mem_cons h)).map _
  | case3 _ _ _ _ _ _ _ hhyphen =>
    rw [hhyphen.1] at h
    exact absurd List.mem_cons_self h
  | case4 => cases hcontext
  | case5 => cases hcontext
  | case6 negated ranges begun inRange c rest hopen _ _ ih =>
    have hstep : (Context.inClass negated ranges begun inRange).place.step c = .within := by
      cases begun with
      | false => rfl
      | true => exact if_neg fun hc => hopen ⟨hc, rfl⟩
    rw [Place.after_cons, hstep]
    exact ih rfl (List.not_mem_of_not_mem_cons h)
  -- outside of classes
  | case7 _ hplace =>
    rw [Context.place_eq hplace]
    exact ⟨fun _ => ⟨[], rfl⟩, fun hne => absurd rfl hne⟩
  | case8 _ _ hplace ih | case9 _ _ hplace ih =>
    rw [Context.place_eq hplace]
    exact ih rfl (by simp_all)
  | case10 _ rest hplace hmark hcaret ih =>
    rw [Context.place_eq hplace]
    refine (ih rfl (List.not_mem_of_not_mem_cons h)).congr (Place.after_opened ⟨?_, ?_⟩)
    · intro hhead
      obtain ⟨after, hafter⟩ := List.head?_eq_some_iff.1 hhead
      exact hmark after hafter
    · intro hhead
      obtain ⟨after, hafter⟩ := List.head?_eq_some_iff.1 hhead
      exact hcaret after hafter
  | case11 => exact ⟨fun _ => ⟨_, rfl⟩, fun hne => absurd rfl hne⟩
  | case12 _ _ ih => exact ih trivial (by simp_all)
  | case13 _ _ ih => exact (ih trivial (by simp_all)).map _
  | case14 _ hplace =>
    rw [Context.place_eq hplace]
    exact ⟨fun _ => ⟨_, rfl⟩, fun hne => absurd rfl hne⟩
  | case15 _ _ hplace _ ih =>
    rw [Context.place_eq hplace]
    exact ih trivial (by simp_all)
  | case16 _ _ hplace _ ih =>
    rw [Context.place_eq hplace]
    exact (ih trivial (by simp_all)).map _
  | case17 _ _ hplace _ _ ih | case18 _ _ hplace ih =>
    rw [Context.place_eq hplace]
    exact (ih trivial (by simp_all)).map _
  | case19 _ c _ hplace _ _ hbracket _ _ _ _ _ _ ih =>
    rw [Context.place_eq hplace, Place.after_cons, Place.step_outside, if_neg hbracket]
    exact (ih trivial (List.not_mem_of_not_mem_cons h)).map _

/-! ## Writing classes -/

/-- What may stand in a class that escaping keeps, with the bracket that closes it: characters of
which none is a closing bracket, or such a bracket, perhaps behind an exclamation mark, and
characters. -/
inductive IsInside : List Char → Prop
  | plain {members : List Char} (hmembers : ']' ∉ members) (hne : members ≠ [])
    (hmark : members ≠ ['!']) : IsInside (members ++ [']'])
  | bracket {mark members : List Char} (hmark : mark = [] ∨ mark = ['!'])
    (hmembers : ']' ∉ members) : IsInside (mark ++ ']' :: members ++ [']'])

/-- A text goes up to its first closing bracket, if it has one. -/
theorem eq_of_drop_takeWhile {text rest : List Char} {c : Char}
    (h : text.drop (text.takeWhile (· != ']')).length = c :: rest) :
    ∃ members, text = members ++ ']' :: rest ∧ ']' ∉ members ∧
      text.takeWhile (· != ']') = members := by
  have hnone : ']' ∉ text.takeWhile (· != ']') := fun hmem => by
    simpa using List.mem_takeWhile_imp hmem
  have hparts := List.takeWhile_append_dropWhile (p := (· != ']')) (l := text)
  have hdrop := @List.drop_left _ (text.takeWhile (· != ']')) (text.dropWhile (· != ']'))
  rw [hparts, h] at hdrop
  have hc : c = ']' := by
    have hfirst := List.head?_dropWhile_not (· != ']') text
    rw [← hdrop] at hfirst
    simpa using hfirst
  rw [← hdrop, hc] at hparts
  exact ⟨_, hparts.symm, hnone, rfl⟩

/-- A class that escaping finds. -/
theorem isInside_of_closeClass? {text inside after : List Char}
    (h : closeClass? text = some (inside, after)) : text = inside ++ after ∧ IsInside inside := by
  unfold closeClass? at h
  split at h
  next mark afterMark hmark =>
  split at h
  next first members hfirst =>
  dsimp only at h
  split at h
  · cases h
  next c rest hdrop =>
  obtain ⟨inner, hmembers, hnone, hinner⟩ := eq_of_drop_takeWhile hdrop
  rw [hinner] at h
  cases h
  have hmarks : text = mark ++ afterMark ∧
      (mark = ['!'] ∨ mark = [] ∧ ∀ t, text ≠ '!' :: t) := by
    split at hmark <;> cases hmark
    · exact ⟨rfl, .inl rfl⟩
    · next hne => exact ⟨rfl, .inr ⟨rfl, hne⟩⟩
  have hfirsts : first = [']'] ∧ afterMark = ']' :: members ∨
      first = [] ∧ afterMark = members ∧ ∀ t, members ≠ ']' :: t := by
    split at hfirst <;> cases hfirst
    · exact .inl ⟨rfl, rfl⟩
    · next hne => exact .inr ⟨rfl, rfl, hne⟩
  obtain ⟨htext, hmark'⟩ := hmarks
  rcases hfirsts with ⟨rfl, rfl⟩ | ⟨rfl, rfl, hne⟩
  · refine ⟨by simp [htext, hmembers], ?_⟩
    have hinside : mark ++ [']'] ++ inner ++ [']'] = mark ++ ']' :: inner ++ [']'] := by simp
    rw [hinside]
    exact .bracket (hmark'.symm.imp_left And.left) hnone
  · refine ⟨by simp [htext, hmembers], ?_⟩
    have hcons : inner ≠ [] := by
      rintro rfl
      exact hne _ hmembers
    rw [List.append_nil]
    rcases hmark' with rfl | ⟨rfl, hplain⟩
    · exact .plain (List.not_mem_cons_of_ne_of_not_mem (by decide) hnone) (List.cons_ne_nil _ _)
        (by simpa using hcons)
    · refine .plain hnone hcons ?_
      rintro rfl
      exact hplain _ (htext.trans hmembers)

/-- A part of a literal that is written in a glob on its own. -/
inductive Piece where
  | plain (c : Char)
  /-- A brace, or an opening bracket that is never closed. -/
  | bracket (c : Char)
  /-- What stands behind the opening bracket of a class, with the bracket that closes it. -/
  | cls (inside : List Char)
  deriving DecidableEq

/-- The pieces of a literal. -/
def pieces : List Char → List Piece
  | [] => []
  | c :: rest =>
    if c = '\x7b' ∨ c = '\x7d' then .bracket c :: pieces rest
    else if c = '[' then
      match _hclose : closeClass? rest with
      | some (inside, after) => .cls inside :: pieces after
      | none => .bracket c :: pieces rest
    else .plain c :: pieces rest
termination_by text => text.length
decreasing_by
  · exact Nat.lt_succ_self _
  · obtain ⟨htext, -⟩ := isInside_of_closeClass? _hclose
    rw [htext, List.length_cons, List.length_append]
    omega
  · exact Nat.lt_succ_self _
  · exact Nat.lt_succ_self _

namespace Piece

/-- What stands for a piece in the literal. -/
def source : Piece → List Char
  | .plain c => [c]
  | .bracket c => [c]
  | .cls inside => '[' :: inside

/-- What stands for a piece in the glob. -/
def written : Piece → List Char
  | .plain c => [c]
  | .bracket c => ['[', c, ']']
  | .cls inside => '[' :: inside

/-- Whether a piece is one that escaping finds. -/
def IsFound : Piece → Prop
  | .plain c => c ≠ '['
  | .bracket c => IsBracket c
  | .cls inside => IsInside inside

/-- Whether a class is open in the glob behind a piece, if there is or is not one open before it. The
caret alone opens a class that goes on behind its bracket. Within a class that is open already, a
bracket at the start of another closes it, and what follows may open one that goes on too. -/
def leavesOpen (isOpen : Bool) : Piece → Bool
  | .plain c => isOpen && c != ']'
  | .bracket _ => false
  | .cls inside =>
    if isOpen then
      ((inside.dropWhile (· != ']')).tail.dropWhile (· != '[')) ∈
        [['[', ']'], ['[', '!', ']'], ['[', '^', ']']]
    else inside == ['^', ']']

end Piece

theorem pieces_found (text : List Char) : ∀ piece ∈ pieces text, piece.IsFound := by
  fun_induction pieces text with
  | case1 => nofun
  | case2 c rest hbrace ih =>
    exact List.forall_mem_cons.2 ⟨hbrace.elim .inl (.inr ∘ .inl), ih⟩
  | case3 rest inside after hclose _ ih =>
    exact List.forall_mem_cons.2 ⟨(isInside_of_closeClass? hclose).2, ih⟩
  | case4 rest hclose _ ih => exact List.forall_mem_cons.2 ⟨.inr (.inr rfl), ih⟩
  | case5 c rest _ hbracket ih => exact List.forall_mem_cons.2 ⟨hbracket, ih⟩

/-- The pieces of a literal make it up. -/
theorem flatMap_source (text : List Char) : (pieces text).flatMap Piece.source = text := by
  fun_induction pieces text with
  | case1 => rfl
  | case3 rest inside after hclose _ ih =>
    rw [List.flatMap_cons, ih, (isInside_of_closeClass? hclose).1]
    rfl
  | case2 c rest hbrace ih | case4 rest hclose _ ih | case5 c rest _ hbracket ih =>
    rw [List.flatMap_cons, ih]
    rfl

theorem escapeFrom_length (inside after : List Char) :
    escapeFrom inside.length (inside ++ after) = inside ++ escapeFrom 0 after := by
  induction inside with
  | nil => rfl
  | cons c inside ih =>
    rw [List.length_cons, List.cons_append, escapeFrom, ih]
    rfl

/-- Escaping writes the pieces of a literal one by one. -/
theorem escape_eq (text : List Char) : escape text = (pieces text).flatMap Piece.written := by
  rw [escape]
  fun_induction pieces text with
  | case1 => rfl
  | case2 c rest hbrace ih =>
    rw [escapeFrom, if_pos hbrace, List.flatMap_cons, ← ih]
    rfl
  | case3 rest inside after hclose _ ih =>
    have htext := (isInside_of_closeClass? hclose).1
    rw [escapeFrom, if_neg (by decide), if_pos rfl, hclose, List.flatMap_cons, ← ih]
    dsimp only
    rw [htext, escapeFrom_length]
    rfl
  | case4 rest hclose _ ih =>
    rw [escapeFrom, if_neg (by decide), if_pos rfl, hclose, List.flatMap_cons, ← ih]
    rfl
  | case5 c rest hbrace hbracket ih =>
    rw [escapeFrom, if_neg hbrace, if_neg hbracket, List.flatMap_cons, ← ih]
    rfl

/-! ## Open classes -/

namespace Place

variable {text members : List Char}

/-- No class is open, or one in which a character has been read. -/
def ofOpen (isOpen : Bool) : Place := if isOpen then .within else .outside

theorem after_within (h : ']' ∉ text) : within.after text = within := by
  induction text with
  | nil => rfl
  | cons c rest ih =>
    obtain ⟨hc, hrest⟩ := List.ne_and_not_mem_of_not_mem_cons h
    rw [after_cons, step_within, if_neg hc.symm, ih hrest]

/-- The first closing bracket closes a class, unless nothing or just a mark stands before it. -/
theorem after_opened_close (h : ']' ∉ members) :
    opened.after (members ++ [']']) = ofOpen (decide (members ∈ [[], ['!'], ['^']])) := by
  cases members with
  | nil => rfl
  | cons c rest =>
    have hrest := List.not_mem_of_not_mem_cons h
    rw [List.cons_append, after_cons, step_opened]
    split_ifs with hmark
    · cases rest with
      | nil => rcases hmark with rfl | rfl <;> rfl
      | cons d rest =>
        have hlast : (c :: d :: rest) ∉ [[], ['!'], ['^']] := by simp
        rw [List.cons_append, after_cons, step_marked, after_append,
          after_within (List.not_mem_of_not_mem_cons hrest), decide_eq_false hlast]
        rfl
    · have hlast : (c :: rest) ∉ [[], ['!'], ['^']] := by
        rw [not_or] at hmark
        simp [hmark]
      rw [after_append, after_within hrest, decide_eq_false hlast]
      rfl

/-- A bracket at the start of a class belongs to it. -/
theorem after_opened_bracket {mark : List Char} (hmark : mark = [] ∨ mark = ['!'])
    (h : ']' ∉ members) : opened.after (mark ++ ']' :: members ++ [']']) = outside := by
  have hbegun : opened.after (mark ++ [']']) = within := by rcases hmark with rfl | rfl <;> rfl
  have htext : mark ++ ']' :: members ++ [']'] = (mark ++ [']']) ++ (members ++ [']']) := by simp
  rw [htext, after_append, hbegun, after_append, after_within h]
  rfl

/-- Outside of classes, characters and a closing bracket leave a class open if that bracket stands
right at its start. -/
theorem after_outside_close (h : ']' ∉ members) :
    outside.after (members ++ [']']) =
      ofOpen (decide ((members ++ [']']).dropWhile (· != '[') ∈
        [['[', ']'], ['[', '!', ']'], ['[', '^', ']']])) := by
  induction members with
  | nil => rfl
  | cons c rest ih =>
    have hrest := List.not_mem_of_not_mem_cons h
    by_cases hc : c = '['
    · have hhere : (c :: rest ++ [']']).dropWhile (· != '[') = '[' :: rest ++ [']'] := by
        rw [hc, List.cons_append, List.dropWhile_cons_of_neg (by decide)]
      have hrests : '[' :: rest ++ [']'] ∈ [['[', ']'], ['[', '!', ']'], ['[', '^', ']']] ↔
          rest ∈ [[], ['!'], ['^']] := by
        simp [List.append_eq_cons_iff]
      rw [hhere, decide_eq_decide.2 hrests, List.cons_append, after_cons, step_outside, if_pos hc,
        after_opened_close hrest]
    · have hskip : (c :: rest ++ [']']).dropWhile (· != '[') =
          (rest ++ [']']).dropWhile (· != '[') :=
        List.dropWhile_cons_of_pos (bne_iff_ne.2 hc)
      rw [hskip, List.cons_append, after_cons, step_outside, if_neg hc, ih hrest]

end Place

namespace IsInside

variable {inside : List Char}

/-- Outside of classes only the caret alone opens a class that goes on. -/
theorem after_opened (h : IsInside inside) :
    Place.opened.after inside = .ofOpen (Piece.leavesOpen false (.cls inside)) := by
  rcases h with @⟨members, hmembers, hne, hmark⟩ | @⟨mark, members, hmark, hmembers⟩
  · have hcaret : Piece.leavesOpen false (.cls (members ++ [']'])) =
        decide (members ∈ [[], ['!'], ['^']]) := by
      have hsame : members ++ [']'] = ['^'] ++ [']'] ↔ members = ['^'] := List.append_left_inj _
      rw [Bool.eq_iff_iff]
      simpa [Piece.leavesOpen, hne, hmark] using hsame
    rw [hcaret]
    exact Place.after_opened_close hmembers
  · have hcaret : Piece.leavesOpen false (.cls (mark ++ ']' :: members ++ [']'])) = false := by
      rcases hmark with rfl | rfl <;> simp [Piece.leavesOpen]
    rw [hcaret]
    exact Place.after_opened_bracket hmark hmembers

/-- Within a class the first closing bracket closes it, and what stands behind that bracket is read
outside. -/
theorem after_within (h : IsInside inside) :
    Place.within.after inside = .ofOpen (Piece.leavesOpen true (.cls inside)) := by
  rcases h with @⟨members, hmembers, -, -⟩ | @⟨mark, members, hmark, hmembers⟩
  · have hdrop : (members ++ [']']).dropWhile (· != ']') = [']'] := by
      rw [List.dropWhile_append_of_pos fun c hc => bne_iff_ne.2 (ne_of_mem_of_not_mem hc hmembers)]
      rfl
    have hclosed : Piece.leavesOpen true (.cls (members ++ [']'])) = false := by
      simp [Piece.leavesOpen, hdrop]
    rw [hclosed, Place.after_append, Place.after_within hmembers]
    rfl
  · have hdrop : (mark ++ ']' :: members ++ [']']).dropWhile (· != ']') =
        ']' :: members ++ [']'] := by
      rcases hmark with rfl | rfl <;> rfl
    have hopen : Piece.leavesOpen true (.cls (mark ++ ']' :: members ++ [']'])) =
        decide ((members ++ [']']).dropWhile (· != '[') ∈
          [['[', ']'], ['[', '!', ']'], ['[', '^', ']']]) := by
      rw [Piece.leavesOpen, if_pos rfl, hdrop]
      rfl
    have hafter : Place.within.after (mark ++ ']' :: members ++ [']']) =
        Place.outside.after (members ++ [']']) := by
      rcases hmark with rfl | rfl <;> rfl
    rw [hopen, hafter, Place.after_outside_close hmembers]

end IsInside

/-- What is open behind a piece in the glob. -/
theorem Piece.after_written {piece : Piece} (h : piece.IsFound) (isOpen : Bool) :
    (Place.ofOpen isOpen).after piece.written = Place.ofOpen (piece.leavesOpen isOpen) := by
  cases piece with
  | plain c =>
    cases isOpen with
    | false => exact if_neg h
    | true =>
      by_cases hc : c = ']'
      · subst hc
        rfl
      · have hopen : leavesOpen true (.plain c) = true := bne_iff_ne.2 hc
        rw [hopen]
        exact if_neg hc
  | bracket c => rcases h with rfl | rfl | rfl <;> cases isOpen <;> rfl
  | cls inside =>
    have hinside : IsInside inside := h
    cases isOpen with
    | false => exact hinside.after_opened
    | true => exact hinside.after_within

/-- Whether a class is still open where the glob of a literal ends. -/
def leavesOpen (literal : List Char) : Bool := (pieces literal).foldl Piece.leavesOpen false

/-- Reading the glob of a literal ends where its pieces say. -/
theorem after_escape (text : List Char) :
    Place.outside.after (escape text) = Place.ofOpen (leavesOpen text) := by
  have hfold {ps : List Piece} (hps : ∀ piece ∈ ps, piece.IsFound) (isOpen : Bool) :
      (Place.ofOpen isOpen).after (ps.flatMap Piece.written) =
        Place.ofOpen (ps.foldl Piece.leavesOpen isOpen) := by
    induction ps generalizing isOpen with
    | nil => rfl
    | cons piece rest ih =>
      obtain ⟨hpiece, hrest⟩ := List.forall_mem_cons.1 hps
      rw [List.flatMap_cons, Place.after_append, piece.after_written hpiece, ih hrest]
      rfl
  rw [escape_eq]
  exact hfold (pieces_found text) false

/-- Without hyphens the glob of a literal is read if and only if it leaves no class open. -/
theorem read_escape_endsAt {text : List Char} (h : '-' ∉ text) :
    EndsAt (read (escape text)) (Place.ofOpen (leavesOpen text)) := by
  rw [← after_escape]
  have hcontext : Context.start.IsSettled := trivial
  exact readFrom_endsAt hcontext fun hmem => h (mem_of_mem_escapeFrom (by decide) hmem)

/-- No piece opens a class that goes on behind its bracket but the caret alone. -/
theorem mem_of_foldl_leavesOpen {ps : List Piece} {isOpen : Bool}
    (h : ps.foldl Piece.leavesOpen isOpen = true) : isOpen = true ∨ .cls ['^', ']'] ∈ ps := by
  induction ps generalizing isOpen with
  | nil => exact .inl h
  | cons piece rest ih =>
    rcases ih h with hpiece | hrest
    · cases isOpen with
      | true => exact .inl rfl
      | false =>
        right
        cases piece with
        | plain c => cases hpiece
        | bracket c => cases hpiece
        | cls inside =>
          rw [← beq_iff_eq.1 hpiece]
          exact List.mem_cons_self
    · exact .inr (List.mem_cons_of_mem piece hrest)

/-- A class is left open only by a literal with a caret alone between brackets. -/
theorem infix_of_leavesOpen {text : List Char} (h : leavesOpen text = true) :
    ['[', '^', ']'] <:+: text := by
  have hmem := (mem_of_foldl_leavesOpen h).resolve_left Bool.false_ne_true
  obtain ⟨before, after, hpieces⟩ := List.append_of_mem hmem
  rw [← flatMap_source text, hpieces, List.flatMap_append, List.flatMap_cons]
  exact ⟨before.flatMap Piece.source, after.flatMap Piece.source, by simp [Piece.source]⟩

end Glob

namespace Text

variable {marks : List Char}

/-- Marks at the start of a lowered text stand at the start of the text. -/
theorem prefix_of_prefix_lowerFrom (hmarks : ∀ c ∈ marks, IsMark c) {before text : List Char}
    (h : marks <+: lowerFrom before text) : marks <+: text := by
  induction marks generalizing before text with
  | nil => exact List.nil_prefix
  | cons d marks ih =>
    obtain ⟨hd, hrest⟩ := List.forall_mem_cons.1 hmarks
    cases text with
    | nil => exact absurd h (by simp [lowerFrom])
    | cons c rest =>
      obtain ⟨here, heq, hform⟩ := exists_lowerFrom before c rest
      rw [heq] at h
      rcases hform.marks with ⟨-, rfl⟩ | ⟨-, hnone⟩
      · obtain ⟨rfl, htail⟩ := List.cons_prefix_cons.1 h
        exact List.cons_prefix_cons.2 ⟨rfl, ih hrest htail⟩
      · obtain ⟨e, more, rfl⟩ := List.exists_cons_of_ne_nil hform.ne_nil
        obtain ⟨rfl, -⟩ := List.cons_prefix_cons.1 h
        exact absurd hd (hnone d List.mem_cons_self)

theorem infix_of_infix_append (hmarks : ∀ c ∈ marks, IsMark c) {here rest : List Char}
    (hnone : ∀ d ∈ here, ¬ IsMark d) (h : marks <:+: here ++ rest) : marks <:+: rest := by
  induction here with
  | nil => exact h
  | cons e here ih =>
    obtain ⟨he, hhere⟩ := List.forall_mem_cons.1 hnone
    rcases List.infix_cons_iff.1 h with hprefix | hlater
    · cases marks with
      | nil => exact List.nil_infix
      | cons d marks =>
        obtain ⟨rfl, -⟩ := List.cons_prefix_cons.1 hprefix
        exact absurd (hmarks d List.mem_cons_self) he
    · exact ih hhere hlater

/-- Marks that stand side by side in a lowered text do so in the text. -/
theorem infix_of_infix_lowerFrom (hmarks : ∀ c ∈ marks, IsMark c) {before text : List Char}
    (h : marks <:+: lowerFrom before text) : marks <:+: text := by
  induction text generalizing before with
  | nil => exact h
  | cons c rest ih =>
    obtain ⟨here, heq, hform⟩ := exists_lowerFrom before c rest
    rcases hform.marks with ⟨-, rfl⟩ | ⟨-, hnone⟩
    · rw [heq] at h
      rcases List.infix_cons_iff.1 h with hprefix | hlater
      · have hwhole : marks <+: lowerFrom before (c :: rest) := heq ▸ hprefix
        exact (prefix_of_prefix_lowerFrom hmarks hwhole).isInfix
      · exact List.infix_cons_iff.2 (.inr (ih hlater))
    · rw [heq] at h
      exact List.infix_cons_iff.2 (.inr (ih (infix_of_infix_append hmarks hnone h)))

end Text

open DownloadQuery.Values (slashed)

variable {literal : String}

/-- The pattern of a literal without hyphens that is no regular expression, or its only fault. -/
theorem TextPattern.read_unhyphened (hslashed : ∀ body, literal.toList ≠ slashed body)
    (hhyphen : '-' ∉ literal.toList) :
    let lowered := Text.lowerChars literal.toList
    (Glob.leavesOpen lowered = false → ∃ p, read literal = .ok p) ∧
    (Glob.leavesOpen lowered = true →
      read literal = .error (.glob (String.ofList (Glob.escape lowered)) .unclosedClass)) := by
  intro lowered
  by_cases hne : literal.toList = []
  · obtain rfl : literal = "" := String.toList_eq_nil_iff.1 hne
    have hclosed : Glob.leavesOpen lowered = false := by
      have hlowered : lowered = [] := rfl
      rw [hlowered, Glob.leavesOpen, Glob.pieces]
      rfl
    refine ⟨fun _ => ⟨.empty, by decide⟩, fun hopen => ?_⟩
    rw [hclosed] at hopen
    cases hopen
  · have hread := read_plain hne (regexBody?_eq_none hslashed)
    rw [String.ofList_toList] at hread
    have hends : Glob.EndsAt (Glob.read (Glob.escape lowered))
        (Glob.Place.ofOpen (Glob.leavesOpen lowered)) :=
      Glob.read_escape_endsAt fun hmem => hhyphen (Text.mem_of_mem_lowerFrom (by decide) hmem)
    constructor
    · intro hopen
      rw [hopen] at hends
      obtain ⟨g, hg⟩ := hends.ok rfl
      rw [hg] at hread
      exact ⟨.glob g, hread⟩
    · intro hopen
      rw [hopen] at hends
      rw [hends.error nofun] at hread
      exact hread

namespace Leaf

variable {family : Family} {test : TextPattern → Test}

/-- A family that takes nothing but a pattern refuses a literal if its pattern has a fault. -/
theorem read_of_pattern_error (hfamily : family.patternTest? = some test) {e : PatternError}
    (h : TextPattern.read literal = .error e) (clock : Clock) (field : Field) :
    read clock family field literal = .error (.badValue field.name literal (.pattern e)) := by
  have hpattern : Test.readPattern literal = .error (.pattern e) := by rw [Test.readPattern, h]
  cases family with
  | pattern | files => simp [read, Test.ofLiteral, hpattern, Except.map]
  | _ => cases hfamily

/-- Without hyphens a literal that is no regular expression is accepted if it leaves no class open
in its glob, and refused otherwise. A class is left open only behind a caret alone between
brackets. -/
theorem read_brackets (hfamily : family.patternTest? = some test) (clock : Clock) (field : Field)
    (hslashed : ∀ body, literal.toList ≠ slashed body) (hhyphen : '-' ∉ literal.toList) :
    let lowered := Text.lowerChars literal.toList
    (Glob.leavesOpen lowered = false →
      ∃ p, read clock family field literal = .ok ⟨field, literal, test p, false⟩) ∧
    (Glob.leavesOpen lowered = true →
      ['[', '^', ']'] <:+: literal.toList ∧
        read clock family field literal = .error (.badValue field.name literal
          (.pattern (.glob (String.ofList (Glob.escape lowered)) .unclosedClass)))) := by
  intro lowered
  obtain ⟨hok, herror⟩ := TextPattern.read_unhyphened hslashed hhyphen
  constructor
  · intro hopen
    obtain ⟨p, hp⟩ := hok hopen
    exact ⟨p, read_of_pattern hfamily hp clock field⟩
  · intro hopen
    refine ⟨?_, read_of_pattern_error hfamily (herror hopen) clock field⟩
    have hlowered : ['[', '^', ']'] <:+: Text.lowerFrom [] literal.toList :=
      Glob.infix_of_leavesOpen hopen
    have hmarks : ∀ c ∈ ['[', '^', ']'], Text.IsMark c :=
      List.forall_mem_cons.2 ⟨by decide, List.forall_mem_cons.2 ⟨by decide,
        List.forall_mem_singleton.2 (by decide)⟩⟩
    exact Text.infix_of_infix_lowerFrom hmarks hlowered

/-- Brackets, marks and braces in no good order are accepted. -/
theorem read_brackets_unordered :
    let field : Field := ⟨"f", "", .text, .dynamic, .stored, some .pattern, none⟩
    ∃ p, read ⟨.utc, 0⟩ .pattern field "[]!\x7b[^^]]\x7d[!" =
      .ok ⟨field, "[]!\x7b[^^]]\x7d[!", .text p, false⟩ := by
  intro field
  refine (read_brackets rfl ⟨.utc, 0⟩ field ?_ ?_).1 ?_
  · intro body hbody
    simp [slashed] at hbody
  · decide
  · apply Bool.eq_false_iff.2
    intro hopen
    exact absurd (Glob.infix_of_leavesOpen hopen) (by decide +kernel)

/-- A caret alone between brackets is refused. -/
theorem read_brackets_caret :
    let field : Field := ⟨"f", "", .text, .dynamic, .stored, some .pattern, none⟩
    read ⟨.utc, 0⟩ .pattern field "[^]" =
      .error (.badValue "f" "[^]" (.pattern (.glob "[^]" .unclosedClass))) := by
  decide

end Leaf

end DownloadQuery

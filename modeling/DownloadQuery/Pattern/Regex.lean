import DownloadQuery.Pattern.CodeSet

/-!
# Regular expressions

A regular expression relates two positions of a text when the part between them matches. Whole sets
of positions are moved at once: the set of positions that an expression leads to from a set of
starting positions is computed by recursion on the expression, so the work does not grow with the
number of ways in which a text matches.

A set of positions is a natural number whose bit `i` stands for the position before code `i`.
-/

namespace DownloadQuery

/-- Conditions on a position. -/
inductive Look where
  | textStart
  | textEnd
  /-- After a line feed; with `crlf` a carriage return ends a line too. -/
  | lineStart (crlf : Bool)
  | lineEnd (crlf : Bool)
  | wordEdge (unicode : Bool)
  | notWordEdge (unicode : Bool)
  | wordStart (unicode : Bool)
  | wordEnd (unicode : Bool)
  | wordStartHalf (unicode : Bool)
  | wordEndHalf (unicode : Bool)
  deriving DecidableEq, Repr

/-- A regular expression over sets of codes. -/
inductive Regex where
  | empty
  | set (s : CodeSet)
  | look (k : Look)
  | seq (r s : Regex)
  | alt (r s : Regex)
  /-- At least `least` and at most `most` times; without `most` any number of times more. -/
  | repeated (r : Regex) (least : Nat) (most : Option Nat)
  deriving DecidableEq, Repr

namespace Look

/-- Whether a code, if there is one, belongs to a word. -/
def inWord (unicode : Bool) : Option Nat → Bool
  | none => false
  | some c =>
    if unicode then Text.isWordChar (Char.ofNat c)
    else c < 0x80 && ((Char.ofNat c).isAlphanum || c == 0x5F)

/-- Whether the condition holds between two neighbouring codes. -/
def holds (k : Look) (before after : Option Nat) : Bool :=
  match k with
  | .textStart => before.isNone
  | .textEnd => after.isNone
  | .lineStart crlf =>
    before.isNone || before == some 10 || (crlf && before == some 13 && after != some 10)
  | .lineEnd crlf =>
    after.isNone ||
      (if crlf then after == some 13 || (after == some 10 && before != some 13)
       else after == some 10)
  | .wordEdge u => inWord u before != inWord u after
  | .notWordEdge u => inWord u before == inWord u after
  | .wordStart u => !inWord u before && inWord u after
  | .wordEnd u => inWord u before && !inWord u after
  | .wordStartHalf u => !inWord u before
  | .wordEndHalf u => !inWord u after

/-- The positions where the condition holds. -/
def positions (k : Look) : (before : Option Nat) → List Nat → Nat
  | before, [] => (k.holds before none).toNat
  | before, c :: rest =>
    (k.holds before (some c)).toNat + 2 * positions k (some c) rest

end Look

namespace CodeSet

/-- The positions before a code of the set. -/
def positions (s : CodeSet) : List Nat → Nat
  | [] => 0
  | c :: rest => (s.contains c).toNat + 2 * positions s rest

/-- Codes that tell large sets from small ones: Latin letters that change case at every step, and
scripts of the Indian subcontinent, with many gaps between letters, signs and digits. -/
def landmarks : List Nat := List.range' 0x100 0x80 ++ List.range' 0xA00 0x200

/-- How often membership changes along some codes. -/
def changes (s : CodeSet) : (within : Bool) → List Nat → Nat
  | _, [] => 0
  | within, c :: rest => changes s (s.contains c) rest + if s.contains c = within then 0 else 1

/-- About how many bytes the automaton of one code of the set takes. It has states for every run of
members; how many runs there are is told by the landmarks alone. The numbers are such that a few
characters take 60 bytes and the Unicode words, which have 756 runs, the 46000 that they really
take; other large sets come within a factor of ten. -/
def weight (s : CodeSet) : Nat := 60 + 370 * s.changes false landmarks

theorem changes_congr {s t : CodeSet} (h : ∀ c, s.contains c = t.contains c) (codes : List Nat)
    (within : Bool) : s.changes within codes = t.changes within codes := by
  induction codes generalizing within with
  | nil => rfl
  | cons c rest ih => simp only [changes, h c, ih]

/-- The spelling of a set does not matter to its weight. -/
theorem weight_congr {s t : CodeSet} (h : ∀ c, s.contains c = t.contains c) :
    s.weight = t.weight := by
  rw [weight, weight, changes_congr h]

theorem changes_eq_zero {s : CodeSet} {codes : List Nat} (h : ∀ c ∈ codes, s.contains c = false) :
    s.changes false codes = 0 := by
  induction codes with
  | nil => rfl
  | cons c rest ih =>
    rw [List.forall_mem_cons] at h
    simp only [changes, h.1, ih h.2, if_true]

/-- Codes before the landmarks take as little as one code. -/
theorem weight_codes {members : List Nat} (h : ∀ c ∈ members, c < 0x100) :
    (CodeSet.codes members).weight = 60 := by
  have hfar : ∀ c ∈ landmarks, (CodeSet.codes members).contains c = false := by
    intro c hc
    have hle : 0x100 ≤ c := by
      simp only [landmarks, List.mem_append, List.mem_range'_1] at hc
      omega
    simpa [contains] using fun hmem => absurd (h c hmem) (by omega)
  rw [weight, changes_eq_zero hfar]

end CodeSet

namespace Regex

/-- Applies a move a number of times; no position is left once none is. -/
def times (move : Nat → Nat) : Nat → Nat → Nat
  | 0, positions => positions
  | n + 1, positions => if positions = 0 then 0 else times move n (move positions)

/-- Adds what a move leads to up to a number of times; nothing is added once nothing new is. -/
def upTo (move : Nat → Nat) : Nat → Nat → Nat
  | 0, positions => positions
  | n + 1, positions =>
    let more := positions ||| move positions
    if more = positions then positions else upTo move n more

/-- The positions the expression leads to from some positions of a text. -/
def run (text : List Nat) : Regex → Nat → Nat
  | .empty, positions => positions
  | .set s, positions => (positions &&& s.positions text) * 2
  | .look k, positions => positions &&& k.positions none text
  | .seq r s, positions => run text s (run text r positions)
  | .alt r s, positions => run text r positions ||| run text s positions
  | .repeated r least most, positions =>
    let started := times (run text r) least positions
    match most with
    | none => upTo (run text r) (text.length + 1) started
    | some m => upTo (run text r) (m - least) started

/-- Whether some part of the text matches. -/
def occursIn (r : Regex) (text : List Nat) : Bool :=
  run text r (Nat.pow 2 (text.length + 1) - 1) != 0

/-- Whether the whole text matches. -/
def matchesWhole (r : Regex) (text : List Nat) : Bool :=
  (run text r 1).testBit text.length

/-- Whether a part that starts at a position matches. -/
def matchesAt (r : Regex) (text : List Nat) (position : Nat) : Bool :=
  run text r (Nat.pow 2 position) != 0

/-- One expression after another. -/
def ofList (rs : List Regex) : Regex :=
  match rs with
  | [] => .empty
  | [r] => r
  | r :: rest => .seq r (ofList rest)

/-- One expression or another; of none, nothing matches. -/
def anyOf (rs : List Regex) : Regex :=
  match rs with
  | [] => .set CodeSet.empty
  | [r] => r
  | r :: rest => .alt r (anyOf rest)

/-- About how many bytes the automaton of the expression takes, with every repetition written out.
The automaton itself is not built here: a test of one set of codes goes by `CodeSet.weight`, and the
links between the parts are counted alike wherever they stand. -/
def weight : Regex → Nat
  | .empty => 0
  | .look _ => 40
  | .set s => s.weight
  | .seq r s => r.weight + s.weight
  | .alt r s => r.weight + s.weight + 40
  | .repeated r least most => r.weight * max 1 (max least (most.getD (least + 1))) + 40

end Regex
end DownloadQuery

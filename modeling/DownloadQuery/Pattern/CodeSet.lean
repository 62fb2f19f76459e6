import DownloadQuery.Text.Blank
import DownloadQuery.Text.Classes
import DownloadQuery.Text.FoldRuns

/-!
# Sets of codes

The classes of a pattern, as sets of code points or of bytes. A set is kept as it was written and
asked for membership only.
-/

namespace DownloadQuery

/-- A class of characters that Unicode defines. -/
inductive CharProperty where
  | digit
  | blank
  | word
  | lowercase
  | uppercase
  | anyOf (categories : List Text.Category)
  deriving DecidableEq, Repr

namespace CharProperty

def holds (p : CharProperty) (code : Nat) : Bool :=
  match p with
  | .digit => Text.isDecimalDigit (Char.ofNat code)
  | .blank => Text.isBlank (Char.ofNat code)
  | .word => Text.isWordChar (Char.ofNat code)
  | .lowercase => Text.isLowercase (Char.ofNat code)
  | .uppercase => Text.isUppercase (Char.ofNat code)
  | .anyOf categories => categories.contains (Text.Category.ofCode code)

end CharProperty

/-- A set of codes. -/
inductive CodeSet where
  | codes (members : List Nat)
  | ranges (members : List (Nat × Nat))
  | property (p : CharProperty)
  | union (s t : CodeSet)
  | inter (s t : CodeSet)
  | compl (s : CodeSet)
  /-- All codes that differ only in case from a member. -/
  | folded (s : CodeSet)
  /-- All codes that differ only in the case of an ASCII letter from a member. -/
  | asciiFolded (s : CodeSet)
  deriving DecidableEq, Repr

namespace CodeSet

/-- The codes that differ from `code` only in case, itself among them. -/
def orbit (code : Nat) : List Nat :=
  let folding := Text.CaseRun.image Text.foldRuns code
  folding :: Text.CaseRun.preimages Text.foldRuns folding

/-- The code of an ASCII letter in the other case. -/
def swapAscii (code : Nat) : Nat :=
  if 65 ≤ code ∧ code ≤ 90 then code + 32
  else if 97 ≤ code ∧ code ≤ 122 then code - 32
  else code

def contains : CodeSet → Nat → Bool
  | .codes members, c => members.contains c
  | .ranges members, c => Text.inRanges members c
  | .property p, c => p.holds c
  | .union s t, c => s.contains c || t.contains c
  | .inter s t, c => s.contains c && t.contains c
  | .compl s, c => !s.contains c
  | .folded s, c => (orbit c).any fun d => s.contains d
  | .asciiFolded s, c => s.contains c || s.contains (swapAscii c)

/-- The set of no codes. -/
def empty : CodeSet := .codes []

def diff (s t : CodeSet) : CodeSet := .inter s (.compl t)

def symmDiff (s t : CodeSet) : CodeSet := .union (diff s t) (diff t s)

/-- All codes that differ only in case from `code`, listed. -/
def ofFolded (code : Nat) : CodeSet := .codes (orbit code)

/-- Whether a set is built such that codes which differ only in case belong to it together: in the
case of any letter, or of ASCII letters alone. -/
def isFolded (unicode : Bool) : CodeSet → Bool
  | .codes members => members.isEmpty
  | .ranges members => members.isEmpty
  | .property _ => false
  | .union s t => s.isFolded unicode && t.isFolded unicode
  | .inter s t => s.isFolded unicode && t.isFolded unicode
  | .compl s => s.isFolded unicode
  | .folded _ => true
  | .asciiFolded _ => !unicode

/-- All codes that differ only in case from a member. Parts are folded one by one, and none twice: a
class in brackets is folded on its own and again with the class around it. -/
def fold (unicode : Bool) : CodeSet → CodeSet
  | .union s t => .union (s.fold unicode) (t.fold unicode)
  | s => if s.isFolded unicode then s else if unicode then .folded s else .asciiFolded s

end CodeSet
end DownloadQuery

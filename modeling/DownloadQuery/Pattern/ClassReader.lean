import DownloadQuery.Pattern.Escape

/-!
# Classes in brackets

Reading a class of a regular expression: characters, ranges, escapes, named ASCII classes, nested
classes, and the operators for intersection, difference and symmetric difference.
-/

namespace DownloadQuery
namespace Regex

/-- The operators between the parts of a class. -/
inductive ClassOp where
  | inter
  | diff
  | symmDiff
  deriving DecidableEq, Repr

/-- The ASCII class of a name. -/
def asciiClass? : String → Option CodeSet
  | "alnum" => some (.ranges [(0x30, 0x39), (0x41, 0x5A), (0x61, 0x7A)])
  | "alpha" => some (.ranges [(0x41, 0x5A), (0x61, 0x7A)])
  | "ascii" => some (.ranges [(0, 0x7F)])
  | "blank" => some (.codes [9, 32])
  | "cntrl" => some (.ranges [(0, 0x1F), (0x7F, 0x7F)])
  | "digit" => some (.ranges [(0x30, 0x39)])
  | "graph" => some (.ranges [(0x21, 0x7E)])
  | "lower" => some (.ranges [(0x61, 0x7A)])
  | "print" => some (.ranges [(0x20, 0x7E)])
  | "punct" => some (.ranges [(0x21, 0x2F), (0x3A, 0x40), (0x5B, 0x60), (0x7B, 0x7E)])
  | "space" => some (.ranges [(9, 13), (32, 32)])
  | "upper" => some (.ranges [(0x41, 0x5A)])
  | "word" => some (.ranges [(0x30, 0x39), (0x41, 0x5A), (0x5F, 0x5F), (0x61, 0x7A)])
  | "xdigit" => some (.ranges [(0x30, 0x39), (0x41, 0x46), (0x61, 0x66)])
  | _ => none

/-- A named ASCII class after its opening bracket. What is none is read as a nested class. -/
def readAsciiClass? : List Char → Option (CodeSet × List Char)
  | ':' :: rest =>
    let (negated, rest) :=
      match rest with
      | '^' :: rest => (true, rest)
      | _ => (false, rest)
    let name := rest.takeWhile (· != ':')
    match rest.drop name.length with
    | ':' :: ']' :: rest =>
      (asciiClass? (String.ofList name)).map fun s => (if negated then .compl s else s, rest)
    | _ => none
  | _ => none

/-- One character or escape of a class. -/
def readClassAtom (m : Modes) : List Char → Option (Atom × List Char)
  | [] => none
  | '\\' :: rest => readEscape m rest
  | c :: rest => some (.char c.toNat false, rest)

/-- Whether a character may stand in a class: without Unicode only an ASCII one. -/
def classCode? (m : Modes) : Atom → Option Nat
  | .char code _ => if m.unicode || code < 0x80 then some code else none
  | _ => none

/-- A character, an escape, or a range of characters. -/
def readClassItem (m : Modes) (text : List Char) : Option (CodeSet × List Char) := do
  let (first, rest) ← readClassAtom m text
  let rest := skipVerbose m rest
  match rest with
  | [] => none
  | '-' :: after =>
    match skipVerbose m after with
    | ']' :: _ => single first rest
    | '-' :: _ => single first rest
    | [] => none
    | after =>
      let (last, rest) ← readClassAtom m after
      let low ← classCode? m first
      let high ← classCode? m last
      if low ≤ high then some (.ranges [(low, high)], rest) else none
  | _ => single first rest
where
  single (atom : Atom) (rest : List Char) : Option (CodeSet × List Char) :=
    match atom with
    | .set s => some (s, rest)
    | .look _ => none
    | .char .. => (classCode? m atom).map fun code => (.codes [code], rest)

/-- What has been read, with how many parts stand within one another in it. -/
structure Nested (α : Type) where
  value : α
  depth : Nat
  deriving Repr

/-- How deep several parts are nested: more than one are a part of their own. -/
def joinedDepth (depths : List Nat) : Nat :=
  depths.foldl max 0 + if 1 < depths.length then 1 else 0

/-- The items of a class while it is read, with the depth of each. -/
structure Items where
  set : CodeSet
  depths : List Nat

namespace Items

def none : Items := ⟨.empty, []⟩

def add (items : Items) (s : CodeSet) (depth : Nat) : Items :=
  ⟨.union items.set s, depth :: items.depths⟩

def finish (items : Items) : Nested CodeSet := ⟨items.set, joinedDepth items.depths⟩

end Items

/-- The set that an operator, if one is waiting, makes of both its sides. -/
def combine (m : Modes) (waiting : Option (ClassOp × Nested CodeSet)) (right : Nested CodeSet) :
    Nested CodeSet :=
  match waiting with
  | none => right
  | some (op, left) => ⟨apply op (inCase m left.value) (inCase m right.value),
      max left.depth right.depth + 1⟩
where
  apply : ClassOp → CodeSet → CodeSet → CodeSet
    | .inter => .inter
    | .diff => CodeSet.diff
    | .symmDiff => CodeSet.symmDiff

/-- Hyphens that open a class stand for themselves. -/
def readHyphens (m : Modes) (found : Items) : Nat → List Char → Items × List Char
  | 0, text => (found, text)
  | fuel + 1, text =>
    match text with
    | '-' :: rest => readHyphens m (found.add (.codes [0x2D]) 0) fuel (skipVerbose m rest)
    | _ => (found, text)

/-- Whether a class without Unicode holds ASCII only, so that it matches whole characters. -/
def isAsciiOnly (s : CodeSet) : Bool :=
  (List.range 0x80).all fun i => !s.contains (0x80 + i)

/-- Closes a class: the letter case mode applies before the negation. -/
def closeClass (m : Modes) (negated : Bool) (s : Nested CodeSet) : Nested CodeSet :=
  ⟨if negated then .compl (inCase m s.value) else inCase m s.value, s.depth + 1⟩

mutual

/-- A class after its opening bracket. -/
def readClass (m : Modes) : Nat → List Char → Option (Nested CodeSet × List Char)
  | 0, _ => none
  | fuel + 1, text => do
    let (negated, text) :=
      match skipVerbose m text with
      | '^' :: rest => (true, skipVerbose m rest)
      | text => (false, text)
    let (found, text) := readHyphens m .none text.length text
    match text with
    | ']' :: rest =>
      if found.depths = [] then
        readItems m negated fuel none (Items.none.add (.codes [0x5D]) 0) (skipVerbose m rest)
      else readItems m negated fuel none found text
    | _ => readItems m negated fuel none found text

/-- The parts of a class up to its closing bracket. -/
def readItems (m : Modes) (negated : Bool) :
    Nat → Option (ClassOp × Nested CodeSet) → Items → List Char →
      Option (Nested CodeSet × List Char)
  | 0, _, _, _ => none
  | fuel + 1, waiting, found, text =>
    match skipVerbose m text with
    | [] => none
    | ']' :: rest => some (closeClass m negated (combine m waiting found.finish), rest)
    | '[' :: rest =>
      match readAsciiClass? rest with
      | some (s, rest) => readItems m negated fuel waiting (found.add s 0) rest
      | none => do
        let (s, rest) ← readClass m fuel rest
        readItems m negated fuel waiting (found.add s.value s.depth) rest
    | '&' :: '&' :: rest =>
      readItems m negated fuel (some (.inter, combine m waiting found.finish)) .none rest
    | '-' :: '-' :: rest =>
      readItems m negated fuel (some (.diff, combine m waiting found.finish)) .none rest
    | '~' :: '~' :: rest =>
      readItems m negated fuel (some (.symmDiff, combine m waiting found.finish)) .none rest
    | text => do
      let (s, rest) ← readClassItem m text
      readItems m negated fuel waiting (found.add s 0) rest

end

end Regex
end DownloadQuery

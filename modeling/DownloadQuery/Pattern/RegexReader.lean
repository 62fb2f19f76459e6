import DownloadQuery.Pattern.ClassReader

/-!
# Reading regular expressions

Reading an expression from its text. There are no look-arounds and no references to groups; letter
case is ignored unless the text switches that off.
-/

namespace DownloadQuery
namespace Regex

/-- The modes an expression starts in. -/
def Modes.initial : Modes := ⟨true, false, false, true, false, false⟩

/-- The expression of a single character. Without Unicode, two hexadecimal digits name a byte, which
must be a character on its own. -/
def charRegex? (m : Modes) (code : Nat) (byte : Bool) : Option Regex :=
  if !m.unicode && byte && 0x80 ≤ code then none
  else if !m.ignoreCase then some (.set (.codes [code]))
  else if m.unicode then some (.set (CodeSet.ofFolded code))
  else some (.set (.codes [code, CodeSet.swapAscii code]))

/-- The expression of an atom. -/
def atomRegex? (m : Modes) : Atom → Option Regex
  | .char code byte => charRegex? m code byte
  | .set s => some (.set s)
  | .look k => some (.look k)

/-- The expression of a dot: any character but a line end, or any at all. -/
def dotRegex? (m : Modes) : Option Regex :=
  if !m.unicode then none
  else if m.dotAll then some (.set (.compl .empty))
  else if m.crlf then some (.set (.compl (.codes [10, 13])))
  else some (.set (.compl (.codes [10])))

def startLook (m : Modes) : Look := if m.multiLine then .lineStart m.crlf else .textStart

def endLook (m : Modes) : Look := if m.multiLine then .lineEnd m.crlf else .textEnd

/-- Switches being read: the modes, whether a minus was met, the letters met, and whether one was
met since the minus. -/
structure Switches where
  modes : Modes
  negated : Bool
  seen : List Char
  complete : Bool

/-- One switch of a mode. -/
def switch? (on : Bool) (m : Modes) : Char → Option Modes
  | 'i' => some { m with ignoreCase := on }
  | 'm' => some { m with multiLine := on }
  | 's' => some { m with dotAll := on }
  | 'u' => some { m with unicode := on }
  | 'x' => some { m with verbose := on }
  | 'R' => some { m with crlf := on }
  | 'U' => some m
  | _ => none

/-- Switches up to a colon or a closing parenthesis, which is left in the text. No letter stands
twice, and a minus stands once and before a letter. -/
def readSwitches : Switches → List Char → Option (Switches × List Char)
  | _, [] => none
  | s, c :: rest =>
    if c == ':' || c == ')' then
      if s.negated && !s.complete then none else some (s, c :: rest)
    else if c == '-' then
      if s.negated then none else readSwitches { s with negated := true, complete := false } rest
    else if s.seen.contains c then none
    else
      match switch? (!s.negated) s.modes c with
      | some modes => readSwitches ⟨modes, s.negated, c :: s.seen, true⟩ rest
      | none => none

/-- The name of a group up to its closing bracket. -/
def readGroupName (text : List Char) : Option (List Char × List Char) :=
  let name := text.takeWhile (· != '>')
  match name, text.drop name.length with
  | first :: others, '>' :: rest =>
    let isLetter (c : Char) := c.isAlpha ||
      (0x80 ≤ c.toNat && ((Text.Category.of c).isLetter || Text.Category.of c == .letterNumber))
    let isNumber (c : Char) := c.isDigit ||
      (0x80 ≤ c.toNat && match Text.Category.of c with
        | .decimalNumber | .letterNumber | .otherNumber => true
        | _ => false)
    let fits (c : Char) :=
      isLetter c || isNumber c || c == '_' || c == '.' || c == '[' || c == ']'
    if (isLetter first || first == '_') && others.all fits then some (name, rest) else none
  | _, _ => none

/-- A decimal number with blanks around it, below `2^32`. -/
def readCount (text : List Char) : Option Nat × List Char :=
  let text := text.dropWhile Text.isBlank
  let digits := text.takeWhile Char.isDigit
  let rest := (text.drop digits.length).dropWhile Text.isBlank
  let n := digits.foldl (fun n c => 10 * n + (c.toNat - '0'.toNat)) 0
  (if digits = [] ∨ Nat.pow 2 32 ≤ n then none else some n, rest)

/-- Counts after their opening brace, up to the closing one. -/
def readCounts (m : Modes) (text : List Char) : Option ((Nat × Option Nat) × List Char) := do
  let (least, rest) := readCount (skipVerbose m text)
  let least ← least
  match rest with
  | ',' :: rest =>
    match skipVerbose m rest with
    | '\x7d' :: rest => some ((least, none), rest)
    | rest =>
      let (most, rest) := readCount rest
      let most ← most
      match rest with
      | '\x7d' :: rest => if least ≤ most then some ((least, some most), rest) else none
      | _ => none
  | '\x7d' :: rest => some ((least, some least), rest)
  | _ => none

/-- Skips the mark that makes a repetition prefer few times; which parts match does not hang on it. -/
def skipLazy : List Char → List Char
  | '?' :: rest => rest
  | text => text

/-- What has been read of a group: the alternatives before, the parts of the current one (last
first, with none for a switch of modes), the modes, and the group names of the whole text. -/
structure Progress where
  alternatives : List (Nested Regex)
  parts : List (Nested (Option Regex))
  modes : Modes
  names : List (List Char)

namespace Progress

def push (p : Progress) (r : Regex) (depth : Nat) : Progress :=
  { p with parts := ⟨some r, depth⟩ :: p.parts }

/-- The current alternative. -/
def current (p : Progress) : Nested Regex :=
  ⟨Regex.ofList (p.parts.reverse.filterMap Nested.value), joinedDepth (p.parts.map Nested.depth)⟩

def finish (p : Progress) : Nested Regex :=
  let all := p.alternatives.reverse ++ [p.current]
  ⟨Regex.anyOf (all.map Nested.value), joinedDepth (all.map Nested.depth)⟩

/-- Repeats the last part; there must be one, and it must not be a switch of modes. -/
def repeatLast? (p : Progress) (least : Nat) (most : Option Nat) : Option Progress :=
  match p.parts with
  | ⟨some r, depth⟩ :: rest =>
    some { p with parts := ⟨some (.repeated r least most), depth + 1⟩ :: rest }
  | _ => none

end Progress

/-- What an opening parenthesis opens. -/
inductive Opening where
  /-- A switch of modes for what follows in the group around it. -/
  | switch (modes : Modes)
  /-- A group, read in some modes. -/
  | group (modes : Modes) (name : Option (List Char))

/-- Reads what follows an opening parenthesis. -/
def readOpening (m : Modes) (text : List Char) : Option (Opening × List Char) :=
  match text with
  | '?' :: '=' :: _ => none
  | '?' :: '!' :: _ => none
  | '?' :: '<' :: '=' :: _ => none
  | '?' :: '<' :: '!' :: _ => none
  | '?' :: 'P' :: '<' :: rest =>
    (readGroupName rest).map fun (name, rest) => (.group m (some name), rest)
  | '?' :: '<' :: rest =>
    (readGroupName rest).map fun (name, rest) => (.group m (some name), rest)
  | '?' :: rest =>
    match readSwitches ⟨m, false, [], false⟩ rest with
    | some (s, ':' :: rest) => some (.group s.modes none, rest)
    | some (s, ')' :: rest) => if s.seen = [] then none else some (.switch s.modes, rest)
    | _ => none
  | _ => some (.group m none, text)

/-- Reads a group up to its closing parenthesis, or, when `nested` is false, to the end of the
text. -/
def readGroup : Nat → (nested : Bool) → Progress → List Char →
    Option (Nested Regex × List (List Char) × List Char)
  | 0, _, _, _ => none
  | fuel + 1, nested, p, text =>
    match skipVerbose p.modes text with
    | [] => if nested then none else some (p.finish, p.names, [])
    | c :: rest =>
      match c with
      | ')' => if nested then some (p.finish, p.names, rest) else none
      | '(' =>
        match readOpening p.modes (skipVerbose p.modes rest) with
        | none => none
        | some (.switch modes, rest) =>
          readGroup fuel nested { p with modes, parts := ⟨none, 0⟩ :: p.parts } rest
        | some (.group modes name, rest) =>
          match name.toList.any p.names.contains with
          | true => none
          | false =>
            match readGroup fuel true ⟨[], [], modes, name.toList ++ p.names⟩ rest with
            | none => none
            | some (r, names, rest) =>
              readGroup fuel nested { p.push r.value (r.depth + 1) with names } rest
      | '|' =>
        readGroup fuel nested
          { p with alternatives := p.current :: p.alternatives, parts := [] } rest
      | '[' =>
        match readClass p.modes (2 * rest.length + 2) rest with
        | none => none
        | some (s, rest) =>
          if p.modes.unicode || isAsciiOnly s.value then
            readGroup fuel nested (p.push (.set s.value) s.depth) rest
          else none
      | '*' => continueWith fuel nested (p.repeatLast? 0 none) (skipLazy rest)
      | '+' => continueWith fuel nested (p.repeatLast? 1 none) (skipLazy rest)
      | '?' => continueWith fuel nested (p.repeatLast? 0 (some 1)) (skipLazy rest)
      | '\x7b' =>
        match readCounts p.modes rest with
        | none => none
        | some ((least, most), rest) =>
          continueWith fuel nested (p.repeatLast? least most)
            (skipLazy (skipVerbose p.modes rest))
      | '.' => continueWith fuel nested ((dotRegex? p.modes).map (p.push · 0)) rest
      | '^' => readGroup fuel nested (p.push (.look (startLook p.modes)) 0) rest
      | '$' => readGroup fuel nested (p.push (.look (endLook p.modes)) 0) rest
      | '\\' =>
        match readEscape p.modes rest with
        | none => none
        | some (atom, rest) =>
          continueWith fuel nested ((atomRegex? p.modes atom).map (p.push · 0)) rest
      | _ => continueWith fuel nested ((charRegex? p.modes c.toNat false).map (p.push · 0)) rest
where
  /-- Goes on with what has been read, if it could be. -/
  continueWith (fuel : Nat) (nested : Bool) (p : Option Progress) (rest : List Char) :
      Option (Nested Regex × List (List Char) × List Char) :=
    match p with
    | none => none
    | some p => readGroup fuel nested p rest

/-- How many parts of an expression may stand within one another: groups, repetitions, classes in
brackets, and rows of parts or alternatives. -/
def depthLimit : Nat := 250

/-- The bytes that the automaton of an expression may take. -/
def weightLimit : Nat := 10 * Nat.pow 2 20

/-- The expression a text denotes. -/
def read? (text : List Char) : Option Regex :=
  match readGroup (text.length + 1) false ⟨[], [], Modes.initial, []⟩ text with
  | some (r, _, _) =>
    if r.depth ≤ depthLimit ∧ r.value.weight ≤ weightLimit then some r.value else none
  | none => none

end Regex
end DownloadQuery

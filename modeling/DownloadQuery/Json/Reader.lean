import DownloadQuery.Json.Value
import DownloadQuery.Number.Decimal
import DownloadQuery.Number.Radix
import DownloadQuery.Text.Classes

/-!
# Reading JSON5

Reading a value from JSON text with the extensions of JSON5: comments, single quotes, names without
quotes, trailing commas, and numbers with signs, bare points, hexadecimal digits and the names of
infinity and NaN.
-/

namespace DownloadQuery
namespace Json
namespace Reader

/-- What the reader is inside of between values. -/
inductive Gap where
  | blank
  | line
  | block

def isLineEnd (c : Char) : Bool :=
  c == '\n' || c == '\r' || c == '\u2028' || c == '\u2029'

def isSpace (c : Char) : Bool :=
  isLineEnd c || c == ' ' || c == '\t' || c == '\x0b' || c == '\x0c' || c == '\u00a0' ||
    c == '\ufeff' || (0x80 ≤ c.toNat && Text.Category.of c == .spaceSeparator)

/-- Skips blanks and comments; none if a block comment stays open. -/
def skipFrom : Gap → List Char → Option (List Char)
  | .blank, '/' :: '/' :: rest => skipFrom .line rest
  | .blank, '/' :: '*' :: rest => skipFrom .block rest
  | .blank, [] => some []
  | .blank, c :: rest => if isSpace c then skipFrom .blank rest else some (c :: rest)
  | .line, [] => some []
  | .line, c :: rest => if isLineEnd c then skipFrom .blank rest else skipFrom .line rest
  | .block, '*' :: '/' :: rest => skipFrom .blank rest
  | .block, [] => none
  | .block, _ :: rest => skipFrom .block rest

def skip (text : List Char) : Option (List Char) := skipFrom .blank text

/-- The character a one-letter escape stands for; other characters stand for themselves. -/
def simpleEscape (c : Char) : Char :=
  match c with
  | 'b' => '\x08'
  | 'f' => '\x0c'
  | 'n' => '\n'
  | 'r' => '\r'
  | 't' => '\t'
  | 'v' => '\x0b'
  | c => c

/-- Reads to the closing quote and gives the codes read. An escaped code may be half of a pair. -/
def readCodes (quote : Char) : (codes : List Nat) → List Char → Option (List Nat × List Char)
  | _, [] => none
  | codes, '\\' :: 'u' :: a :: b :: c :: d :: rest => do
    readCodes quote ((← Radix.nat? 16 [a, b, c, d]) :: codes) rest
  | codes, '\\' :: 'x' :: a :: b :: rest => do
    readCodes quote ((← Radix.nat? 16 [a, b]) :: codes) rest
  | codes, '\\' :: '\r' :: '\n' :: rest => readCodes quote codes rest
  | codes, '\\' :: '0' :: c :: rest =>
    if c.isDigit then none else readCodes quote (0 :: codes) (c :: rest)
  | codes, '\\' :: c :: rest =>
    if isLineEnd c then readCodes quote codes rest
    else if c == 'u' || c == 'x' || c.isDigit then none
    else readCodes quote ((simpleEscape c).toNat :: codes) rest
  | codes, c :: rest =>
    if c = quote then some (codes.reverse, rest)
    else if c == '\n' || c == '\r' || c == '\\' then none
    else readCodes quote (c.toNat :: codes) rest

/-- Joins the halves of pairs; none if a half stands alone. -/
def joinPairs : List Nat → Option (List Char)
  | [] => some []
  | high :: rest =>
    if 0xD800 ≤ high ∧ high < 0xDC00 then
      match rest with
      | low :: rest =>
        if 0xDC00 ≤ low ∧ low < 0xE000 then do
          let code := 0x10000 + (high - 0xD800) * 0x400 + (low - 0xDC00)
          return Char.ofNat code :: (← joinPairs rest)
        else none
      | [] => none
    else if 0xDC00 ≤ high ∧ high < 0xE000 then none
    else do return Char.ofNat high :: (← joinPairs rest)

/-- The text up to the closing quote. -/
def readString (quote : Char) (text : List Char) : Option (String × List Char) := do
  let (codes, rest) ← readCodes quote [] text
  return (String.ofList (← joinPairs codes), rest)

/-- Characters a name may start with. -/
def startsName (c : Char) : Bool :=
  c.isAlpha || c == '$' || c == '_' ||
    (0x80 ≤ c.toNat && ((Text.Category.of c).isLetter || Text.Category.of c == .letterNumber))

/-- Characters a name may go on with. -/
def continuesName (c : Char) : Bool :=
  startsName c || c.isDigit || c == '\u200c' || c == '\u200d' ||
    (0x80 ≤ c.toNat &&
      match Text.Category.of c with
      | .nonspacingMark | .spacingMark | .decimalNumber | .connectorPunctuation => true
      | _ => false)

/-- The characters of a name without quotes, which may be written as codes. -/
def readNameChars : (name : List Char) → List Char → List Char × List Char
  | name, '\\' :: 'u' :: a :: b :: c :: d :: rest =>
    match Radix.nat? 16 [a, b, c, d] with
    | some code =>
      if continuesName (Char.ofNat code) then readNameChars (Char.ofNat code :: name) rest
      else (name.reverse, '\\' :: 'u' :: a :: b :: c :: d :: rest)
    | none => (name.reverse, '\\' :: 'u' :: a :: b :: c :: d :: rest)
  | name, c :: rest =>
    if continuesName c then readNameChars (c :: name) rest else (name.reverse, c :: rest)
  | name, [] => (name.reverse, [])

/-- A member name, quoted or not. -/
def readName : List Char → Option (String × List Char)
  | [] => none
  | c :: rest =>
    if c == '\x22' || c == '\x27' then readString c rest
    else
      match readNameChars [] (c :: rest) with
      | ([], _) => none
      | (first :: name, rest) =>
        if startsName first then some (String.ofList (first :: name), rest) else none

/-- An integer if it is in range, else the nearest number. Minus zero is no integer. -/
def ofWhole (negative : Bool) (n : Nat) : Json :=
  let i : Int := if negative then -(n : Int) else n
  if (negative && n == 0) || i < -Int.pow 2 63 || Int.pow 2 64 ≤ i then
    ofBinary64 (Binary64.ofRatio negative n 1)
  else .integer i

/-- Takes a word off the front. -/
def readWord? (word : String) (text : List Char) : Option (List Char) :=
  let n := word.length
  if text.take n = word.toList then some (text.drop n) else none

/-- Digits after an exponent mark, if the mark is there. -/
def readExponent (text : List Char) : Option (Option Int × List Char) :=
  match text with
  | mark :: rest =>
    if mark == 'e' || mark == 'E' then
      let (negative, rest) := Decimal.splitSign rest
      let digits := rest.takeWhile Char.isDigit
      if digits = [] then none
      else
        let n := Decimal.natOfDigits digits
        some (some (if negative then -(n : Int) else n), rest.drop digits.length)
    else some (none, text)
  | [] => some (none, [])

/-- Digits after a point, and whether the point is there. -/
def readFraction (text : List Char) : Bool × List Char × List Char :=
  match text with
  | '.' :: after =>
    let fraction := after.takeWhile Char.isDigit
    (true, fraction, after.drop fraction.length)
  | _ => (false, [], text)

/-- A number after its sign. -/
def readUnsigned (negative : Bool) (text : List Char) : Option (Json × List Char) :=
  match readWord? "Infinity" text, readWord? "NaN" text with
  | some rest, _ => some (.null, rest)
  | none, some rest => some (.null, rest)
  | none, none =>
    match text with
    | '0' :: x :: rest =>
      if x == 'x' || x == 'X' then
        let digits := rest.takeWhile fun c => (Radix.digit? c).isSome
        if digits = [] then none
        else (Radix.nat? 16 digits).map fun n => (ofWhole negative n, rest.drop digits.length)
      else decimal ('0' :: x :: rest)
    | _ => decimal text
where
  /-- Digits with an optional point and exponent; a leading zero stands alone. -/
  decimal (text : List Char) : Option (Json × List Char) := do
    let whole := text.takeWhile Char.isDigit
    if 1 < whole.length ∧ whole.head? = some '0' then none
    let (point, fraction, rest) := readFraction (text.drop whole.length)
    if whole = [] ∧ fraction = [] then none
    let (exponent, rest) ← readExponent rest
    match point, exponent with
    | false, none => some (ofWhole negative (Decimal.natOfDigits whole), rest)
    | _, _ =>
      let digits := Decimal.natOfDigits (whole ++ fraction)
      let x := Binary64.ofDecimal negative digits (exponent.getD 0 - fraction.length)
      some (ofBinary64 x, rest)

mutual

/-- A value, from its first character. -/
def readValue : Nat → List Char → Option (Json × List Char)
  | 0, _ => none
  | _ + 1, [] => none
  | fuel + 1, c :: rest =>
    match c with
    | '[' => do
      let rest ← skip rest
      match rest with
      | ']' :: rest => some (.array [], rest)
      | _ =>
        let (elements, rest) ← readElements fuel rest
        some (.array elements, rest)
    | '\x7b' => do
      let rest ← skip rest
      match rest with
      | '\x7d' :: rest => some (.object [], rest)
      | _ =>
        let (members, rest) ← readMembers fuel rest
        some (ofMembers members, rest)
    | '\x22' => (readString c rest).map fun (s, rest) => (.string s, rest)
    | '\x27' => (readString c rest).map fun (s, rest) => (.string s, rest)
    | '-' => readUnsigned true rest
    | '+' => readUnsigned false rest
    | _ =>
      match readWord? "null" (c :: rest), readWord? "true" (c :: rest),
        readWord? "false" (c :: rest) with
      | some rest, _, _ => some (.null, rest)
      | _, some rest, _ => some (.bool true, rest)
      | _, _, some rest => some (.bool false, rest)
      | _, _, _ => readUnsigned false (c :: rest)

/-- Elements up to the closing bracket; a comma may end them. -/
def readElements : Nat → List Char → Option (List Json × List Char)
  | 0, _ => none
  | fuel + 1, text => do
    let (value, rest) ← readValue fuel text
    match ← skip rest with
    | ']' :: rest => some ([value], rest)
    | ',' :: rest =>
      match ← skip rest with
      | ']' :: rest => some ([value], rest)
      | rest =>
        let (values, rest) ← readElements fuel rest
        some (value :: values, rest)
    | _ => none

/-- Members up to the closing brace; a comma may end them. -/
def readMembers : Nat → List Char → Option (List (String × Json) × List Char)
  | 0, _ => none
  | fuel + 1, text => do
    let (name, rest) ← readName text
    match ← skip rest with
    | ':' :: rest =>
      let (value, rest) ← readValue fuel (← skip rest)
      match ← skip rest with
      | '\x7d' :: rest => some ([(name, value)], rest)
      | ',' :: rest =>
        match ← skip rest with
        | '\x7d' :: rest => some ([(name, value)], rest)
        | rest =>
          let (members, rest) ← readMembers fuel rest
          some ((name, value) :: members, rest)
      | _ => none
    | _ => none

end

end Reader

/-- The value a text holds, with nothing but blanks and comments around it. -/
def read? (text : String) : Option Json := do
  let chars := text.toList
  let start ← Reader.skip chars
  let (value, rest) ← Reader.readValue (chars.length + 1) start
  if (← Reader.skip rest) = [] then some value else none

end Json
end DownloadQuery

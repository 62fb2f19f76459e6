import DownloadQuery.Number.Radix
import DownloadQuery.Pattern.Regex
import DownloadQuery.Text.Script

/-!
# Escapes of regular expressions

What a backslash and the characters after it stand for: a character, a class of characters, or a
condition on a position.
-/

namespace DownloadQuery
namespace Regex

/-- The modes an expression may switch. -/
structure Modes where
  ignoreCase : Bool
  multiLine : Bool
  dotAll : Bool
  unicode : Bool
  verbose : Bool
  crlf : Bool
  deriving DecidableEq, Repr

/-- What an escape or a plain character stands for. -/
inductive Atom where
  /-- A character; `byte` tells one that was written as two hexadecimal digits. -/
  | char (code : Nat) (byte : Bool)
  | set (s : CodeSet)
  | look (k : Look)
  deriving DecidableEq, Repr

/-- Characters with a meaning of their own, which a backslash takes away. -/
def isMeta (c : Char) : Bool := "\\.+*?()|[]\x7b\x7d^$#&-~".toList.contains c

/-- Characters that may be escaped though they need not. -/
def isEscapable (c : Char) : Bool :=
  isMeta c || (c.toNat < 0x80 && !c.isAlphanum && c != '<' && c != '>')

/-- The code of a character in hexadecimal digits. -/
def hexCode? (digits : List Char) : Option Nat := do
  if digits = [] ∨ 8 < (digits.dropWhile (· == '0')).length then none
  let code ← Radix.nat? 16 digits
  if code.isValidChar then some code else none

/-- Skips blanks and comments in verbose mode. -/
def skipVerbose (m : Modes) (text : List Char) : List Char :=
  if m.verbose then go false text else text
where
  go : (inComment : Bool) → List Char → List Char
  | _, [] => []
  | true, c :: rest => go (c != '\n') rest
  | false, c :: rest =>
    if Text.isBlank c then go false rest
    else if c == '#' then go true rest
    else c :: rest

/-- A hexadecimal escape after its letter: some digits, or any number of them in braces. -/
def readHex (m : Modes) (count : Nat) (text : List Char) : Option (Atom × List Char) :=
  match skipVerbose m text with
  | [] => none
  | '\x7b' :: rest =>
    let digits := rest.takeWhile (· != '\x7d')
    match rest.drop digits.length with
    | [] => none
    | _ :: rest =>
      (hexCode? (digits.filter fun c => !(m.verbose && Text.isBlank c))).map
        fun code => (.char code false, rest)
  | text =>
    let digits := text.take count
    if digits.length = count then
      (hexCode? digits).map fun code => (.char code (count == 2), text.drop count)
    else none

/-- The name of a class without marks, blanks and case. -/
def plainName (name : List Char) : String :=
  let plain := name.filterMap fun c =>
    if c == '_' || c == '-' || c == ' ' then none else some c.toLower
  match plain with
  | 'i' :: 's' :: rest => if rest = [] ∨ rest = ['c'] then String.ofList plain else String.ofList rest
  | _ => String.ofList plain

/-- The categories a name stands for. -/
def categories? : String → Option (List Text.Category)
  | "l" | "letter" =>
    some [.uppercaseLetter, .lowercaseLetter, .titlecaseLetter, .modifierLetter, .otherLetter]
  | "lc" | "casedletter" => some [.uppercaseLetter, .lowercaseLetter, .titlecaseLetter]
  | "lu" | "uppercaseletter" => some [.uppercaseLetter]
  | "ll" | "lowercaseletter" => some [.lowercaseLetter]
  | "lt" | "titlecaseletter" => some [.titlecaseLetter]
  | "lm" | "modifierletter" => some [.modifierLetter]
  | "lo" | "otherletter" => some [.otherLetter]
  | "m" | "mark" | "combiningmark" => some [.nonspacingMark, .spacingMark, .enclosingMark]
  | "mn" | "nonspacingmark" => some [.nonspacingMark]
  | "mc" | "spacingmark" => some [.spacingMark]
  | "me" | "enclosingmark" => some [.enclosingMark]
  | "n" | "number" => some [.decimalNumber, .letterNumber, .otherNumber]
  | "nd" | "decimalnumber" | "digit" => some [.decimalNumber]
  | "nl" | "letternumber" => some [.letterNumber]
  | "no" | "othernumber" => some [.otherNumber]
  | "p" | "punctuation" | "punct" =>
    some [.connectorPunctuation, .dashPunctuation, .openPunctuation, .closePunctuation,
      .initialPunctuation, .finalPunctuation, .otherPunctuation]
  | "pc" | "connectorpunctuation" => some [.connectorPunctuation]
  | "pd" | "dashpunctuation" => some [.dashPunctuation]
  | "ps" | "openpunctuation" => some [.openPunctuation]
  | "pe" | "closepunctuation" => some [.closePunctuation]
  | "pi" | "initialpunctuation" => some [.initialPunctuation]
  | "pf" | "finalpunctuation" => some [.finalPunctuation]
  | "po" | "otherpunctuation" => some [.otherPunctuation]
  | "s" | "symbol" => some [.mathSymbol, .currencySymbol, .modifierSymbol, .otherSymbol]
  | "sm" | "mathsymbol" => some [.mathSymbol]
  | "sc" | "currencysymbol" => some [.currencySymbol]
  | "sk" | "modifiersymbol" => some [.modifierSymbol]
  | "so" | "othersymbol" => some [.otherSymbol]
  | "z" | "separator" => some [.spaceSeparator, .lineSeparator, .paragraphSeparator]
  | "zs" | "spaceseparator" => some [.spaceSeparator]
  | "zl" | "lineseparator" => some [.lineSeparator]
  | "zp" | "paragraphseparator" => some [.paragraphSeparator]
  | "c" | "other" => some [.control, .format, .privateUse, .unassigned]
  | "cc" | "control" | "cntrl" => some [.control]
  | "cf" | "format" => some [.format]
  | "co" | "privateuse" => some [.privateUse]
  | "cn" | "unassigned" => some [.unassigned]
  | _ => none

/-- The class a Unicode name stands for. -/
def namedSet? (name : String) : Option CodeSet :=
  match name with
  | "any" => some (.compl .empty)
  | "ascii" => some (.ranges [(0, 0x7F)])
  | "assigned" => some (.compl (.property (.anyOf [.unassigned])))
  | "alphabetic" | "alpha" =>
    some (.union (.ranges Text.letterlike) (.property (.anyOf
      [.uppercaseLetter, .lowercaseLetter, .titlecaseLetter, .modifierLetter, .otherLetter,
       .letterNumber])))
  | "lowercase" | "lower" => some (.property .lowercase)
  | "uppercase" | "upper" => some (.property .uppercase)
  | "whitespace" | "wspace" | "space" => some (.property .blank)
  | _ =>
    match categories? name with
    | some categories => some (.property (.anyOf categories))
    | none => (Text.Script.ranges? name).map .ranges

/-- A named class: its name alone, or the kind of name, a sign, and the name. -/
def namedSetOf? (name : List Char) : Option CodeSet :=
  let key := name.takeWhile fun c => c != '=' && c != ':' && c != '!'
  match name.drop key.length with
  | [] => namedSet? (plainName name)
  | '!' :: '=' :: value => (lookUp (plainName key) (plainName value)).map .compl
  | '!' :: _ => none
  | _ :: value => lookUp (plainName key) (plainName value)
where
  lookUp (key value : String) : Option CodeSet :=
    if key = "gc" ∨ key = "generalcategory" then
      (categories? value).map fun categories => .property (.anyOf categories)
    else if key = "sc" ∨ key = "script" ∨ key = "scx" ∨ key = "scriptextensions" then
      (Text.Script.ranges? value).map .ranges
    else none

/-- A set in the letter case mode. -/
def inCase (m : Modes) (s : CodeSet) : CodeSet :=
  if m.ignoreCase then s.fold m.unicode else s

/-- A Unicode class after `\p` or `\P`. -/
def readNamed (m : Modes) (negated : Bool) (text : List Char) : Option (Atom × List Char) := do
  if !m.unicode then none
  let finish (s : CodeSet) : Atom :=
    .set (if negated then .compl (inCase m s) else inCase m s)
  match skipVerbose m text with
  | [] => none
  | '\x7b' :: rest =>
    let name := rest.takeWhile (· != '\x7d')
    match rest.drop name.length with
    | [] => none
    | _ :: rest => some (finish (← namedSetOf? name), rest)
  | c :: rest => if c == '\\' then none else some (finish (← namedSet? (plainName [c])), rest)

/-- The class of a letter like `\d`. Without Unicode a negated one would match parts of characters. -/
def shorthand? (m : Modes) (c : Char) : Option CodeSet :=
  let base : CodeSet :=
    match c.toLower with
    | 'd' => if m.unicode then .property .digit else .ranges [(0x30, 0x39)]
    | 's' => if m.unicode then .property .blank else .ranges [(9, 13), (32, 32)]
    | _ =>
      if m.unicode then .property .word
      else .ranges [(0x30, 0x39), (0x41, 0x5A), (0x5F, 0x5F), (0x61, 0x7A)]
  if c.isUpper then (if m.unicode then some (.compl base) else none) else some base

/-- The word conditions that have a name in braces; none in the outer option is a fault. -/
def readWordLook (m : Modes) (text : List Char) : Option (Atom × List Char) :=
  let plain : Option (Atom × List Char) := some (.look (.wordEdge m.unicode), text)
  let isNameChar (c : Char) := c.isAlpha || c == '-'
  match text with
  | '\x7b' :: rest =>
    match skipVerbose m rest with
    | [] => none
    | first :: _ =>
      if !isNameChar first then plain
      else
        let visible := if m.verbose then rest.filter (!Text.isBlank ·) else rest
        let name := String.ofList (visible.takeWhile isNameChar)
        match visible.dropWhile isNameChar with
        | '\x7d' :: _ =>
          let after := (rest.dropWhile (· != '\x7d')).drop 1
          match name with
          | "start" => some (.look (.wordStart m.unicode), after)
          | "end" => some (.look (.wordEnd m.unicode), after)
          | "start-half" => some (.look (.wordStartHalf m.unicode), after)
          | "end-half" => some (.look (.wordEndHalf m.unicode), after)
          | _ => none
        | _ => none
  | _ => plain

/-- What follows a backslash. -/
def readEscape (m : Modes) : List Char → Option (Atom × List Char)
  | [] => none
  | c :: rest =>
    match c with
    | 'x' => readHex m 2 rest
    | 'u' => readHex m 4 rest
    | 'U' => readHex m 8 rest
    | 'p' => readNamed m false rest
    | 'P' => readNamed m true rest
    | 'd' | 's' | 'w' | 'D' | 'S' | 'W' => (shorthand? m c).map fun s => (.set s, rest)
    | 'a' => some (.char 7 false, rest)
    | 'f' => some (.char 12 false, rest)
    | 't' => some (.char 9 false, rest)
    | 'n' => some (.char 10 false, rest)
    | 'r' => some (.char 13 false, rest)
    | 'v' => some (.char 11 false, rest)
    | 'A' => some (.look .textStart, rest)
    | 'z' => some (.look .textEnd, rest)
    | 'b' => readWordLook m rest
    | 'B' => some (.look (.notWordEdge m.unicode), rest)
    | '<' => some (.look (.wordStart m.unicode), rest)
    | '>' => some (.look (.wordEnd m.unicode), rest)
    | _ => if isEscapable c then some (.char c.toNat false, rest) else none

end Regex
end DownloadQuery

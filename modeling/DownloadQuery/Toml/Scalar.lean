import DownloadQuery.Calendar.Date
import DownloadQuery.Number.Decimal
import DownloadQuery.Number.Radix
import DownloadQuery.Text.Split
import DownloadQuery.Toml.Value

/-!
# TOML words

The values that are written without quotes: truth values, numbers, dates and times of day.
-/

namespace DownloadQuery
namespace Toml

/-- Characters of words. -/
def isWordChar (c : Char) : Bool :=
  c.isAlphanum || c == '_' || c == '+' || c == '-' || c == '.' || c == ':'

/-- Digits without the underscores between them; an underscore stands between two digits. -/
def digits? (base : Nat) (text : List Char) : Option (List Char) :=
  let pieces := Text.splitAt '_' text
  let isRun (piece : List Char) := piece ≠ [] ∧ piece.all fun c => (Radix.digitOf? base c).isSome
  if ∀ piece ∈ pieces, isRun piece then some pieces.flatten else none

/-- Decimal digits without underscores; a leading zero stands alone. -/
def wholeDigits? (text : List Char) : Option (List Char) :=
  (digits? 10 text).filter fun digits => digits.head? != some '0' || digits.length == 1

/-- An integer: decimal with an optional sign, or digits of another base after its mark. -/
def integer? (word : List Char) : Option Int :=
  let based (base : Nat) (digits : List Char) : Option Int := do
    return ((← Radix.nat? base (← digits? base digits)) : Int)
  match word with
  | '0' :: 'x' :: rest => based 16 rest
  | '0' :: 'o' :: rest => based 8 rest
  | '0' :: 'b' :: rest => based 2 rest
  | _ => do
    let (negative, body) := Decimal.splitSign word
    let n := Decimal.natOfDigits (← wholeDigits? body)
    return if negative then -n else n

/-- Characters of runs of digits. -/
def isRunChar (c : Char) : Bool := c.isDigit || c == '_'

/-- The digits after a point, if there is one, and what follows. -/
def fraction? : List Char → Option (List Char × List Char)
  | '.' :: rest => (digits? 10 (rest.takeWhile isRunChar)).map (·, rest.dropWhile isRunChar)
  | [] => none
  | text => some ([], text)

/-- The exponent after its mark, nothing being zero. -/
def exponent? : List Char → Option Int
  | [] => some 0
  | mark :: rest => do
    if mark != 'e' && mark != 'E' then none
    let (negative, body) := Decimal.splitSign rest
    let n := Decimal.natOfDigits (← digits? 10 body)
    return if negative then -n else n

/-- A number with a point, an exponent or both. It must not be too large. -/
def decimal? (negative : Bool) (body : List Char) : Option Binary64 := do
  let whole ← wholeDigits? (body.takeWhile isRunChar)
  let (fraction, rest) ← fraction? (body.dropWhile isRunChar)
  let exponent ← exponent? rest
  let digits := Decimal.natOfDigits (whole ++ fraction)
  match Binary64.ofDecimal negative digits (exponent - fraction.length) with
  | .infinite _ => none
  | x => some x

/-- A number that is no integer, infinity or NaN. -/
def float? (word : List Char) : Option Binary64 :=
  let (negative, body) := Decimal.splitSign word
  if body = "inf".toList then some (.infinite negative)
  else if body = "nan".toList then some .nan
  else decimal? negative body

/-- A number of exactly so many figures, at most the greatest. -/
def figures? (count greatest : Nat) (text : List Char) : Option (Nat × List Char) := do
  let figures := text.take count
  if figures.length < count ∨ !figures.all Char.isDigit then none
  let n := Decimal.natOfDigits figures
  if greatest < n then none
  return (n, text.drop count)

/-- What follows a date. -/
def afterDate? (text : List Char) : Option (List Char) := do
  let (year, rest) ← figures? 4 9999 text
  let (month, rest) ← figures? 2 12 (← Text.stripFront? ['-'] rest)
  let (day, rest) ← figures? 2 31 (← Text.stripFront? ['-'] rest)
  let _ ← Date.ofParts? year month day
  return rest

/-- What follows a time of day, whose seconds and their fraction may be left out. -/
def afterTime? (text : List Char) : Option (List Char) := do
  let (_, rest) ← figures? 2 23 text
  let (_, rest) ← figures? 2 59 (← Text.stripFront? [':'] rest)
  match rest with
  | ':' :: rest =>
    let (_, rest) ← figures? 2 60 rest
    match rest with
    | '.' :: rest =>
      let fraction := rest.takeWhile Char.isDigit
      if fraction = [] then none
      return rest.drop fraction.length
    | rest => return rest
  | rest => return rest

/-- Whether a text is nothing or the distance of a zone from UTC. -/
def isOffset : List Char → Bool
  | [] | ['Z'] | ['z'] => true
  | sign :: rest =>
    (sign == '+' || sign == '-') &&
      (do
        let (_, rest) ← figures? 2 23 rest
        let (_, rest) ← figures? 2 59 (← Text.stripFront? [':'] rest)
        return rest) == some []

/-- Whether a word is a date, a time of day, or both with the offset of a zone. -/
def isMoment (word : List Char) : Bool :=
  match afterDate? word with
  | some [] => true
  | some (mark :: rest) =>
    (mark == 'T' || mark == 't' || mark == ' ') && ((afterTime? rest).map isOffset).getD false
  | none => afterTime? word == some []

/-- The value of a word. -/
def ofWord? (word : List Char) : Option Toml :=
  if word = "true".toList then some (.bool true)
  else if word = "false".toList then some (.bool false)
  else
    match integer? word, float? word with
    | some n, _ => if -Int.pow 2 63 ≤ n ∧ n < Int.pow 2 64 then some (.integer n) else none
    | none, some x => some (.float x)
    | none, none => if isMoment word then some (.moment (String.ofList word)) else none

/-- Takes a word off the front; the time after a date may follow a space. -/
def splitWord (text : List Char) : List Char × List Char :=
  let word := text.takeWhile isWordChar
  let rest := text.drop word.length
  match rest with
  | ' ' :: c :: rest' =>
    if afterDate? word = some [] ∧ c.isDigit then
      let time := (c :: rest').takeWhile isWordChar
      (word ++ ' ' :: time, (c :: rest').drop time.length)
    else (word, rest)
  | _ => (word, rest)

/-- A word off the front of a text and its value. -/
def readWord (text : List Char) : Option (Toml × List Char) :=
  let (word, rest) := splitWord text
  (ofWord? word).map (·, rest)

end Toml
end DownloadQuery

import DownloadQuery.Number.Binary64
import DownloadQuery.Number.Whole

/-!
# Decimal numbers

Reading a binary64 number from decimal text: an optional sign, then a name (`inf`, `infinity` or
`nan`, in any letter case), or digits with an optional point and an optional exponent. At least one
digit stands before the exponent.
-/

namespace DownloadQuery

/-- Why a text is no decimal number. -/
inductive DecimalError where
  | empty
  | invalid
  deriving DecidableEq, Repr

namespace DecimalError

def message : DecimalError → String
  | .empty => "cannot parse float from empty string"
  | .invalid => "invalid float literal"

end DecimalError

namespace Decimal

/-- The value of a run of digits. -/
def natOfDigits (digits : List Char) : Nat :=
  digits.foldl (fun n c => 10 * n + (c.toNat - '0'.toNat)) 0

/-- Splits a leading sign off; the flag says whether it is a minus. -/
def splitSign : List Char → Bool × List Char
  | '-' :: rest => (true, rest)
  | '+' :: rest => (false, rest)
  | text => (false, text)

/-- The exponent part: nothing, or a mark followed by an optionally signed run of digits. -/
def readExponent : List Char → Option Int
  | [] => some 0
  | mark :: rest =>
    if mark = 'e' ∨ mark = 'E' then
      let (negative, digits) := splitSign rest
      if digits ≠ [] ∧ digits.all Whole.isDigit then
        some (if negative then -(natOfDigits digits : Int) else natOfDigits digits)
      else none
    else none

/-- An unsigned number with a point or an exponent. -/
def readUnsigned (negative : Bool) (text : List Char) : Option Binary64 :=
  let whole := text.takeWhile Whole.isDigit
  let rest := text.dropWhile Whole.isDigit
  let (fraction, rest) :=
    match rest with
    | '.' :: after => (after.takeWhile Whole.isDigit, after.dropWhile Whole.isDigit)
    | _ => ([], rest)
  if whole = [] ∧ fraction = [] then none
  else (readExponent rest).map fun exponent =>
    Binary64.ofDecimal negative (natOfDigits (whole ++ fraction)) (exponent - fraction.length)

/-- The number a text stands for. -/
def read (text : List Char) : Except DecimalError Binary64 :=
  if text = [] then .error .empty
  else
    let (negative, body) := splitSign text
    let name := body.map Char.toLower
    if name = "inf".toList ∨ name = "infinity".toList then .ok (.infinite negative)
    else if name = "nan".toList then .ok .nan
    else
      match readUnsigned negative body with
      | some x => .ok x
      | none => .error .invalid

end Decimal
end DownloadQuery

import DownloadQuery.Calendar.Delta
import DownloadQuery.Field.Basic
import DownloadQuery.Pattern.TextPattern

/-!
# Telling what a literal means

Fields without a type of their own are compared as the literal suggests: like a number, a truth
value, a size in bytes, a time span, or else a text.
-/

namespace DownloadQuery
namespace Family

/-- The letters after a size in bytes, and the powers of 1024 they stand for. -/
def byteUnits : List (Char × Nat) := [('b', 0), ('k', 1), ('m', 2), ('g', 3)]

/-- A literal in lower case without its sign. -/
def plainLiteral (literal : String) : List Char :=
  match Text.lowerChars literal.toList with
  | '+' :: rest => rest
  | '-' :: rest => rest
  | text => text

/-- Digits with at most one point. -/
def isNumberLike (text : List Char) : Bool :=
  text.any Whole.isDigit && text.all (fun c => Whole.isDigit c || c == '.') &&
    text.count '.' ≤ 1

/-- Digits and the letter of a unit. -/
def isSizeLike (text : List Char) : Bool :=
  match text.getLast? with
  | some unit =>
    1 < text.length && byteUnits.any (·.1 == unit) && text.dropLast.all Whole.isDigit
  | none => false

/-- The family that a literal suggests. -/
def ofLiteral (literal : String) : Family :=
  let text := plainLiteral literal
  if text = [] || (TextPattern.regexBody? text).isSome then .pattern
  else if isNumberLike text then .float
  else if literal ∈ Truth.trueWords ++ Truth.falseWords then .bool
  else if isSizeLike text then .byteSize
  else if (Delta.read? text).isSome then .time
  else .pattern

end Family
end DownloadQuery

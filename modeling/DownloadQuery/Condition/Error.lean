import DownloadQuery.Calendar.DateLiteral
import DownloadQuery.Calendar.Delta
import DownloadQuery.Field.Error
import DownloadQuery.Field.Truth
import DownloadQuery.Number.Decimal
import DownloadQuery.Pattern.TextPattern

/-!
# Errors of conditions

Why a condition cannot be read.
-/

namespace DownloadQuery

/-- Why a literal does not suit its field. -/
inductive LiteralFault where
  | pattern (e : PatternError)
  | noTruth
  | noNumber (text : String) (e : DecimalError)
  | noSpan (text : String) (e : DeltaError)
  | noDate (text : String) (e : DateError)
  deriving DecidableEq, Repr

namespace LiteralFault

/-- What the literal was to be. -/
def wanted : LiteralFault → String
  | .pattern (.regex _) => "regex"
  | .pattern (.glob _ _) => "glob"
  | .noTruth => "boolean"
  | .noNumber _ _ => "numerical"
  | .noSpan _ _ => "timestamp"
  | .noDate _ _ => "timestamp"

/-- The part of the literal that is at fault. -/
def part (literal : String) : LiteralFault → String
  | .pattern (.regex body) => body
  | .pattern (.glob _ _) => literal
  | .noTruth => literal
  | .noNumber text _ => text
  | .noSpan text _ => text
  | .noDate text _ => text

def quotedWords (words : List String) : String := "'" ++ "' '".intercalate words ++ "'"

/-- The reason that follows the literal in a message. -/
def reason : LiteralFault → String
  | .pattern (.regex _) => ""
  | .pattern (.glob text fault) => s!" (error parsing glob '{text}': " ++ fault.message ++ ")"
  | .noTruth =>
    " (expected one of " ++ quotedWords Truth.trueWords ++ ", or " ++
      quotedWords Truth.falseWords ++ ")"
  | .noNumber _ e => " (" ++ e.message ++ ")"
  | .noSpan _ e => " (" ++ e.message ++ ")"
  | .noDate _ e => " (" ++ e.message ++ ")"

end LiteralFault

inductive ConditionError where
  | empty
  | danglingNot
  | unterminatedQuote (text : String)
  | missingFieldName (condition : String)
  | unknownField (field condition : String)
  | notFilterable (field : String)
  | badField (field condition : String) (e : FieldError)
  | ambiguousSign (sign : Char) (condition : String)
  | noValues (values condition : String)
  | badValue (field literal : String) (fault : LiteralFault)
  | tooManyClosing (text : String)
  | tooManyOpening (text : String)
  | missingLeftOperand (text : String)
  | missingRightOperand (text : String)
  deriving DecidableEq, Repr

namespace ConditionError

def message : ConditionError → String
  | .empty => "No conditions given at all!"
  | .danglingNot => "NOT must be followed by some conditions!"
  | .unterminatedQuote text => s!"Unterminated quote in '{text}'"
  | .missingFieldName condition => s!"Field name missing in '{condition}' (expected '=')"
  | .unknownField field condition => s!"Unknown field '{field}' in '{condition}'"
  | .notFilterable field => s!"Field '{field}' cannot be used as a filter"
  | .badField field condition e => s!"Bad field '{field}' in '{condition}': " ++ e.message
  | .ambiguousSign sign condition =>
    s!"Comparison operator cannot be followed by '{sign}' in '{condition}'"
  | .noValues values condition => s!"Cannot split '{values}' into match values in '{condition}'"
  | .badValue field literal fault =>
    "Bad " ++ fault.wanted ++ " value '" ++ fault.part literal ++
      s!"' in '{field}={literal}'" ++ fault.reason
  | .tooManyClosing text => s!"Unbalanced brackets, too many closing ']' in condition '{text}'"
  | .tooManyOpening text => s!"Unbalanced brackets, too many open '[' in condition '{text}'"
  | .missingLeftOperand text => s!"Left-hand side of OR missing in '{text}'!"
  | .missingRightOperand text => s!"Right-hand side of OR missing in '{text}'!"

/-- The field the error is about, where it is about one. -/
def field? : ConditionError → Option String
  | .unknownField field _ => some field
  | .notFilterable field => some field
  | .badField field _ _ => some field
  | .badValue field _ _ => some field
  | _ => none

end ConditionError
end DownloadQuery

import DownloadQuery.Text.Split

/-!
# Operators in conditions

A condition may compare a field inline, as in `size>4g`. The operator is a short form of a sign, a
negation or slashes in front of the values.
-/

namespace DownloadQuery

inductive Operator where
  | less
  | lessOrEqual
  | greater
  | greaterOrEqual
  | different
  | regex
  deriving DecidableEq, Repr

namespace Operator

/-- The letters a field name may start with. -/
def startsName (c : Char) : Bool := c.isAlpha || c == '_'

def continuesName (c : Char) : Bool := startsName c || c.isDigit

/-- The operator at the front of a text, the longest that fits. -/
def read? : List Char → Option (Operator × List Char)
  | '<' :: '>' :: rest => some (.different, rest)
  | '<' :: '=' :: rest => some (.lessOrEqual, rest)
  | '<' :: rest => some (.less, rest)
  | '>' :: '=' :: rest => some (.greaterOrEqual, rest)
  | '>' :: rest => some (.greater, rest)
  | '!' :: '=' :: rest => some (.different, rest)
  | '~' :: rest => some (.regex, rest)
  | _ => none

/-- The field name, the operator and the values of an inline comparison. The values have no line
feed. -/
def readInline? (condition : List Char) : Option (List Char × Operator × List Char) :=
  let name := condition.takeWhile continuesName
  if name.head?.any startsName then
    match read? (condition.drop name.length) with
    | some (op, values) => if values.contains '\n' then none else some (name, op, values)
    | none => none
  else none

/-- The values with the operator written as a part of them. -/
def apply (op : Operator) (values : List Char) : List Char :=
  match op with
  | .less => '-' :: values
  | .lessOrEqual => '!' :: '+' :: values
  | .greater => '+' :: values
  | .greaterOrEqual => '!' :: '-' :: values
  | .different => '!' :: values
  | .regex => '/' :: values ++ ['/']

end Operator
end DownloadQuery

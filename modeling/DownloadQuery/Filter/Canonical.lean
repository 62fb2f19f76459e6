import DownloadQuery.Condition.Token
import DownloadQuery.Filter.Basic

/-!
# Canonical text

Writing a filter as a condition. Alternatives that are all leaves of one field are written as one
condition with several values; other alternatives stand between brackets.
-/

namespace DownloadQuery
namespace Filter

/-- The field that all members compare, if they are leaves of one field. -/
def commonField? (members : List Filter) : Option String :=
  match members.map parts? with
  | some (name, _) :: rest => if rest.all fun p => p.map (·.1) == some name then some name else none
  | _ => none

/-- One condition on a field for any of the values of leaves. -/
def valueList (field : String) (members : List Filter) : String :=
  field ++ "=" ++ ",".intercalate ((members.filterMap parts?).map (·.2))

mutual

/-- The canonical text of a filter. -/
def text : Filter → String
  | .leaf l => Token.write (l.field.name ++ "=" ++ l.literal)
  | .all members => " ".intercalate (texts members)
  | .any members =>
    match commonField? members with
    | some field => Token.write (valueList field members)
    | none => "[ " ++ " OR ".intercalate (texts members) ++ " ]"
  | .not inner =>
    match inner.parts? with
    | some (name, literal) => Token.write (name ++ "=!" ++ literal)
    | none =>
      if inner.isCompound then "[ NOT [ " ++ text inner ++ " ] ]"
      else "[ NOT " ++ text inner ++ " ]"

def texts : List Filter → List String
  | [] => []
  | f :: rest => text f :: texts rest

end

end Filter
end DownloadQuery

import DownloadQuery.Filter.Leaf

/-!
# Filters

Leaves combined: all must match, any may match, or one must not. Operands are tried in order until
one decides; the error of an operand that is tried is the error of the whole.
-/

namespace DownloadQuery

inductive Filter where
  | leaf (l : Leaf)
  | all (members : List Filter)
  | any (members : List Filter)
  | not (inner : Filter)
  deriving Repr

namespace Filter

mutual

/-- Whether an item matches. -/
def isMatch (scene : Scene) : Filter → Reading → Except (Halt FieldError) Bool × Reading
  | .leaf l, r => l.isMatch scene r
  | .all members, r => allMatch scene members r
  | .any members, r => anyMatch scene members r
  | .not inner, r =>
    match isMatch scene inner r with
    | (.ok b, r) => (.ok !b, r)
    | failed => failed

def allMatch (scene : Scene) : List Filter → Reading → Except (Halt FieldError) Bool × Reading
  | [], r => (.ok true, r)
  | f :: rest, r =>
    match isMatch scene f r with
    | (.ok true, r) => allMatch scene rest r
    | decided => decided

def anyMatch (scene : Scene) : List Filter → Reading → Except (Halt FieldError) Bool × Reading
  | [], r => (.ok false, r)
  | f :: rest, r =>
    match isMatch scene f r with
    | (.ok false, r) => anyMatch scene rest r
    | decided => decided

end

def isCompound : Filter → Bool
  | .all _ => true
  | .any _ => true
  | _ => false

/-- Whether this is a plain leaf. -/
def isLeaf : Filter → Bool
  | .leaf _ => true
  | _ => false

/-- The field name and the literal of a leaf. -/
def parts? : Filter → Option (String × String)
  | .leaf l => some (l.field.name, l.literal)
  | _ => none

end Filter
end DownloadQuery

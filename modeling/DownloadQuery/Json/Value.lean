import DownloadQuery.Number.Binary64

/-!
# JSON values

Values as items hold them. Integers and other numbers are kept apart; an object holds its members in
ascending order of their names, each name once.
-/

namespace DownloadQuery

inductive Json where
  | null
  | bool (b : Bool)
  /-- An integer from `-2^63` to `2^64 - 1`. -/
  | integer (n : Int)
  /-- A finite number that was not written as an integer in that range. -/
  | number (x : Binary64)
  | string (s : String)
  | array (elements : List Json)
  | object (members : List (String × Json))
  deriving Repr, Inhabited

namespace Json

/-- Adds a member in its place; one of the same name is replaced. -/
def insertMember (name : String) (value : Json) : List (String × Json) → List (String × Json)
  | [] => [(name, value)]
  | (n, v) :: rest =>
    if name = n then (name, value) :: rest
    else if name < n then (name, value) :: (n, v) :: rest
    else (n, v) :: insertMember name value rest

/-- The object with these members; the last of a name counts. -/
def ofMembers (members : List (String × Json)) : Json :=
  .object (members.foldl (fun sorted (name, value) => insertMember name value sorted) [])

/-- The value of a name among members. -/
def member? (members : List (String × Json)) (name : String) : Option Json :=
  members.lookup name

/-- The value of a name, if this is an object that has it. -/
def get? (name : String) : Json → Option Json
  | .object members => member? members name
  | _ => none

/-- A number as JSON: a whole machine integer stays one, an infinite or undefined one is null. -/
def ofBinary64 : Binary64 → Json
  | .finite negative units => .number (.finite negative units)
  | _ => .null

/-- The numeric value of a number. -/
def toBinary64? : Json → Option Binary64
  | .integer n => some (Binary64.ofInt n)
  | .number x => some x
  | _ => none

/-- The value of an integer in the range of a signed 64-bit word. -/
def toInt64? : Json → Option Int
  | .integer n => if n < Int.pow 2 63 then some n else none
  | _ => none

def isNull : Json → Bool
  | .null => true
  | _ => false

end Json
end DownloadQuery

import DownloadQuery.Toml.Value

/-!
# Tables under construction

The tables of a document while it is read. How a table came to be decides what may still be added to
it: a table has one header, a dotted name reaches only into tables that no header gave, and values,
lists and tables in braces are closed.
-/

namespace DownloadQuery
namespace Toml

/-- How a table came to be. -/
inductive Origin where
  /-- By its own header. -/
  | header
  /-- On the way to the table of a header. -/
  | passed
  /-- On the way to the value of a dotted name. -/
  | dotted
  deriving DecidableEq, Repr

/-- What stands under a name. -/
inductive Node where
  | value (v : Toml)
  | table (origin : Origin) (entries : List (String × Node))
  /-- Tables with one header each; the last one is open. -/
  | tables (elements : List (List (String × Node)))
  deriving Repr, Inhabited

/-- What stands in a table, by name. -/
abbrev Draft := List (String × Node)

namespace Draft

/-- Puts a node under a name, in the place of the one that is there. -/
def put (name : String) (node : Node) : Draft → Draft
  | [] => [(name, node)]
  | (other, old) :: rest =>
    if other = name then (name, node) :: rest else (other, old) :: put name node rest

end Draft

namespace Node

/-- Changes the entries of a table, or those of the last of many. -/
def inside (change : Origin → Draft → Option Draft) : Node → Option Node
  | .value _ => none
  | .table origin entries => (change origin entries).map (.table origin)
  | .tables elements => do
    let last ← change .header (← elements.getLast?)
    return .tables (elements.dropLast ++ [last])

/-- Whether a dotted name may reach into a node. -/
def admitsDotted : Node → Bool
  | .table .header _ => false
  | _ => true

end Node

namespace Draft

/-- Changes what stands at a path. Tables that are missing on the way are made. -/
def change (way : Origin) (set : Origin → Option Node → Option Node) :
    (path : List String) → Origin → Draft → Option Draft
  | [], _, _ => none
  | [name], origin, entries => do
    return put name (← set origin (entries.lookup name)) entries
  | name :: path, _, entries => do
    let node := (entries.lookup name).getD (.table way [])
    if way = .dotted ∧ !node.admitsDotted then none
    else return put name (← node.inside (change way set path)) entries

/-- Gives a dotted name a value. The name must be new, and its table must have come to be by a dotted
name exactly if the name has a dot. -/
def define (v : Toml) (path : List String) : Origin → Draft → Option Draft :=
  change .dotted
    (fun origin there =>
      if there.isNone ∧ (origin = .dotted ↔ 1 < path.length) then some (.value v) else none)
    path

/-- Gives a dotted name a value in the table of the last header. -/
def defineIn (header : List String) (v : Toml) (path : List String) (root : Draft) :
    Option Draft :=
  match header with
  | [] => define v path .header root
  | _ => change .passed (fun _ there => there.bind (·.inside (define v path))) header .header root

/-- Opens a table by its header, once. -/
def openTable (header : List String) (root : Draft) : Option Draft :=
  change .passed
    (fun _ there =>
      match there with
      | none => some (.table .header [])
      | some (.table .passed entries) => some (.table .header entries)
      | some _ => none)
    header .header root

/-- Opens a further table of many. -/
def openElement (header : List String) (root : Draft) : Option Draft :=
  change .passed
    (fun _ there =>
      match there with
      | none => some (.tables [[]])
      | some (.tables elements) => some (.tables (elements ++ [[]]))
      | some _ => none)
    header .header root

end Draft

mutual

/-- The value of a node. -/
def Node.finish : Node → Toml
  | .value v => v
  | .table _ entries => .table (finishEntries entries)
  | .tables elements => .array (finishElements elements)

/-- The values of a table. -/
def finishEntries : List (String × Node) → List (String × Toml)
  | [] => []
  | (name, node) :: rest => (name, node.finish) :: finishEntries rest

/-- The values of many tables. -/
def finishElements : List (List (String × Node)) → List Toml
  | [] => []
  | entries :: rest => .table (finishEntries entries) :: finishElements rest

end

end Toml
end DownloadQuery

import DownloadQuery.Number.Binary64

/-!
# TOML values

The values of a configuration file.
-/

namespace DownloadQuery

inductive Toml where
  | string (s : String)
  | integer (n : Int)
  | float (x : Binary64)
  | bool (b : Bool)
  /-- A date, a time of day or both, as written. -/
  | moment (text : String)
  | array (elements : List Toml)
  /-- Values by key, in the order in which the keys came. -/
  | table (entries : List (String × Toml))
  deriving Repr, Inhabited

namespace Toml

def string? : Toml → Option String
  | .string s => some s
  | _ => none

def bool? : Toml → Option Bool
  | .bool b => some b
  | _ => none

def array? : Toml → Option (List Toml)
  | .array elements => some elements
  | _ => none

def table? : Toml → Option (List (String × Toml))
  | .table entries => some entries
  | _ => none

/-- A list of texts. -/
def strings? (v : Toml) : Option (List String) := v.array?.bind (·.mapM string?)

end Toml
end DownloadQuery

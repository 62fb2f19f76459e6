import DownloadQuery.Condition.Error

/-!
# Brackets in conditions

The tokens of a condition nested by their brackets.
-/

namespace DownloadQuery

/-- A token that is no bracket, or what stands between two brackets. -/
inductive Node where
  | term (token : String)
  | group (nodes : List Node)
  deriving Repr

namespace Node

/-- How the brackets of a condition fail to match. -/
inductive Unbalanced where
  | tooManyClosing
  | tooManyOpening
  deriving DecidableEq, Repr

namespace Unbalanced

/-- The error about a condition. -/
def error (u : Unbalanced) (text : String) : ConditionError :=
  match u with
  | .tooManyClosing => .tooManyClosing text
  | .tooManyOpening => .tooManyOpening text

end Unbalanced

/-- Nests tokens. The nodes of the innermost open bracket are `current`, those of the brackets around
it `outer`, innermost first; all are held last node first. -/
def nestFrom : (outer : List (List Node)) → (current : List Node) → List String →
    Except Unbalanced (List Node)
  | [], current, [] => .ok current.reverse
  | _ :: _, _, [] => .error .tooManyOpening
  | outer, current, token :: rest =>
    if token = "[" then nestFrom (current :: outer) [] rest
    else if token = "]" then
      match outer with
      | [] => .error .tooManyClosing
      | around :: outer => nestFrom outer (.group current.reverse :: around) rest
    else nestFrom outer (.term token :: current) rest

/-- The nodes of a condition. -/
def nest (tokens : List String) : Except Unbalanced (List Node) := nestFrom [] [] tokens

mutual

/-- The tokens of a node between blanks. -/
def text : Node → String
  | .term token => token
  | .group nodes => "[ " ++ " ".intercalate (texts nodes) ++ " ]"

def texts : List Node → List String
  | [] => []
  | n :: rest => text n :: texts rest

end

/-- The text of the nodes between two brackets. -/
def groupText (nodes : List Node) : String := " ".intercalate (texts nodes)

def isTerm (token : String) : Node → Bool
  | .term t => t == token
  | .group _ => false

end Node
end DownloadQuery

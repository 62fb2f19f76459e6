import DownloadQuery.Number.Binary64

/-!
# Comparisons

The three ways to compare numbers. A literal chooses one by its sign.
-/

namespace DownloadQuery

inductive Comparison where
  | equal
  | less
  | greater
  deriving DecidableEq, Repr

namespace Comparison

def label : Comparison → String
  | .equal => "equal"
  | .less => "less"
  | .greater => "greater"

/-- Splits the sign off a literal: plus asks for more, minus for less. -/
def splitSign : List Char → Comparison × List Char
  | '+' :: rest => (.greater, rest)
  | '-' :: rest => (.less, rest)
  | literal => (.equal, literal)

/-- Less and greater exchanged, as for times that are counted backwards. -/
def inverted : Comparison → Comparison
  | .equal => .equal
  | .less => .greater
  | .greater => .less

def holds (c : Comparison) (left right : Binary64) : Bool :=
  match c with
  | .equal => left.eq right
  | .less => left.lt right
  | .greater => right.lt left

@[simp] theorem inverted_inverted (c : Comparison) : c.inverted.inverted = c := by
  cases c <;> rfl

end Comparison
end DownloadQuery

/-!
# How computations end

A computation may fail with an error, which the program deals with. A sum of sizes that no 64-bit
word holds is no error: it ends the program at once.
-/

namespace DownloadQuery

/-- A sum is too great for a 64-bit word. -/
structure Overflow where
  deriving DecidableEq, Repr

/-- Why a computation has no result: an error, or a sum that is too great. -/
inductive Halt (ε : Type) where
  | error (e : ε)
  | overflow
  deriving DecidableEq, Repr

namespace Halt

def map {ε ε' : Type} (f : ε → ε') : Halt ε → Halt ε'
  | .error e => .error (f e)
  | .overflow => .overflow

/-- What fails with an error may be part of what ends in either way. -/
instance {ε : Type} : MonadLift (Except ε) (Except (Halt ε)) where
  monadLift x := x.mapError .error

/-- What adds up may be part of what ends in either way. -/
instance {ε : Type} : MonadLift (Except Overflow) (Except (Halt ε)) where
  monadLift x := x.mapError fun _ => .overflow

end Halt
end DownloadQuery

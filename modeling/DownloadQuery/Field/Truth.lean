import DownloadQuery.Text.Lower

/-!
# Words for truth

The words that stand for true and for false, in any letter case.
-/

namespace DownloadQuery
namespace Truth

def trueWords : List String := ["true", "t", "yes", "y", "1", "+"]

def falseWords : List String := ["false", "f", "no", "n", "0", "-"]

/-- The truth value a word stands for. -/
def ofWord? (word : String) : Option Bool :=
  let lowered := Text.lower word
  if lowered ∈ trueWords then some true
  else if lowered ∈ falseWords then some false
  else none

end Truth
end DownloadQuery

import DownloadQuery.Number.Notation

/-!
# Byte sizes for people

Below one KiB a size is a whole number of bytes; above, it is shown in the largest unit of which
there is at least one, with one decimal place. The unit is chosen before the number is rounded.
-/

namespace DownloadQuery
namespace Display

/-- A text moved right to fill a width. -/
def padLeft (width : Nat) (s : String) : String :=
  String.ofList (List.replicate (width - s.length) ' ') ++ s

/-- A size that is counted in the first of the units, or in a later one if there are 1024 or more. -/
def scaledSize (size : Binary64) : List String → String
  | [] => ""
  | [unit] => padLeft 6 (size / 1024).oneDecimal ++ " " ++ unit
  | unit :: larger =>
    let scaled := size / 1024
    if scaled.lt 1024 then padLeft 6 scaled.oneDecimal ++ " " ++ unit
    else scaledSize scaled larger

/-- The text of a size in bytes. -/
def size (bytes : Binary64) : String :=
  if bytes.lt 0 then "-??? bytes"
  else if bytes.lt 1024 then padLeft 4 (toString bytes.toNat64) ++ " bytes"
  else scaledSize bytes ["KiB", "MiB", "GiB"]

end Display
end DownloadQuery

import DownloadQuery.Text.Classes
import DownloadQuery.Text.LowerRuns

/-!
# Lower case

The full lower-case mapping of a text. All characters but two map on their own to one character:
`İ` becomes two, and `Σ` becomes `ς` at the end of a word and `σ` elsewhere.
-/

namespace DownloadQuery
namespace Text

/-- The lower-case form of a character that does not depend on its neighbours. -/
def lowerChar (c : Char) : List Char :=
  if c.toNat < 0x80 then [c.toLower]
  else if c = 'İ' then ['i', '\u0307']
  else [Char.ofNat (CaseRun.image lowerRuns c.toNat)]

/-- Whether the first character that casing does not look through has case. -/
def meetsCased (text : List Char) : Bool :=
  match text.dropWhile isCaseIgnorable with
  | [] => false
  | c :: _ => isCased c

/-- Whether a sigma between the texts ends a word; `before` is reversed. -/
def endsWord (before after : List Char) : Bool :=
  meetsCased before && !meetsCased after

/-- The lower-case form of a text that follows `before`, which is reversed. -/
def lowerFrom : (before : List Char) → List Char → List Char
  | _, [] => []
  | before, c :: rest =>
    let here :=
      if c = 'Σ' then (if endsWord before rest then ['ς'] else ['σ']) else lowerChar c
    here ++ lowerFrom (c :: before) rest

def lowerChars (text : List Char) : List Char := lowerFrom [] text

/-- The lower-case form of a text. -/
def lower (s : String) : String := String.ofList (lowerChars s.toList)

end Text
end DownloadQuery

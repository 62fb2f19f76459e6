import DownloadQuery.Text.Classes

/-!
# Quoted text

A text between double quotes as messages show it. Quotes, backslashes and common control characters
have short escapes; characters without a visible form of their own are written as their code.
-/

namespace DownloadQuery
namespace Text

/-- A character by its code, as `\u` and hexadecimal digits in braces. -/
def codeEscape (c : Char) : List Char :=
  "\\u\x7b".toList ++ Nat.toDigits 16 c.toNat ++ ['\x7d']

def quoteChar (c : Char) : List Char :=
  if c = '\x00' then ['\\', '0']
  else if c = '\t' then ['\\', 't']
  else if c = '\r' then ['\\', 'r']
  else if c = '\n' then ['\\', 'n']
  else if c = '\\' then ['\\', '\\']
  else if c = '\x22' then ['\\', '\x22']
  else if isExtender c || !isPrintable c then codeEscape c
  else [c]

/-- The text between double quotes. -/
def quoted (s : String) : String :=
  String.ofList ('\x22' :: s.toList.flatMap quoteChar ++ ['\x22'])

end Text
end DownloadQuery

import NativeBridge.Text.Hidden
import NativeBridge.Text.Hex
/-!
# Quoted text

A text between double quotes, as diagnostics show it. A quote and a backslash are marked by a backslash,
the four usual controls have a letter, and every other character without a shape of its own stands as its
code point in braces.
-/
namespace NativeBridge.Text

/-- A code point in braces, with as few lower-case digits as it needs. -/
def codePoint (c : Char) : String :=
  "\\u\x7b" ++ String.ofList (Nat.toDigits 16 c.toNat) ++ "\x7d"

/-- How one character stands inside quotes. -/
def quotedChar (c : Char) : String :=
  if c = '"' then "\\\""
  else if c = '\\' then "\\\\"
  else if c = '\n' then "\\n"
  else if c = '\r' then "\\r"
  else if c = '\t' then "\\t"
  else if c = '\x00' then "\\0"
  else if isHidden c then codePoint c
  else c.toString

/-- The text between double quotes. -/
def quoted (s : String) : String :=
  "\"" ++ String.join (s.toList.map quotedChar) ++ "\""

end NativeBridge.Text

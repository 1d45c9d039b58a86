/-
# Quoted text

A text in a message stands between double quotes. The quote, the backslash
and the common controls have short escapes; every other hidden character is
shown by its code point in hexadecimal, `\u{200b}`, without leading zeros.

Key definitions: `Text.shown`, `Text.quote`.
-/
import ClusterKit.Text.Hidden

namespace ClusterKit
namespace Text

/-- The digits of `n` in base sixteen, lower case. -/
def hexDigits (n : Nat) : List Char :=
  Nat.toDigits 16 n

/-- How one character stands inside a quoted text. -/
def shown (c : Char) : List Char :=
  if c = '"' then ['\\', '"']
  else if c = '\\' then ['\\', '\\']
  else if c = '\n' then ['\\', 'n']
  else if c = '\r' then ['\\', 'r']
  else if c = '\t' then ['\\', 't']
  else if c = '\x00' then ['\\', '0']
  else if isHidden c then ['\\', 'u', '\x7b'] ++ hexDigits c.toNat ++ ['\x7d']
  else [c]

/-- `cs` between quotes, escaped. -/
def quoteChars (cs : List Char) : List Char :=
  '"' :: cs.flatMap shown ++ ['"']

/-- `s` between quotes, escaped. -/
def quote (s : String) : String :=
  String.ofList (quoteChars s.toList)

end Text
end ClusterKit

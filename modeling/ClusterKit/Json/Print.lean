/-
# Written JSON

Values are written on one line without blanks. Inside a text the quote, the
backslash and the controls are escaped, the common controls shortly and the
others as `\u001f`; everything else stands as it is.

Key definitions: `Json.escaped`, `Json.render`.
-/
import ClusterKit.Json.Value
import ClusterKit.Text.Utf8

namespace ClusterKit
namespace Json

/-- The four hexadecimal digits of a control. -/
def fourDigits (n : Nat) : List Char :=
  let ds := Nat.toDigits 16 n
  List.replicate (4 - ds.length) '0' ++ ds

/-- How one character stands inside a written text. -/
def escaped (c : Char) : List Char :=
  if c = '"' then ['\\', '"']
  else if c = '\\' then ['\\', '\\']
  else if c = '\x08' then ['\\', 'b']
  else if c = '\x0c' then ['\\', 'f']
  else if c = '\n' then ['\\', 'n']
  else if c = '\r' then ['\\', 'r']
  else if c = '\t' then ['\\', 't']
  else if c.toNat < 0x20 then '\\' :: 'u' :: fourDigits c.toNat
  else [c]

/-- A written text. -/
def renderText (s : String) : List Char :=
  '"' :: s.toList.flatMap escaped ++ ['"']

/-- A written number. -/
def renderNumber : Number → List Char
  | .whole n => (toString n).toList
  | .real d => d.text.toList

mutual

/-- The characters of a written value. -/
def renderChars : Json → List Char
  | .null => ['n', 'u', 'l', 'l']
  | .bool true => ['t', 'r', 'u', 'e']
  | .bool false => ['f', 'a', 'l', 's', 'e']
  | .number n => renderNumber n
  | .text s => renderText s
  | .list items => '[' :: renderItems items ++ [']']
  | .fields members => '\x7b' :: renderMembers members ++ ['\x7d']

/-- The values of a list with commas between them. -/
def renderItems : List Json → List Char
  | [] => []
  | [v] => renderChars v
  | v :: vs => renderChars v ++ ',' :: renderItems vs

/-- The members of an object with commas between them. -/
def renderMembers : List (String × Json) → List Char
  | [] => []
  | [(k, v)] => renderText k ++ ':' :: renderChars v
  | (k, v) :: ms => renderText k ++ ':' :: renderChars v ++ ',' :: renderMembers ms

end

/-- The written value. -/
def render (v : Json) : String :=
  String.ofList (renderChars v)

/-- The written value in UTF-8. -/
def bytes (v : Json) : List UInt8 :=
  Utf8.encode (renderChars v)

end Json
end ClusterKit

/-
# Form pairs

Names and values are written into a query as form pairs: letters, digits and
`*-._` stand for themselves, a space is `+`, and every other byte is `%` and
two hexadecimal digits in upper case. Each pair follows an `&`.

Key definitions: `Form.encode`, `Form.pairs`.
-/
import ClusterKit.Text.Utf8

namespace ClusterKit
namespace Form

/-- Whether `c` stands for itself. -/
def isPlain (c : Char) : Bool :=
  c.isAlphanum || c = '*' || c = '-' || c = '.' || c = '_'

/-- The hexadecimal digit of a number below 16. -/
def hexDigit (n : Nat) : Char :=
  if n < 10 then Char.ofNat ('0'.toNat + n) else Char.ofNat ('A'.toNat + (n - 10))

/-- A byte as `%` and two digits. -/
def percent (b : UInt8) : List Char :=
  ['%', hexDigit (b.toNat / 16), hexDigit (b.toNat % 16)]

/-- One written character. -/
def encodeChar (c : Char) : List Char :=
  if isPlain c then [c]
  else if c = ' ' then ['+']
  else (Utf8.encodeChar c).flatMap percent

/-- Written characters. -/
def encode (cs : List Char) : List Char :=
  cs.flatMap encodeChar

/-- A written pair. -/
def pair (p : String × String) : List Char :=
  '&' :: encode p.1.toList ++ '=' :: encode p.2.toList

/-- Written pairs. -/
def pairs (ps : List (String × String)) : List Char :=
  ps.flatMap pair

end Form
end ClusterKit

/-
# Bytes in base 64

Three bytes are written as four letters of six bits each, and a rest of one or
two bytes is filled up with `=`. Only the one written form of a sequence of
bytes is read: the filling has to be there and the bits beyond the last byte
have to be zero.

Key definitions: `Base64.encode`, `Base64.decode?`.
-/

namespace ClusterKit
namespace Base64

/-- The letter for six bits. -/
def letter (n : Nat) : Char :=
  if n < 26 then Char.ofNat ('A'.toNat + n)
  else if n < 52 then Char.ofNat ('a'.toNat + (n - 26))
  else if n < 62 then Char.ofNat ('0'.toNat + (n - 52))
  else if n = 62 then '+'
  else '/'

/-- The six bits of a letter. -/
def value? (c : Char) : Option Nat :=
  if c.isUpper then some (c.toNat - 'A'.toNat)
  else if c.isLower then some (c.toNat - 'a'.toNat + 26)
  else if c.isDigit then some (c.toNat - '0'.toNat + 52)
  else if c = '+' then some 62
  else if c = '/' then some 63
  else none

/-- The written form of bytes. -/
def encode : List UInt8 → List Char
  | [] => []
  | [a] => [letter (a.toNat / 4), letter (a.toNat % 4 * 16), '=', '=']
  | [a, b] =>
    [letter (a.toNat / 4), letter (a.toNat % 4 * 16 + b.toNat / 16),
     letter (b.toNat % 16 * 4), '=']
  | a :: b :: c :: bs =>
    letter (a.toNat / 4) :: letter (a.toNat % 4 * 16 + b.toNat / 16) ::
      letter (b.toNat % 16 * 4 + c.toNat / 64) :: letter (c.toNat % 64) :: encode bs

/-- The one byte of two letters. -/
def oneByte? (p q : Char) : Option (List UInt8) := do
  let x ← value? p
  let y ← value? q
  if y % 16 = 0 then some [UInt8.ofNat (x * 4 + y / 16)] else none

/-- The two bytes of three letters. -/
def twoBytes? (p q r : Char) : Option (List UInt8) := do
  let x ← value? p
  let y ← value? q
  let z ← value? r
  if z % 4 = 0 then some [UInt8.ofNat (x * 4 + y / 16), UInt8.ofNat (y % 16 * 16 + z / 4)] else none

/-- The three bytes of four letters. -/
def threeBytes? (p q r s : Char) : Option (List UInt8) := do
  let x ← value? p
  let y ← value? q
  let z ← value? r
  let w ← value? s
  some [UInt8.ofNat (x * 4 + y / 16), UInt8.ofNat (y % 16 * 16 + z / 4), UInt8.ofNat (z % 4 * 64 + w)]

/-- The bytes that a text writes. -/
def decode? : List Char → Option (List UInt8)
  | [] => some []
  | [p, q, '=', '='] => oneByte? p q
  | [p, q, r, '='] => twoBytes? p q r
  | p :: q :: r :: s :: cs => do
    let bs ← threeBytes? p q r s
    let rest ← decode? cs
    return bs ++ rest
  | _ => none

end Base64
end ClusterKit

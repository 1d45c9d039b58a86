/-
# Bytes and characters

`encode` writes characters as UTF-8. `pieces` reads bytes back: each piece is
a character or one ill-formed run, which is as long as it could still have
become a character. `decode?` accepts bytes without ill-formed runs and
`decodeLossy` puts the replacement character for each.

Key definitions: `Utf8.encode`, `Utf8.pieces`, `Utf8.decode?`, `Utf8.decodeLossy`.
-/

namespace ClusterKit
namespace Utf8

-- zero is the one of the core library, whatever else is in scope
attribute [local instance (high)] Zero.ofOfNat0

/-! ### Writing -/

/-- The bytes of one character. -/
def encodeChar (c : Char) : List UInt8 :=
  let n := c.toNat
  if n < 0x80 then [UInt8.ofNat n]
  else if n < 0x800 then
    [UInt8.ofNat (0xC0 + n / 64), UInt8.ofNat (0x80 + n % 64)]
  else if n < 0x10000 then
    [UInt8.ofNat (0xE0 + n / 4096), UInt8.ofNat (0x80 + n / 64 % 64), UInt8.ofNat (0x80 + n % 64)]
  else
    [UInt8.ofNat (0xF0 + n / 262144), UInt8.ofNat (0x80 + n / 4096 % 64),
     UInt8.ofNat (0x80 + n / 64 % 64), UInt8.ofNat (0x80 + n % 64)]

/-- The bytes of a sequence of characters. -/
def encode (cs : List Char) : List UInt8 :=
  cs.flatMap encodeChar

/-- The number of bytes of a character. -/
def width (c : Char) : Nat :=
  (encodeChar c).length

/-- The number of bytes of a sequence of characters. -/
def size (cs : List Char) : Nat :=
  (cs.map width).sum

/-! ### Reading -/

/-- Where a reader stands: between characters, or inside one that needs `left`
more bytes, has collected `code`, and takes a byte between `lo` and `hi` next. -/
inductive Position
  | between
  | inside (left code lo hi : Nat)
  deriving DecidableEq, Repr

/-- The pieces and the position that one byte between characters leads to. -/
def start (b : UInt8) : List (Option Char) × Position :=
  let n := b.toNat
  if n < 0x80 then ([some (Char.ofNat n)], .between)
  else if n < 0xC2 then ([none], .between)
  else if n < 0xE0 then ([], .inside 1 (n - 0xC0) 0x80 0xBF)
  else if n = 0xE0 then ([], .inside 2 0 0xA0 0xBF)
  else if n = 0xED then ([], .inside 2 0xD 0x80 0x9F)
  else if n < 0xF0 then ([], .inside 2 (n - 0xE0) 0x80 0xBF)
  else if n = 0xF0 then ([], .inside 3 0 0x90 0xBF)
  else if n < 0xF4 then ([], .inside 3 (n - 0xF0) 0x80 0xBF)
  else if n = 0xF4 then ([], .inside 3 4 0x80 0x8F)
  else ([none], .between)

/-- The pieces and the position that one byte leads to. -/
def step : Position → UInt8 → List (Option Char) × Position
  | .between, b => start b
  | .inside left code lo hi, b =>
    if lo ≤ b.toNat && b.toNat ≤ hi then
      let code := code * 64 + (b.toNat - 0x80)
      if left ≤ 1 then ([some (Char.ofNat code)], .between)
      else ([], .inside (left - 1) code 0x80 0xBF)
    else (none :: (start b).1, (start b).2)

/-- The pieces of a sequence of bytes read from position `p`. -/
def piecesFrom (p : Position) : List UInt8 → List (Option Char)
  | [] => if p = .between then [] else [none]
  | b :: bs => (step p b).1 ++ piecesFrom (step p b).2 bs

/-- The characters and the ill-formed runs of a sequence of bytes. -/
def pieces (bs : List UInt8) : List (Option Char) :=
  piecesFrom .between bs

/-- The characters of well-formed bytes. -/
def decode? (bs : List UInt8) : Option (List Char) :=
  (pieces bs).mapM id

/-- The characters of any bytes, with U+FFFD for each ill-formed run. -/
def decodeLossy (bs : List UInt8) : List Char :=
  (pieces bs).map fun p => p.getD (Char.ofNat 0xFFFD)

end Utf8
end ClusterKit

/-
# Addresses

The address of a request is a path that begins with a slash and perhaps a
query, which begins at the first question mark. What follows a number sign is
dropped. Some characters may stand in neither, and the whole is limited in
length.

A path may stand behind a scheme and an authority, and is a slash then if it is
empty. A lone authority and a lone asterisk are addresses as well.

Key definitions: `Uri`, `Uri.parse?`, `Uri.text`.
-/
import ClusterKit.Call.Authority
import ClusterKit.Text.Utf8

namespace ClusterKit

/-- The address of a request; without a scheme there is an authority or a path. -/
structure Uri where
  scheme : Option (List Char)
  authority : List Char
  path : List Char
  query : Option (List Char)
  deriving DecidableEq, Repr

namespace Uri

/-- The greatest length of an address in bytes. -/
def maxSize : Nat := 65534

/-- The greatest length of a scheme. -/
def maxSchemeSize : Nat := 64

/-- Whether the code of `c` is in one of the ranges, or beyond ASCII. -/
def inRanges (rs : List (Nat × Nat)) (c : Char) : Bool :=
  0x80 ≤ c.toNat || rs.any fun r => r.1 ≤ c.toNat && c.toNat ≤ r.2

/-- Whether a path may have `c`. -/
def isPathChar : Char → Bool :=
  inRanges [(0x21, 0x22), (0x24, 0x3B), (0x3D, 0x3D), (0x40, 0x5F), (0x61, 0x7E)]

/-- Whether a query may have `c`. -/
def isQueryChar : Char → Bool :=
  inRanges [(0x21, 0x21), (0x24, 0x3B), (0x3D, 0x3D), (0x3F, 0x7E)]

/-- Whether a scheme may have `c`. -/
def isSchemeChar (c : Char) : Bool :=
  c.isAlphanum || ['+', '-', '.', '~'].contains c

/-- The written scheme; the two common ones are written in lower case. -/
def normalScheme (name : List Char) : List Char :=
  let lower := name.map Char.toLower
  if lower = "http".toList ∨ lower = "https".toList then lower else name

/-- The scheme at the front and what follows its mark, if there is a mark. -/
def splitScheme (cs : List Char) : Option (List Char) × List Char :=
  match cs.dropWhile isSchemeChar with
  | ':' :: '/' :: '/' :: rest => (some (cs.takeWhile isSchemeChar), rest)
  | _ => (none, cs)

/-- The address with a path and perhaps a query that characters write. -/
def withPath? (scheme : Option (List Char)) (authority cs : List Char) : Option Uri :=
  let whole := cs.takeWhile (· ≠ '#')
  let path := whole.takeWhile (· ≠ '?')
  let shown := if path.isEmpty then ['/'] else path
  if !path.all isPathChar then none
  else
    match whole.dropWhile (· ≠ '?') with
    | [] => some ⟨scheme, authority, shown, none⟩
    | _ :: query =>
      if query.all isQueryChar then some ⟨scheme, authority, shown, some query⟩ else none

/-- The address that begins with an authority, behind a scheme if there is one. -/
def withAuthority? (scheme : Option (List Char)) (cs : List Char) : Option Uri :=
  let authority := cs.takeWhile Authority.goesOn
  let rest := cs.dropWhile Authority.goesOn
  if authority.isEmpty || !Authority.isValid authority then none
  else
    match scheme with
    | some name =>
      if maxSchemeSize < name.length then none
      else withPath? (some (normalScheme name)) authority rest
    | none => if rest.isEmpty then some ⟨none, authority, [], none⟩ else none

/-- The address that characters write. -/
def parse? (cs : List Char) : Option Uri :=
  if maxSize < Utf8.size cs then none
  else if cs = ['*'] then some ⟨none, [], cs, none⟩
  else if cs.head? = some '/' then withPath? none [] cs
  else withAuthority? (splitScheme cs).1 (splitScheme cs).2

/-- The written characters. -/
def chars (u : Uri) : List Char :=
  let before := match u.scheme with
    | some name => name ++ "://".toList ++ u.authority
    | none => u.authority
  match u.query with
  | none => before ++ u.path
  | some q => before ++ u.path ++ '?' :: q

/-- The written form. -/
def text (u : Uri) : String :=
  String.ofList u.chars

/-- The root of the server. -/
def root : Uri :=
  ⟨none, [], ['/'], none⟩

end Uri
end ClusterKit

/-
# Authorities

An authority says where a server is: perhaps a user before an `@`, a host, and
perhaps a number behind a colon. A host in brackets may have colons of its own.
What a user part or a bracketed host has of colons and percent signs does not
count for the rest.

Key definitions: `Authority.step?`, `Authority.isValid`.
-/

namespace ClusterKit
namespace Authority

/-- Whether `c` belongs to the authority that it stands in or behind. -/
def goesOn (c : Char) : Bool :=
  c ≠ '/' && c ≠ '?' && c ≠ '#'

/-- Whether `c` may stand in an authority and says nothing about its parts. -/
def isPlain (c : Char) : Bool :=
  c.isAlphanum ||
    ['!', '$', '&', '\'', '(', ')', '*', '+', ',', '-', '.', ';', '=', '_', '~'].contains c

/-- What has been seen of an authority: the colons and whether there was a
percent sign since the last part that excuses them, the brackets, and whether a
user part has just ended. -/
structure Seen where
  colons : Nat
  percent : Bool
  opened : Bool
  closed : Bool
  atEnd : Bool
  deriving DecidableEq, Repr

/-- Nothing has been seen. -/
def Seen.nothing : Seen :=
  ⟨0, false, false, false, false⟩

/-- The most colons that may come before one knows what they are for. -/
def maxColons : Nat := 8

/-- What has been seen with one more character, if it may stand there. -/
def step? (s : Seen) (c : Char) : Option Seen :=
  let t := { s with atEnd := false }
  if c = ':' then
    if maxColons ≤ s.colons then none else some { t with colons := s.colons + 1 }
  else if c = '[' then
    if s.percent || s.opened then none else some { t with opened := true }
  else if c = ']' then
    if !s.opened || s.closed then none
    else some { t with closed := true, colons := 0, percent := false }
  else if c = '@' then some { t with colons := 0, percent := false, atEnd := true }
  else if c = '%' then some { t with percent := true }
  else if isPlain c then some t
  else none

/-- Whether the whole may end here: brackets come in pairs, one colon is for the
number, nothing is escaped in the host, and something follows a user. -/
def Seen.isComplete (s : Seen) : Bool :=
  s.opened == s.closed && s.colons ≤ 1 && !s.percent && !s.atEnd

/-- Whether characters are an authority. -/
def isValid (cs : List Char) : Bool :=
  (cs.foldlM step? Seen.nothing).any (·.isComplete)

end Authority
end ClusterKit

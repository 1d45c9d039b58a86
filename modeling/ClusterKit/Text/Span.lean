/-
# Lengths of time

A length of time is a number of milliseconds. It is written in the largest
unit of which it holds at least one, with the fewest decimals: `60s`, `1.05s`,
`999ms`; no time at all is `0ns`.

Key definitions: `Span`, `Span.text`.
-/

namespace ClusterKit

/-- A length of time in milliseconds. -/
structure Span where
  millis : Nat
  deriving DecidableEq, Repr

namespace Span

/-- A number of whole seconds. -/
def ofSeconds (n : Nat) : Span :=
  ⟨n * 1000⟩

/-- The decimals of `n` thousandths without zeros at the end. -/
def thousandths (n : Nat) : String :=
  if n = 0 then ""
  else if n % 100 = 0 then s!".{n / 100}"
  else if n % 10 = 0 then s!".{n / 100}{n / 10 % 10}"
  else s!".{n / 100}{n / 10 % 10}{n % 10}"

/-- The written form. -/
def text (d : Span) : String :=
  if d.millis = 0 then "0ns"
  else if d.millis < 1000 then s!"{d.millis}ms"
  else s!"{d.millis / 1000}{thousandths (d.millis % 1000)}s"

end Span
end ClusterKit

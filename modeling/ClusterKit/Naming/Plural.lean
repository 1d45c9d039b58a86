/-
# Plural names of kinds

The collection of a kind is addressed by the plural of the kind's name in
lower case. A pluralizer holds a table of irregular plurals; a name outside
the table gets its ending replaced by the first suffix rule that applies. The
rules look at lower case letters only, and lower case is ASCII throughout.

Key definitions: `Pluralizer`, `Pluralizer.regular`, `Pluralizer.plural`, `toPlural`.
-/
import ClusterKit.Table

namespace ClusterKit

/-- The ASCII letters of `s` in lower case, the rest as it is. -/
def lowerAscii (s : String) : String :=
  String.ofList (s.toList.map Char.toLower)

/-- A table of irregular plurals by the exact spelling of the name. -/
structure Pluralizer where
  exceptions : Table String String

namespace Pluralizer

/-- The irregular plurals given by a list, of which the last for a name counts. -/
def ofExceptions (ps : List (String × String)) : Pluralizer :=
  ⟨.ofList ps⟩

/-- The irregular plurals of known kinds. -/
def standard : Pluralizer :=
  .ofExceptions [("Endpoints", "endpoints"), ("NodeMetrics", "nodes"), ("PodMetrics", "pods")]

/-- One more irregular plural, in place of an earlier one for the name. -/
def withException (p : Pluralizer) (name plural : String) : Pluralizer :=
  ⟨p.exceptions.insert name plural⟩

/-- Whether `c` is a lower case consonant. -/
def isConsonant (c : Char) : Bool :=
  c.isLower && !(c = 'a' || c = 'e' || c = 'i' || c = 'o' || c = 'u')

/-- The plural of a name by its ending, given with the last character first and
before lower case is forced. -/
def pluralReversed : List Char → List Char
  | 's' :: cs => 's' :: 'e' :: 's' :: cs
  | 'x' :: cs => 's' :: 'e' :: 'x' :: cs
  | 'z' :: cs => 's' :: 'e' :: 'z' :: cs
  | 'h' :: 'c' :: cs => 's' :: 'e' :: 'h' :: 'c' :: cs
  | 'h' :: 's' :: cs => 's' :: 'e' :: 'h' :: 's' :: cs
  | 'y' :: b :: cs => if isConsonant b then 's' :: 'e' :: 'i' :: b :: cs else 's' :: 'y' :: b :: cs
  | 'e' :: 'f' :: cs => 's' :: 'e' :: 'v' :: cs
  | 'f' :: cs => 's' :: 'e' :: 'v' :: cs
  | cs => 's' :: cs

/-- The plural of a name outside the table; a name of one character is its own. -/
def regular (name : String) : String :=
  let cs := name.toList
  lowerAscii (if cs.length < 2 then name else String.ofList (pluralReversed cs.reverse).reverse)

/-- The plural of a name. -/
def plural (p : Pluralizer) (name : String) : String :=
  match p.exceptions.get? name with
  | some s => lowerAscii s
  | none => regular name

end Pluralizer

/-- The plural of a name by the standard table. -/
def toPlural (name : String) : String :=
  Pluralizer.standard.plural name

end ClusterKit

/-
# Lines

Bytes that arrive in pieces are split into lines at newlines. What follows the
last newline waits for the next piece; at the end of the bytes it is a line as
well, unless it is empty. A carriage return before a newline or at the end is
not part of a line.

Key definitions: `Lines.split`, `Lines.trim`, `Lines.last?`.
Key theorem: `Lines.split_append`.
-/

namespace ClusterKit
namespace Lines

/-- The byte that ends a line. -/
def newline : UInt8 := 10

/-- The byte that may stand before the end of a line. -/
def carriageReturn : UInt8 := 13

/-- The lines that are complete, and what follows the last newline. -/
def split : List UInt8 → List (List UInt8) × List UInt8
  | [] => ([], [])
  | b :: bs =>
    match split bs with
    | (lines, rest) =>
      if b = newline then ([] :: lines, rest)
      else
        match lines with
        | [] => ([], b :: rest)
        | line :: lines => ((b :: line) :: lines, rest)

/-- The line without a carriage return at its end. -/
def trim (line : List UInt8) : List UInt8 :=
  if line.getLast? = some carriageReturn then line.dropLast else line

/-- The line that what follows the last newline makes up when no more bytes come. -/
def last? (rest : List UInt8) : Option (List UInt8) :=
  if rest.isEmpty || rest == [carriageReturn] then none else some rest

/-- The bytes may be split piece by piece. -/
theorem split_append (as bs : List UInt8) :
    split (as ++ bs) =
      ((split as).1 ++ (split ((split as).2 ++ bs)).1, (split ((split as).2 ++ bs)).2) := by
  induction as with
  | nil => rfl
  | cons a as ih =>
    simp only [List.cons_append, split, ih]
    by_cases h : a = newline
    · simp [h]
    · simp only [h, ↓reduceIte]
      cases (split as).1 with
      | nil => simp [split, h]
      | cons line lines => simp

end Lines
end ClusterKit

/-
# JSON tokens

A text is cut into tokens by a machine that looks at one character at a time.
A token that cannot be read stays in the sequence with the errors it causes:
one for a reader that wants its value and one for a reader that only passes
over it. The second kind of reader takes some tokens that the first refuses,
a lone surrogate and a number beyond all doubles; behind any other bad token
nothing more is cut.

Key definitions: `ReadError`, `Token`, `Token.Mode.step`, `Token.scan`.
-/
import ClusterKit.Json.Value
import ClusterKit.Text.Utf8

namespace ClusterKit
namespace Json

/-- Why a text does not read as a value of the wanted shape. -/
inductive ReadError
  | malformed
  | truncated
  | mismatch
  deriving DecidableEq, Repr

namespace ReadError

/-- The sort of the error: the text is no JSON, ends too early, or has another shape. -/
def category : ReadError → String
  | .malformed => "Syntax"
  | .truncated => "Eof"
  | .mismatch => "Data"

/-- What is said of the error. -/
def message (e : ReadError) : String :=
  "<json " ++ e.category ++ ">"

end ReadError

/-- A value without parts. -/
inductive Scalar
  | null
  | bool (b : Bool)
  | number (n : Number)
  | text (s : String)
  deriving DecidableEq, Repr

/-- A token: a mark, a scalar, or one that is broken for a reader of values and
perhaps also for one that passes over it; it is `quoted` if it began as a text. -/
inductive Token
  | mark (c : Char)
  | scalar (v : Scalar)
  | broken (quoted : Bool) (value : ReadError) (skip : Option ReadError)
  deriving DecidableEq, Repr

namespace Token

/-! ### Texts -/

/-- Where the machine stands inside a text. -/
inductive TextPoint
  | plain
  | escape
  | hex (count code : Nat)
  | badHex (left : Nat)
  deriving DecidableEq, Repr

/-- A text so far: its characters, the last first, a leading surrogate that
waits for its partner, and whether a surrogate has been left alone. -/
structure TextState where
  chars : List Char
  high : Option Nat
  lone : Bool
  point : TextPoint
  deriving DecidableEq, Repr

namespace TextState

/-- An empty text. -/
def init : TextState :=
  ⟨[], none, false, .plain⟩

/-- Give up on a leading surrogate without a partner. -/
def settle (t : TextState) : TextState :=
  { t with high := none, lone := t.lone || t.high.isSome, point := .plain }

/-- Take one more character. -/
def push (t : TextState) (c : Char) : TextState :=
  { t.settle with chars := c :: t.chars }

/-- Take a code unit of sixteen bits. -/
def pushUnit (t : TextState) (u : Nat) : TextState :=
  let low := 0xDC00 ≤ u && u ≤ 0xDFFF
  let high := 0xD800 ≤ u && u ≤ 0xDBFF
  match t.high with
  | some h =>
    if low then
      let code := 0x10000 + (h - 0xD800) * 0x400 + (u - 0xDC00)
      { t with chars := Char.ofNat code :: t.chars, high := none, point := .plain }
    else { t with high := none, lone := true, point := .plain }
  | none =>
    if low then { t with lone := true, point := .plain }
    else if high then { t with high := some u, point := .plain }
    else { t with chars := Char.ofNat u :: t.chars, point := .plain }

/-- The token of a finished text. -/
def token (t : TextState) : Token :=
  if t.settle.lone then .broken true .malformed none
  else .scalar (.text (String.ofList t.chars.reverse))

/-- The token of a text that is given up for `e`. -/
def refused (t : TextState) (e : ReadError) : Token :=
  .broken true (if t.lone then .malformed else e) (some e)

end TextState

/-- The value of a hexadecimal digit. -/
def hexValue? (c : Char) : Option Nat :=
  if '0' ≤ c ∧ c ≤ '9' then some (c.toNat - '0'.toNat)
  else if 'a' ≤ c ∧ c ≤ 'f' then some (c.toNat - 'a'.toNat + 10)
  else if 'A' ≤ c ∧ c ≤ 'F' then some (c.toNat - 'A'.toNat + 10)
  else none

/-- The character of a short escape. -/
def shortEscape? (c : Char) : Option Char :=
  if c = '"' ∨ c = '\\' ∨ c = '/' then some c
  else if c = 'b' then some '\x08'
  else if c = 'f' then some '\x0c'
  else if c = 'n' then some '\n'
  else if c = 'r' then some '\r'
  else if c = 't' then some '\t'
  else none

/-! ### Numbers -/

/-- Where the machine stands inside a number. -/
inductive NumberPoint
  | minus
  | zero
  | digits
  | point
  | decimals
  | exponent
  | exponentSign
  | exponentDigits
  deriving DecidableEq, Repr

/-- A number so far, the last digits of each part first. -/
structure NumberState where
  negative : Bool
  digits : List Char
  decimals : List Char
  exponentNegative : Bool
  exponent : List Char
  point : NumberPoint
  deriving DecidableEq, Repr

/-- The value of digits of which the last stands first. -/
def digitsValue (ds : List Char) : Nat :=
  ds.foldr (fun d n => 10 * n + (d.toNat - '0'.toNat)) 0

namespace NumberState

/-- A number before its first digit. -/
def init (negative : Bool) : NumberState :=
  ⟨negative, [], [], false, [], .minus⟩

/-- What leading digits make of `n` as long as it fits into 64 bits, and how many
digits are left then. -/
def gather : Nat → List Char → Nat × Nat
  | n, [] => (n, 0)
  | n, d :: ds =>
    let m := 10 * n + (d.toNat - '0'.toNat)
    if m < 2 ^ (64 : Nat) then gather m ds else (n, ds.length + 1)

/-- The number read: a whole one if it has no fraction or exponent and fits. Else
digits that do not fit count as zeros in front of the point and not at all behind it. -/
def value? (n : NumberState) : Option Number :=
  let (v, left) := gather 0 n.digits.reverse
  if n.point = .zero ∨ n.point = .digits then
    if left = 0 ∧ !n.negative then some (.whole v)
    else if left = 0 ∧ v ≠ 0 ∧ v ≤ 2 ^ (63 : Nat) then some (.whole (-v))
    else (Decimal.ofParts? n.negative v left).map .real
  else
    let (v, unused) := gather v n.decimals.reverse
    let e : Int := digitsValue n.exponent
    let e := if n.exponentNegative then -e else e
    (Decimal.ofParts? n.negative v (e + left + unused - n.decimals.length)).map .real

/-- The token of a finished number. -/
def token (n : NumberState) : Token :=
  match n.value? with
  | some v => .scalar (.number v)
  | none => .broken false .malformed none

/-- Whether the number may end here. -/
def complete (n : NumberState) : Bool :=
  n.point = .zero || n.point = .digits || n.point = .decimals || n.point = .exponentDigits

/-- The number with one more character, if it can have it. -/
def push? (n : NumberState) (c : Char) : Option NumberState :=
  match n.point with
  | .minus =>
    if c = '0' then some { n with digits := ['0'], point := .zero }
    else if c.isDigit then some { n with digits := [c], point := .digits }
    else none
  | .zero =>
    if c = '.' then some { n with point := .point }
    else if c = 'e' ∨ c = 'E' then some { n with point := .exponent }
    else none
  | .digits =>
    if c.isDigit then some { n with digits := c :: n.digits }
    else if c = '.' then some { n with point := .point }
    else if c = 'e' ∨ c = 'E' then some { n with point := .exponent }
    else none
  | .point =>
    if c.isDigit then some { n with decimals := [c], point := .decimals } else none
  | .decimals =>
    if c.isDigit then some { n with decimals := c :: n.decimals }
    else if c = 'e' ∨ c = 'E' then some { n with point := .exponent }
    else none
  | .exponent =>
    if c.isDigit then some { n with exponent := [c], point := .exponentDigits }
    else if c = '+' ∨ c = '-' then
      some { n with exponentNegative := c = '-', point := .exponentSign }
    else none
  | .exponentSign =>
    if c.isDigit then some { n with exponent := [c], point := .exponentDigits } else none
  | .exponentDigits =>
    if c.isDigit then some { n with exponent := c :: n.exponent } else none

end NumberState

/-! ### The machine -/

/-- What the machine is in the middle of. -/
inductive Mode
  | between
  | text (t : TextState)
  | number (n : NumberState)
  | word (left : List Char) (v : Scalar)
  | stopped
  deriving DecidableEq, Repr

namespace Mode

/-- The token after which nothing is cut, broken for every reader. -/
def dead (e : ReadError) : Token :=
  .broken false e (some e)

/-- A character between tokens. -/
def start (c : Char) : List Token × Mode :=
  if c = ' ' ∨ c = '\n' ∨ c = '\t' ∨ c = '\r' then ([], .between)
  else if c = '[' ∨ c = ']' ∨ c = '\x7b' ∨ c = '\x7d' ∨ c = ':' ∨ c = ',' then ([.mark c], .between)
  else if c = '"' then ([], .text .init)
  else if c = '-' then ([], .number (.init true))
  else if c = 'n' then ([], .word ['u', 'l', 'l'] .null)
  else if c = 't' then ([], .word ['r', 'u', 'e'] (.bool true))
  else if c = 'f' then ([], .word ['a', 'l', 's', 'e'] (.bool false))
  else
    match (NumberState.init false).push? c with
    | some n => ([], .number n)
    | none => ([dead .malformed], .stopped)

/-- A character inside a text. -/
def stepText (t : TextState) (c : Char) : List Token × Mode :=
  match t.point with
  | .plain =>
    if c = '"' then ([t.token], .between)
    else if c = '\\' then ([], .text { t with point := .escape })
    else if c.toNat < 0x20 then ([t.refused .malformed], .stopped)
    else ([], .text (t.push c))
  | .escape =>
    if c = 'u' then ([], .text { t with point := .hex 0 0 })
    else
      match shortEscape? c with
      | some d => ([], .text (t.push d))
      | none => ([t.refused .malformed], .stopped)
  | .hex count code =>
    match hexValue? c with
    | some d =>
      let code := 16 * code + d
      if count < 3 then ([], .text { t with point := .hex (count + 1) code })
      else ([], .text (t.pushUnit code))
    | none =>
      if count + Utf8.width c < 4 then
        ([], .text { t with point := .badHex (4 - count - Utf8.width c) })
      else ([t.refused .malformed], .stopped)
  | .badHex left =>
    if Utf8.width c < left then ([], .text { t with point := .badHex (left - Utf8.width c) })
    else ([t.refused .malformed], .stopped)

/-- The tokens cut and the mode reached by one character. -/
def step : Mode → Char → List Token × Mode
  | .between, c => start c
  | .text t, c => stepText t c
  | .number n, c =>
    match n.push? c with
    | some n => ([], .number n)
    | none =>
      if n.point = .zero ∧ c.isDigit ∨ !n.complete then ([dead .malformed], .stopped)
      else (n.token :: (start c).1, (start c).2)
  | .word [] v, c => (.scalar v :: (start c).1, (start c).2)
  | .word (d :: ds) v, c =>
    if c ≠ d then ([dead .malformed], .stopped)
    else if ds.isEmpty then ([.scalar v], .between)
    else ([], .word ds v)
  | .stopped, _ => ([], .stopped)

/-- The token that the end of the text cuts. -/
def finish : Mode → List Token
  | .between => []
  | .text t => [t.refused .truncated]
  | .number n => if n.complete then [n.token] else [.broken false .truncated (some .malformed)]
  | .word [] v => [.scalar v]
  | .word _ _ => [dead .truncated]
  | .stopped => []

end Mode

/-- The tokens of the characters that follow when the machine is in mode `m`. -/
def scanFrom (m : Mode) : List Char → List Token
  | [] => m.finish
  | c :: cs => (m.step c).1 ++ scanFrom (m.step c).2 cs

/-- The tokens of a text. -/
def scan (cs : List Char) : List Token :=
  scanFrom .between cs

end Token
end Json
end ClusterKit

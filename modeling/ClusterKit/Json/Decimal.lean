/-
# Decimals that stand for binary floating point numbers

A number with a fraction or an exponent is kept as the shortest decimal that
still names the same double: `digits * 10 ^ exponent`, of which `digits` has
no zero at its end. `Decimal.text` is the written form.

A decimal that has been read is taken to a double by arithmetic on doubles:
its digits become a double, which is multiplied or divided by the double of the
power of ten. Each step goes to the nearest double, a half to the even one, so
that up to three roundings may end beside the double nearest to the decimal.
Beyond the largest double there is nothing.

Key definitions: `Decimal`, `Double`, `Double.ofParts?`, `Decimal.ofParts?`, `Decimal.text`.
-/

namespace ClusterKit

-- Powers here and in what is built on decimals are those of the core library. Where the
-- powers of monoids are in scope too, a bound such as `2 ^ 64` would else be a term of theirs,
-- which no lemma of the core library about powers matches as it is written.
attribute [instance (high)] instPowNat

/-- A decimal `digits * 10 ^ exponent` with a sign, zero having a sign too. -/
structure Decimal where
  negative : Bool
  digits : Nat
  exponent : Int
  deriving DecidableEq, Repr, Inhabited

/-- A positive double `mantissa * 2 ^ exponent`, or zero. -/
structure Double where
  mantissa : Nat
  exponent : Int
  deriving DecidableEq, Repr

/-- A fraction with a positive denominator. -/
structure Fraction where
  num : Nat
  den : Nat
  deriving DecidableEq, Repr

namespace Fraction

/-- `n * b ^ e`. -/
def scaled (n b : Nat) (e : Int) : Fraction :=
  if 0 ≤ e then ⟨n * b ^ e.toNat, 1⟩ else ⟨n, b ^ (-e).toNat⟩

/-- The product of two fractions. -/
def times (p q : Fraction) : Fraction :=
  ⟨p.num * q.num, p.den * q.den⟩

/-- The quotient of two fractions, the second of which is not zero. -/
def divide (p q : Fraction) : Fraction :=
  ⟨p.num * q.den, p.den * q.num⟩

/-- `q / b ^ e`. -/
def unscale (q : Fraction) (b : Nat) (e : Int) : Fraction :=
  if 0 ≤ e then ⟨q.num, q.den * b ^ e.toNat⟩ else ⟨q.num * b ^ (-e).toNat, q.den⟩

/-- The nearest whole number, a half going to the even one. -/
def roundEven (q : Fraction) : Nat :=
  let w := q.num / q.den
  let r := 2 * (q.num % q.den)
  if r < q.den then w
  else if q.den < r then w + 1
  else w + w % 2

/-- The distance of two fractions. -/
def distance (p q : Fraction) : Fraction :=
  ⟨(p.num * q.den - q.num * p.den) + (q.num * p.den - p.num * q.den), p.den * q.den⟩

/-- Whether `p` is below `q`. -/
def lt (p q : Fraction) : Bool :=
  p.num * q.den < q.num * p.den

end Fraction

namespace Double

/-- The smallest exponent of a double. -/
def minExponent : Int := -1074

/-- The largest exponent of a double. -/
def maxExponent : Int := 971

/-- The value. -/
def fraction (d : Double) : Fraction :=
  .scaled d.mantissa 2 d.exponent

/-- The exponent of the doubles around `q`, found by the sizes of its two parts. -/
def exponentOf (q : Fraction) : Int :=
  let guess : Int := (Nat.log2 q.num : Int) - Nat.log2 q.den - 52
  let guess := if (q.unscale 2 guess).lt ⟨2 ^ (52 : Nat), 1⟩ then guess - 1 else guess
  max guess minExponent

/-- The double nearest to `q`, if there is one. -/
def nearest? (q : Fraction) : Option Double :=
  if q.num = 0 then some ⟨0, 0⟩
  else
    let e := exponentOf q
    let m := (q.unscale 2 e).roundEven
    let d : Double := if m = 2 ^ (53 : Nat) then ⟨2 ^ (52 : Nat), e + 1⟩ else ⟨m, e⟩
    if maxExponent < d.exponent then none else some d

/-- Zero. -/
def zero : Double :=
  ⟨0, 0⟩

/-- The largest power of ten among the doubles. -/
def maxPower : Nat := 308

/-- The double nearest to `10 ^ n`, for `n` up to `maxPower`. -/
def powerOfTen (n : Nat) : Double :=
  (nearest? ⟨10 ^ n, 1⟩).getD zero

/-- The rounded product. -/
def times? (a b : Double) : Option Double :=
  nearest? (a.fraction.times b.fraction)

/-- The rounded quotient by a double of at least one. -/
def divide (a b : Double) : Double :=
  (nearest? (a.fraction.divide b.fraction)).getD zero

/-- The double that `digits * 10 ^ exponent` is read as, for digits of 64 bits.
Division goes in steps of at most `maxPower`; after two such steps nothing is left. -/
def ofParts? (digits : Nat) (exponent : Int) : Option Double :=
  let f := (nearest? ⟨digits, 1⟩).getD zero
  if digits = 0 then some zero
  else if maxPower < exponent then none
  else if 0 ≤ exponent then f.times? (powerOfTen exponent.toNat)
  else
    let down := (-exponent).toNat
    if down ≤ maxPower then some (f.divide (powerOfTen down))
    else if down ≤ 2 * maxPower then
      some ((f.divide (powerOfTen maxPower)).divide (powerOfTen (down - maxPower)))
    else some zero

/-- Whether the double nearest to `q` is `d`. -/
def owns (d : Double) (q : Fraction) : Bool :=
  nearest? q == some d

/-- The power of ten just below `q`. -/
def magnitude (q : Fraction) : Int :=
  let whole := q.num / q.den
  if 0 < whole then (Nat.toDigits 10 whole).length - 1
  else
    let zeros := (List.range 330).find? fun j => q.den ≤ q.num * 10 ^ (j + 1)
    Int.negSucc (zeros.getD 330)

/-- The `count`-digit decimals next to `d` that still name it, the nearer first and
of two that are equally near the even one. -/
def candidates (d : Double) (count : Nat) : List (Nat × Int) :=
  let q := d.fraction
  let e := magnitude q - (count - 1 : Nat)
  let low := (q.unscale 10 e).num / (q.unscale 10 e).den
  let fits := [low, low + 1].filter fun n => d.owns (.scaled n 10 e)
  let nearer := fun a b => (q.distance (.scaled a 10 e)).lt (q.distance (.scaled b 10 e))
  match fits with
  | [a, b] =>
    if nearer a b ∨ (a % 2 = 0 ∧ ¬ nearer b a) then [(a, e), (b, e)] else [(b, e), (a, e)]
  | ns => ns.map fun n => (n, e)

/-- The shortest decimal that names `d`, the nearest one of that length. -/
def shortest (d : Double) : Nat × Int :=
  if d.mantissa = 0 then (0, 0)
  else ((List.range 17).flatMap fun i => d.candidates (i + 1)).headD (d.mantissa, d.exponent)

end Double

namespace Decimal

/-- `n * 10 ^ e` without zeros at the end of `n`; `fuel` bounds their number. -/
def strip : Nat → Nat → Int → Nat × Int
  | 0, n, e => (n, e)
  | fuel + 1, n, e => if n ≠ 0 ∧ n % 10 = 0 then strip fuel (n / 10) (e + 1) else (n, e)

/-- The decimal of the double that `digits * 10 ^ exponent` is read as. -/
def ofParts? (negative : Bool) (digits : Nat) (exponent : Int) : Option Decimal :=
  (Double.ofParts? digits exponent).map fun d =>
    let (n, e) := d.shortest
    let (n, e) := strip 400 n e
    if n = 0 then ⟨negative, 0, 0⟩ else ⟨negative, n, e⟩

/-- The written form: plain up to sixteen places before the point and up to four
zeros right behind it, else with an exponent that has a sign. -/
def text (d : Decimal) : String :=
  let sign := if d.negative then "-" else ""
  let ds := Nat.toDigits 10 d.digits
  let point : Int := ds.length + d.exponent
  let body : List Char :=
    if d.digits = 0 then ['0', '.', '0']
    else if 0 ≤ d.exponent ∧ point ≤ 16 then
      ds ++ List.replicate d.exponent.toNat '0' ++ ['.', '0']
    else if 0 < point ∧ point ≤ 16 then ds.take point.toNat ++ '.' :: ds.drop point.toNat
    else if -5 < point ∧ point ≤ 0 then
      ['0', '.'] ++ List.replicate (-point).toNat '0' ++ ds
    else
      let tail := if ds.length = 1 then [] else '.' :: ds.drop 1
      let plus := if 0 < point then ['+'] else []
      ds.take 1 ++ tail ++ 'e' :: plus ++ (toString (point - 1)).toList
  sign ++ String.ofList body

end Decimal
end ClusterKit

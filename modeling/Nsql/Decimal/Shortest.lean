/-
  File:      Nsql/Decimal/Shortest.lean
  Subject:   The shortest decimal text of a floating-point value.

  Of the decimals that round back to a value, the text shows one with the fewest digits, and of
  these the nearest to the value. `digits` finds it by looking, for 1, 2, … 17 digits, at the two
  neighbours of the value on the grid of decimals with that many digits: if any point of the grid
  rounds back, one of the two does. `Binary64.text` then sets the point or the exponent.
-/
import Nsql.Decimal.Binary64

namespace Nsql.Magnitude

/-! ## 1. Which decimals read back -/

/-- The half steps to the neighbours of a magnitude, as multiples of `2^(e-2)`: the step down is
    smaller where the mantissa is the least one of its exponent. -/
def halfSteps (x : Magnitude) : Nat × Nat :=
  if x.mantissa = Nat.pow 2 52 ∧ leastExponent < x.exponent then (1, 2) else (2, 2)

/-- Numerator and denominator of `n · 2^e`. -/
def dyadic (n : Nat) (e : Int) : Nat × Nat :=
  if 0 ≤ e then (n * Nat.pow 2 e.toNat, 1) else (n, Nat.pow 2 (-e).toNat)

/-- Numerator and denominator of `n · 10^k`. -/
def decimal (n : Nat) (k : Int) : Nat × Nat :=
  if 0 ≤ k then (n * Nat.pow 10 k.toNat, 1) else (n, Nat.pow 10 (-k).toNat)

/-- Whether `d · 10^k` rounds to `x`: it lies between the midpoints to the neighbours, which
    belong to `x` where its mantissa is even. -/
def readsBack (x : Magnitude) (d : Nat) (k : Int) : Bool :=
  let (down, up) := x.halfSteps
  let (a, b) := decimal d k
  let (l, m) := dyadic (4 * x.mantissa - down) (x.exponent - 2)
  let (h, n) := dyadic (4 * x.mantissa + up) (x.exponent - 2)
  if x.mantissa % 2 = 0 then l * b ≤ a * m && a * n ≤ h * b
  else l * b < a * m && a * n < h * b

/-! ## 2. The digits -/

/-- Number of decimal digits of a natural number; one for zero. -/
def digitCount (n : Nat) : Nat := (Nat.toDigits 10 n).length

/-- The least power `j`, starting with the one given, for which `num · 10^j / den` is at least one;
    it gives up after `tries` steps. -/
def firstPower (num den : Nat) : Nat → Nat → Nat
  | 0, j => j
  | tries + 1, j => if den ≤ num * Nat.pow 10 j then j else firstPower num den tries (j + 1)

/-- The decimal exponent of the leading digit of `num / den`. -/
def leadingExponent (num den : Nat) : Int :=
  if den ≤ num then (digitCount (num / den) : Int) - 1 else -(firstPower num den 330 1 : Int)

/-- Of the two neighbours `d` and `d + 1` of `x` on the grid of multiples of `10^k`, the one that
    rounds back to it; of two such the nearer, on a tie the even one. -/
def onGrid (x : Magnitude) (k : Int) : Option Nat :=
  let (num, den) := x.ratio
  let (n, d) :=
    if 0 ≤ k then (num, den * Nat.pow 10 k.toNat) else (num * Nat.pow 10 (-k).toNat, den)
  let below := n / d
  match x.readsBack below k, x.readsBack (below + 1) k with
  | true, true => some (roundDiv n d)
  | true, false => some below
  | false, true => some (below + 1)
  | false, false => none

/-- Looks for a decimal of `x` with `count`, `count + 1`, … digits; `lead` is the exponent of the
    leading digit. -/
def search (x : Magnitude) (lead : Int) : Nat → Nat → Nat × Int
  | 0, count => let k := lead - count + 1; ((x.onGrid k).getD 0, k)
  | more + 1, count =>
    let k := lead - count + 1
    match x.onGrid k with
    | some d => (d, k)
    | none => search x lead more (count + 1)

/-- Drops the zeros at the end of a number and counts them. -/
def dropZeros : Nat → Nat → Int → Nat × Int
  | 0, d, k => (d, k)
  | fuel + 1, d, k => if d ≠ 0 ∧ d % 10 = 0 then dropZeros fuel (d / 10) (k + 1) else (d, k)

/-- The shortest decimal `d · 10^k` of a magnitude that is not zero. -/
def digits (x : Magnitude) : Nat × Int :=
  let (num, den) := x.ratio
  let (d, k) := search x (leadingExponent num den) 16 1
  dropZeros 20 d k

end Nsql.Magnitude

namespace Nsql.Binary64

/-! ## 3. The text -/

/-- Least exponent of the leading digit that is written with a point alone. -/
def positionalFrom : Int := -5

/-- Greatest exponent of the leading digit that is written with a point alone. -/
def positionalTo : Int := 15

/-- A decimal `d · 10^k` as text: with a point and at least one digit behind it where the leading
    digit stands between 10^-5 and 10^15, else with one digit before the point and a signed
    exponent. -/
def decimalText (d : Nat) (k : Int) : String :=
  let ds := Nat.toDigits 10 d
  let lead : Int := k + ds.length - 1
  if 0 ≤ k ∧ lead ≤ positionalTo then
    String.ofList (ds ++ List.replicate k.toNat '0') ++ ".0"
  else if 0 ≤ lead ∧ lead ≤ positionalTo then
    let whole := lead.toNat + 1
    String.ofList (ds.take whole) ++ "." ++ String.ofList (ds.drop whole)
  else if positionalFrom ≤ lead ∧ lead < 0 then
    "0." ++ String.ofList (List.replicate (-lead - 1).toNat '0' ++ ds)
  else
    let head := String.ofList (ds.take 1)
    let tail := if ds.length = 1 then "" else "." ++ String.ofList (ds.drop 1)
    let sign := if 0 ≤ lead then "+" else "-"
    head ++ tail ++ "e" ++ sign ++ toString lead.natAbs

/-- The shortest text that reads back as the value. -/
def text (x : Binary64) : String :=
  let body :=
    if x.magnitude.mantissa = 0 then "0.0"
    else
      let (d, k) := x.magnitude.digits
      decimalText d k
  if x.negative then "-" ++ body else body

end Nsql.Binary64

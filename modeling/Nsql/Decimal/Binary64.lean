/-
  File:      Nsql/Decimal/Binary64.lean
  Subject:   Binary floating-point values of 64 bits, in exact integer arithmetic.

  A finite value is a sign and a magnitude `m · 2^e`. The magnitude is kept in the one form that
  the format has for it: `m < 2^53`, `-1074 ≤ e`, and `2^52 ≤ m` unless `e = -1074`. Every
  operation rounds an exact ratio to the nearest magnitude, a tie to the even one (`ofRatio?`),
  and says `none` where the result is too large to be finite.
-/

namespace Nsql

/-- A magnitude `mantissa · 2^exponent`. -/
structure Magnitude where
  mantissa : Nat
  exponent : Int
  deriving DecidableEq, Repr

/-- A finite 64-bit floating-point value; zero has a sign too. -/
structure Binary64 where
  negative : Bool
  magnitude : Magnitude
  deriving DecidableEq, Repr

namespace Magnitude

/-- Least exponent of the format. -/
def leastExponent : Int := -1074

/-- Greatest exponent of the format. -/
def greatestExponent : Int := 971

/-- The magnitude zero. -/
def zero : Magnitude := ⟨0, leastExponent⟩

/-- Numerator and denominator of `m · 2^e`. -/
def ratio (x : Magnitude) : Nat × Nat :=
  if 0 ≤ x.exponent then (x.mantissa * Nat.pow 2 x.exponent.toNat, 1)
  else (x.mantissa, Nat.pow 2 (-x.exponent).toNat)

/-- Quotient of two naturals, rounded to the nearest one; a tie goes to the even one. -/
def roundDiv (num den : Nat) : Nat :=
  let q := num / den
  let r := num % den
  if den < 2 * r ∨ (den = 2 * r ∧ q % 2 = 1) then q + 1 else q

/-- Numerator and denominator of `num / den / 2^e`. -/
def scaled (num den : Nat) (e : Int) : Nat × Nat :=
  if 0 ≤ e then (num, den * Nat.pow 2 e.toNat) else (num * Nat.pow 2 (-e).toNat, den)

/-- The magnitude nearest to `num / den`, a tie to the even mantissa; `none` beyond the greatest
    finite one. The exponent is chosen so that the mantissa has 53 bits, or is the least one. -/
def ofRatio? (num den : Nat) : Option Magnitude :=
  if num = 0 ∨ den = 0 then some zero
  else
    let guess : Int := (num.log2 : Int) - (den.log2 : Int) - 53
    let (n, d) := scaled num den guess
    let fitting := if n / d < Nat.pow 2 53 then guess else guess + 1
    let e := max fitting leastExponent
    let (n, d) := scaled num den e
    let m := roundDiv n d
    let x : Magnitude := if m < Nat.pow 2 53 then ⟨m, e⟩ else ⟨Nat.pow 2 52, e + 1⟩
    if x.exponent ≤ greatestExponent then some x else none

/-- The magnitude nearest to a natural number. -/
def ofNat? (n : Nat) : Option Magnitude := ofRatio? n 1

/-- The product of two magnitudes, rounded. -/
def mul? (x y : Magnitude) : Option Magnitude :=
  let (a, b) := x.ratio
  let (c, d) := y.ratio
  ofRatio? (a * c) (b * d)

/-- The quotient of two magnitudes, rounded. -/
def div? (x y : Magnitude) : Option Magnitude :=
  let (a, b) := x.ratio
  let (c, d) := y.ratio
  ofRatio? (a * d) (b * c)

/-- Greatest power of ten that is a finite magnitude. -/
def greatestPower : Nat := 308

/-- `10^k` as a magnitude. -/
def powerOfTen? (k : Nat) : Option Magnitude :=
  if k ≤ greatestPower then ofNat? (Nat.pow 10 k) else none

/-- Divides by `10^308` as often as said and by `10^last` in the end; each step rounds, and zero
    stays zero. -/
def scaleDown (last : Nat) : (rounds : Nat) → Magnitude → Option Magnitude
  | 0, x => (powerOfTen? last).bind x.div?
  | rounds + 1, x =>
    if x.mantissa = 0 then some x
    else
      match (powerOfTen? greatestPower).bind x.div? with
      | none => none
      | some y => scaleDown last rounds y

/-- `significand · 10^power` as a product, or a quotient, of two rounded magnitudes. Where the
    significand has at most 53 bits and the power is small both operands are exact, so the result
    is the nearest magnitude. -/
def ofScientific? (significand : Nat) (power : Int) : Option Magnitude :=
  match ofNat? significand with
  | none => none
  | some x =>
    if 0 ≤ power then
      if power.toNat ≤ greatestPower then (powerOfTen? power.toNat).bind x.mul?
      else if x.mantissa = 0 then some x else none
    else
      let k := (-power).toNat
      let rounds := (k - 1) / greatestPower
      scaleDown (k - rounds * greatestPower) rounds x

end Magnitude

end Nsql

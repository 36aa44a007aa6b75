/-!
# Binary floating-point numbers

Magnitudes of double precision, as far as reading a decimal number needs them: rounding to the
nearest one, products and quotients, all in exact arithmetic on natural numbers.
-/

namespace PropertyGraph.Decimal

/-- A finite magnitude of double precision: `significand · 2 ^ (exponent - 1074)`. The
significand has 53 binary digits unless the exponent is zero. -/
structure Binary64 where
  /-- The significand, below `2 ^ 53`. -/
  significand : Nat
  /-- How far the least digit lies above `2 ^ -1074`. -/
  exponent : Nat
  deriving DecidableEq, Repr

namespace Binary64

/-- The magnitude zero. -/
def zero : Binary64 := ⟨0, 0⟩

/-- The quotient rounded to the nearest natural number, a tie to the even one. -/
def divNearest (num den : Nat) : Nat :=
  let q := num / den
  let r := num % den
  if 2 * r < den then q
  else if 2 * r = den then q + q % 2
  else q + 1

/-- The magnitude nearest to `num / den`; nothing if that is beyond all finite ones. -/
def nearest? (num den : Nat) : Option Binary64 :=
  let scaled := num <<< 1074
  let e := (scaled / den).log2 - 52
  let m := divNearest scaled (den <<< e)
  let (m, e) := if m = 1 <<< 53 then (1 <<< 52, e + 1) else (m, e)
  if e ≤ 2045 then some ⟨m, e⟩ else none

/-- The magnitude in units of `2 ^ -1074`. -/
def units (x : Binary64) : Nat := x.significand <<< x.exponent

/-- The product, rounded. -/
def mul? (x y : Binary64) : Option Binary64 := nearest? (x.units * y.units) (1 <<< 2148)

/-- The quotient, rounded. -/
def div? (x y : Binary64) : Option Binary64 := nearest? x.units y.units

/-- The magnitude nearest to a natural number. -/
def ofNat? (n : Nat) : Option Binary64 := nearest? n 1

end Binary64

end PropertyGraph.Decimal

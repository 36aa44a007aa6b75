import PropertyGraph.Decimal.Binary64

/-!
# The shortest digits of a floating-point number

`Binary64.shortest` finds the fewest decimal digits that round to a given magnitude, and among
the numbers with that many digits the one nearest to it. `Binary64.text` writes them.
-/

namespace PropertyGraph.Decimal

namespace Binary64

/-- The ends of the interval that rounds to a magnitude, in units of `2 ^ -1076`. -/
def interval (x : Binary64) : Nat × Nat :=
  let unit := 1 <<< x.exponent
  let low := if x.significand = 1 <<< 52 ∧ x.exponent ≠ 0 then unit else 2 * unit
  (4 * x.units - low, 4 * x.units + 2 * unit)

/-- Whether a number in units of `2 ^ -1076`, as a fraction, rounds to a magnitude. The ends do
if the significand is even. -/
def holds (x : Binary64) (num den : Nat) : Bool :=
  let (low, high) := x.interval
  if x.significand % 2 = 0 then low * den ≤ num && num ≤ high * den
  else low * den < num && num < high * den

/-- A number in units of `2 ^ -1076` that is `digits · 10 ^ scale`, as a fraction. -/
def decimalUnits (digits : Nat) (scale : Int) : Nat × Nat :=
  if scale < 0 then (digits <<< 1076, Nat.pow 10 scale.natAbs)
  else ((digits * Nat.pow 10 scale.natAbs) <<< 1076, 1)

/-- The multiple of `10 ^ scale` that rounds to a magnitude, if there is one: of the two around
the magnitude the nearer one, a tie going to the even one. -/
def onGrid? (x : Binary64) (scale : Int) : Option Nat :=
  let (num, den) := decimalUnits 1 scale
  let value := 4 * x.units * den
  let below := value / num
  let nearer := divNearest value num
  let other := if nearer = below then below + 1 else below
  let fits (d : Nat) : Bool := x.holds (d * num) den
  if fits nearer then some nearer
  else if fits other then some other
  else none

/-- The least power of ten above a magnitude, among the `n` from `10 ^ k` on. -/
def topFrom (x : Binary64) : Nat → Int → Int
  | 0, k => k
  | n + 1, k =>
    let (num, den) := decimalUnits 1 k
    if num ≤ 4 * x.units * den then topFrom x n (k + 1) else k

/-- Tries grids with ever more digits, for a magnitude below `10 ^ top`. -/
def shortestFrom (x : Binary64) (top : Int) : Nat → Nat → Nat × Int
  | 0, _ => (0, 0)
  | fuel + 1, count =>
    let scale := top - count
    match x.onGrid? scale with
    | some digits => (digits, scale)
    | none => shortestFrom x top fuel (count + 1)

/-- Moves zeros at the end of the digits into the scale. -/
def dropZeros : Nat → Nat × Int → Nat × Int
  | 0, p => p
  | n + 1, (digits, scale) =>
    if digits ≠ 0 ∧ digits % 10 = 0 then dropZeros n (digits / 10, scale + 1)
    else (digits, scale)

/-- The fewest digits that round to a magnitude other than zero, with their scale. Seventeen are
always enough. -/
def shortest (x : Binary64) : Nat × Int :=
  dropZeros 20 (x.shortestFrom (x.topFrom 640 (-330)) 18 1)

/-- The text of a magnitude: positional from `10 ^ -5` up to but not including `10 ^ 16`, else
with an exponent, which always has a sign. -/
def text (x : Binary64) : String :=
  if x.significand = 0 then "0.0"
  else
    let (digits, scale) := x.shortest
    let ds := (toString digits).toList
    let point : Int := ds.length + scale
    let zeros (n : Int) : List Char := List.replicate n.toNat '0'
    String.ofList <|
      if 0 ≤ scale ∧ point ≤ 16 then ds ++ zeros scale ++ ".0".toList
      else if 0 < point ∧ point ≤ 16 then ds.take point.toNat ++ '.' :: ds.drop point.toNat
      else if -5 < point ∧ point ≤ 0 then "0.".toList ++ zeros (-point) ++ ds
      else
        let mantissa := match ds with
          | d :: e :: rest => d :: '.' :: e :: rest
          | ds => ds
        let sign := if 0 < point then "e+" else "e-"
        mantissa ++ sign.toList ++ (toString (point - 1).natAbs).toList

end Binary64

/-- A number of double precision. -/
structure Float64 where
  /-- Whether there is a minus sign. -/
  negative : Bool
  /-- The number without its sign. -/
  magnitude : Binary64
  deriving DecidableEq, Repr

/-- The text of a number. -/
def Float64.text (x : Float64) : String :=
  (if x.negative then "-" else "") ++ x.magnitude.text

end PropertyGraph.Decimal

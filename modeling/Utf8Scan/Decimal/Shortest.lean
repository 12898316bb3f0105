/-
The shortest decimal of a floating-point number.

Many decimals are read as the same float: those that lie nearer to it than to the
floats next to it.  Together they are the cell of the float, and the shortest decimal
is the one of the cell with the fewest digits, or the nearest one to the float where
several have so few.

A decimal with few digits is a multiple of a high power of ten.  So the powers are
tried from the highest to the lowest, and on each of these grids only the two points
around the float matter: if any point of the grid lies in the cell, one of these does.
The first point that is found ends in no zero, for otherwise it would lie on the grid
before.  All comparisons are exact, between natural numbers.
-/

namespace Utf8Scan

/-- The number `digits * 10 ^ exponent`. -/
structure Decimal where
  digits : Nat
  exponent : Int
  deriving DecidableEq, Repr

/-- The numbers that are read as one positive float, in units of `2 ^ unit`. -/
structure Cell where
  low : Nat
  /-- The float itself. -/
  center : Nat
  high : Nat
  unit : Int
  /-- Whether the two ends are read as the float too. -/
  closed : Bool
  deriving DecidableEq, Repr

namespace Cell

/-- The cell of the positive float of 64 bits whose bits are given as a number.

A unit is a quarter of the way to the next larger float.  The way to the next smaller
one is as long, but only half as long at a power of two, below which floats are twice as
dense; the smallest powers of two have no denser floats below them.  A number half-way
between two floats is read as the one with the even significand. -/
def ofBits (bits : Nat) : Cell :=
  let field := bits / Nat.pow 2 52
  let fraction := bits % Nat.pow 2 52
  let significand := if field = 0 then fraction else Nat.pow 2 52 + fraction
  { low := 4 * significand - (if fraction = 0 ∧ 1 < field then 1 else 2)
    center := 4 * significand
    high := 4 * significand + 2
    unit := (max 1 field : Nat) - 1077
    closed := significand % 2 = 0 }

/-! ### Grids

The grid of an exponent `k` consists of the multiples of `10 ^ k`.
-/

/-- How long a unit is, in a measure in which a step of the grid has a whole length too. -/
def unitLength (c : Cell) (k : Int) : Nat :=
  Nat.pow 2 c.unit.toNat * Nat.pow 10 (-k).toNat

/-- How long a step of the grid is, in the same measure. -/
def stepLength (c : Cell) (k : Int) : Nat :=
  Nat.pow 10 k.toNat * Nat.pow 2 (-c.unit).toNat

/-- Whether a decimal lies in the cell. -/
def contains (c : Cell) (d : Decimal) : Bool :=
  let low := c.low * c.unitLength d.exponent
  let place := d.digits * c.stepLength d.exponent
  let high := c.high * c.unitLength d.exponent
  if c.closed then low ≤ place && place ≤ high else low < place && place < high

/-- The last point of a grid that is not beyond the float. -/
def below (c : Cell) (k : Int) : Nat := c.center * c.unitLength k / c.stepLength k

/-- The nearer to the float of a point of a grid and the next one, or the even one of the two
if both are equally near. -/
def nearer (c : Cell) (point : Nat) (k : Int) : Nat :=
  match compare (2 * c.center * c.unitLength k) ((2 * point + 1) * c.stepLength k) with
  | .lt => point
  | .gt => point + 1
  | .eq => if point % 2 = 0 then point else point + 1

/-- The point of a grid that lies in the cell, and the nearest to the float if two of them do. -/
def onGrid? (c : Cell) (k : Int) : Option Decimal :=
  let point := c.below k
  let candidates := [c.nearer point k, point, point + 1]
  (candidates.map fun digits => Decimal.mk digits k).find? c.contains

/-! ### The choice -/

/-- The exponents of the grids that a float of 64 bits can need, the coarsest first. -/
def exponents : List Int := (List.range 633).map fun (i : Nat) => 308 - (i : Int)

/-- The float itself, with all its digits. -/
def exact (c : Cell) : Decimal :=
  if 0 ≤ c.unit then ⟨c.center * Nat.pow 2 c.unit.toNat, 0⟩
  else ⟨c.center * Nat.pow 5 (-c.unit).toNat, c.unit⟩

/-- The decimal of the cell with the fewest digits. -/
def shortest (c : Cell) : Decimal := (exponents.findSome? c.onGrid?).getD c.exact

end Cell

end Utf8Scan

import Crochet.Decimal.Binary

/-!
# Decimal text of a double

Two ways to write a double.  `shortest` writes the fewest digits that only this double is nearest
to; of several such texts it takes the one closest to the exact value, and of two equally close the
larger.  `fixed` writes a given number of places, rounded from the exact value with ties to even.
Neither ever uses an exponent, and whole numbers are written without a point.
-/

namespace Crochet.Decimal

/-! ## The digits -/

/-- The interval of reals that round to `m · 2^e`, in quarters of `2^e`: below, the gap is halved
at a boundary; the ends belong to it when `m` is even. -/
structure Interval where
  low : Nat
  high : Nat
  closed : Bool

/-- The interval of a mantissa and exponent. -/
def Interval.around (m : Nat) (e : Int) : Interval :=
  ⟨4 * m - (if isBoundary m e then 1 else 2), 4 * m + 2, m % 2 = 0⟩

/-- Whether the point `c` lies in the interval whose ends are `low` and `high`. -/
def within (closed : Bool) (low c high : Nat) : Bool :=
  if closed then decide (low ≤ c ∧ c ≤ high) else decide (low < c ∧ c < high)

/-- The multiple of `10^k` that stands for `m · 2^e`, if the interval has one: of the two nearest
multiples the one inside, or the nearer one, or the upper one when both are as near. -/
def onGrid? (m : Nat) (e k : Int) : Option Nat :=
  let span := Interval.around m e
  let quarters := Nat.pow 2 (e - 2).toNat * Nat.pow 10 (-k).toNat
  let unit := Nat.pow 10 k.toNat * Nat.pow 2 (2 - e).toNat
  let value := 4 * m * quarters
  let lower := value / unit
  let upper := lower + 1
  let hits (c : Nat) := within span.closed (span.low * quarters) (c * unit) (span.high * quarters)
  match hits lower, hits upper with
  | false, false => none
  | true, false => some lower
  | false, true => some upper
  | true, true => some (if value - lower * unit < upper * unit - value then lower else upper)

/-- Tries the grids `10^k`, `10^(k-1)`, … and stops at the first that has a point for `m · 2^e`.
The result is the point in multiples of its grid, and the exponent of the grid. -/
def searchGrids (m : Nat) (e : Int) : Nat → Int → Nat × Int
  | 0, k =>
    (((quotient m e).1 * Nat.pow 10 (-k).toNat) / ((quotient m e).2 * Nat.pow 10 k.toNat), k)
  | grids + 1, k =>
    match onGrid? m e k with
    | some c => (c, k)
    | none => searchGrids m e grids (k - 1)

/-- The fewest digits for `m · 2^e` as a number and a power of ten.  Seventeen digits are always
enough, and the first grid tried is at most three places too coarse. -/
def fewestDigits (m : Nat) (e : Int) : Nat × Int :=
  searchGrids m e 20 (((m.log2 : Int) + 1 + e) * 30103 / 100000 + 2)

/-! ## The layout -/

/-- The decimal digits of a number. -/
def digits (n : Nat) : List Char := Nat.toDigits 10 n

/-- The digits of a number with a point before the last `places` of them. -/
def pointed (n places : Nat) : List Char :=
  let ds := digits n
  let padded := List.replicate (places + 1 - ds.length) '0' ++ ds
  let whole := padded.take (padded.length - places)
  if places = 0 then whole else whole ++ '.' :: padded.drop (padded.length - places)

/-- The number `c · 10^k` without an exponent. -/
def positional (c : Nat) (k : Int) : List Char :=
  if 0 ≤ k then digits (c * Nat.pow 10 k.toNat) else pointed c (-k).toNat

/-- A text with the sign of its number. -/
def signed (negative : Bool) (text : List Char) : List Char :=
  if negative then '-' :: text else text

/-- The text of a value, given the text of a finite magnitude. -/
def Value.text (finite : Nat → Int → List Char) : Value → List Char
  | .nan => "NaN".toList
  | .infinite negative => signed negative "inf".toList
  | .finite negative m e => signed negative (finite m e)

/-- A double in the fewest digits that read back as it. -/
def shortest (x : Float) : List Char :=
  (Value.ofFloat x).text fun m e =>
    if m = 0 then ['0'] else positional (fewestDigits m e).1 (fewestDigits m e).2

/-- A double with a fixed number of places. -/
def fixed (places : Nat) (x : Float) : List Char :=
  (Value.ofFloat x).text fun m e => pointed (roundScaled m e places) places

end Crochet.Decimal

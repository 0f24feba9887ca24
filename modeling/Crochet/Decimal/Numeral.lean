import Crochet.Decimal.Binary

/-!
# Written numbers

A numeral is a sign, digits around a point, and a power of ten.  It can be read in two ways:
`nearest` gives the double closest to the number written; `quick?` takes only as many leading digits
as fit a 64-bit word and multiplies or divides once by a power of ten, which is how numbers in
documents and settings are read and may be off in the last bit.
-/

namespace Crochet.Decimal

/-- A number as it is written. -/
structure Numeral where
  negative : Bool
  /-- The digits before the point. -/
  whole : List Nat
  /-- The digits behind the point. -/
  fraction : List Nat
  /-- The power of ten, if one is written. -/
  exponent : Option Int
  deriving Repr, DecidableEq

namespace Numeral

/-! ## Reading the characters -/

/-- The value of a decimal digit. -/
def digit? (c : Char) : Option Nat :=
  if c.isDigit then some (c.toNat - '0'.toNat) else none

/-- The digits at the front of a text, and the text behind them. -/
def digitsOf : List Char → List Nat × List Char
  | [] => ([], [])
  | c :: cs =>
    match digit? c with
    | some d =>
      let (ds, rest) := digitsOf cs
      (d :: ds, rest)
    | none => ([], c :: cs)

/-- The number that digits stand for. -/
def valueOf (ds : List Nat) : Nat := ds.foldl (fun n d => n * 10 + d) 0

/-- A sign at the front of a text, and the text behind it. -/
def signOf : List Char → Option Bool × List Char
  | '-' :: cs => (some true, cs)
  | '+' :: cs => (some false, cs)
  | cs => (none, cs)

/-- The power of ten at the end of a numeral: nothing, or an `e` and a signed number. -/
def exponentOf? : List Char → Option (Option Int)
  | [] => some none
  | c :: cs =>
    if c = 'e' ∨ c = 'E' then
      let (sign, rest) := signOf cs
      match digitsOf rest with
      | (d :: ds, []) =>
        let n : Int := valueOf (d :: ds)
        some (some (if sign = some true then -n else n))
      | _ => none
    else none

/-! ## The number meant -/

/-- Whether the numeral is written without point and exponent. -/
def isWhole (n : Numeral) : Bool := n.fraction.isEmpty && n.exponent.isNone

/-- The natural number of a numeral written without sign, point and exponent, if it fits a 64-bit
word. -/
def natural? (n : Numeral) : Option Nat :=
  if n.isWhole && !n.negative && decide (valueOf n.whole < Nat.pow 2 64) then some (valueOf n.whole)
  else none

/-- A magnitude with its sign. -/
def withSign (n : Numeral) (x : Float) : Float := if n.negative then -x else x

/-- The double nearest to the number written; an infinity beyond the largest one. -/
def nearest (n : Numeral) : Float :=
  let m := valueOf (n.whole ++ n.fraction)
  let e := n.exponent.getD 0 - n.fraction.length
  n.withSign <|
    if m = 0 then 0.0
    else if 310 < e then 1.0 / 0.0
    else if (n.whole.length + n.fraction.length : Int) + e < -330 then 0.0
    else Float.ofScientific m (decide (e < 0)) e.natAbs

/-! ## The quick reading -/

/-- Takes digits into a 64-bit number while they fit; the result is the number and how many digits
were left. -/
def takeDigits : Nat → List Nat → Nat × Nat
  | m, [] => (m, 0)
  | m, d :: ds =>
    if m * 10 + d < Nat.pow 2 64 then takeDigits (m * 10 + d) ds else (m, ds.length + 1)

/-- The power of ten as a double. -/
def powerOfTen (k : Nat) : Float := Float.ofScientific 1 false k

/-- A double times a power of ten, or `none` if the result is too large. -/
def scale? (x : Float) (e : Int) : Option Float :=
  if e.natAbs ≤ 308 then
    if 0 ≤ e then
      let y := x * powerOfTen e.natAbs
      if y.isInf then none else some y
    else some (x / powerOfTen e.natAbs)
  else if x == 0.0 then some x
  else if h : 0 ≤ e then none
  else scale? (x / powerOfTen 308) (e + 308)
termination_by e.natAbs
decreasing_by omega

/-- The double made from the leading digits and a power of ten, or `none` if it is too large. -/
def quick? (n : Numeral) : Option Float :=
  let (m, dropped) := takeDigits 0 n.whole
  let (m, left) := takeDigits m n.fraction
  let e : Int := dropped - (n.fraction.length - left : Nat) + n.exponent.getD 0
  (scale? m.toUInt64.toFloat e).map n.withSign

end Numeral

/-! ## Numbers on a command line -/

/-- A natural number written in digits and nothing else. -/
def whole? (text : List Char) : Option Nat :=
  match Numeral.digitsOf text with
  | (d :: ds, []) => some (Numeral.valueOf (d :: ds))
  | _ => none

/-- A text read as a double: a signed numeral with digits on at least one side of the point, or a
word for an infinity or for no number, in any case. -/
def read? (text : List Char) : Option Float :=
  let (sign, body) := Numeral.signOf text
  let negative := sign == some true
  let word := String.ofList (body.map Char.toLower)
  if word = "inf" ∨ word = "infinity" then some (if negative then -(1.0 / 0.0) else 1.0 / 0.0)
  else if word = "nan" then some (0.0 / 0.0)
  else
    let (whole, rest) := Numeral.digitsOf body
    let (fraction, rest) :=
      match rest with
      | '.' :: rest => Numeral.digitsOf rest
      | rest => ([], rest)
    if whole.isEmpty && fraction.isEmpty then none
    else (Numeral.exponentOf? rest).map fun exponent =>
      (Numeral.mk negative whole fraction exponent).nearest

end Crochet.Decimal

/-!
# The shortest decimal of a double

A finite double is `m * 2 ^ q` for a natural `m` and an integer `q`, and every real strictly between
the midpoints to its neighbours rounds to it, the midpoints too when `m` is even. `shortest` gives
the decimal with the fewest digits in that interval and, of those, the nearest to the double. It
tries the grids of 1, 2, … 17 digits in turn; on a grid only the double's two neighbours can be
nearest. Everything is exact arithmetic on naturals.
-/

namespace TextScopes.Decimal

/-- The natural number `digits` times ten to the power `exponent`. -/
structure Scientific where
  digits : Nat
  exponent : Int
  deriving DecidableEq, Inhabited, Repr

/-- A positive rational as a numerator over a denominator. -/
structure Ratio where
  num : Nat
  den : Nat

/-- `n * 2 ^ q` as a ratio. -/
def Ratio.ofBinary (n : Nat) (q : Int) : Ratio :=
  if 0 ≤ q then ⟨n * Nat.pow 2 q.toNat, 1⟩ else ⟨n, Nat.pow 2 (-q).toNat⟩

/-- The ratio divided by ten to the power `p`. -/
def Ratio.scaleDown (r : Ratio) (p : Int) : Ratio :=
  if 0 ≤ p then ⟨r.num, r.den * Nat.pow 10 p.toNat⟩
  else ⟨r.num * Nat.pow 10 (-p).toNat, r.den⟩

/-- The reals that round to a double, as ratios over the double's own scale. -/
structure Interval where
  low : Ratio
  value : Ratio
  high : Ratio
  /-- Whether the two ends round to the double as well. -/
  closed : Bool

/-- The interval of the double with the magnitude bits `bits`. Below a power of two the gap to the
neighbour is half as wide. -/
def Interval.ofBits (bits : Nat) : Interval :=
  let field : Nat := bits / Nat.pow 2 52
  let fraction : Nat := bits % Nat.pow 2 52
  let m : Nat := if field = 0 then fraction else Nat.pow 2 52 + fraction
  let q : Int := if field = 0 then -1076 else (field : Int) - 1077
  let below : Nat := if fraction = 0 && 1 < field then 1 else 2
  ⟨.ofBinary (4 * m - below) q, .ofBinary (4 * m) q, .ofBinary (4 * m + 2) q, m % 2 = 0⟩

/-- Whether `d` grid steps lie in the interval whose three ratios are counted in such steps. -/
def Interval.holds (i : Interval) (d : Nat) : Bool :=
  if i.closed then i.low.num ≤ d * i.low.den && d * i.high.den ≤ i.high.num
  else i.low.num < d * i.low.den && d * i.high.den < i.high.num

/-- The interval counted in steps of ten to the power `p`. -/
def Interval.scaleDown (i : Interval) (p : Int) : Interval :=
  ⟨i.low.scaleDown p, i.value.scaleDown p, i.high.scaleDown p, i.closed⟩

/-- The nearer of the value's two neighbours on the unit grid that lies in the interval. -/
def Interval.onGrid? (i : Interval) : Option Nat :=
  let down := i.value.num / i.value.den
  let up := down + 1
  let rest := i.value.num - down * i.value.den
  let downHolds := i.holds down && 0 < down
  let upHolds := i.holds up
  if downHolds && upHolds then
    if 2 * rest < i.value.den then some down
    else if i.value.den < 2 * rest then some up
    else if down % 2 = 0 then some down else some up
  else if downHolds then some down
  else if upHolds then some up
  else none

/-- The power of ten of a positive ratio's leading digit. -/
def Ratio.magnitude (r : Ratio) : Int :=
  if r.den ≤ r.num then
    ((Nat.toDigits 10 (r.num / r.den)).length : Int) - 1
  else
    let rec go : Nat → Nat → Nat → Int
      | 0, _, steps => -(steps : Int)
      | fuel + 1, num, steps =>
        if r.den ≤ num then -(steps : Int)
        else go fuel (num * 10) (steps + 1)
    go 400 (r.num * 10) 1

/-- The decimal without its trailing zeros. -/
def Scientific.trim (s : Scientific) : Scientific :=
  let rec go : Nat → Nat → Int → Scientific
    | 0, d, e => ⟨d, e⟩
    | fuel + 1, d, e => if d ≠ 0 ∧ d % 10 = 0 then go fuel (d / 10) (e + 1) else ⟨d, e⟩
  go 20 s.digits s.exponent

/-- The first grid of at least `count` digits that has a point in the interval. -/
def Interval.search (i : Interval) (magnitude : Int) : Nat → Nat → Scientific
  | 0, _ => ⟨0, 0⟩
  | fuel + 1, count =>
    let p := magnitude - (count : Int) + 1
    match (i.scaleDown p).onGrid? with
    | some d => (Scientific.mk d p).trim
    | none => i.search magnitude fuel (count + 1)

/-- The shortest decimal that reads back as the double with the magnitude bits `bits`. -/
def shortest (bits : Nat) : Scientific :=
  if bits = 0 then ⟨0, 0⟩
  else
    let i := Interval.ofBits bits
    i.search i.value.magnitude 18 1

/-- How a double is written: whether a positive exponent carries a plus sign. The text is positional
from 1e-5 up to 1e16, and whole numbers there end in `.0`. -/
structure Style where
  plusExponent : Bool

/-- A run of `n` zeros. -/
def zeros (n : Nat) : String := String.ofList (List.replicate n '0')

/-- The text of the digits `d` times ten to the power `e`. -/
def Style.layout (style : Style) (s : Scientific) : String :=
  let ds := Nat.toDigits 10 s.digits
  let point : Int := (ds.length : Int) + s.exponent
  if s.digits = 0 then "0.0"
  else if 0 ≤ s.exponent && point ≤ 16 then String.ofList ds ++ zeros s.exponent.toNat ++ ".0"
  else if 0 < point && point ≤ 16 then
    String.ofList (ds.take point.toNat) ++ "." ++ String.ofList (ds.drop point.toNat)
  else if -5 < point && point ≤ 0 then "0." ++ zeros (-point).toNat ++ String.ofList ds
  else
    let mantissa := match ds with
      | d :: (_ :: _) => String.ofList (d :: '.' :: ds.tail)
      | _ => String.ofList ds
    let e := point - 1
    let sign := if e < 0 then "-" else if style.plusExponent then "+" else ""
    mantissa ++ "e" ++ sign ++ toString e.natAbs

/-- The text of a finite double, by its bits. -/
def Style.write (style : Style) (bits : UInt64) : String :=
  let n := bits.toNat
  let sign := if Nat.pow 2 63 ≤ n then "-" else ""
  sign ++ style.layout (shortest (n % Nat.pow 2 63))

end TextScopes.Decimal

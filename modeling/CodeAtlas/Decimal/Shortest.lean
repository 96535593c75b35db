/-!
# The shortest decimal of a floating-point number

A positive double is `m · 2 ^ q`. All reals of an interval around it round to it, the ends
included exactly if `m` is even. Among the decimals in that interval those with the fewest digits
are wanted, and of these the nearest. On the grid of decimals with a given number of digits only
the two neighbours of the value need a test: if any point of the grid lies in the interval, one
of them does.
-/

namespace CodeAtlas.Decimal

/-- A positive binary number `m · 2 ^ q` with the distances to the ends of its interval, in
quarters of a unit of `m`. -/
structure Binary where
  /-- Multiplier of the power of two. -/
  m : Nat
  /-- Exponent of two. -/
  q : Int
  /-- Distance to the lower end: one quarter below a power of two, two quarters elsewhere. -/
  below : Nat

/-- Splits the bits of a finite positive double. -/
def Binary.ofBits (bits : Nat) : Binary :=
  let exponent := bits / Nat.pow 2 52 % Nat.pow 2 11
  let fraction := bits % Nat.pow 2 52
  if exponent == 0 then ⟨fraction, -1074, 2⟩
  else
    ⟨Nat.pow 2 52 + fraction, (exponent : Int) - 1075,
      if fraction == 0 && exponent != 1 then 1 else 2⟩

/-- The exponent `e` with `10 ^ e ≤ num / den < 10 ^ (e + 1)`. -/
def exponentOfTen (num den : Nat) : Int :=
  if den ≤ num then ((Nat.toDigits 10 (num / den)).length : Int) - 1
  else -((Nat.toDigits 10 ((den + num - 1) / num - 1)).length : Int)

/-- The better of the two decimals with multiplier `d` and `d + 1` on the grid of `10 ^ k`, if one
of them rounds to the number. -/
def onGrid? (b : Binary) (k : Int) : Option Nat :=
  let grid := 4 * Nat.pow 2 (-b.q).toNat * Nat.pow 10 k.toNat
  let scale := Nat.pow 2 b.q.toNat * Nat.pow 10 (-k).toNat
  let value := 4 * b.m * scale
  let lower := (4 * b.m - b.below) * scale
  let upper := (4 * b.m + 2) * scale
  let reads (d : Nat) : Bool :=
    if b.m % 2 == 0 then lower ≤ d * grid && d * grid ≤ upper
    else lower < d * grid && d * grid < upper
  let d := value / grid
  let down := value - d * grid
  let up := (d + 1) * grid - value
  match reads d, reads (d + 1) with
  | true, true => some (if down < up || (down == up && d % 2 == 0) then d else d + 1)
  | true, false => some d
  | false, true => some (d + 1)
  | false, false => none

/-- The first grid that holds a decimal for the number, from `n` digits on, as multiplier and
exponent. Seventeen digits always suffice. -/
def fromDigits (b : Binary) (top : Int) (n : Nat) : Nat → Nat × Int
  | 0 => (0, 0)
  | fuel + 1 =>
    let k := top + 1 - (n : Int)
    match onGrid? b k with
    | some d => (d, k)
    | none => fromDigits b top (n + 1) fuel

/-- The shortest decimal `d · 10 ^ k` of a positive number. -/
def shortest (b : Binary) : Nat × Int :=
  let top := exponentOfTen (b.m * Nat.pow 2 b.q.toNat) (Nat.pow 2 (-b.q).toNat)
  fromDigits b top 1 17

/-- Digits and the place of the point after them: `(ds, p)` is `0.ds · 10 ^ p`, without zeros at
the end. -/
def digitsAndPoint (d : Nat) (k : Int) : List Char × Int :=
  let ds := Nat.toDigits 10 d
  ((ds.reverse.dropWhile (· == '0')).reverse, ds.length + k)

/-- The form of a number in a message: positional while the point falls within the first sixteen
digits or at most three zeros follow it, with an exponent of at least two digits elsewhere. A
whole number keeps one zero after the point. -/
def written (ds : List Char) (point : Int) : List Char :=
  if -4 < point && point ≤ 16 then
    if point ≤ 0 then '0' :: '.' :: List.replicate (-point).toNat '0' ++ ds
    else
      let whole := ds.take point.toNat
      let pad := List.replicate (point.toNat - ds.length) '0'
      let fraction := ds.drop point.toNat
      whole ++ pad ++ '.' :: (if fraction.isEmpty then ['0'] else fraction)
  else
    let e := point - 1
    let digits := Nat.toDigits 10 e.natAbs
    let mantissa := match ds with
      | [] => ['0']
      | [d] => [d]
      | d :: more => d :: '.' :: more
    mantissa ++ 'e' :: (if e < 0 then '-' else '+') ::
      (if digits.length < 2 then '0' :: digits else digits)

/-- The text of any double. -/
def floatText (x : Float) : String :=
  let bits := x.toBits.toNat
  let sign := if Nat.pow 2 63 ≤ bits then ['-'] else []
  let magnitude := bits % Nat.pow 2 63
  if x.isNaN then "nan"
  else if 2047 * Nat.pow 2 52 ≤ magnitude then String.ofList (sign ++ ['i', 'n', 'f'])
  else if magnitude == 0 then String.ofList (sign ++ ['0', '.', '0'])
  else
    let (d, k) := shortest (Binary.ofBits magnitude)
    let (ds, point) := digitsAndPoint d k
    String.ofList (sign ++ written ds point)

/-- The double nearest to `m · 10 ^ e`. Exponents far out of range are cut short, so that no power
larger than needed is computed. -/
def toFloat (m : Nat) (e : Int) : Float :=
  let size := (Nat.toDigits 10 m).length + e
  if m == 0 || size < -400 then 0
  else if 400 < size then 1 / 0
  else Float.ofScientific m (e < 0) e.natAbs

end CodeAtlas.Decimal

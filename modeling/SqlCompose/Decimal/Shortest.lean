import SqlCompose.Decimal.Binary

/-! The decimal with the fewest digits that reads back as a given binary number, and of those
the one nearest to it. -/

namespace SqlCompose

/-- `digits · 10 ^ exponent` -/
structure Decimal where
  digits : Nat
  exponent : Int
deriving DecidableEq, Repr

/-- Which of two equally near decimals is taken. -/
inductive Tie where
  | upward
  | toEven
deriving DecidableEq, Repr

/-- The numbers that round to one binary number, `low` to `high` around `value`, all over one
denominator. -/
structure Basin where
  low : Nat
  value : Nat
  high : Nat
  denominator : Nat
  closed : Bool
deriving Repr

namespace Basin

/-- The basin of `significand · 2 ^ exponent`. Below a power of two the neighbours stand twice as
close, so that the lower half is narrower. -/
def of (significand : Nat) (exponent : Int) (narrowBelow : Bool) : Basin :=
  let unit := Nat.pow 2 (exponent - 2).toNat
  { low := (4 * significand - if narrowBelow then 1 else 2) * unit
    value := 4 * significand * unit
    high := (4 * significand + 2) * unit
    denominator := Nat.pow 2 (2 - exponent).toNat
    closed := significand % 2 == 0 }

/-- Whether `count` steps of size `step / scale` end in the basin. -/
def contains (b : Basin) (step scale count : Nat) : Bool :=
  let point := count * step * b.denominator
  if b.closed then b.low * scale ≤ point && point ≤ b.high * scale
  else b.low * scale < point && point < b.high * scale

/-- Of the two multiples of `10 ^ k` beside the value, the nearest that lies in the basin. -/
def onGrid? (b : Basin) (tie : Tie) (k : Int) : Option Nat :=
  let step := Nat.pow 10 k.toNat
  let scale := Nat.pow 10 (-k).toNat
  let whole := step * b.denominator
  let below := b.value * scale / whole
  let excess := b.value * scale % whole
  match b.contains step scale below, b.contains step scale (below + 1) with
  | false, false => none
  | true, false => some below
  | false, true => some (below + 1)
  | true, true =>
    if 2 * excess < whole then some below
    else if whole < 2 * excess then some (below + 1)
    else match tie with
      | .upward => some (below + 1)
      | .toEven => some (if below % 2 = 0 then below else below + 1)

/-- A power of ten that no number of the basin exceeds. -/
def ceiling (b : Basin) : Int :=
  if b.denominator ≤ b.high then ((Nat.toDigits 10 (b.high / b.denominator)).length : Int)
  else 1 - ((Nat.toDigits 10 (b.denominator / b.high)).length : Int)

/-- The coarsest grid with a hit, from `k` down. Twenty grids reach past the seventeen digits that
always suffice. -/
def search (b : Basin) (tie : Tie) : Nat → Int → Decimal
  | 0, k => ⟨b.value * Nat.pow 10 (-k).toNat / (Nat.pow 10 k.toNat * b.denominator), k⟩
  | fuel + 1, k =>
    match b.onGrid? tie k with
    | some digits => ⟨digits, k⟩
    | none => b.search tie fuel (k - 1)

def shortest (b : Basin) (tie : Tie) : Decimal := b.search tie 20 b.ceiling

end Basin

namespace BinaryFormat

/-- The shortest decimal of a finite magnitude. -/
def shortest (f : BinaryFormat) (tie : Tie) (significand : Nat) (exponent : Int) : Decimal :=
  if significand = 0 then ⟨0, 0⟩
  else
    let narrow := significand == Nat.pow 2 f.fractionBits && f.leastExponent < exponent
    (Basin.of significand exponent narrow).shortest tie

end BinaryFormat

namespace Decimal

def digitText (d : Decimal) : List Char := Nat.toDigits 10 d.digits

/-- Without an exponent: zeros stand in for the places that the digits do not reach. -/
def positional (d : Decimal) : List Char :=
  let cs := d.digitText
  if 0 ≤ d.exponent then cs ++ List.replicate d.exponent.toNat '0'
  else
    let places := (-d.exponent).toNat
    if places < cs.length then
      cs.take (cs.length - places) ++ '.' :: cs.drop (cs.length - places)
    else '0' :: '.' :: (List.replicate (places - cs.length) '0' ++ cs)

/-- The power of ten of the first digit. -/
def magnitude (d : Decimal) : Int := d.exponent + (d.digitText.length - 1 : Nat)

/-- One digit, the others after a point, and a signed power of ten. -/
def scientific (d : Decimal) : List Char :=
  let mantissa := match d.digitText with
    | [] => []
    | [c] => [c]
    | c :: cs => c :: '.' :: cs
  let sign := if d.magnitude < 0 then '-' else '+'
  mantissa ++ 'e' :: sign :: Nat.toDigits 10 d.magnitude.natAbs

end Decimal

end SqlCompose

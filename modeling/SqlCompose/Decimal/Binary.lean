/-! Binary floating-point data by their bits: what number a bit pattern stands for, and the
pattern nearest to a quotient of natural numbers. -/

namespace SqlCompose

/-- The field widths of a binary interchange format. -/
structure BinaryFormat where
  fractionBits : Nat
  exponentBits : Nat
deriving DecidableEq, Repr

/-- What a bit pattern stands for. A finite datum is `significand · 2 ^ exponent`. -/
inductive BinaryDatum where
  | nan
  | infinite (negative : Bool)
  | finite (negative : Bool) (significand : Nat) (exponent : Int)
deriving DecidableEq, Repr

namespace BinaryFormat

def single : BinaryFormat := ⟨23, 8⟩

def double : BinaryFormat := ⟨52, 11⟩

/-- The exponent of the last place of the smallest numbers. -/
def leastExponent (f : BinaryFormat) : Int := 2 - Nat.pow 2 (f.exponentBits - 1) - f.fractionBits

def decode (f : BinaryFormat) (bits : Nat) : BinaryDatum :=
  let fraction := bits % Nat.pow 2 f.fractionBits
  let biased := bits / Nat.pow 2 f.fractionBits % Nat.pow 2 f.exponentBits
  let negative := bits / Nat.pow 2 (f.fractionBits + f.exponentBits) % 2 == 1
  if biased = Nat.pow 2 f.exponentBits - 1 then
    if fraction = 0 then .infinite negative else .nan
  else if biased = 0 then .finite negative fraction f.leastExponent
  else .finite negative (Nat.pow 2 f.fractionBits + fraction) (f.leastExponent + (biased - 1 : Nat))

/-- `num / den · 2 ^ (-exponent)`, rounded to the nearest natural number, a half to the even
neighbour. -/
def scaledQuotient (num den : Nat) (exponent : Int) : Nat :=
  let n := num * Nat.pow 2 (-exponent).toNat
  let d := den * Nat.pow 2 exponent.toNat
  let q := n / d
  let r := n % d
  if 2 * r > d ∨ (2 * r = d ∧ q % 2 = 1) then q + 1 else q

/-- The bits of the non-negative datum nearest to `num / den`, a tie going to the even
significand. There are none when that would not be finite. -/
def round? (f : BinaryFormat) (num den : Nat) : Option Nat :=
  if num = 0 then some 0
  else
    let guess : Int := (num.log2 : Int) - den.log2 - f.fractionBits - 1
    let low := max guess f.leastExponent
    let tooSmall := num * Nat.pow 2 (-low).toNat / (den * Nat.pow 2 low.toNat) ≥ Nat.pow 2 (f.fractionBits + 1)
    let exponent := if tooSmall then low + 1 else low
    let rounded := scaledQuotient num den exponent
    let bits := (exponent - f.leastExponent).toNat * Nat.pow 2 f.fractionBits + rounded
    if bits < (Nat.pow 2 f.exponentBits - 1) * Nat.pow 2 f.fractionBits then some bits else none

end BinaryFormat

/-- A number of the 32-bit format. -/
structure Binary32 where
  bits : UInt32
deriving DecidableEq, Repr

/-- A number of the 64-bit format. -/
structure Binary64 where
  bits : UInt64
deriving DecidableEq, Repr

namespace Binary32

def datum (x : Binary32) : BinaryDatum := BinaryFormat.single.decode x.bits.toNat

end Binary32

namespace Binary64

def datum (x : Binary64) : BinaryDatum := BinaryFormat.double.decode x.bits.toNat

def zero : Binary64 := ⟨0⟩

def isZero (x : Binary64) : Bool := x.bits.toNat % Nat.pow 2 63 == 0

/-- The number with the other sign. -/
def neg (x : Binary64) : Binary64 := ⟨x.bits ^^^ 0x8000000000000000⟩

/-- The number nearest to `num / den`, unless it is too large to be finite. -/
def ofQuotient? (num den : Nat) : Option Binary64 :=
  (BinaryFormat.double.round? num den).map fun bits => ⟨UInt64.ofNat bits⟩

/-- The magnitude as an exact quotient; zero for what is not finite. -/
def quotient (x : Binary64) : Nat × Nat :=
  match x.datum with
  | .finite _ m q => (m * Nat.pow 2 q.toNat, Nat.pow 2 (-q).toNat)
  | _ => (0, 1)

end Binary64

end SqlCompose

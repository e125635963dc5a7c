/-! Bytes as hexadecimal text, two digits a byte, most significant digit first. -/

namespace SqlCompose.Hex

def lowerDigits : List Char :=
  ['0', '1', '2', '3', '4', '5', '6', '7', '8', '9', 'a', 'b', 'c', 'd', 'e', 'f']

def upperDigits : List Char :=
  ['0', '1', '2', '3', '4', '5', '6', '7', '8', '9', 'A', 'B', 'C', 'D', 'E', 'F']

def encode (digits : List Char) (bytes : List UInt8) : List Char :=
  bytes.flatMap fun b => [digits.getD (b.toNat / 16) '0', digits.getD (b.toNat % 16) '0']

def lower (bytes : List UInt8) : String := String.ofList (encode lowerDigits bytes)

def upper (bytes : List UInt8) : String := String.ofList (encode upperDigits bytes)

/-- The value of a digit of either case. -/
def digit? (c : Char) : Option Nat :=
  if '0' ≤ c ∧ c ≤ '9' then some (c.toNat - '0'.toNat)
  else if 'a' ≤ c ∧ c ≤ 'f' then some (c.toNat - 'a'.toNat + 10)
  else if 'A' ≤ c ∧ c ≤ 'F' then some (c.toNat - 'A'.toNat + 10)
  else none

/-- Fails on an odd number of digits and on any other character. -/
def decode? : List Char → Option (List UInt8)
  | [] => some []
  | [_] => none
  | a :: b :: cs => do
    let high ← digit? a
    let low ← digit? b
    let rest ← decode? cs
    return UInt8.ofNat (16 * high + low) :: rest

/-- The number that the digits write. -/
def number? (cs : List Char) : Option Nat :=
  cs.foldlM (fun n c => (digit? c).map (16 * n + ·)) 0

end SqlCompose.Hex

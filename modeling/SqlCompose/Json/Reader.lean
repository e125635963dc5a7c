import SqlCompose.Json.Basic
import SqlCompose.Text.Hex

/-! Reading JSON text. A number without point or exponent that fits 64 bits stays an integer.
Any other is read as a 64-bit float: as many leading digits as fit 64 bits are taken as a whole
number, which is then multiplied or divided by a power of ten, rounding once for each of these
steps. -/

namespace SqlCompose.Json

namespace Reader

def skipBlank : List Char → List Char
  | [] => []
  | c :: cs => if c = ' ' ∨ c = '\n' ∨ c = '\t' ∨ c = '\r' then skipBlank cs else c :: cs

/-- Four hexadecimal digits. -/
def unit? (a b c d : Char) : Option Nat := Hex.number? [a, b, c, d]

def simpleEscape? : Char → Option Char
  | '\x22' => some '\x22'
  | '\\' => some '\\'
  | '/' => some '/'
  | 'b' => some '\x08'
  | 'f' => some '\x0c'
  | 'n' => some '\n'
  | 'r' => some '\r'
  | 't' => some '\t'
  | _ => none

/-- The characters up to the closing quote, and what follows it. A character outside the basic
plane may be written as a pair of surrogates; a surrogate on its own is refused. -/
def stringBody : List Char → Option (List Char × List Char)
  | [] => none
  | '\x22' :: rest => some ([], rest)
  | '\\' :: 'u' :: a :: b :: c :: d :: '\\' :: 'u' :: e :: f :: g :: h :: rest =>
    match unit? a b c d, unit? e f g h with
    | some high, some low =>
      if 0xD800 ≤ high ∧ high < 0xDC00 then
        if 0xDC00 ≤ low ∧ low < 0xE000 then
          (stringBody rest).map fun (cs, r) =>
            (Char.ofNat (0x10000 + (high - 0xD800) * 0x400 + (low - 0xDC00)) :: cs, r)
        else none
      else if 0xDC00 ≤ high ∧ high < 0xE000 then none
      else (stringBody ('\\' :: 'u' :: e :: f :: g :: h :: rest)).map fun (cs, r) =>
        (Char.ofNat high :: cs, r)
    | _, _ => none
  | '\\' :: 'u' :: a :: b :: c :: d :: rest =>
    match unit? a b c d with
    | some n =>
      if 0xD800 ≤ n ∧ n < 0xE000 then none
      else (stringBody rest).map fun (cs, r) => (Char.ofNat n :: cs, r)
    | none => none
  | '\\' :: c :: rest =>
    match simpleEscape? c with
    | some e => (stringBody rest).map fun (cs, r) => (e :: cs, r)
    | none => none
  | c :: rest =>
    if c.toNat < 0x20 then none else (stringBody rest).map fun (cs, r) => (c :: cs, r)

def digits (cs : List Char) : List Char × List Char :=
  (cs.takeWhile Char.isDigit, cs.dropWhile Char.isDigit)

/-- The longest run of leading digits whose number fits 64 bits, after `known`, and how many
digits are left over. -/
def significand (known : Nat) : List Char → Nat × Nat
  | [] => (known, 0)
  | c :: cs =>
    let next := 10 * known + (c.toNat - '0'.toNat)
    if next < Nat.pow 2 64 then significand next cs else (known, cs.length + 1)

/-- `x · 10 ^ exponent` in two roundings: of the power, and of the product or quotient. A power
below `10 ^ (-308)` is reached in several divisions, one for each unit of the last argument. -/
def scale (x : Binary64) (exponent : Int) : Nat → Option Binary64
  | 0 => none
  | fuel + 1 =>
    let (num, den) := x.quotient
    if exponent.natAbs ≤ 308 then do
      let power ← Binary64.ofQuotient? (Nat.pow 10 exponent.natAbs) 1
      let (p, q) := power.quotient
      if 0 ≤ exponent then Binary64.ofQuotient? (num * p) (den * q)
      else Binary64.ofQuotient? (num * q) (den * p)
    else if x.isZero then some x
    else if 0 ≤ exponent then none
    else do
      let power ← Binary64.ofQuotient? (Nat.pow 10 308) 1
      let (p, q) := power.quotient
      let next ← Binary64.ofQuotient? (num * q) (den * p)
      scale next (exponent + 308) fuel

/-- The float of a significand and a power of ten. -/
def real? (negative : Bool) (significand : Nat) (exponent : Int) : Option Json := do
  let whole ← Binary64.ofQuotient? significand 1
  let x ← scale whole exponent (exponent.natAbs / 308 + 1)
  return .real (if negative then x.neg else x)

/-- The exponent part, if there is one. -/
def exponentPart? : List Char → Option (Option Int × List Char)
  | c :: cs =>
    if c = 'e' ∨ c = 'E' then
      let (negative, rest) := match cs with
        | '+' :: r => (false, r)
        | '-' :: r => (true, r)
        | r => (false, r)
      let (ds, after) := digits rest
      if ds.isEmpty then none
      else
        let n : Int := (String.ofList ds).toNat?.getD 0
        some (some (if negative then -n else n), after)
    else some (none, c :: cs)
  | [] => some (none, [])

def unsigned (negative : Bool) (cs : List Char) : Option (Json × List Char) := do
  let (whole, rest) := digits cs
  match whole with
  | [] => none
  | '0' :: _ :: _ => none
  | _ =>
    let (known, dropped) := significand 0 whole
    match rest with
    | '.' :: after =>
      let (fraction, rest) := digits after
      if fraction.isEmpty then none
      else
        let (exponent, rest) ← exponentPart? rest
        let (all, cut) := significand known fraction
        let shift : Int := dropped - (fraction.length - cut : Nat)
        let value ← real? negative all (shift + exponent.getD 0)
        return (value, rest)
    | _ =>
      let (exponent, rest) ← exponentPart? rest
      match exponent with
      | some e =>
        let value ← real? negative known (dropped + e)
        return (value, rest)
      | none =>
        if dropped = 0 ∧ ¬ negative then return (.integer known, rest)
        else if dropped = 0 ∧ known ≠ 0 ∧ known ≤ Nat.pow 2 63 then return (.integer (-known), rest)
        else
          let value ← real? negative known dropped
          return (value, rest)

def number : List Char → Option (Json × List Char)
  | '-' :: cs => unsigned true cs
  | cs => unsigned false cs

mutual

/-- A value, and what follows it. Each step down spends one unit of `fuel`. -/
def value : Nat → List Char → Option (Json × List Char)
  | 0, _ => none
  | fuel + 1, cs =>
    match skipBlank cs with
    | 'n' :: 'u' :: 'l' :: 'l' :: rest => some (.null, rest)
    | 't' :: 'r' :: 'u' :: 'e' :: rest => some (.bool true, rest)
    | 'f' :: 'a' :: 'l' :: 's' :: 'e' :: rest => some (.bool false, rest)
    | '\x22' :: rest => (stringBody rest).map fun (s, r) => (.string (String.ofList s), r)
    | '[' :: rest =>
      match skipBlank rest with
      | ']' :: after => some (.array [], after)
      | other => (items fuel other).map fun (xs, r) => (.array xs, r)
    | '\x7b' :: rest =>
      match skipBlank rest with
      | '\x7d' :: after => some (.object [], after)
      | other => (fields fuel other).map fun (xs, r) => (ofFields xs, r)
    | other => number other

/-- One or more values up to the closing bracket. -/
def items : Nat → List Char → Option (List Json × List Char)
  | 0, _ => none
  | fuel + 1, cs => do
    let (item, rest) ← value fuel cs
    match skipBlank rest with
    | ',' :: more =>
      let (others, after) ← items fuel more
      return (item :: others, after)
    | ']' :: after => return ([item], after)
    | _ => none

/-- One or more fields up to the closing brace. -/
def fields : Nat → List Char → Option (List (String × Json) × List Char)
  | 0, _ => none
  | fuel + 1, cs =>
    match skipBlank cs with
    | '\x22' :: rest => do
      let (name, rest) ← stringBody rest
      match skipBlank rest with
      | ':' :: rest =>
        let (item, rest) ← value fuel rest
        match skipBlank rest with
        | ',' :: more =>
          let (others, after) ← fields fuel more
          return ((String.ofList name, item) :: others, after)
        | '\x7d' :: after => return ([(String.ofList name, item)], after)
        | _ => none
      | _ => none
    | _ => none

end

end Reader

/-- Reads a text that holds one JSON value and nothing else. -/
def parse? (text : String) : Option Json := do
  let cs := text.toList
  let (value, rest) ← Reader.value (cs.length + 1) cs
  if (Reader.skipBlank rest).isEmpty then some value else none

end SqlCompose.Json

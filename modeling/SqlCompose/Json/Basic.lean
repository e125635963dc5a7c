import SqlCompose.Decimal.Shortest

/-! JSON values and their compact text. The fields of an object stand in the order of their
names, each name once. -/

namespace SqlCompose

inductive Json where
  | null
  | bool (value : Bool)
  | integer (value : Int)
  | real (value : Binary64)
  | string (value : String)
  | array (items : List Json)
  | object (fields : List (String × Json))
deriving Inhabited

namespace Json

/-- A later field replaces an earlier one of the same name. -/
def insertField (name : String) (value : Json) : List (String × Json) → List (String × Json)
  | [] => [(name, value)]
  | (n, v) :: rest =>
    if name = n then (name, value) :: rest
    else if name < n then (name, value) :: (n, v) :: rest
    else (n, v) :: insertField name value rest

/-- The object with these fields, the last of a name counting. -/
def ofFields (fields : List (String × Json)) : Json :=
  .object (fields.foldl (fun known f => insertField f.1 f.2 known) [])

def field? (name : String) : Json → Option Json
  | .object fields => fields.lookup name
  | _ => none

/-- Quotes, backslashes and control characters are escaped, everything else stands for itself. -/
def escapeChar (c : Char) : List Char :=
  match c with
  | '\x22' => ['\\', '\x22']
  | '\\' => ['\\', '\\']
  | '\x08' => ['\\', 'b']
  | '\x0c' => ['\\', 'f']
  | '\n' => ['\\', 'n']
  | '\r' => ['\\', 'r']
  | '\t' => ['\\', 't']
  | c =>
    if c.toNat < 0x20 then
      ['\\', 'u', '0', '0', if c.toNat < 0x10 then '0' else '1',
        (Nat.toDigits 16 (c.toNat % 16)).headD '0']
    else [c]

def quote (s : String) : String :=
  String.ofList ('\x22' :: s.toList.flatMap escapeChar ++ ['\x22'])

/-- Positional with a fraction from `10 ^ (-5)` up to `10 ^ 16`, scientific outside. -/
def magnitudeText (d : Decimal) : List Char :=
  if -5 ≤ d.magnitude ∧ d.magnitude < 16 then
    if 0 ≤ d.exponent then d.positional ++ ['.', '0'] else d.positional
  else d.scientific

/-- JSON has no text for what is not finite, and writes `null`. -/
def realText (x : Binary64) : String :=
  match x.datum with
  | .finite negative significand exponent =>
    let magnitude := magnitudeText (BinaryFormat.double.shortest .toEven significand exponent)
    String.ofList (if negative then '-' :: magnitude else magnitude)
  | _ => "null"

mutual

/-- The text without blanks. -/
def compact : Json → String
  | .null => "null"
  | .bool true => "true"
  | .bool false => "false"
  | .integer n => toString n
  | .real x => realText x
  | .string s => quote s
  | .array items => "[" ++ String.intercalate "," (compactItems items) ++ "]"
  | .object fields => "\x7b" ++ String.intercalate "," (compactFields fields) ++ "\x7d"

def compactItems : List Json → List String
  | [] => []
  | item :: rest => item.compact :: compactItems rest

def compactFields : List (String × Json) → List String
  | [] => []
  | (name, value) :: rest => (quote name ++ ":" ++ value.compact) :: compactFields rest

end

end Json

end SqlCompose

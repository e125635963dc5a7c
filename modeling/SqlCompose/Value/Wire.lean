import SqlCompose.Value.Basic

/-! The binary form in which a PostgreSQL server takes a parameter: whole numbers most
significant byte first, dates and instants counted from the start of the year 2000. -/

namespace SqlCompose

/-- A parameter type that a server may ask for. -/
inductive WireType where
  | bool
  | int2
  | int4
  | int8
  | float4
  | float8
  | text
  | varchar
  | bytea
  | uuid
  | date
  | timestamp
  | timestamptz
  | json
  | jsonb
deriving DecidableEq, Repr

namespace WireType

def all : List WireType :=
  [.bool, .int2, .int4, .int8, .float4, .float8, .text, .varchar, .bytea, .uuid, .date,
    .timestamp, .timestamptz, .json, .jsonb]

def name : WireType → String
  | .bool => "bool"
  | .int2 => "int2"
  | .int4 => "int4"
  | .int8 => "int8"
  | .float4 => "float4"
  | .float8 => "float8"
  | .text => "text"
  | .varchar => "varchar"
  | .bytea => "bytea"
  | .uuid => "uuid"
  | .date => "date"
  | .timestamp => "timestamp"
  | .timestamptz => "timestamptz"
  | .json => "json"
  | .jsonb => "jsonb"

def ofName? (name : String) : Option WireType := all.find? (·.name == name)

end WireType

/-- The type that a server gives a parameter for a column of this type. -/
def SqlType.wireType : SqlType → WireType
  | .bool => .bool
  | .smallInt => .int2
  | .int => .int4
  | .bigInt => .int8
  | .real => .float4
  | .double => .float8
  | .text => .text
  | .bytes => .bytea
  | .uuid => .uuid
  | .date => .date
  | .timestamp => .timestamp
  | .timestampTz => .timestamptz
  | .json => .jsonb

namespace Wire

/-- The last `count` bytes of a number, most significant first. -/
def bigEndian : Nat → Nat → List UInt8
  | 0, _ => []
  | count + 1, n => bigEndian count (n / 256) ++ [UInt8.ofNat (n % 256)]

/-- A signed number in two's complement. -/
def signed (count : Nat) (n : Int) : List UInt8 :=
  bigEndian count (n % (Nat.pow 256 count : Nat)).toNat

def utf8 (s : String) : List UInt8 := s.toUTF8.toList

end Wire

/-- What is sent for a parameter. -/
inductive WireForm where
  | null
  | bytes (content : List UInt8)
deriving DecidableEq, Repr

/-- The binary form for a server type, unless that type does not take such a value. NULL suits
any type. -/
def Value.wire? (v : Value) (type : WireType) : Option WireForm :=
  match v, type with
  | .null, _ => some .null
  | .bool b, .bool => some (.bytes [if b then 1 else 0])
  | .smallInt n, .int2 => some (.bytes (Wire.signed 2 n.toInt))
  | .int n, .int4 => some (.bytes (Wire.signed 4 n.toInt))
  | .bigInt n, .int8 => some (.bytes (Wire.signed 8 n.toInt))
  | .real x, .float4 => some (.bytes (Wire.bigEndian 4 x.bits.toNat))
  | .double x, .float8 => some (.bytes (Wire.bigEndian 8 x.bits.toNat))
  | .text s, .text => some (.bytes (Wire.utf8 s))
  | .text s, .varchar => some (.bytes (Wire.utf8 s))
  | .bytes bs, .bytea => some (.bytes bs)
  | .uuid bs, .uuid => some (.bytes bs)
  | .date d, .date => some (.bytes (Wire.signed 4 d.daysSince2000))
  | .timestamp t, .timestamp => some (.bytes (Wire.signed 8 t.microsecondsSince2000))
  | .timestampTz t, .timestamptz => some (.bytes (Wire.signed 8 t.microsecondsSince2000))
  | .json j, .json => some (.bytes (Wire.utf8 j.compact))
  | .json j, .jsonb => some (.bytes (1 :: Wire.utf8 j.compact))
  | _, _ => none

end SqlCompose

import SqlCompose.Calendar
import SqlCompose.Json.Basic

/-! Values that a statement binds, the types of columns, and the pair of both that travels with
a placeholder. -/

namespace SqlCompose

/-- The type of a column. -/
inductive SqlType where
  | bool
  | smallInt
  | int
  | bigInt
  | real
  | double
  | text
  | bytes
  | uuid
  | date
  | timestamp
  | timestampTz
  | json
deriving DecidableEq, Repr

namespace SqlType

def all : List SqlType :=
  [.bool, .smallInt, .int, .bigInt, .real, .double, .text, .bytes, .uuid, .date, .timestamp,
    .timestampTz, .json]

def name : SqlType → String
  | .bool => "Bool"
  | .smallInt => "SmallInt"
  | .int => "Int"
  | .bigInt => "BigInt"
  | .real => "Real"
  | .double => "Double"
  | .text => "Text"
  | .bytes => "Bytes"
  | .uuid => "Uuid"
  | .date => "Date"
  | .timestamp => "Timestamp"
  | .timestampTz => "TimestampTz"
  | .json => "Json"

def ofName? (name : String) : Option SqlType := all.find? (·.name == name)

end SqlType

/-- A value of some column type, or NULL. A timestamp with zone is kept in UTC. -/
inductive Value where
  | null
  | bool (value : Bool)
  | smallInt (value : Int16)
  | int (value : Int32)
  | bigInt (value : Int64)
  | real (value : Binary32)
  | double (value : Binary64)
  | text (value : String)
  | bytes (value : List UInt8)
  | uuid (value : List UInt8)
  | date (value : Date)
  | timestamp (value : Timestamp)
  | timestampTz (value : Timestamp)
  | json (value : Json)

namespace Value

def isNull : Value → Bool
  | .null => true
  | _ => false

/-- NULL has no type of its own. -/
def type? : Value → Option SqlType
  | .null => none
  | .bool _ => some .bool
  | .smallInt _ => some .smallInt
  | .int _ => some .int
  | .bigInt _ => some .bigInt
  | .real _ => some .real
  | .double _ => some .double
  | .text _ => some .text
  | .bytes _ => some .bytes
  | .uuid _ => some .uuid
  | .date _ => some .date
  | .timestamp _ => some .timestamp
  | .timestampTz _ => some .timestampTz
  | .json _ => some .json

def text? : Value → Option String
  | .text s => some s
  | _ => none

end Value

/-- A value with the type of the column that it is compared with or assigned to. -/
structure Bound where
  value : Value
  type : SqlType

namespace Bound

def text (s : String) : Bound := ⟨.text s, .text⟩

def null (type : SqlType) : Bound := ⟨.null, type⟩

end Bound

end SqlCompose

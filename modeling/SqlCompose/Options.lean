/-! Options of a single statement. -/

namespace SqlCompose

structure QueryOptions where
  /-- The LIKE escape sequence; the dialect's own when there is none. -/
  escapeSequence : Option String
  /-- Whether an update or delete may reach every row. -/
  allowMissingWhere : Bool
  /-- How many parameter sets of a batch are sent together. -/
  batchSize : Nat
  /-- To how many bytes the SQL in log events is cut. -/
  maxSqlLength : Option Nat
deriving DecidableEq, Repr

namespace QueryOptions

/-- The cut of log events where no options are at hand. -/
def defaultSqlLength : Option Nat := some 200

def default : QueryOptions := ⟨none, false, 10, defaultSqlLength⟩

instance : Inhabited QueryOptions := ⟨default⟩

end QueryOptions

end SqlCompose

import SqlCompose.Options
import SqlCompose.Text.Truncation

/-! Events that composing and running statements report. -/

namespace SqlCompose

inductive LogLevel where
  | debug
  | warn
  | error
deriving DecidableEq, Repr

def LogLevel.name : LogLevel → String
  | .debug => "DEBUG"
  | .warn => "WARN"
  | .error => "ERROR"

structure LogEvent where
  level : LogLevel
  message : String
  fields : List (String × String)
deriving DecidableEq, Repr

namespace LogEvent

/-- A statement was composed. -/
def built (kind dialect sql : String) (parameters : Nat) (limit : Option Nat) : LogEvent where
  level := .debug
  message := "statement built"
  fields :=
    [("kind", kind), ("dialect", dialect), ("param_count", toString parameters),
      ("sql", Truncation.truncate limit sql)]

/-- A statement is about to run. -/
def executing (operation sql : String) (parameters : Nat) : LogEvent where
  level := .debug
  message := "executing"
  fields :=
    [("operation", operation), ("param_count", toString parameters),
      ("sql", Truncation.truncate QueryOptions.defaultSqlLength sql)]

/-- A member of a batch failed, or its count is not known. -/
def batchMember (level : LogLevel) (message : String) (index : Nat) (raw : Int) (sql : String) :
    LogEvent where
  level
  message
  fields :=
    [("index", toString index), ("raw", toString raw),
      ("sql", Truncation.truncate QueryOptions.defaultSqlLength sql)]

end LogEvent

end SqlCompose

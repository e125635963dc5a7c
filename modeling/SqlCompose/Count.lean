import SqlCompose.Error
import SqlCompose.Log
import SqlCompose.Query.Insert
import SqlCompose.Dialect.Basic

/-! How many rows a statement affected, as drivers report it, and what that tells about an
upsert. -/

namespace SqlCompose

inductive AffectedCount where
  | rows (count : UInt64)
  /-- The statement ran, but the driver could not count. -/
  | unknown
deriving DecidableEq, Repr

namespace AffectedCount

/-- The number with which a driver says that it could not count. -/
def noInfo : Int64 := -2

/-- Reads what a driver reports. Any other negative number is a failure. -/
def ofRaw (raw : Int64) : Except Error AffectedCount :=
  if raw = noInfo then .ok .unknown
  else if raw < 0 then .error (.executionFailed raw.toInt)
  else .ok (.rows raw.toUInt64)

/-- The counts of a batch whose first member has number `index`, and what was reported on the way.
A failed member ends the reading. -/
def ofBatch (sql : String) (index : Nat) :
    List Int64 → Except Error (List AffectedCount) × List LogEvent
  | [] => (.ok [], [])
  | raw :: rest =>
    match ofRaw raw with
    | .error e => (.error e, [.batchMember .error "batch member failed" index raw.toInt sql])
    | .ok count =>
      let (counts, events) := ofBatch sql (index + 1) rest
      let warning :=
        if count = .unknown then
          [.batchMember .warn "batch member reported no affected-row count" index raw.toInt sql]
        else []
      (counts.map (count :: ·), warning ++ events)

end AffectedCount

/-- What an upsert did to one row, as far as its count tells. -/
inductive UpsertOutcome where
  | inserted
  | updated
  | insertedOrUpdated
  /-- A row existed and was left alone. -/
  | unchanged
  | unknown
deriving DecidableEq, Repr

namespace ConflictSyntax

/-- Only `on duplicate key` counts an update as two rows. -/
def classify (syn : ConflictSyntax) (count : AffectedCount) (policy : ConflictPolicy) :
    UpsertOutcome :=
  match count with
  | .unknown => .unknown
  | .rows n =>
    if n = 0 then .unchanged
    else match syn, policy with
      | .onDuplicateKey, .ignore => if n = 1 then .inserted else .insertedOrUpdated
      | .onDuplicateKey, .update _ =>
        if n = 1 then .inserted else if n = 2 then .updated else .insertedOrUpdated
      | _, .ignore => if n = 1 then .inserted else .insertedOrUpdated
      | _, .update _ => .insertedOrUpdated

end ConflictSyntax

end SqlCompose

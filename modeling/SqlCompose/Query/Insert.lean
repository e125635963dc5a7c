import SqlCompose.Query.Mutation

/-! Inserts and upserts. An insert is drafted by calls, some of which make sense only after
others; the first call out of place is remembered and refuses the insert in the end. -/

namespace SqlCompose

/-- Which columns an upsert overwrites in a row that exists already. -/
inductive UpdateSet where
  /-- Every inserted column that is no conflict key, from the incoming row. -/
  | allColumns
  | assignments (items : List Assignment)

inductive ConflictPolicy where
  | update (set : UpdateSet)
  | ignore

structure OnConflict where
  /-- Without any, the primary key counts. -/
  keys : List Column
  policy : ConflictPolicy

structure InsertQuery where
  target : Table
  /-- Makes the insert an upsert. -/
  conflict : Option OnConflict
  returning : Bool
  options : Option QueryOptions

namespace InsertQuery

def into (target : Table) : InsertQuery := ⟨target, none, false, none⟩

/-- The sub-queries of explicit assignments. -/
def subQueries (q : InsertQuery) : List SubQuery :=
  match q.conflict with
  | some ⟨_, .update (.assignments items)⟩ => items.flatMap Assignment.subQueries
  | _ => []

end InsertQuery

structure InsertDraft where
  query : InsertQuery
  fault : Option Misuse

inductive InsertCall where
  | onDuplicateKeyUpdate
  | onDuplicateKeyIgnore
  | conflictKey (column : Column)
  | set (items : List Assignment)
  | returning
  | options (options : QueryOptions)

namespace InsertDraft

def into (target : Table) : InsertDraft := ⟨.into target, none⟩

/-- Remembers a fault unless an earlier one is remembered. -/
def blame (d : InsertDraft) (fault : Misuse) : InsertDraft :=
  { d with fault := some (d.fault.getD fault) }

/-- Chooses a policy. Conflict keys chosen before are kept. -/
def choose (d : InsertDraft) (policy : ConflictPolicy) : InsertDraft :=
  let keys := match d.query.conflict with
    | some conflict => conflict.keys
    | none => []
  { d with query := { d.query with conflict := some ⟨keys, policy⟩ } }

def step (d : InsertDraft) : InsertCall → InsertDraft
  | .onDuplicateKeyUpdate => d.choose (.update .allColumns)
  | .onDuplicateKeyIgnore => d.choose .ignore
  | .conflictKey column =>
    match d.query.conflict with
    | some ⟨keys, policy⟩ =>
      { d with query := { d.query with conflict := some ⟨keys ++ [column], policy⟩ } }
    | none => d.blame .conflictKeyWithoutPolicy
  | .set items =>
    match d.query.conflict with
    | some ⟨keys, .update .allColumns⟩ =>
      { d with query := { d.query with conflict := some ⟨keys, .update (.assignments items)⟩ } }
    | some ⟨keys, .update (.assignments known)⟩ =>
      { d with query :=
        { d.query with conflict := some ⟨keys, .update (.assignments (known ++ items))⟩ } }
    | _ => d.blame .setWithoutUpdatePolicy
  | .returning => { d with query := { d.query with returning := true } }
  | .options options => { d with query := { d.query with options := some options } }

def run (target : Table) (calls : List InsertCall) : InsertDraft := calls.foldl step (into target)

/-- The drafted insert, unless a call was out of place. -/
def finish (d : InsertDraft) : Except Error InsertQuery :=
  match d.fault with
  | some fault => .error (.validation (.misuse fault))
  | none => .ok d.query

end InsertDraft

end SqlCompose

import SqlCompose.Proofs.Query.Constructs
import SqlCompose.Proofs.Sql.Operands
import SqlCompose.Proofs.Upsert.Clauses

/-! Constructs that a dialect may lack, in the trees of statements. A statement contains what it writes
itself and what the selects nested in it write. -/

namespace SqlCompose

namespace Sql

namespace Condition

mutual

def constructs : Condition → List Construct
  | .rowInList _ _ _ => [.rowInList]
  | .rowInSubQuery _ _ _ => [.rowInSubQuery]
  | .chain _ parts => listConstructs parts
  | .parenthesized inner => inner.constructs
  | .not inner => inner.constructs
  | .constant _ => []
  | .compare _ _ _ => []
  | .isNull _ _ => []
  | .like _ _ _ _ => []
  | .between _ _ _ _ => []
  | .inList _ _ _ => []
  | .inSubQuery _ _ _ => []
  | .exists _ _ => []

def listConstructs : List Condition → List Construct
  | [] => []
  | c :: cs => c.constructs ++ listConstructs cs

end

theorem listConstructs_eq_flatMap (cs : List Condition) :
    listConstructs cs = cs.flatMap constructs := by
  induction cs with
  | nil => rfl
  | cons c cs ih => rw [listConstructs, ih, List.flatMap_cons]

theorem collects_constructs : Collects constructs where
  constant _ := rfl
  chain _ cs := listConstructs_eq_flatMap cs
  parenthesized _ := rfl
  not _ := rfl

end Condition

def OrderItem.constructs (i : OrderItem) : List Construct :=
  if i.nulls.isSome then [.nullsOrdering] else []

namespace Select

def constructs (s : Select) : List Construct :=
  s.joins.flatMap (·.on.constructs) ++ s.filter.toList.flatMap Condition.constructs ++
    s.orderBy.flatMap OrderItem.constructs ++ if s.lock.isSome then [.lock] else []

/-- The select writes the construct, or a select nested in it does. -/
inductive Contains (k : Construct) : Select → Prop where
  | here {s : Select} (h : k ∈ s.constructs) : Contains k s
  | inside {s r : Select} (hr : .subQuery r ∈ s.operands) (h : r.Contains k) : Contains k s

end Select

/-- More is done about a row that exists already than to fail. -/
def WriteBody.isUpsert : WriteBody → Bool
  | .insert i => i.ignoring || i.conflict.isSome
  | .merge _ => true

def Write.constructs (w : Write) : List Construct :=
  (if w.body.isUpsert then [.upsert] else []) ++
    (if w.returning.isSome then [.returning] else []) ++
    if w.body.rows.length > 1 then [.multiRow] else []

namespace Command

def constructs : Command → List Construct
  | .select s => s.constructs
  | .update u => u.filter.toList.flatMap Condition.constructs
  | .delete d => d.filter.toList.flatMap Condition.constructs
  | .write w => w.constructs

/-- The command writes the construct, or a select nested in it does. -/
inductive Contains (k : Construct) (c : Command) : Prop where
  | here (h : k ∈ c.constructs)
  | inside {s : Select} (hs : .subQuery s ∈ c.operands) (h : s.Contains k)

end Command

end Sql

/-- What is sent contains what its text does. A batch may run for a table that has an identity
column. -/
inductive Output.Contains : Construct → Output → Sql.Command → Prop where
  | text {k : Construct} {o : Output} {c : Sql.Command} (h : c.Contains k) : Contains k o c
  | batch {b : BatchStatement} {w : Sql.Write} (h : w.body.table.definition.hasIdentity = true) :
    Contains .batchKeys (.batch b) (.write w)

theorem Output.Contains.command {k : Construct} {o : Output} {c : Sql.Command}
    (h : o.Contains k c) (hc : ∀ w, c ≠ .write w) : c.Contains k := by
  cases h with
  | text h => exact h
  | batch _ => exact absurd rfl (hc _)

end SqlCompose

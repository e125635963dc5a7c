import SqlCompose.Build

/-! Which criteria a statement writes. All criteria of a level are written, in groups of any depth, and
so are the levels of the sub-queries that they mention. Only what is looked for in an empty list is
left out. -/

namespace SqlCompose

namespace Criterion

inductive Within (x : Criterion) : Criterion → Prop where
  | self : Within x x
  | all {cs : List Criterion} {c : Criterion} (hc : c ∈ cs) (h : Within x c) : Within x (.all cs)
  | any {cs : List Criterion} {c : Criterion} (hc : c ∈ cs) (h : Within x c) : Within x (.any cs)
  | not {cs : List Criterion} {c : Criterion} (hc : c ∈ cs) (h : Within x c) : Within x (.not cs)

def Among (x : Criterion) (cs : List Criterion) : Prop := ∃ c ∈ cs, x.Within c

/-- The sub-queries that a single criterion writes, but not those that members of a group do. -/
def ownSubQueries : Criterion → List SubQuery
  | .inList _ _ [] => []
  | .pairInList _ _ [] => []
  | .all _ => []
  | .any _ => []
  | .not _ => []
  | c => c.subQueries

end Criterion

namespace Select

def Embeds (s : Select) (q : SubQuery) : Prop :=
  q ∈ s.projection.subQueries ∨ ∃ y : Criterion, y.Among s.criteria ∧ q ∈ y.ownSubQueries

/-- The criterion is written at this level or inside it, however deep. -/
inductive Writes (x : Criterion) : Select → Prop where
  | here {s : Select} (h : x.Among s.criteria) : Writes x s
  | inside {s : Select} {q : SubQuery} (hq : s.Embeds q) (h : Writes x q.select) : Writes x s

end Select

/-- The criterion is part of what the query is built into. Several rows that are none give the empty
statement, which has no part. -/
inductive Query.Writes (x : Criterion) : Query → Prop where
  | select {q : Select} (h : q.Writes x) : Writes x (.select q)
  | update {q : UpdateQuery} (h : x.Among q.filter) : Writes x (.update q)
  | insideUpdate {q : UpdateQuery} {y : Criterion} {r : SubQuery} (hy : y.Among q.filter)
      (hr : r ∈ y.ownSubQueries) (h : r.select.Writes x) : Writes x (.update q)
  | assigned {q : UpdateQuery} {a : Assignment} {r : SubQuery} (ha : a ∈ q.assignments)
      (hr : r ∈ a.subQueries) (h : r.select.Writes x) : Writes x (.update q)
  | delete {q : DeleteQuery} (h : x.Among q.filter) : Writes x (.delete q)
  | insideDelete {q : DeleteQuery} {y : Criterion} {r : SubQuery} (hy : y.Among q.filter)
      (hr : r ∈ y.ownSubQueries) (h : r.select.Writes x) : Writes x (.delete q)
  | upsert {draft : InsertDraft} {rows : Rows} {r : SubQuery} (hr : r ∈ draft.query.subQueries)
      (h : r.select.Writes x) (hrows : rows ≠ .multiple []) : Writes x (.insert draft rows)

end SqlCompose

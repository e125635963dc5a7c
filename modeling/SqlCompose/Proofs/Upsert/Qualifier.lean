import SqlCompose.Proofs.Compose.Resolution
import SqlCompose.Proofs.Upsert.Incoming

/-! The two rows that an upsert speaks of. The existing row goes by the alias of its table and the
incoming row by a fixed name, which is not among the names that aliases are kept apart from. -/

namespace SqlCompose

inductive UpsertRow where
  | existing
  | incoming
deriving DecidableEq, Repr

/-- The fixed name of the incoming row. -/
def incomingName : Identifier := .plain "excluded"

/-- The rows that a qualifier may stand for where the existing row goes by a name of its own. Databases
do not look at how the letters are cased. -/
inductive UpsertRow.Called (own qualifier : Identifier) : UpsertRow → Prop where
  | existing (h : qualifier.key = own.key) : Called own qualifier .existing
  | incoming (h : qualifier.key = incomingName.key) : Called own qualifier .incoming

namespace Sql

open List (infix_rfl infix_cons infix_append_of_infix_left infix_append_of_infix_right)

/-- A column with a qualifier before it, and the row that is meant. -/
inductive RowReference where
  | existing (name : ColumnName)
  | incoming (column : Column)

namespace RowReference

def row : RowReference → UpsertRow
  | .existing _ => .existing
  | .incoming _ => .incoming

def qualifier : RowReference → Identifier
  | .existing n => n.qualifier
  | .incoming _ => incomingName

def pieces : RowReference → List Piece
  | .existing n => n.pieces
  | .incoming c => incomingPieces .qualified c

/-- With the fixed name as its own, a reference to either row may stand for both. -/
theorem called_iff {own : Identifier} {r : RowReference}
    (h : ∀ n, r = .existing n → n.qualifier = own) :
    (∀ row : UpsertRow, row.Called own r.qualifier ↔ row = r.row) ↔
      own.key ≠ incomingName.key := by
  cases r with
  | existing n =>
    obtain rfl := h n rfl
    constructor
    · -- under the fixed name the reference would stand for the incoming row as well
      intro hcalled hkey
      cases (hcalled .incoming).mp (.incoming hkey)
    · rintro hkey row
      constructor
      · intro hrow
        cases hrow with
        | existing _ => rfl
        | incoming hincoming => exact absurd hincoming hkey
      · rintro rfl
        exact .existing rfl
  | incoming c =>
    constructor
    · intro hcalled hkey
      cases (hcalled .existing).mp (.existing hkey.symm)
    · rintro hkey row
      constructor
      · intro hrow
        cases hrow with
        | existing hexisting => exact absurd hexisting.symm hkey
        | incoming _ => rfl
      · rintro rfl
        exact .incoming rfl

end RowReference

def SetItem.references (i : SetItem) : List RowReference :=
  match i.source with
  | .incoming c => [.incoming c]
  | .expr (.column n) => [.existing n]
  | .expr _ => []

theorem SetItem.infix_reference {i : SetItem} {r : RowReference} (h : r ∈ i.references) :
    r.pieces <:+: i.pieces .qualified := by
  obtain ⟨target, source⟩ := i
  match source with
  | .incoming c =>
    rw [List.mem_singleton.mp h]
    exact infix_cons (infix_cons infix_rfl)
  | .expr (.column n) =>
    rw [List.mem_singleton.mp h]
    exact infix_cons (infix_cons infix_rfl)
  | .expr (.parameter b) => exact absurd h List.not_mem_nil
  | .expr (.subQuery s) => exact absurd h List.not_mem_nil

theorem SetItem.mem_operands_of_reference {i : SetItem} {n : ColumnName}
    (h : .existing n ∈ i.references) : .column n ∈ i.operands := by
  obtain ⟨target, source⟩ := i
  match source with
  | .incoming c => simp [references] at h
  | .expr (.column n) =>
    obtain rfl := RowReference.existing.inj (List.mem_singleton.mp h)
    exact List.mem_cons_self
  | .expr (.parameter b) => exact absurd h List.not_mem_nil
  | .expr (.subQuery s) => exact absurd h List.not_mem_nil

/-- The condition of a `merge` compares keys, and its new row is made of incoming values. -/
def Merge.references (m : Merge) : List RowReference :=
  m.keys.flatMap (fun n => [.existing n, .incoming n.column]) ++ m.columns.map .incoming

namespace WriteBody

/-- The columns that stand behind a qualifier, nested selects apart. -/
def references (b : WriteBody) : List RowReference :=
  (match b with
    | .insert _ => []
    | .merge m => m.references) ++ b.items.flatMap SetItem.references

theorem infix_reference {b : WriteBody} (hstyle : b.style = .qualified) {r : RowReference}
    (h : r ∈ b.references) : r.pieces <:+: b.pieces := by
  rcases List.mem_append.mp h with h | h
  · cases b with
    | insert i => exact absurd h List.not_mem_nil
    | merge m =>
      rcases List.mem_append.mp h with h | h
      · obtain ⟨n, hn, hr⟩ := List.mem_flatMap.mp h
        rcases List.mem_pair.mp hr with rfl | rfl
        · exact Merge.infix_key hn
        · exact Merge.infix_incoming
            (List.mem_append_left _ (List.mem_append_left _ (List.mem_map_of_mem hn)))
      · obtain ⟨c, hc, rfl⟩ := List.mem_map.mp h
        exact Merge.infix_incoming (List.mem_append_right _ hc)
  · obtain ⟨i, hi, hr⟩ := List.mem_flatMap.mp h
    exact (SetItem.infix_reference hr).trans (hstyle ▸ infix_item hi)

theorem mem_operands_of_reference {b : WriteBody} {n : ColumnName}
    (h : .existing n ∈ b.references) : .column n ∈ b.operands := by
  have hitem : ∀ {items : List SetItem}, .existing n ∈ items.flatMap SetItem.references →
      .column n ∈ items.flatMap SetItem.operands := fun h => by
    obtain ⟨i, hi, hn⟩ := List.mem_flatMap.mp h
    exact List.mem_flatMap.mpr ⟨i, hi, SetItem.mem_operands_of_reference hn⟩
  cases b with
  | insert insert =>
    obtain ⟨ignoring, table, columns, rows, conflict⟩ := insert
    match conflict with
    | none => exact absurd h List.not_mem_nil
    | some (.onConflict keys items) => exact hitem h
    | some (.onDuplicateKey items) => exact hitem h
  | merge m =>
    rcases List.mem_append.mp h with h | h
    · refine List.mem_append_left _ ?_
      simpa [Merge.references] using h
    · exact List.mem_append_right _ (hitem h)

end WriteBody

end Sql

theorem InsertQuery.composeBody_style {σ : Setting} {q : InsertQuery} {rows : List (List Cell)}
    {body : Sql.WriteBody} (h : q.composeBody σ rows = .ok body)
    (hd : σ.dialect.conflict ≠ .onDuplicateKey) : body.style = .qualified := by
  unfold composeBody at h
  cases hq : q.conflict with
  | none =>
    rw [hq, pure_eq_ok_iff] at h
    subst h
    rfl
  | some o =>
    rw [hq] at h
    obtain ⟨_, _, _, _, hform⟩ := OnConflict.compose_eq_ok_iff.mp h
    exact hform.style hd

/-- The level of a table that is written to holds nothing else, and no level is around it. -/
theorem Sql.Expr.Stems.target {σ : Setting} {target : Table} {queries : List SubQuery}
    {os : List Operand} {n : ColumnName}
    (h : (Expr.column n).Stems σ (.root (.ofTarget target queries)) os) :
    n.column.table = target ∧ n.qualifier = target.definition.name := by
  have hlevel : (ScopeTree.ofTarget target queries).level = [(target, target.definition.name)] :=
    ScopeTree.grow_singleton_level target queries
  cases h with
  | column _ hn =>
    obtain ⟨name, hname, rfl⟩ := Column.qualify_eq_ok_iff.mp hn
    obtain ⟨level, hmem, hlookup⟩ := List.exists_of_findSome?_eq_some hname
    obtain rfl : level = [(target, target.definition.name)] :=
      (List.mem_singleton.mp hmem).trans hlevel
    have hentry := List.mem_singleton.mp (mem_of_lookup hlookup)
    exact Prod.mk.inj hentry
  | outer _ hn =>
    obtain ⟨_, hname, _⟩ := Column.qualify_eq_ok_iff.mp hn
    cases hname

/-- The existing row of an upsert goes by the name of its table. What refers to one of the two rows
can be taken for the other exactly when the table has the name of the incoming row. -/
theorem Query.build_rows_called_iff {d : Dialect} {defaults : QueryOptions} {draft : InsertDraft}
    {rows : Rows} {b : Built Output} (hd : d.conflict ≠ .onDuplicateKey)
    (h : (insert draft rows).build d defaults = .ok b) :
    rows = .multiple [] ∧ b.output = .statement (.empty d) ∨
      ∃ w, (insert draft rows).Composed d defaults (.write w) ∧ b.output.Shows d (.write w) ∧
        (insert draft rows).scope.level =
          [(draft.query.target, draft.query.target.definition.name)] ∧
        ∀ r ∈ w.body.references, r.pieces <:+: w.pieces ∧
          (∀ n, r = .existing n → n.column.table = draft.query.target ∧
            n.qualifier = draft.query.target.definition.name) ∧
          ((∀ row : UpsertRow, row.Called draft.query.target.definition.name r.qualifier ↔
              row = r.row) ↔
            draft.query.target.definition.name.key ≠ incomingName.key) := by
  by_cases hrows : rows = .multiple []
  · subst hrows
    exact .inl ⟨rfl, build_insert_nothing h⟩
  · obtain ⟨cells, w, _, hfault, hw, hshows⟩ := build_insert_shows h hrows
    have hbody := (InsertQuery.compose_eq_ok hw).1
    have hpieces : w.body.pieces <:+: w.pieces := List.infix_append_of_infix_left List.infix_rfl
    refine .inr ⟨w, .insert hfault hw, hshows, ScopeTree.grow_singleton_level _ _, fun r hr => ?_⟩
    have hexisting : ∀ n, r = .existing n → n.column.table = draft.query.target ∧
        n.qualifier = draft.query.target.definition.name := by
      rintro n rfl
      have hstems := (InsertQuery.composeBody_stems hbody).2 _
        (Sql.WriteBody.mem_operands_of_reference hr)
      exact hstems.target
    exact ⟨(Sql.WriteBody.infix_reference (InsertQuery.composeBody_style hbody hd) hr).trans hpieces,
      hexisting, Sql.RowReference.called_iff fun n hn => (hexisting n hn).2⟩

/-- Employees are told from the rows that come in for them. -/
theorem Query.build_rows_called_iff_arriving :
    ∃ b w, (insert Staff.arriving (.single [.int 7, .text "A"])).build .h2 default = .ok b ∧
      b.output.Shows .h2 (.write w) ∧ w.body.references ≠ [] ∧
      ∀ r ∈ w.body.references, ∀ row : UpsertRow,
        row.Called (.plain "employee") r.qualifier ↔ row = r.row := by
  have hd : Dialect.conflict .h2 ≠ .onDuplicateKey := by decide
  obtain ⟨b, hb⟩ : ∃ b, (insert Staff.arriving (.single [.int 7, .text "A"])).build .h2
      default = .ok b := ⟨_, rfl⟩
  rcases build_rows_called_iff hd hb with ⟨hrows, _⟩ | ⟨w, hw, hshows, _, hreferences⟩
  · cases hrows
  · have hkey : Identifier.key (.plain "employee") ≠ incomingName.key := by decide
    refine ⟨b, w, hb, hshows, ?_, fun r hr => (hreferences r hr).2.2.mpr hkey⟩
    cases hw with
    | insert _ h =>
      obtain rfl := Except.ok.inj h
      exact List.cons_ne_nil _ _

namespace Exclusion

/-- A table that has the name of the incoming row. -/
def excluded : Table :=
  ⟨0, .plain "excluded", none,
    [⟨.plain "id", .int, false, true, false⟩, ⟨.plain "n", .int, false, false, false⟩]⟩

def arriving : InsertDraft := .run excluded [.onDuplicateKeyUpdate]

end Exclusion

/-- The condition compares the incoming row with itself, or the existing one with itself. -/
theorem Query.build_rows_confused_exclusion :
    ∃ b w, (insert Exclusion.arriving (.single [.int 1, .int 2])).build .h2 default = .ok b ∧
      b.output.Shows .h2 (.write w) ∧
      b.output.sql = "merge into excluded using (values (?, ?)) as excluded (id, n) " ++
        "on (excluded.id = excluded.id) when matched then update set n = excluded.n " ++
        "when not matched then insert (id, n) values (excluded.id, excluded.n)" ∧
      (insert Exclusion.arriving (.single [.int 1, .int 2])).scope.level =
        [(Exclusion.excluded, incomingName)] ∧
      ∃ r ∈ w.body.references, r.row = .existing ∧
        UpsertRow.Called incomingName r.qualifier .existing ∧
        UpsertRow.Called incomingName r.qualifier .incoming :=
  ⟨_, _, rfl, rfl, by decide +kernel, rfl, _, List.mem_cons_self, rfl, .existing rfl, .incoming rfl⟩

end SqlCompose

import SqlCompose.Proofs.Compose.Resolution
import SqlCompose.Proofs.Payload.Agreement
import SqlCompose.Proofs.Sql.Values

/-! Deletes beside the selects of the same rows. Both have one scope, so that the criteria are composed
at one position and come out as one where clause. -/

namespace SqlCompose

/-- The rows that a delete removes, with all their columns. -/
def DeleteQuery.preview (q : DeleteQuery) (distinct : Bool) : Select :=
  { (Select.of q.target).filterBy q.filter with distinct, options := q.options }

theorem Criterion.exists_of_composeWhere {σ : Setting} {p : Position} {cs : List Criterion}
    {filter : Option Sql.Condition} (hne : cs ≠ []) (h : composeWhere σ p cs = .ok filter) :
    ∃ e, filter = some e := by
  obtain ⟨es, hes, rfl⟩ := composeWhere_eq_ok_iff.mp h
  cases hes with
  | nil => exact absurd rfl hne
  | cons _ _ => exact ⟨_, rfl⟩

/-- Before a where clause nothing is bound. -/
theorem Statement.read_where {s : Statement} {opening : List Piece} {e : Sql.Condition}
    (hs : s.pieces = opening ++ Sql.Condition.wherePieces (some e))
    (hopening : Piece.values opening = []) :
    s.values = Piece.values e.pieces ∧
      s.sql = Piece.sqlAfter s.dialect 0 opening ++ " where " ++ Piece.sqlAfter s.dialect 0 e.pieces := by
  constructor
  · rw [values, hs, Piece.values_append, hopening]
    rfl
  · rw [sql, hs, Piece.sqlAfter_append, hopening, Sql.Condition.wherePieces, Piece.sqlAfter,
      List.length_nil, String.append_assoc]

namespace DeleteQuery

variable {q : DeleteQuery} {distinct : Bool}

theorem ofSelect_preview (q : DeleteQuery) (distinct : Bool) :
    ScopeTree.ofSelect (q.preview distinct) = ScopeTree.ofTarget q.target q.subQueries := by
  rw [ScopeTree.ofSelect_eq_grow, ScopeTree.ofTarget_eq_grow]
  rfl

theorem compose_eq_map (d : Dialect) (options : QueryOptions) (hne : q.filter ≠ []) :
    q.compose d options = (fun filter => ⟨q.target, filter⟩) <$>
      Criterion.composeWhere (.of d options) (.root (.ofTarget q.target q.subQueries)) q.filter := by
  have hguard : (q.filter.isEmpty && !options.allowMissingWhere) = false := by simp [hne]
  rw [compose, hguard]
  simp only [Bool.false_eq_true, if_false]
  rfl

/-- The select that is composed for a preview, around a where clause. -/
def previewed (q : DeleteQuery) (distinct : Bool) (filter : Option Sql.Condition) : Sql.Select where
  distinct
  items := q.target.columns.map fun c => .column ⟨c, q.target.definition.name, false⟩
  source := ⟨q.target, q.target.definition.name⟩
  joins := []
  filter
  orderBy := []
  paging := .limitOffset none none
  lock := none

/-- Everything but the criteria is composed where the target goes by its own name. -/
theorem compose_preview_eq_map (σ : Setting) {p : Position}
    (hlevel : p.scope.level = [(q.target, q.target.definition.name)]) :
    (q.preview distinct).compose σ p =
      q.previewed distinct <$> Criterion.composeWhere σ p q.filter := by
  have hresolve : Level.resolve? p.visible q.target = some q.target.definition.name := by
    simp [Position.visible, hlevel, Level.resolve?]
  have hitems : Projection.allColumns.compose σ p q.target =
      .ok (q.target.columns.map fun c => .column ⟨c, q.target.definition.name, false⟩) := by
    rw [Projection.compose_allColumns_eq_ok_iff, List.forall₂_map_right_iff]
    refine List.forall₂_same.mpr fun c hc => ⟨_, ?_, rfl⟩
    obtain ⟨i, _, rfl⟩ := List.mem_map.mp hc
    exact Column.qualify_eq_ok_iff.mpr ⟨_, hresolve, rfl⟩
  have hsource : q.target.item p.scope.level = .ok ⟨q.target, q.target.definition.name⟩ :=
    Table.item_eq_ok_iff.mpr ⟨_, by simp [hlevel], rfl⟩
  have htables : Select.checkTables [q.target] = .ok () :=
    Select.checkTables_eq_ok_iff.mpr (List.nodup_singleton _)
  simp only [preview, Select.of, Select.filterBy, Select.compose, List.map_nil, htables, hitems,
    hsource, Join.composeAll, List.nil_append, List.mapM_nil, List.isEmpty_nil, Bool.not_true,
    σ.paging_none, Criterion.composeWhere]
  cases Criterion.composeAll σ p q.filter <;> rfl

/-- The pieces of a delete before its where clause. -/
def openingPieces (q : DeleteQuery) : List Piece :=
  .text "delete from " :: Sql.tablePieces q.target

/-- The pieces of a preview before its where clause. -/
def previewOpening (q : DeleteQuery) (distinct : Bool) : List Piece :=
  .text "select " :: (if distinct then [.text "distinct "] else []) ++
    Piece.separated ", " (q.target.columns.map fun c =>
      [.name q.target.definition.name, .text ".", .name c.ident]) ++
    .text " from " :: Sql.tablePieces q.target

theorem pieces_previewed (q : DeleteQuery) (distinct : Bool) (filter : Option Sql.Condition) :
    (q.previewed distinct filter).pieces =
      q.previewOpening distinct ++ Sql.Condition.wherePieces filter := by
  have hopening : Sql.Select.openingPieces distinct
      (q.target.columns.map fun c => .column ⟨c, q.target.definition.name, false⟩)
      ⟨q.target, q.target.definition.name⟩ [] = q.previewOpening distinct := by
    simp [Sql.Select.openingPieces, previewOpening, Sql.TableItem.pieces, Sql.SelectItem.pieces,
      Sql.ColumnName.pieces, Function.comp_def]
  rw [previewed, Sql.Select.pieces_eq_opening, hopening]

theorem values_previewOpening (q : DeleteQuery) (distinct : Bool) :
    Piece.values (q.previewOpening distinct) = [] := by
  rw [previewOpening]
  cases distinct <;> simp [Piece.values_append]

/-- A delete and the select of the rows that it removes fail alike, or bind the same values and go on
alike from their where clauses. -/
theorem build_preview (d : Dialect) (defaults : QueryOptions) (hne : q.filter ≠ [])
    (distinct : Bool) :
    SameOutcome (fun b b' => b.output.values = b'.output.values ∧ ∃ rest,
        b.output.sql = Piece.sqlAfter d 0 q.openingPieces ++ " where " ++ rest ∧
        b'.output.sql = Piece.sqlAfter d 0 (q.previewOpening distinct) ++ " where " ++ rest)
      (q.build d defaults) ((q.preview distinct).build d defaults) := by
  have hlevel : (Position.root (.ofTarget q.target q.subQueries)).scope.level =
      [(q.target, q.target.definition.name)] := ScopeTree.grow_singleton_level _ _
  -- One run over the criteria is left, and either side only wraps its result.
  rw [build, compose_eq_map _ _ hne, Select.build, Select.compile, ofSelect_preview,
    show (q.preview distinct).options = q.options from rfl, compose_preview_eq_map _ hlevel]
  cases hwhere : Criterion.composeWhere (.of d (q.options.getD defaults))
      (.root (.ofTarget q.target q.subQueries)) q.filter with
  | error e => exact .error e
  | ok filter =>
    obtain ⟨e, rfl⟩ := Criterion.exists_of_composeWhere hne hwhere
    have hpreview := pieces_previewed q distinct (some e)
    have hopening : Piece.values q.openingPieces = [] := Sql.values_tablePieces q.target
    have hdelete := Statement.read_where
      (s := (Sql.Command.delete ⟨q.target, some e⟩).statement d) rfl hopening
    have hselect := Statement.read_where
      (s := (Sql.Command.select (q.previewed distinct (some e))).statement d) hpreview
      (values_previewOpening q distinct)
    exact .ok ⟨hdelete.1.trans hselect.1.symm, _, hdelete.2, hselect.2⟩

end DeleteQuery

namespace Family

/-- Persons with children who have no such siblings are removed. -/
def removal : DeleteQuery :=
  ⟨person 0, [.exists false children, .exists true siblings,
    .compare .equal (.column (name 0)) (.parameter (.text "A"))], none⟩

end Family

theorem DeleteQuery.build_preview_removal :
    ∃ b b', Family.removal.build .postgres default = .ok b ∧
      (Family.removal.preview true).build .postgres default = .ok b' ∧
      b.output.values = b'.output.values ∧ ∃ rest,
        b.output.sql = "delete from person where " ++ rest ∧
        b'.output.sql =
          "select distinct person.id, person.parent, person.name from person where " ++ rest := by
  have hsame := build_preview .postgres default (q := Family.removal) (List.cons_ne_nil _ _) true
  obtain ⟨b, hb⟩ : ∃ b, Family.removal.build .postgres default = .ok b := ⟨_, rfl⟩
  rw [hb] at hsame
  generalize (Family.removal.preview true).build .postgres default = x at hsame ⊢
  cases hsame with
  | @ok _ b' h =>
    obtain ⟨hvalues, rest, hsql, hsql'⟩ := h
    exact ⟨b, b', hb, rfl, hvalues, rest, hsql, hsql'⟩

end SqlCompose

import SqlCompose.Dialect.Catalog
import SqlCompose.Proofs.Compose.Lockstep
import SqlCompose.Proofs.Query.Coherence
import SqlCompose.Proofs.Scope.Growth
import SqlCompose.Proofs.Sql.Pieces

/-! Further criteria on a query. Where nothing is written behind the where clause, they only extend the
statement: all that was there is composed with the same aliases and numbered in the same way. -/

namespace SqlCompose

namespace Position

/-- Where a level stands, with more levels below it perhaps. -/
structure GrowsTo (p p' : Position) : Prop where
  scope : p.scope.GrowsTo p'.scope
  outer : p'.outer = p.outer

variable {p p' below : Position} {id : Nat}

theorem GrowsTo.alike (h : p.GrowsTo p') : p.Alike p' := ⟨h.scope.level, h.outer⟩

theorem GrowsTo.enter? (h : p.GrowsTo p') (hbelow : p.enter? id = some below) :
    p'.enter? id = some below := by
  obtain ⟨child, hchild, rfl⟩ := Option.map_eq_some_iff.mp hbelow
  exact Option.map_eq_some_iff.mpr ⟨child, h.scope.child? hchild, by rw [h.alike.visible]⟩

end Position

/-- What the sub-queries are composed to does not change when their level grows. -/
theorem SubQuery.allLockstep_grown {p p' : Position} (h : p.GrowsTo p') (σ : Setting)
    (qs : List SubQuery) : AllLockstep .kept σ σ.dialect.conflict p p' qs :=
  ⟨h.alike, fun _ _ width => compose_lockstep width (fun _ _ _ he => by cases he)
    fun below hbelow => ⟨below, h.enter? hbelow, fun _ hs => hs⟩⟩

namespace Sql.Condition

/-- Further conditions come behind those of a where clause, or begin one. -/
theorem wherePieces_append (cs : List Condition) {es : List Condition} (hne : es ≠ []) :
    wherePieces (conjunction? (cs ++ es)) = wherePieces (conjunction? cs) ++
      .text (if cs.isEmpty then " where " else " and ") :: (chain .and es).pieces := by
  cases cs with
  | nil =>
    obtain ⟨e, es, rfl⟩ := List.exists_cons_of_ne_nil hne
    rfl
  | cons c cs =>
    have hchain : (chain .and (c :: cs ++ es)).pieces =
        (chain .and (c :: cs)).pieces ++ .text " and " :: (chain .and es).pieces := by
      simp only [pieces, Connective.text, eachPieces_eq_map, List.map_append]
      exact Piece.separated_append " and " (by simp) (by simpa using hne)
    show .text " where " :: (chain .and (c :: cs ++ es)).pieces = _
    rw [hchain]
    rfl

end Sql.Condition

namespace Criterion

variable {σ : Setting} {p : Position} {cs more : List Criterion} {f f' : Option Sql.Condition}

/-- Two where clauses at one position, the second with further criteria. -/
theorem composeWhere_append (hne : more ≠ []) (h : composeWhere σ p cs = .ok f)
    (h' : composeWhere σ p (cs ++ more) = .ok f') :
    ∃ es, List.Forall₂ (fun c e => c.compose σ p = .ok e) more es ∧
      Sql.Condition.wherePieces f' = Sql.Condition.wherePieces f ++
        .text (if cs.isEmpty then " where " else " and ") ::
          (Sql.Condition.chain .and es).pieces := by
  obtain ⟨before, hbefore, rfl⟩ := composeWhere_eq_ok_iff.mp h
  obtain ⟨all, hall, rfl⟩ := composeWhere_eq_ok_iff.mp h'
  have hmapM := mapM_eq_ok_iff.mpr hall
  rw [List.mapM_append, mapM_eq_ok_iff.mpr hbefore] at hmapM
  have hmapM : (more.mapM (·.compose σ p) >>= fun es => pure (before ++ es)) = .ok all := hmapM
  obtain ⟨es, hes, hall⟩ := bind_eq_ok_iff.mp hmapM
  obtain rfl : before ++ es = all := pure_eq_ok_iff.mp hall
  have hmore := mapM_eq_ok_iff.mp hes
  have hes : es ≠ [] := ne_nil_of_forall₂ hmore hne
  have hempty : before.isEmpty = cs.isEmpty := by
    cases hbefore <;> rfl
  refine ⟨es, hmore, ?_⟩
  rw [Sql.Condition.wherePieces_append before hes, hempty]

end Criterion

section

variable {σ : Setting} {p : Position} {more : List Criterion}

/-- Nothing is written behind the where clause. -/
def Select.EndsInFilter (s : Select) : Prop :=
  s.orderBy = [] ∧ s.offset = none ∧ s.limit = none ∧ s.lock = none

/-- Before their where clauses two selects at one position are alike when they differ in criteria. -/
theorem Select.compose_filterBy {s : Select} {t t' : Sql.Select} (hs : s.EndsInFilter)
    (h : s.compose σ p = .ok t) (h' : (s.filterBy more).compose σ p = .ok t') :
    ∃ opening f f', Criterion.composeWhere σ p s.filter = .ok f ∧
      Criterion.composeWhere σ p (s.filter ++ more) = .ok f' ∧
      t.pieces = opening ++ Sql.Condition.wherePieces f ∧
      t'.pieces = opening ++ Sql.Condition.wherePieces f' := by
  obtain ⟨target, joins, filter, projection, distinct, orderBy, offset, limit, lock, options⟩ := s
  obtain ⟨rfl, rfl, rfl, rfl⟩ := hs
  obtain ⟨_, items, hitems, source, hsource, js, hjs, cs, hcs, order, horder, lock, hlock, rfl⟩ :=
    compose_eq_ok_iff.mp h
  obtain ⟨_, items', hitems', source', hsource', js', hjs', cs', hcs', order', horder', lock', hlock',
    rfl⟩ := compose_eq_ok_iff.mp h'
  obtain rfl : items = items' := Except.ok.inj (hitems.symm.trans hitems')
  obtain rfl : source = source' := Except.ok.inj (hsource.symm.trans hsource')
  obtain rfl : js = js' :=
    Except.ok.inj ((mapM_eq_ok_iff.mpr hjs).symm.trans (mapM_eq_ok_iff.mpr hjs'))
  obtain rfl : order = [] := List.forall₂_nil_left_iff.mp horder
  obtain rfl : order' = [] := List.forall₂_nil_left_iff.mp horder'
  obtain rfl : none = lock := Except.ok.inj hlock
  obtain rfl : none = lock' := Except.ok.inj hlock'
  refine ⟨Sql.Select.openingPieces distinct items source js, _, _,
    Criterion.composeWhere_eq_ok_iff.mpr ⟨cs, hcs, rfl⟩,
    Criterion.composeWhere_eq_ok_iff.mpr ⟨cs', hcs', rfl⟩, ?_, ?_⟩
  · rw [← Sql.Select.pieces_eq_opening]
    exact congrArg (fun x => (Sql.Select.mk distinct items source js _ [] x none).pieces) σ.paging_none
  · rw [← Sql.Select.pieces_eq_opening]
    exact congrArg (fun x => (Sql.Select.mk distinct items source js _ [] x none).pieces) σ.paging_none

end

namespace Query

/-- The criteria of the where clause. -/
def filter : Query → List Criterion
  | .select q => q.filter
  | .update q => q.filter
  | .delete q => q.filter
  | .insert _ _ => []

/-- Adds criteria to the where clause, if there can be one. -/
def filterBy (more : List Criterion) : Query → Query
  | .select q => .select (q.filterBy more)
  | .update q => .update (q.filterBy more)
  | .delete q => .delete (q.filterBy more)
  | .insert draft rows => .insert draft rows

def EndsInFilter : Query → Prop
  | .select q => q.EndsInFilter
  | .update _ => True
  | .delete _ => True
  | .insert _ _ => False

variable {d : Dialect} {defaults : QueryOptions} {q : Query} {more : List Criterion}

theorem scope_filterBy (q : Query) (more : List Criterion) :
    q.scope.GrowsTo (q.filterBy more).scope := by
  have htables : (q.filterBy more).tables = q.tables := by
    cases q <;> rfl
  have hqueries : ∃ new, (q.filterBy more).subQueries = q.subQueries ++ new := by
    cases q with
    | select s =>
      exact ⟨more.flatMap Criterion.subQueries, by
        simp [filterBy, subQueries, Select.filterBy, Select.subQueries, Select.criteria]⟩
    | update u =>
      exact ⟨more.flatMap Criterion.subQueries, by
        simp [filterBy, subQueries, UpdateQuery.filterBy, UpdateQuery.subQueries]⟩
    | delete u =>
      exact ⟨more.flatMap Criterion.subQueries, by
        simp [filterBy, subQueries, DeleteQuery.filterBy, DeleteQuery.subQueries]⟩
    | insert draft rows => exact ⟨[], (List.append_nil _).symm⟩
  obtain ⟨new, hnew⟩ := hqueries
  rw [scope_eq_grow, scope_eq_grow, htables, hnew]
  exact ScopeTree.grow_append _ _ _ _

theorem root_grown (q : Query) (more : List Criterion) :
    (Position.root q.scope).GrowsTo (.root (q.filterBy more).scope) := ⟨q.scope_filterBy more, rfl⟩

/-- The criteria that a query has already are composed with the same aliases beside further ones. -/
theorem composeWhere_filterBy {q : Query} {cs : List Criterion} {f : Option Sql.Condition}
    (more : List Criterion) (σ : Setting)
    (h : Criterion.composeWhere σ (.root q.scope) cs = .ok f) :
    Criterion.composeWhere σ (.root (q.filterBy more).scope) cs = .ok f :=
  Criterion.composeWhere_lockstep (SubQuery.allLockstep_grown (q.root_grown more) σ _) f h

/-- Two commands of one query, the second with further criteria, are alike before their where
clauses. -/
theorem Composed.filterBy {c c' : Sql.Command} (hq : q.EndsInFilter)
    (h : q.Composed d defaults c) (h' : (q.filterBy more).Composed d defaults c') :
    ∃ opening f f',
      Criterion.composeWhere (q.setting d defaults) (.root (q.filterBy more).scope) q.filter = .ok f ∧
      Criterion.composeWhere (q.setting d defaults) (.root (q.filterBy more).scope)
        (q.filter ++ more) = .ok f' ∧
      c.pieces = opening ++ Sql.Condition.wherePieces f ∧
      c'.pieces = opening ++ Sql.Condition.wherePieces f' := by
  cases h with
  | @select s t h =>
    cases h' with
    | @select _ t' h' =>
      have hgrown := SubQuery.allLockstep_grown (root_grown (.select s) more)
        (.of d (s.options.getD defaults)) s.subQueries
      -- The first run goes over to the grown level, so that both are runs at one position.
      have ht := Select.compose_lockstep hgrown t h
      exact Select.compose_filterBy hq ht h'
  | @update u t h =>
    cases h' with
    | @update _ t' h' =>
      obtain ⟨items, hitems, cs, hcs, rfl⟩ := UpdateQuery.compose_eq_ok h
      obtain ⟨items', hitems', cs', hcs', rfl⟩ := UpdateQuery.compose_eq_ok h'
      have hgrown : ∀ qs, SubQuery.AllLockstep .kept (.of d (u.options.getD defaults)) _ _ _ qs :=
        SubQuery.allLockstep_grown (root_grown (.update u) more) _
      have hkept := Lockstep.kept.mapM
        (fun a (_ : a ∈ u.assignments) => Assignment.composeUpdate_lockstep u.target (hgrown _))
        items (mapM_eq_ok_iff.mpr hitems)
      obtain rfl : items = items' := Except.ok.inj (hkept.symm.trans (mapM_eq_ok_iff.mpr hitems'))
      have hwhere := Criterion.composeWhere_eq_ok_iff.mpr ⟨cs, hcs, rfl⟩
      exact ⟨_, _, _, composeWhere_filterBy more _ hwhere,
        Criterion.composeWhere_eq_ok_iff.mpr ⟨cs', hcs', rfl⟩, rfl, rfl⟩
  | @delete u t h =>
    cases h' with
    | @delete _ t' h' =>
      obtain ⟨cs, hcs, rfl⟩ := DeleteQuery.compose_eq_ok h
      obtain ⟨cs', hcs', rfl⟩ := DeleteQuery.compose_eq_ok h'
      have hwhere := Criterion.composeWhere_eq_ok_iff.mpr ⟨cs, hcs, rfl⟩
      exact ⟨_, _, _, composeWhere_filterBy more _ hwhere,
        Criterion.composeWhere_eq_ok_iff.mpr ⟨cs', hcs', rfl⟩, rfl, rfl⟩
  | insert hfault h => exact hq.elim

theorem build_eq_statement {b : Built Output} (hq : q.EndsInFilter)
    (h : q.build d defaults = .ok b) :
    ∃ c, q.Composed d defaults c ∧ b.output = .statement (c.statement d) := by
  rcases build_eq_ok h with ⟨⟨draft, rfl⟩, _⟩ | ⟨c, hc, hshows⟩
  · exact hq.elim
  · refine ⟨c, hc, ?_⟩
    cases ho : b.output with
    | statement s =>
      rw [ho] at hshows
      exact congrArg Output.statement hshows
    | batch batch =>
      obtain ⟨_, _, rfl, _⟩ := build_eq_batch h ho
      exact hq.elim

theorem EndsInFilter.filterBy (hq : q.EndsInFilter) (more : List Criterion) :
    (q.filterBy more).EndsInFilter := by
  cases q with
  | select s => exact hq
  | update u => trivial
  | delete u => trivial
  | insert draft rows => exact hq

/-- Further criteria extend a statement. The levels that are there keep their aliases, the SQL goes on
behind its old end with the further criteria alone, whose placeholders are counted from there, and the
values go on behind the old ones. -/
theorem build_filterBy {b b' : Built Output} (hq : q.EndsInFilter) (hne : more ≠ [])
    (h : q.build d defaults = .ok b) (h' : (q.filterBy more).build d defaults = .ok b') :
    q.scope.GrowsTo (q.filterBy more).scope ∧ ∃ s s' es,
      b.output = .statement s ∧ b'.output = .statement s' ∧
      List.Forall₂ (fun c e => c.compose (q.setting d defaults) (.root (q.filterBy more).scope) =
        .ok e) more es ∧
      s'.sql = s.sql ++ (if q.filter.isEmpty then " where " else " and ") ++
        Piece.sqlAfter d s.values.length (Sql.Condition.chain .and es).pieces ∧
      s'.values = s.values ++ Piece.values (Sql.Condition.chain .and es).pieces := by
  obtain ⟨c, hc, hb⟩ := build_eq_statement hq h
  obtain ⟨c', hc', hb'⟩ := build_eq_statement (hq.filterBy more) h'
  obtain ⟨opening, f, f', hf, hf', hpieces, hpieces'⟩ := hc.filterBy hq hc'
  obtain ⟨es, hes, hwhere⟩ := Criterion.composeWhere_append hne hf hf'
  have happended : c'.pieces = c.pieces ++
      .text (if q.filter.isEmpty then " where " else " and ") ::
        (Sql.Condition.chain .and es).pieces := by
    rw [hpieces', hwhere, hpieces, List.append_assoc]
  refine ⟨q.scope_filterBy more, c.statement d, c'.statement d, es, hb, hb', hes, ?_, ?_⟩
  · simp only [Sql.Command.statement, Statement.sql, Statement.values, happended,
      Piece.sqlAfter_append, Piece.sqlAfter, Nat.zero_add, String.append_assoc]
  · simp only [Sql.Command.statement, Statement.values, happended, Piece.values_append,
      Piece.values]

end Query

namespace Family

/-- Persons of one name who have children. -/
def parents : Query :=
  .select ((Select.of (person 0)).filterBy
    [.compare .equal (.column (name 0)) (.parameter (.text "A")), .exists false children])

/-- A sub-query that is new and one that is there already. -/
def further : List Criterion :=
  [.exists true siblings, .exists false children,
    .compare .notEqual (.column (name 0)) (.parameter (.text "B"))]

end Family

theorem Query.build_filterBy_parents :
    ∃ b b', Family.parents.build .postgres default = .ok b ∧
      (Family.parents.filterBy Family.further).build .postgres default = .ok b' ∧
      Family.parents.scope.GrowsTo (Family.parents.filterBy Family.further).scope ∧
      ∃ s s' es, b.output = .statement s ∧ b'.output = .statement s' ∧
        s'.sql = s.sql ++ " and " ++
          Piece.sqlAfter .postgres s.values.length (Sql.Condition.chain .and es).pieces ∧
        s'.values = s.values ++ Piece.values (Sql.Condition.chain .and es).pieces := by
  obtain ⟨b, hb⟩ : ∃ b, Family.parents.build .postgres default = .ok b := ⟨_, rfl⟩
  obtain ⟨b', hb'⟩ : ∃ b', (Family.parents.filterBy Family.further).build .postgres default = .ok b' :=
    ⟨_, rfl⟩
  have hends : Family.parents.EndsInFilter := ⟨rfl, rfl, rfl, rfl⟩
  obtain ⟨hscope, s, s', es, hs, hs', _, hsql, hvalues⟩ :=
    build_filterBy hends (List.cons_ne_nil _ _) hb hb'
  exact ⟨b, b', hb, hb', hscope, s, s', es, hs, hs', hsql, hvalues⟩

end SqlCompose

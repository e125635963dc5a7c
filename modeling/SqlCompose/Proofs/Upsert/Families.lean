import SqlCompose.Proofs.Compose.Lockstep
import SqlCompose.Proofs.Insert.Statements
import SqlCompose.Proofs.Query.Coherence
import SqlCompose.Proofs.Scope.Visibility
import SqlCompose.Proofs.Upsert.Clauses

/-! The families of upserts write one description. What can be said by `on conflict` can be said by
the others, with the same columns, the same `set` items and the same values. -/

namespace SqlCompose

theorem mapM_composeUpsert_kept {σ : Setting} {p : Position} {as : List Assignment}
    {items : List Sql.SetItem} (h : as.mapM (·.composeUpsert σ p) = .ok items)
    (s : ConflictSyntax) : as.mapM (·.composeUpsert (σ.withConflict s) p) = .ok items := by
  have hkept : Lockstep.kept.Rel (as.mapM (·.composeUpsert σ p))
      (as.mapM (·.composeUpsert (σ.withConflict s) p)) :=
    Lockstep.kept.mapM fun a _ =>
      Assignment.composeUpsert_lockstep (SubQuery.allLockstep_kept σ s p a.subQueries)
  exact hkept items h

namespace OnConflict

def incomingColumns (target : Table) (o : OnConflict) : ConflictSyntax → List Column
  | .merge _ => o.source target
  | _ => target.insertColumns

theorem incomingColumns_eq {target : Table} {o : OnConflict} {s : ConflictSyntax}
    (h : ∀ terminated, s = .merge terminated →
      ∀ c ∈ o.effectiveKeys target, c.definition.identity = false) :
    o.incomingColumns target s = target.insertColumns := by
  cases s with
  | merge terminated =>
    refine List.filter_congr fun c hc => ?_
    by_cases hidentity : c.definition.identity = true
    · have hkey : c ∉ o.effectiveKeys target := fun hkey => by
        simp [h terminated rfl c hkey] at hidentity
      simp [Table.mem_insertColumns_iff, hidentity, hkey]
    · simp [Table.mem_insertColumns_iff, Table.mem_columns_iff.mp hc, hidentity]
  | _ => rfl

/-- What the families have in common: a new row, what an existing row is given, and the rows that
come in. -/
structure Spells (target : Table) (o : OnConflict) (items : List Sql.SetItem)
    (rows : List (List Cell)) (s : ConflictSyntax) (body : Sql.WriteBody) : Prop where
  columns : body.columns = target.insertColumns
  items : body.items = items
  rows : body.rows = rows.map (rowValues (o.incomingColumns target s))

section

variable {σ : Setting} {p : Position} {target : Table} {rows : List (List Cell)} {o : OnConflict}

theorem Form.spells {items : List Sql.SetItem} {body : Sql.WriteBody}
    (h : o.Form σ p target rows items body) :
    o.Spells target items rows σ.dialect.conflict body := by
  refine ⟨h.columns, h.items, ?_⟩
  cases h with
  | onConflict hs _ _ =>
    rw [hs]
    rfl
  | ignoring hs _ =>
    rw [hs]
    rfl
  | onDuplicateKey hs _ =>
    rw [hs]
    rfl
  | merge hs _ _ _ =>
    rw [hs]
    rfl

/-- Only the keys, the assignments and the visible target are needed. -/
theorem exists_compose (hsupported : σ.dialect.conflict ≠ .absent)
    (hkeys : o.effectiveKeys target ≠ []) (howned : ∀ c ∈ o.keys, c.table = target)
    (hvisible : ∃ name, Level.resolve? p.visible target = some name) {as : List Assignment}
    (has : o.assignments target = .ok as) {items : List Sql.SetItem}
    (hitems : as.mapM (·.composeUpsert σ p) = .ok items) :
    ∃ body, o.compose σ p target rows = .ok body ∧
      o.Spells target items rows σ.dialect.conflict body := by
  have hform : ∃ body, o.Form σ p target rows items body := by
    cases hs : σ.dialect.conflict with
    | onConflict =>
      have hchecked : o.checkKeys target (o.effectiveKeys target) = .ok () := by
        unfold checkKeys
        cases o.policy with
        | ignore => rfl
        | update set => simp [hkeys]
      exact ⟨_, .onConflict hs howned hchecked⟩
    | onDuplicateKey =>
      by_cases hnone : items = []
      · exact ⟨_, .ignoring hs hnone⟩
      · exact ⟨_, .onDuplicateKey hs hnone⟩
    | merge terminated =>
      -- Of all families only this one qualifies its keys.
      obtain ⟨name, hname⟩ := hvisible
      have hnames : ∃ names, List.Forall₂ (fun c n => c.qualify p.visible false = .ok n)
          (o.effectiveKeys target) names := by
        refine InsertQuery.exists_forall₂_iff.mpr fun c hc => ⟨⟨c, name, false⟩, ?_⟩
        rw [Column.qualify_eq_ok_iff, table_of_mem_effectiveKeys howned hc]
        exact ⟨name, hname, rfl⟩
      obtain ⟨names, hnames⟩ := hnames
      exact ⟨_, .merge hs hkeys howned hnames⟩
    | absent => exact absurd hs hsupported
  obtain ⟨body, hform⟩ := hform
  exact ⟨body, compose_eq_ok_iff.mpr ⟨as, has, items, mapM_eq_ok_iff.mp hitems, hform⟩,
    hform.spells⟩

theorem composeOnConflict_eq_ok {body : Sql.WriteBody}
    (h : o.composeOnConflict σ p target rows = .ok body) :
    (∀ c ∈ o.keys, c.table = target) ∧ ∃ as, o.assignments target = .ok as ∧
      ∃ items, as.mapM (·.composeUpsert σ p) = .ok items := by
  simp only [composeOnConflict, bind_eq_ok_iff, pure_eq_ok_iff, keyColumns_eq_ok_iff] at h
  obtain ⟨_, ⟨rfl, howned⟩, as, has, _, _, items, hitems, rfl⟩ := h
  exact ⟨howned, as, has, items, hitems⟩

end

end OnConflict

namespace InsertQuery

variable {d : Dialect} {options : QueryOptions} {q : InsertQuery} {o : OnConflict}

/-- From one statement by `on conflict` follow those for all rows and of all families. -/
theorem compose_families (hd : d.conflict = .onConflict) (ho : q.conflict = some o)
    (hkeys : o.effectiveKeys q.target ≠ []) {cells : List (List Cell)} {w : Sql.Write}
    (h : q.compose d options cells = .ok w) :
    ∃ as, o.assignments q.target = .ok as ∧ ∃ items,
      as.mapM (·.composeUpsert (.of d options) (.root (.ofTarget q.target q.subQueries))) =
        .ok items ∧
      ∀ s, s ≠ .absent → ∀ cells, ∃ w', q.compose (d.withConflict s) options cells = .ok w' ∧
        o.Spells q.target items cells s w'.body := by
  obtain ⟨hcolumns, hreturning, hbody, hw⟩ := compose_eq_ok_iff.mp h
  have hcompose : o.composeOnConflict (.of d options) (.root (.ofTarget q.target q.subQueries))
      q.target cells = .ok w.body := by
    simpa only [composeBody, ho, OnConflict.compose, Setting.of, hd] using hbody
  obtain ⟨howned, as, has, items, hitems⟩ := OnConflict.composeOnConflict_eq_ok hcompose
  refine ⟨as, has, items, hitems, fun s hs cells => ?_⟩
  have hitems' : as.mapM (·.composeUpsert (.of (d.withConflict s) options)
      (.root (.ofTarget q.target q.subQueries))) = .ok items := mapM_composeUpsert_kept hitems s
  obtain ⟨body, hbody', hspells⟩ := OnConflict.exists_compose hs hkeys howned
    (Position.exists_resolve?_ofTarget _ _) has hitems'
  refine ⟨⟨body, w.returning⟩, compose_eq_ok_iff.mpr ⟨hcolumns, hreturning, ?_, hw⟩, hspells⟩
  rw [composeBody, ho]
  exact hbody'

end InsertQuery

theorem OnConflict.Spells.values {target : Table} {o : OnConflict} {items : List Sql.SetItem}
    {cells : List (List Cell)} {s : ConflictSyntax} {w : Sql.Write}
    (h : o.Spells target items cells s w.body) :
    Piece.values w.pieces = (cells.map (rowValues (o.incomingColumns target s))).flatten ++
      items.flatMap Sql.SetItem.values := by
  rw [w.values_pieces, w.body.values_pieces, h.rows, h.items]

namespace InsertQuery

variable {d : Dialect} {options : QueryOptions} {q : InsertQuery} {o : OnConflict}

/-- Identity keys are what a `merge` binds and the other families leave to the database. -/
theorem carried_of_spells {items : List Sql.SetItem} {s : ConflictSyntax}
    (hd : d.conflict = .onConflict) (hs : s ≠ .absent)
    (hall : ∀ s, s ≠ .absent → ∀ cells, ∃ w, q.compose (d.withConflict s) options cells = .ok w ∧
      o.Spells q.target items cells s w.body) :
    Carried (∀ terminated, s = .merge terminated →
      ∀ c ∈ o.effectiveKeys q.target, c.definition.identity = false)
      d (d.withConflict s) options q := by
  intro cells st hst
  obtain ⟨w, hw, rfl⟩ := compile_eq_ok hst
  obtain ⟨w₁, hw₁, hspells₁⟩ := hall .onConflict (by simp) cells
  obtain rfl : w = w₁ := by
    rw [Dialect.withConflict, ← hd] at hw₁
    exact Except.ok.inj (hw.symm.trans hw₁)
  obtain ⟨w', hw', hspells'⟩ := hall s hs cells
  refine ⟨(Sql.Command.write w').statement (d.withConflict s),
    bind_eq_ok_iff.mpr ⟨w', hw', rfl⟩, fun hP => ?_⟩
  have hrows : o.incomingColumns q.target s = o.incomingColumns q.target .onConflict :=
    OnConflict.incomingColumns_eq hP
  calc Piece.values w'.pieces
      = (cells.map (rowValues (o.incomingColumns q.target s))).flatten ++
          items.flatMap Sql.SetItem.values := hspells'.values
    _ = Piece.values w.pieces := by rw [hrows, hspells₁.values]

end InsertQuery

namespace Query

variable {d : Dialect} {defaults : QueryOptions} {draft : InsertDraft} {rows : Rows}

/-- An upsert with a key that can be built by `on conflict` can be built by every family. Each of them
inserts the columns that are no identity and sets the same items from the same sources. The values
are the same too, but that a `merge` binds identity keys. -/
theorem build_families_agree {o : OnConflict} {b : Built Output} (hd : d.conflict = .onConflict)
    (ho : draft.query.conflict = some o) (hkeys : o.effectiveKeys draft.query.target ≠ [])
    (h : (insert draft rows).build d defaults = .ok b) :
    (rows = .multiple [] → ∀ s, ∃ b', (insert draft rows).build (d.withConflict s) defaults = .ok b' ∧
      b'.output = .statement (.empty (d.withConflict s))) ∧
    (rows ≠ .multiple [] → ∃ as, o.assignments draft.query.target = .ok as ∧
      ∃ items, as.mapM (·.composeUpsert ((insert draft rows).setting d defaults)
          (.root (insert draft rows).scope)) = .ok items ∧
        ∀ s, s ≠ .absent → ∃ b', (insert draft rows).build (d.withConflict s) defaults = .ok b' ∧
          (∃ w, (insert draft rows).Composed (d.withConflict s) defaults (.write w) ∧
            b'.output.Shows (d.withConflict s) (.write w) ∧
            w.body.columns = draft.query.target.insertColumns ∧ w.body.items = items) ∧
          ((∀ terminated, s = .merge terminated →
              ∀ c ∈ o.effectiveKeys draft.query.target, c.definition.identity = false) →
            b'.output.values = b.output.values)) := by
  constructor
  · rintro rfl s
    simp only [build, bind_eq_ok_iff, InsertDraft.finish_eq_ok_iff] at h
    obtain ⟨_, hfinish, _⟩ := h
    have hbuild : (insert draft (.multiple [])).build (d.withConflict s) defaults =
        .ok ⟨.statement (.empty (d.withConflict s)), []⟩ := by
      simp only [build, bind_eq_ok_iff, InsertDraft.finish_eq_ok_iff]
      exact ⟨_, hfinish, ⟨.empty (d.withConflict s), []⟩, rfl, rfl⟩
    exact ⟨_, hbuild, rfl⟩
  · intro hrows
    obtain ⟨cells, w, _, _, hw, _⟩ := build_insert_shows h hrows
    obtain ⟨as, has, items, hitems, hall⟩ := InsertQuery.compose_families hd ho hkeys hw
    refine ⟨as, has, items, hitems, fun s hs => ?_⟩
    obtain ⟨b', hb', hvalues⟩ := build_carried (InsertQuery.carried_of_spells hd hs hall) h
    obtain ⟨cells', w', _, hfault, hw', hshows⟩ := build_insert_shows hb' hrows
    refine ⟨b', hb', ⟨w', .insert hfault hw', hshows, ?_⟩, hvalues⟩
    obtain ⟨v, hv, hspells⟩ := hall s hs cells'
    obtain rfl : w' = v := Except.ok.inj (hw'.symm.trans hv)
    exact ⟨hspells.columns, hspells.items⟩

/-- Two rows whose key is no identity, with a `set` item that holds a sub-query. -/
theorem build_families_agree_arrival :
    ∃ b, (insert (Family.arrival "Ada" "A_")
        (.multiple [[.int 1, .null, .text "Eve"], [.int 2, .int 1, .null]])).build .postgres default =
          .ok b ∧
      ∃ b', (insert (Family.arrival "Ada" "A_")
          (.multiple [[.int 1, .null, .text "Eve"], [.int 2, .int 1, .null]])).build
          (Dialect.postgres.withConflict .onDuplicateKey) default = .ok b' ∧
        b'.output.values = b.output.values ∧
      ∃ b'', (insert (Family.arrival "Ada" "A_")
          (.multiple [[.int 1, .null, .text "Eve"], [.int 2, .int 1, .null]])).build
          (Dialect.postgres.withConflict (.merge false)) default = .ok b'' ∧
        b''.output.values = b.output.values := by
  obtain ⟨b, hb⟩ : ∃ b, (insert (Family.arrival "Ada" "A_")
      (.multiple [[.int 1, .null, .text "Eve"], [.int 2, .int 1, .null]])).build .postgres default =
        .ok b := ⟨_, rfl⟩
  have hidentity : ∀ c ∈ [Family.number 0], c.definition.identity = false := by decide
  obtain ⟨_, hagree⟩ := build_families_agree rfl rfl
    (by exact List.cons_ne_nil (Family.number 0) []) hb
  obtain ⟨as, _, items, _, hall⟩ := hagree (by simp)
  obtain ⟨b', hb', _, hvalues'⟩ := hall .onDuplicateKey (by simp)
  obtain ⟨b'', hb'', _, hvalues''⟩ := hall (.merge false) (by simp)
  exact ⟨b, hb, b', hb', hvalues' (by simp), b'', hb'', hvalues'' fun _ _ => hidentity⟩

end Query

end SqlCompose

import SqlCompose.Proofs.Upsert.Incoming

/-! Columns that the database numbers. A new row leaves them out, and so does what an upsert overwrites
by default, so that only explicit assignments write them. -/

namespace SqlCompose

/-- The columns of a row that exists already that are overwritten. -/
def Sql.WriteBody.targets (b : WriteBody) : List Column := b.items.map (·.target)

theorem Assignment.composeUpsert_target {σ : Setting} {p : Position} {a : Assignment}
    {i : Sql.SetItem} (h : a.composeUpsert σ p = .ok i) : i.target = a.column := by
  rcases composeUpsert_eq_ok_iff.mp h with ⟨_, _, _, _, rfl⟩ | ⟨_, _, rfl⟩
  · rfl
  · rfl

/-- What is overwritten by default is inserted as well, and no identity column is. -/
theorem InsertQuery.mem_targets_iff {σ : Setting} {q : InsertQuery} {rows : List (List Cell)}
    {body : Sql.WriteBody} (h : q.composeBody σ rows = .ok body) {c : Column}
    (hc : c.definition.identity = true) :
    c ∈ body.targets ↔ c ∈ q.assigned.map (·.column) := by
  obtain ⟨_, as, hitems, has⟩ := composeBody_items h
  have htargets : List.Forall₂ (· = ·) body.targets (as.map (·.column)) :=
    List.forall₂_map_left_iff.mpr (List.forall₂_map_right_iff.mpr
      (hitems.flip.imp fun _ _ ha => Assignment.composeUpsert_target ha))
  rw [List.forall₂_eq_eq_eq] at htargets
  rcases has with rfl | ⟨hnone, cs, hcs, rfl⟩
  · rw [htargets]
  · rw [htargets, hnone]
    refine iff_of_false (fun hmem => ?_) List.not_mem_nil
    obtain ⟨_, hset, rfl⟩ := List.mem_map.mp hmem
    obtain ⟨c, hc', rfl⟩ := List.mem_map.mp hset
    have hordinary := (Table.mem_insertColumns_iff.mp (hcs hc')).2
    exact absurd (hordinary.symm.trans hc) Bool.false_ne_true

/-- However rows are sent and whatever a conflict leads to, the columns of a new row are those without
an identity. An identity column is overwritten exactly when it is assigned to explicitly. -/
theorem Query.build_identity_iff {d : Dialect} {defaults : QueryOptions} {draft : InsertDraft}
    {rows : Rows} {b : Built Output} (h : (insert draft rows).build d defaults = .ok b) :
    rows = .multiple [] ∧ b.output = .statement (.empty d) ∨
      ∃ w, (insert draft rows).Composed d defaults (.write w) ∧ b.output.Shows d (.write w) ∧
        Sql.columnList w.body.columns <:+: w.pieces ∧
        (∀ c, c ∈ w.body.columns ↔
          c.table = draft.query.target ∧ c.definition.identity = false) ∧
        (∀ i ∈ w.body.items, i.pieces w.body.style <:+: w.pieces) ∧
        ∀ c, c.definition.identity = true →
          (c ∈ w.body.targets ↔ c ∈ draft.query.assigned.map (·.column)) := by
  by_cases hrows : rows = .multiple []
  · subst hrows
    exact .inl ⟨rfl, build_insert_nothing h⟩
  · obtain ⟨cells, w, _, hfault, hw, hshows⟩ := build_insert_shows h hrows
    have hbody := (InsertQuery.compose_eq_ok hw).1
    have hpieces : w.body.pieces <:+: w.pieces := List.infix_append_of_infix_left List.infix_rfl
    refine .inr ⟨w, .insert hfault hw, hshows, w.body.infix_columns.trans hpieces, fun c => ?_,
      fun i hi => (Sql.WriteBody.infix_item hi).trans hpieces,
      fun c hc => InsertQuery.mem_targets_iff hbody hc⟩
    rw [(InsertQuery.composeBody_items hbody).1, Table.mem_insertColumns_iff]

namespace Staff

/-- Whose number is known gets another one. -/
def numbering : InsertDraft :=
  .run employee [.onDuplicateKeyUpdate, .set [.set id (some (.parameter ⟨.int 5, .int⟩))]]

end Staff

/-- Without explicit assignments the number is left alone. -/
theorem Query.build_identity_iff_arriving :
    ∃ b w, (insert Staff.arriving (.single [.null, .text "A"])).build .postgres default = .ok b ∧
      b.output.Shows .postgres (.write w) ∧ Staff.id ∉ w.body.columns ∧
      Staff.id ∉ w.body.targets := by
  obtain ⟨b, hb⟩ : ∃ b, (insert Staff.arriving (.single [.null, .text "A"])).build .postgres
      default = .ok b := ⟨_, rfl⟩
  rcases build_identity_iff hb with ⟨hrows, _⟩ | ⟨w, _, hshows, _, hcolumns, _, htargets⟩
  · cases hrows
  · have hid : Staff.id.definition.identity = true := rfl
    refine ⟨b, w, hb, hshows, fun hmem => ?_, fun hmem => ?_⟩
    · exact absurd (((hcolumns _).mp hmem).2.symm.trans hid) Bool.false_ne_true
    · exact absurd ((htargets _ hid).mp hmem) List.not_mem_nil

/-- The number is assigned to, although the table generates it. -/
theorem Query.build_identity_overwritten_numbering :
    ∃ b w, (insert Staff.numbering (.single [.null, .text "A"])).build .postgres default = .ok b ∧
      b.output.Shows .postgres (.write w) ∧
      b.output.sql = "insert into employee (name) values ($1) on conflict (id) do update set id = $2" ∧
      Staff.id.definition.identity = true ∧ Staff.id ∈ w.body.targets :=
  ⟨_, _, rfl, rfl, by decide +kernel, rfl, List.mem_cons_self⟩

end SqlCompose

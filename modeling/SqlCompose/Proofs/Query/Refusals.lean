import SqlCompose.Proofs.Compose.Refusals

/-! Why building refuses a query. An update or delete without a where clause is refused at the outset,
unless the options allow it. Everything else that is refused is refused for what it contains. -/

namespace SqlCompose

section

variable {d : Dialect} {options defaults : QueryOptions} {K : Construct → Prop}

theorem UpdateQuery.compose_unfiltered {q : UpdateQuery} (hitems : q.assignments ≠ [])
    (hfilter : q.filter = []) (hallow : options.allowMissingWhere = false) :
    q.compose d options = .error (.missingWhere (.update q.target.name)) := by
  simp [compose, hitems, hfilter, hallow, throw, throwThe, MonadExceptOf.throw, bind, Except.bind]

theorem DeleteQuery.compose_unfiltered {q : DeleteQuery} (hfilter : q.filter = [])
    (hallow : options.allowMissingWhere = false) :
    q.compose d options = .error (.missingWhere (.delete q.target.name)) := by
  simp [compose, hfilter, hallow, throw, throwThe, MonadExceptOf.throw, bind, Except.bind]

theorem UpdateQuery.compose_refused {q : UpdateQuery}
    (h : q.assignments ≠ [] → q.filter = [] → options.allowMissingWhere = true) :
    Refused d (Query.update q).Contains (q.compose d options) := by
  have hall : SubQuery.AllRefused (.of d options) (.root (.ofTarget q.target q.subQueries))
      (Query.update q).Contains q.subQueries :=
    SubQuery.allRefused (fun r hr _ hk => Query.Contains.inside (q := .update q) hr hk) _
  have hwhere : Refused d (Query.update q).Contains (Criterion.composeWhere (.of d options)
      (.root (.ofTarget q.target q.subQueries)) q.filter) :=
    Criterion.composeWhere_refused (fun k hk => .here (q := .update q) hk)
      (hall.mono (List.subset_append_right _ _))
  refine .check (fun _ => .validation _) fun hitems => .check (fun hmissing => ?_) fun _ => ?_
  · simp only [Bool.and_eq_true, List.isEmpty_iff, Bool.not_eq_true'] at hitems hmissing
    simp [h hitems hmissing.1] at hmissing
  · refine Refused.bind (.mapM fun a ha => ?_) fun _ _ => hwhere.bind fun _ _ => .ok _
    have hitem := hall.mono
      (List.Subset.trans (subset_flatMap_of_mem ha) (List.subset_append_left _ _))
    exact a.composeUpdate_refused q.target hitem

theorem DeleteQuery.compose_refused {q : DeleteQuery}
    (h : q.filter = [] → options.allowMissingWhere = true) :
    Refused d (Query.delete q).Contains (q.compose d options) := by
  have hall : SubQuery.AllRefused (.of d options) (.root (.ofTarget q.target q.subQueries))
      (Query.delete q).Contains q.subQueries :=
    SubQuery.allRefused (fun r hr _ hk => Query.Contains.inside (q := .delete q) hr hk) _
  have hwhere : Refused d (Query.delete q).Contains (Criterion.composeWhere (.of d options)
      (.root (.ofTarget q.target q.subQueries)) q.filter) :=
    Criterion.composeWhere_refused (fun k hk => .here (q := .delete q) hk) hall
  refine .check (fun hmissing => ?_) fun _ => hwhere.bind fun _ _ => .ok _
  simp only [Bool.and_eq_true, List.isEmpty_iff, Bool.not_eq_true'] at hmissing
  simp [h hmissing.1] at hmissing

theorem UpdateQuery.build_unfiltered {q : UpdateQuery} (hitems : q.assignments ≠ [])
    (hfilter : q.filter = []) (hallow : (q.options.getD defaults).allowMissingWhere = false) :
    q.build d defaults = .error (.missingWhere (.update q.target.name)) := by
  rw [build, compose_unfiltered hitems hfilter hallow]
  rfl

theorem DeleteQuery.build_unfiltered {q : DeleteQuery} (hfilter : q.filter = [])
    (hallow : (q.options.getD defaults).allowMissingWhere = false) :
    q.build d defaults = .error (.missingWhere (.delete q.target.name)) := by
  rw [build, compose_unfiltered hfilter hallow]
  rfl

theorem UpdateQuery.build_refused {q : UpdateQuery}
    (h : q.assignments ≠ [] → q.filter = [] → (q.options.getD defaults).allowMissingWhere = true) :
    Refused d (Query.update q).Contains (q.build d defaults) :=
  (compose_refused h).bind fun _ _ => .ok _

theorem DeleteQuery.build_refused {q : DeleteQuery}
    (h : q.filter = [] → (q.options.getD defaults).allowMissingWhere = true) :
    Refused d (Query.delete q).Contains (q.build d defaults) :=
  (compose_refused h).bind fun _ _ => .ok _

namespace InsertQuery

variable {q : InsertQuery}

/-- All statements that an insert is sent as are refused for such reasons only. -/
def AllRefused (d : Dialect) (options : QueryOptions) (K : Construct → Prop) (q : InsertQuery) :
    Prop :=
  ∀ cells, Refused d K (q.compose d options cells)

theorem compose_refused (hk : ∀ k ∈ q.constructs, K k)
    (h : ∀ r ∈ q.subQueries, ∀ k, r.select.Contains k → K k) : AllRefused d options K q := by
  intro cells
  have hbody : Refused d K (q.composeBody (.of d options) cells) := by
    unfold composeBody
    cases hq : q.conflict with
    | none => exact .ok _
    | some o =>
      have hall : ∀ p, SubQuery.AllRefused (.of d options) p K q.subQueries :=
        SubQuery.allRefused h
      have hupsert : K .upsert := hk _ (by simp [constructs, hq])
      exact OnConflict.compose_refused hupsert fun as has a ha =>
        (hall _).mono (subQueries_of_assignment hq has ha)
  refine .check (fun _ => .validation _) fun _ => hbody.bind fun body _ => ?_
  by_cases hr : q.returning = true
  · have hreturning : K .returning := hk _ (by simp [constructs, hr])
    have hrequire : Refused d K (Setting.require (.of d options) d.returning .returning) :=
      Setting.require_refused hreturning rfl
    rw [if_pos hr]
    exact hrequire.bind fun _ _ => .ok _
  · rw [if_neg hr]
    exact .ok _

theorem AllRefused.buildSingle (h : AllRefused d (q.options.getD defaults) K q)
    (row : List Value) : Refused d K (q.buildSingle d defaults row) :=
  buildSingle_failsOnly (fun _ he => he.refuses d K) h row

theorem AllRefused.buildMultiple (h : AllRefused d (q.options.getD defaults) K q)
    {rows : List (List Value)} (hk : rows.length > 1 → K .multiRow) :
    Refused d K (q.buildMultiple d defaults rows) := by
  refine buildMultiple_failsOnly (fun _ he => he.refuses d K) h fun hmany hd => ?_
  exact .unsupported (hk hmany) hd rfl _

theorem AllRefused.buildBatch (h : AllRefused d (q.options.getD defaults) K q)
    (hk : q.target.definition.hasIdentity = true → K .batchKeys) (rows : List (List Value)) :
    Refused d K (q.buildBatch d defaults rows) := by
  refine buildBatch_failsOnly (fun _ he => he.refuses d K) h (fun hidentity hd => ?_) rows
  exact .unsupported (hk hidentity) hd rfl _

end InsertQuery

end

namespace Query

variable {d : Dialect} {defaults : QueryOptions}

/-- Apart from a missing where clause, a query is refused for what it contains. -/
theorem build_refuses {q : Query} {e : Error} (h : q.build d defaults = .error e) :
    (∃ u, e = .missingWhere u) ∨ e.Refuses d q.Contains := by
  cases q with
  | select q =>
    have hselect : ∀ k, q.Contains k → (select q).Contains k := fun k hk => by
      cases hk with
      | here hk => exact .here hk
      | inside hr hk => exact .inside hr hk
    have hq := (q.compose_refused (.of d (q.options.getD defaults)) (.root (.ofSelect q))).mono
      hselect
    exact .inr (((hq.bind fun _ _ => .ok _).bind fun _ _ => .ok _).bind (fun _ _ => .ok _) e h)
  | update q =>
    by_cases hguard : q.assignments ≠ [] → q.filter = [] →
        (q.options.getD defaults).allowMissingWhere = true
    · exact .inr ((UpdateQuery.build_refused hguard).bind (fun _ _ => .ok _) e h)
    · simp only [Classical.not_imp, Bool.not_eq_true] at hguard
      obtain ⟨hitems, hfilter, hallow⟩ := hguard
      rw [build, UpdateQuery.build_unfiltered hitems hfilter hallow] at h
      exact .inl ⟨_, (Except.error.inj h).symm⟩
  | delete q =>
    by_cases hguard : q.filter = [] → (q.options.getD defaults).allowMissingWhere = true
    · exact .inr ((DeleteQuery.build_refused hguard).bind (fun _ _ => .ok _) e h)
    · simp only [Classical.not_imp, Bool.not_eq_true] at hguard
      obtain ⟨hfilter, hallow⟩ := hguard
      rw [build, DeleteQuery.build_unfiltered hfilter hallow] at h
      exact .inl ⟨_, (Except.error.inj h).symm⟩
  | insert draft rows =>
    have hall : draft.query.AllRefused d (draft.query.options.getD defaults)
        (insert draft rows).Contains :=
      InsertQuery.compose_refused (fun k hk => .here (List.mem_append_left _ hk))
        fun r hr k hk => .inside hr hk
    have hfinish : Refused d (insert draft rows).Contains draft.finish := by
      unfold InsertDraft.finish
      cases draft.fault with
      | none => exact .ok _
      | some fault => exact .error (.validation (.misuse fault))
    refine .inr (hfinish.bind (fun query hquery => ?_) e h)
    obtain ⟨_, rfl⟩ := InsertDraft.finish_eq_ok_iff.mp hquery
    cases rows with
    | single row => exact (hall.buildSingle row).bind fun _ _ => .ok _
    | multiple rows =>
      refine (hall.buildMultiple fun hmany => ?_).bind fun _ _ => .ok _
      exact .here (List.mem_append_right _ (by simp [Rows.constructs, hmany]))
    | batch rows =>
      refine (hall.buildBatch (fun hidentity => ?_) rows).bind fun _ _ => .ok _
      exact .here (List.mem_append_right _ (by simp [Rows.constructs, hidentity]))

end Query

end SqlCompose

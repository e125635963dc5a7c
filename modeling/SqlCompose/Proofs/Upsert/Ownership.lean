import SqlCompose.Proofs.Sql.Names
import SqlCompose.Proofs.Upsert.Ignoring
import SqlCompose.Proofs.Upsert.Qualifier

/-! Whose columns an upsert may use. Its keys, the columns that it overwrites and those it takes from
the incoming row belong to the table that is written to, and another alias of that table will not do. -/

namespace SqlCompose

theorem exists_error_of_forM {ε α : Type} {f : α → Except ε Unit} {xs : List α} {x : α}
    (hx : x ∈ xs) (h : f x ≠ .ok ()) : ∃ y ∈ xs, ∃ e, f y = .error e ∧ xs.forM f = .error e := by
  induction xs with
  | nil => exact absurd hx List.not_mem_nil
  | cons y ys ih =>
    rw [List.forM_eq_forM] at ih ⊢
    rw [List.forM_cons]
    cases hy : f y with
    | error e => exact ⟨y, List.mem_cons_self, e, hy, rfl⟩
    | ok u =>
      have hmem : x ∈ ys := by
        rcases List.mem_cons.mp hx with rfl | hmem
        · exact absurd hy h
        · exact hmem
      obtain ⟨z, hz, e, hfz, hrun⟩ := ih hmem
      exact ⟨z, List.mem_cons_of_mem _ hz, e, hfz, hrun⟩

namespace OnConflict

/-- The columns that a family takes from the description of an upsert. By `on duplicate key` the unique
indexes of the table are the keys, and chosen ones only tell what is overwritten by default. -/
inductive Uses (s : ConflictSyntax) (o : OnConflict) (c : Column) : Prop where
  | key (h : c ∈ o.keys) (hs : s = .onDuplicateKey → o.policy = .update .allColumns)
  | target {items : List Assignment} {a : Assignment} (h : o.policy = .update (.assignments items))
      (ha : a ∈ items) (hc : a.column = c)
  | incoming {items : List Assignment} {a : Assignment} (h : o.policy = .update (.assignments items))
      (ha : a ∈ items) (hc : a.value = .incoming c)

/-- The computation is refused for a column in use that belongs to another table. -/
def Disowned {α : Type} (s : ConflictSyntax) (target : Table) (o : OnConflict)
    (x : Except Error α) : Prop :=
  ∃ c, o.Uses s c ∧ c.table ≠ target ∧
    x = .error (.validation (.foreignUpsertColumn target.name c.name))

theorem Disowned.bind {α β : Type} {s : ConflictSyntax} {target : Table} {o : OnConflict}
    {x : Except Error α} (h : o.Disowned s target x) (f : α → Except Error β) :
    o.Disowned s target (x >>= f) := by
  obtain ⟨c, hc, hforeign, rfl⟩ := h
  exact ⟨c, hc, hforeign, rfl⟩

section

variable {s : ConflictSyntax} {target : Table} {o : OnConflict} {c : Column}

/-- What is used and is no key is used by every family. -/
theorem Uses.of_not_mem_keys (h : o.Uses s c) (hkey : c ∉ o.keys) (t : ConflictSyntax) :
    o.Uses t c := by
  cases h with
  | key h _ => exact absurd h hkey
  | target h ha hc => exact .target h ha hc
  | incoming h ha hc => exact .incoming h ha hc

theorem checkOwned_eq_error_iff {e : Error} :
    checkOwned target c = .error e ↔
      c.table ≠ target ∧ .validation (.foreignUpsertColumn target.name c.name) = e := by
  by_cases h : c.table = target <;> simp [checkOwned, h]

theorem keyColumns_disowned (hc : c ∈ o.keys) (hforeign : c.table ≠ target)
    (hs : s = .onDuplicateKey → o.policy = .update .allColumns) :
    o.Disowned s target (o.keyColumns target) := by
  have hsome : o.keys.isEmpty = false := List.isEmpty_eq_false_iff_exists_mem.mpr ⟨c, hc⟩
  have hrefused : checkOwned target c ≠ .ok () := fun h => hforeign (checkOwned_eq_ok_iff.mp h)
  obtain ⟨k, hk, e, hcheck, hrun⟩ := exists_error_of_forM hc hrefused
  obtain ⟨htable, rfl⟩ := checkOwned_eq_error_iff.mp hcheck
  refine ⟨k, .key hk hs, htable, ?_⟩
  simp only [keyColumns, hsome, Bool.false_eq_true, if_false, hrun]
  rfl

/-- What is checked of an explicit assignment. -/
def checkItem (target : Table) (a : Assignment) : Except Error Unit := do
  checkOwned target a.column
  match a.value with
  | .incoming source => checkOwned target source
  | .operand _ => return ()

theorem checkItem_eq_ok {a : Assignment} (h : checkItem target a = .ok ()) :
    a.column.table = target ∧ ∀ c, a.value = .incoming c → c.table = target := by
  simp only [checkItem, bind_eq_ok_iff, checkOwned_eq_ok_iff] at h
  obtain ⟨_, hcolumn, hvalue⟩ := h
  refine ⟨hcolumn, fun c hc => ?_⟩
  rw [hc] at hvalue
  exact checkOwned_eq_ok_iff.mp hvalue

theorem checkItem_eq_error {a : Assignment} {e : Error} (h : checkItem target a = .error e) :
    ∃ c, (a.column = c ∨ a.value = .incoming c) ∧ c.table ≠ target ∧
      .validation (.foreignUpsertColumn target.name c.name) = e := by
  unfold checkItem at h
  cases hcolumn : checkOwned target a.column with
  | error e' =>
    obtain ⟨hforeign, rfl⟩ := checkOwned_eq_error_iff.mp hcolumn
    rw [hcolumn] at h
    exact ⟨a.column, .inl rfl, hforeign, Except.error.inj h⟩
  | ok u =>
    rw [hcolumn] at h
    cases hvalue : a.value with
    | operand operand =>
      rw [hvalue] at h
      cases h
    | incoming source =>
      rw [hvalue] at h
      obtain ⟨hforeign, he⟩ := checkOwned_eq_error_iff.mp h
      exact ⟨source, .inr rfl, hforeign, he⟩

theorem assignments_eq_of_items {items : List Assignment} (h : o.policy = .update (.assignments items)) :
    o.assignments target = (items.forM (checkItem target) >>= fun _ => .ok items) := by
  simp only [assignments, h]
  rfl

theorem items_disowned {items : List Assignment} {a : Assignment}
    (h : o.policy = .update (.assignments items)) (ha : a ∈ items)
    (hrefused : checkItem target a ≠ .ok ()) : o.Disowned s target (o.assignments target) := by
  obtain ⟨b, hb, e, hcheck, hrun⟩ := exists_error_of_forM ha hrefused
  obtain ⟨c, hc, hforeign, rfl⟩ := checkItem_eq_error hcheck
  have huses : o.Uses s c := by
    rcases hc with hc | hc
    · exact .target h hb hc
    · exact .incoming h hb hc
  rw [assignments_eq_of_items h, hrun]
  exact ⟨c, huses, hforeign, rfl⟩

theorem assignments_disowned (hc : o.Uses .onDuplicateKey c) (hforeign : c.table ≠ target) :
    o.Disowned s target (o.assignments target) := by
  cases hc with
  | key hkey hs =>
    have hall := hs rfl
    simp only [assignments, hall]
    exact (keyColumns_disowned hkey hforeign fun _ => hall).bind _
  | target h ha hc =>
    refine items_disowned h ha fun hok => hforeign ?_
    exact hc ▸ (checkItem_eq_ok hok).1
  | incoming h ha hc =>
    refine items_disowned h ha fun hok => hforeign ?_
    exact (checkItem_eq_ok hok).2 c hc

/-- The families that use all keys look at them before they look at the assignments. -/
theorem keyed_disowned (hs : s ≠ .onDuplicateKey) (hc : o.Uses s c) (hforeign : c.table ≠ target) :
    o.Disowned s target (o.keyColumns target) ∨
      o.keyColumns target = .ok (o.effectiveKeys target) ∧
        o.Disowned s target (o.assignments target) := by
  have hread : s = .onDuplicateKey → o.policy = .update .allColumns := fun h => absurd h hs
  by_cases howned : ∀ k ∈ o.keys, k.table = target
  · have hkey : c ∉ o.keys := fun hkey => hforeign (howned c hkey)
    have hassigned := hc.of_not_mem_keys hkey .onDuplicateKey
    exact .inr ⟨keyColumns_eq howned, assignments_disowned hassigned hforeign⟩
  · push Not at howned
    obtain ⟨k, hk, hother⟩ := howned
    exact .inl (keyColumns_disowned hk hother hread)

/-- Where there are keys to go by, nothing else is found wrong before a column of another table. -/
theorem compose_disowned {σ : Setting} (hsupported : σ.dialect.conflict ≠ .absent)
    (hkeys : o.effectiveKeys target ≠ []) (hc : o.Uses σ.dialect.conflict c)
    (hforeign : c.table ≠ target) (p : Position) (rows : List (List Cell)) :
    o.Disowned σ.dialect.conflict target (o.compose σ p target rows) := by
  unfold compose
  cases hs : σ.dialect.conflict with
  | onConflict =>
    rw [hs] at hc
    rcases keyed_disowned (by simp) hc hforeign with hrefused | ⟨hfound, hrefused⟩
    · exact hrefused.bind _
    · simp only [composeOnConflict, hfound]
      exact hrefused.bind _
  | onDuplicateKey =>
    rw [hs] at hc
    exact (assignments_disowned hc hforeign).bind _
  | merge terminated =>
    rw [hs] at hc
    rcases keyed_disowned (by simp) hc hforeign with hrefused | ⟨hfound, hrefused⟩
    · exact hrefused.bind _
    · -- Whether there are keys is asked between the two.
      have hsome : (o.effectiveKeys target).isEmpty = false := by simpa using hkeys
      simp only [composeMerge, hfound, bind, Except.bind, hsome]
      exact hrefused.bind _
  | absent => exact absurd hs hsupported

/-- An upsert that is composed uses columns of its own table. -/
theorem table_of_uses {σ : Setting} {p : Position} {rows : List (List Cell)} {body : Sql.WriteBody}
    (h : o.compose σ p target rows = .ok body) (hc : o.Uses σ.dialect.conflict c) :
    c.table = target := by
  obtain ⟨as, has, items, _, hform⟩ := compose_eq_ok_iff.mp h
  by_contra hforeign
  have hrefused : ¬o.Uses .onDuplicateKey c := fun hc => by
    obtain ⟨_, _, _, he⟩ := assignments_disowned (s := .onDuplicateKey) hc hforeign
    cases has.symm.trans he
  have hkeyed : (∀ k ∈ o.keys, k.table = target) → False := fun howned =>
    hrefused (hc.of_not_mem_keys (fun hkey => hforeign (howned c hkey)) .onDuplicateKey)
  cases hform with
  | onConflict _ howned _ => exact hkeyed howned
  | merge _ _ howned _ => exact hkeyed howned
  | ignoring hs _ => exact hrefused (hs ▸ hc)
  | onDuplicateKey hs _ => exact hrefused (hs ▸ hc)

end

end OnConflict

namespace Sql

/-- The column that stands for itself. What a nested select names is its own affair. -/
def Expr.column? : Expr → Option Column
  | .column n => some n.column
  | .parameter _ => none
  | .subQuery _ => none

/-- The columns by which an upsert tells that a row exists. -/
def WriteBody.keys : WriteBody → List Column
  | .insert i =>
    match i.conflict with
    | some (.onConflict keys _) => keys
    | some (.onDuplicateKey _) => []
    | none => []
  | .merge m => m.keys.map (·.column)

/-- Every column of the statement, those of nested selects apart. -/
def Write.named (w : Write) : List Column :=
  w.body.columns ++ w.body.rowColumns ++ w.body.keys ++ w.body.items.flatMap SetItem.columns ++
    w.body.operands.filterMap Expr.column? ++ w.returning.getD []

end Sql

namespace OnConflict

variable {σ : Setting} {p : Position} {target : Table} {rows : List (List Cell)} {o : OnConflict}
  {items : List Sql.SetItem} {body : Sql.WriteBody}

theorem Form.table_of_mem_rowColumns (h : o.Form σ p target rows items body) {c : Column}
    (hc : c ∈ body.rowColumns) : c.table = target := by
  cases h with
  | merge _ _ _ _ => exact (mem_source_iff.mp hc).1
  | _ => exact (Table.mem_insertColumns_iff.mp hc).1

theorem Form.table_of_mem_keys (h : o.Form σ p target rows items body) {c : Column}
    (hc : c ∈ body.keys) : c.table = target := by
  cases h with
  | onConflict _ howned _ => exact table_of_mem_effectiveKeys howned hc
  | ignoring _ _ => exact absurd hc List.not_mem_nil
  | onDuplicateKey _ _ => exact absurd hc List.not_mem_nil
  | merge _ _ howned hnames =>
    obtain ⟨n, hn, rfl⟩ := List.mem_map.mp hc
    obtain ⟨k, hk, hname⟩ := exists_mem_of_forall₂ hnames hn
    obtain ⟨_, _, rfl⟩ := Column.qualify_eq_ok_iff.mp hname
    exact table_of_mem_effectiveKeys howned hk

end OnConflict

theorem Table.table_of_mem_generatedColumns {t : Table} {c : Column} (h : c ∈ t.generatedColumns) :
    c.table = t := by
  unfold generatedColumns at h
  simp only at h
  split at h
  · exact Table.mem_columns_iff.mp (List.mem_of_mem_filter h)
  · exact Table.mem_columns_iff.mp (List.mem_of_mem_filter h)

namespace InsertQuery

variable {q : InsertQuery} {o : OnConflict}

theorem table_of_mem_named {d : Dialect} {options : QueryOptions} {cells : List (List Cell)}
    {w : Sql.Write} (ho : q.conflict = some o) (h : q.compose d options cells = .ok w) {c : Column}
    (hc : c ∈ w.named) : c.table = q.target := by
  obtain ⟨hbody, hreturning⟩ := compose_eq_ok h
  have hcompose := hbody
  rw [composeBody, ho] at hcompose
  obtain ⟨as, has, items, hitems, hform⟩ := OnConflict.compose_eq_ok_iff.mp hcompose
  simp only [Sql.Write.named, List.mem_append] at hc
  rcases hc with ((((hc | hc) | hc) | hc) | hc) | hc
  · rw [hform.columns] at hc
    exact (Table.mem_insertColumns_iff.mp hc).1
  · exact hform.table_of_mem_rowColumns hc
  · exact hform.table_of_mem_keys hc
  · rw [hform.items] at hc
    exact OnConflict.table_of_mem_items has hitems hc
  · obtain ⟨e, he, hcolumn⟩ := List.mem_filterMap.mp hc
    have hstems := (composeBody_stems hbody).2 e he
    cases e with
    | column n =>
      obtain rfl : n.column = c := Option.some.inj hcolumn
      exact hstems.target.1
    | parameter b => cases hcolumn
    | subQuery s => cases hcolumn
  · rw [hreturning] at hc
    by_cases hr : q.returning = true
    · simp only [hr, if_true, Option.getD_some] at hc
      exact Table.table_of_mem_generatedColumns hc
    · simp [hr] at hc

theorem table_of_uses {σ : Setting} {cells : List (List Cell)} {body : Sql.WriteBody}
    (ho : q.conflict = some o) (h : q.composeBody σ cells = .ok body) {c : Column}
    (hc : o.Uses σ.dialect.conflict c) : c.table = q.target := by
  rw [composeBody, ho] at h
  exact OnConflict.table_of_uses h hc

theorem compose_disowned {d : Dialect} (ho : q.conflict = some o) (hd : d.conflict ≠ .absent)
    (hcolumns : q.target.insertColumns ≠ []) (hkeys : o.effectiveKeys q.target ≠ []) {c : Column}
    (hc : o.Uses d.conflict c) (hforeign : c.table ≠ q.target) (options : QueryOptions)
    (cells : List (List Cell)) :
    o.Disowned d.conflict q.target (q.compose d options cells) := by
  have hsome : q.target.insertColumns.isEmpty = false := by simpa using hcolumns
  have hbody : o.Disowned d.conflict q.target (q.composeBody (.of d options) cells) := by
    have hsyntax : (Setting.of d options).dialect.conflict = d.conflict := rfl
    rw [← hsyntax] at hd hc ⊢
    rw [composeBody, ho]
    exact OnConflict.compose_disowned hd hkeys hc hforeign _ cells
  simp only [compose, hsome, Bool.false_eq_true, if_false]
  exact hbody.bind _

/-- The same insert, but with other keys if it is an upsert. -/
def withKeys (q : InsertQuery) (keys : List Column) : InsertQuery :=
  { q with conflict := q.conflict.map fun o => { o with keys } }

theorem verb_withKeys (q : InsertQuery) (keys : List Column) : (q.withKeys keys).verb = q.verb := by
  rw [verb, verb, withKeys, Option.isSome_map]

theorem subQueries_withKeys (q : InsertQuery) (keys : List Column) :
    (q.withKeys keys).subQueries = q.subQueries := by
  obtain ⟨target, conflict, returning, options⟩ := q
  cases conflict with
  | none => rfl
  | some o =>
    obtain ⟨known, policy⟩ := o
    match policy with
    | .ignore => rfl
    | .update .allColumns => rfl
    | .update (.assignments items) => rfl

/-- Keys count by `on duplicate key` only for what is overwritten by default. -/
theorem composeBody_withKeys {σ : Setting} (ho : q.conflict = some o)
    (hd : σ.dialect.conflict = .onDuplicateKey) (hpolicy : o.policy ≠ .update .allColumns)
    (keys : List Column) (cells : List (List Cell)) :
    (q.withKeys keys).composeBody σ cells = q.composeBody σ cells := by
  have hconflict : (q.withKeys keys).conflict = some { o with keys } := by rw [withKeys, ho]; rfl
  have hsub := subQueries_withKeys q keys
  have hassignments : OnConflict.assignments q.target { o with keys } = o.assignments q.target := by
    obtain ⟨known, policy⟩ := o
    match policy with
    | .ignore => rfl
    | .update .allColumns => exact absurd rfl hpolicy
    | .update (.assignments items) => rfl
  simp only [composeBody, hconflict, ho, hsub, OnConflict.compose, hd,
    OnConflict.composeOnDuplicateKey]
  exact congrArg (· >>= _) hassignments

end InsertQuery

/-- The same draft, but with other keys if it is an upsert. -/
def InsertDraft.withKeys (draft : InsertDraft) (keys : List Column) : InsertDraft :=
  { draft with query := draft.query.withKeys keys }

theorem Query.build_withKeys {d : Dialect} {draft : InsertDraft} {o : OnConflict}
    (ho : draft.query.conflict = some o) (hd : d.conflict = .onDuplicateKey)
    (hpolicy : o.policy ≠ .update .allColumns) (keys : List Column) (defaults : QueryOptions)
    (rows : Rows) :
    (insert (draft.withKeys keys) rows).build d defaults = (insert draft rows).build d defaults := by
  obtain ⟨query, fault⟩ := draft
  cases fault with
  | some fault => rfl
  | none =>
    have htarget : (query.withKeys keys).target = query.target := rfl
    have hoptions : (query.withKeys keys).options = query.options := rfl
    have hreturning : (query.withKeys keys).returning = query.returning := rfl
    exact InsertQuery.build_eq_of_body htarget hoptions hreturning
      (InsertQuery.verb_withKeys query keys)
      (fun _ => InsertQuery.composeBody_withKeys ho hd hpolicy keys) defaults rows

/-- An upsert that uses a column of another table reference is not built, and one that is built names
columns of its own table only. By `on duplicate key` chosen keys make no difference, except for what
is overwritten by default. -/
theorem Query.build_upsert_owned {d : Dialect} {defaults : QueryOptions} {draft : InsertDraft}
    {rows : Rows} {o : OnConflict} (ho : draft.query.conflict = some o)
    (hrows : rows ≠ .multiple []) :
    (∀ c, o.Uses d.conflict c → c.table ≠ draft.query.target →
      (∃ e, (insert draft rows).build d defaults = .error e) ∧
      (d.conflict ≠ .absent → draft.query.target.insertColumns ≠ [] →
        o.effectiveKeys draft.query.target ≠ [] → ∀ options cells,
          o.Disowned d.conflict draft.query.target (draft.query.compose d options cells))) ∧
    (∀ b, (insert draft rows).build d defaults = .ok b →
      ∃ w, (insert draft rows).Composed d defaults (.write w) ∧ b.output.Shows d (.write w) ∧
        ∀ c ∈ w.named, c.table = draft.query.target) ∧
    (d.conflict = .onDuplicateKey → o.policy ≠ .update .allColumns → ∀ keys,
      (insert (draft.withKeys keys) rows).build d defaults =
        (insert draft rows).build d defaults) := by
  refine ⟨fun c hc hforeign => ⟨?_, fun hd hcolumns hkeys options cells => ?_⟩, fun b hb => ?_,
    fun hd hpolicy keys => build_withKeys ho hd hpolicy keys defaults rows⟩
  · cases hb : (insert draft rows).build d defaults with
    | error e => exact ⟨e, rfl⟩
    | ok b =>
      obtain ⟨_, w, _, _, hw, _⟩ := build_insert_shows hb hrows
      have hbody := (InsertQuery.compose_eq_ok hw).1
      exact absurd (InsertQuery.table_of_uses ho hbody hc) hforeign
  · exact InsertQuery.compose_disowned ho hd hcolumns hkeys hc hforeign options cells
  · obtain ⟨_, w, _, hfault, hw, hshows⟩ := build_insert_shows hb hrows
    exact ⟨w, .insert hfault hw, hshows, fun c hc => InsertQuery.table_of_mem_named ho hw hc⟩

namespace Family

/-- A person is added unless the key tells that they are there. -/
def adding (key : Column) : InsertDraft :=
  .run (person 0) [.onDuplicateKeyIgnore, .conflictKey key]

end Family

/-- A key of another alias of the table is refused where keys are used. -/
theorem Query.build_upsert_owned_adding :
    ((∃ e, (insert (Family.adding (Family.number 1)) (.single [.int 1, .null, .text "Ada"])).build
        .postgres default = .error e) ∧
      ∀ options cells, OnConflict.Disowned .onConflict (Family.person 0)
        ⟨[Family.number 1], .ignore⟩
        ((Family.adding (Family.number 1)).query.compose .postgres options cells)) ∧
    (∃ b w, (insert (Family.adding (Family.number 0)) (.single [.int 1, .null, .text "Ada"])).build
        .postgres default = .ok b ∧ b.output.Shows .postgres (.write w) ∧
      ∀ c ∈ w.named, c.table = Family.person 0) ∧
    ∀ keys, (insert ((Family.adding (Family.number 0)).withKeys keys)
        (.single [.int 1, .null, .text "Ada"])).build .mySql default =
      (insert (Family.adding (Family.number 0)) (.single [.int 1, .null, .text "Ada"])).build
        .mySql default := by
  have hrows : Rows.single [.int 1, .null, .text "Ada"] ≠ .multiple [] := by simp
  have hother : (Family.adding (Family.number 1)).query.conflict =
      some ⟨[Family.number 1], .ignore⟩ := rfl
  have hown : (Family.adding (Family.number 0)).query.conflict =
      some ⟨[Family.number 0], .ignore⟩ := rfl
  refine ⟨?_, ?_, fun keys => ?_⟩
  · have hforeign : (Family.number 1).table ≠ Family.person 0 := by decide
    have hkey : OnConflict.Uses .onConflict ⟨[Family.number 1], .ignore⟩ (Family.number 1) :=
      .key List.mem_cons_self fun h => by cases h
    refine ((build_upsert_owned (d := .postgres) hother hrows).1 _ hkey hforeign).imp_right
      fun hdisowned => ?_
    exact hdisowned (by decide) (by decide) (List.cons_ne_nil _ _)
  · obtain ⟨b, hb⟩ : ∃ b, (insert (Family.adding (Family.number 0))
        (.single [.int 1, .null, .text "Ada"])).build .postgres default = .ok b := ⟨_, rfl⟩
    obtain ⟨w, _, hshows, hnamed⟩ := (build_upsert_owned hown hrows).2.1 b hb
    exact ⟨b, w, hb, hshows, hnamed⟩
  · have hpolicy : ConflictPolicy.ignore ≠ .update .allColumns := by simp
    exact (build_upsert_owned hown hrows).2.2 rfl hpolicy keys

/-- The key belongs to another alias of the table, and the statement does without keys. -/
theorem Query.build_upsert_disowned_adding :
    Dialect.mySql.conflict = .onDuplicateKey ∧
    ∃ b o, (insert (Family.adding (Family.number 1)) (.single [.int 1, .null, .text "Ada"])).build
        .mySql default = .ok b ∧
      b.output.sql = "insert ignore into person (id, parent, name) values (?, ?, ?)" ∧
      (Family.adding (Family.number 1)).query.conflict = some o ∧ Family.number 1 ∈ o.keys ∧
      (Family.number 1).table ≠ Family.person 0 :=
  ⟨rfl, _, _, rfl, by decide +kernel, rfl, List.mem_cons_self, by decide⟩

end SqlCompose

import SqlCompose.Proofs.Compose.Success
import SqlCompose.Proofs.Payload.Noninterference

/-! Rows that a table takes: one value for each column, NULL or of the column's type. Binding a row
succeeds for these and for no others, so any two of them are alike. -/

namespace SqlCompose

theorem Cell.check_eq_ok_iff {c : Column} {v : Value} {cell : Cell} :
    check c v = .ok cell ↔ v.Suits c ∧ ⟨c, v⟩ = cell := by
  unfold check Value.Suits
  cases ht : v.type? with
  | none => simp
  | some t => by_cases h : t = c.type <;> simp [h]

namespace Table

structure Fits (t : Table) (row : List Value) : Prop where
  length_eq : row.length = t.columns.length
  suits : ∀ x ∈ t.columns.zip row, x.2.Suits x.1

theorem fits_iff {t : Table} {row : List Value} :
    t.Fits row ↔ ∃ cells, t.bindRow row = .ok cells := by
  unfold bindRow
  by_cases hlen : row.length = t.columns.length
  · simp only [hlen, if_true, mapM_eq_ok_iff, Cell.check_eq_ok_iff]
    constructor
    · intro h
      refine ⟨(t.columns.zip row).map fun x => ⟨x.1, x.2⟩, ?_⟩
      rw [List.forall₂_map_right_iff, List.forall₂_same]
      exact fun x hx => ⟨h.suits x hx, rfl⟩
    · rintro ⟨cells, hcells⟩
      refine ⟨hlen, fun x hx => ?_⟩
      obtain ⟨_, _, hsuits, _⟩ := exists_mem_of_mem hcells hx
      exact hsuits
  · have hno : ¬ t.Fits row := fun h => hlen h.length_eq
    simp [hlen, hno]

theorem Fits.alike {t : Table} {row row' : List Value} (h : t.Fits row) (h' : t.Fits row') :
    RowAlike t row row' := by
  refine ⟨h.length_eq.trans h'.length_eq.symm, fun x hx => .inl ?_⟩
  obtain ⟨i, hi, rfl⟩ := List.mem_iff_getElem.mp hx
  simp only [List.length_zip, Nat.lt_min] at hi
  obtain ⟨hc, hr, hr'⟩ := hi
  have hlt : i < (t.columns.zip row).length := by
    rw [List.length_zip]
    exact Nat.lt_min.mpr ⟨hc, hr⟩
  have hlt' : i < (t.columns.zip row').length := by
    rw [List.length_zip]
    exact Nat.lt_min.mpr ⟨hc, hr'⟩
  rw [List.getElem_zip, List.getElem_zip]
  refine ⟨h.suits (t.columns[i], row[i]) ?_, h'.suits (t.columns[i], row'[i]) ?_⟩
  · exact List.mem_iff_getElem.mpr ⟨i, hlt, List.getElem_zip⟩
  · exact List.mem_iff_getElem.mpr ⟨i, hlt', List.getElem_zip⟩

end Table

namespace Statement.Same

variable {s s' s'' : Statement}

theorem symm (h : s.Same s') : s'.Same s := ⟨h.dialect_eq.symm, Eq.symm h.pieces⟩

theorem trans (h : s.Same s') (h' : s'.Same s'') : s.Same s'' :=
  ⟨h.dialect_eq.trans h'.dialect_eq, Eq.trans h.pieces h'.pieces⟩

end Statement.Same

namespace InsertQuery

variable {d : Dialect} {options : QueryOptions} {q : InsertQuery} {row row' : List Value}

theorem compileRow_alike (h : RowAlike q.target row row') :
    SameOutcome Statement.Same (q.compileRow d options row) (q.compileRow d options row') := by
  have hfirst : SameOutcome Statement.Same (q.compileRow d options row)
      (q.blank.compileRow d options row') := q.compileRow_blank h
  have hsecond : SameOutcome Statement.Same (q.compileRow d options row')
      (q.blank.compileRow d options row') := q.compileRow_blank (.refl q.target row')
  exact hfirst.trans (hsecond.symm fun _ _ hs => hs.symm) fun _ _ _ hs hs' => hs.trans hs'

theorem fits_of_compileRow {s : Statement} (h : q.compileRow d options row = .ok s) :
    q.target.Fits row := by
  rw [compileRow, bind_eq_ok_iff] at h
  obtain ⟨cells, hcells, _⟩ := h
  exact Table.fits_iff.mpr ⟨cells, hcells⟩

/-- Rows that fit are refused for one reason or give statements with one SQL. -/
theorem exists_compileRow_of_fits {s : Statement} (h : q.compileRow d options row = .ok s)
    (hrow : q.target.Fits row') : ∃ s', q.compileRow d options row' = .ok s' ∧ s'.sql = s.sql := by
  have halike : SameOutcome Statement.Same (q.compileRow d options row)
      (q.compileRow d options row') := compileRow_alike ((fits_of_compileRow h).alike hrow)
  rw [h] at halike
  cases hs : q.compileRow d options row' with
  | error e =>
    rw [hs] at halike
    cases halike
  | ok s' =>
    rw [hs] at halike
    cases halike with
    | ok hsame => exact ⟨s', rfl, hsame.sql_eq.symm⟩

theorem compileRow_sql_eq {s s' : Statement} (h : q.compileRow d options row = .ok s)
    (h' : q.compileRow d options row' = .ok s') : s.sql = s'.sql := by
  obtain ⟨s'', hs, hsql⟩ := exists_compileRow_of_fits h (fits_of_compileRow h')
  obtain rfl : s' = s'' := Except.ok.inj (h'.symm.trans hs)
  exact hsql.symm

end InsertQuery

end SqlCompose

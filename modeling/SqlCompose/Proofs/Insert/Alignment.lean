import SqlCompose.Proofs.Upsert.Families
import SqlCompose.Proofs.Upsert.Incoming

/-! Which value of a row stands for which column. Rows are indexed by declaration, statements list some
of the columns, and the lists of an insert and of a `merge` differ. -/

namespace SqlCompose

namespace Table

variable {t : Table} {row : List Value} {cells : List Cell}

end Table

namespace OnConflict

variable {target : Table} {o : OnConflict}

/-- The values of a row for an identity column have no use outside the source of a `merge`. -/
theorem identity_of_mem_incomingColumns {s : ConflictSyntax} {c : Column}
    (hc : c ∈ o.incomingColumns target s) (hidentity : c.definition.identity = true) :
    (∃ terminated, s = .merge terminated) ∧ c ∈ o.effectiveKeys target := by
  cases s with
  | merge terminated =>
    refine ⟨⟨terminated, rfl⟩, ?_⟩
    rcases (mem_source_iff.mp hc).2 with hordinary | hkey
    · simp [hidentity] at hordinary
    · exact hkey
  | _ => simp [(Table.mem_insertColumns_iff.mp hc).2] at hidentity

theorem compose_rows {σ : Setting} {p : Position} {cells : List (List Cell)}
    {body : Sql.WriteBody} (h : o.compose σ p target cells = .ok body) :
    body.rowColumns = o.incomingColumns target σ.dialect.conflict ∧
      body.rows = cells.map (rowValues (o.incomingColumns target σ.dialect.conflict)) ∧
      ∀ terminated, σ.dialect.conflict = .merge terminated → ∃ m, body = .merge m := by
  obtain ⟨_, _, _, _, hform⟩ := compose_eq_ok_iff.mp h
  have hrows := hform.spells.rows
  cases hform with
  | onConflict hs _ _ => exact ⟨by rw [hs]; rfl, hrows, fun _ hmerge => by simp [hs] at hmerge⟩
  | ignoring hs _ => exact ⟨by rw [hs]; rfl, hrows, fun _ hmerge => by simp [hs] at hmerge⟩
  | onDuplicateKey hs _ => exact ⟨by rw [hs]; rfl, hrows, fun _ hmerge => by simp [hs] at hmerge⟩
  | merge hs _ _ _ => exact ⟨by rw [hs]; rfl, hrows, fun _ _ => ⟨_, rfl⟩⟩

end OnConflict

/-- The columns that the rows have values for: those that are inserted, and in a `merge` the keys as
well. -/
def InsertQuery.rowColumns (d : Dialect) (q : InsertQuery) : List Column :=
  match q.conflict with
  | some o => o.incomingColumns q.target d.conflict
  | none => q.target.insertColumns

namespace InsertQuery

variable {d : Dialect} {options : QueryOptions} {q : InsertQuery} {rows : List (List Value)}
  {cells : List (List Cell)} {w : Sql.Write}

theorem compose_rows (h : q.compose d options cells = .ok w) :
    w.body.rowColumns = q.rowColumns d ∧ w.body.rows = cells.map (rowValues (q.rowColumns d)) ∧
      ∀ c ∈ q.rowColumns d, c.definition.identity = true →
        ∃ m o, w.body = .merge m ∧ q.conflict = some o ∧ c ∈ o.effectiveKeys q.target := by
  have hbody := (compose_eq_ok h).1
  unfold composeBody at hbody
  unfold rowColumns
  cases hq : q.conflict with
  | none =>
    simp only [hq, pure_eq_ok_iff] at hbody
    refine ⟨by rw [← hbody]; rfl, by rw [← hbody]; rfl, fun c hc hidentity => ?_⟩
    simp [(Table.mem_insertColumns_iff.mp hc).2] at hidentity
  | some o =>
    simp only [hq] at hbody
    obtain ⟨hcolumns, hrows, hmerge⟩ := OnConflict.compose_rows hbody
    refine ⟨hcolumns, hrows, fun c hc hidentity => ?_⟩
    obtain ⟨⟨terminated, hs⟩, hkey⟩ := OnConflict.identity_of_mem_incomingColumns hc hidentity
    obtain ⟨m, hm⟩ := hmerge terminated hs
    exact ⟨m, o, hm, rfl, hkey⟩

theorem Sends.fits (h : q.Sends d options rows w) : ∀ row ∈ rows, q.target.Fits row := by
  intro row hrow
  obtain ⟨cells, hcells, _⟩ := h
  obtain ⟨bound, _, hbound⟩ := exists_mem_of_mem hcells hrow
  exact Table.fits_iff.mpr ⟨bound, hbound⟩

end InsertQuery

end SqlCompose

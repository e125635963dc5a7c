import SqlCompose.Proofs.Sql.Woven

/-! Every command is put together like a select: its names and values stay apart, and what a driver
reads is what each piece says by itself. -/

namespace SqlCompose

namespace Sql

open Piece (Woven)

theorem name_woven (cs : List Column) :
    ∀ ps ∈ cs.map fun c => [Piece.name c.ident], Woven ps := by
  intro ps hps
  obtain ⟨c, _, rfl⟩ := List.mem_map.mp hps
  exact .name c.ident

theorem columnList_woven (cs : List Column) : Woven (columnList cs) :=
  .enclosed (.commaSeparated (name_woven cs))

theorem incomingPieces_woven (style : IncomingStyle) (c : Column) :
    Woven (incomingPieces style c) := by
  cases style with
  | qualified => exact .joined (.text (t := "excluded") (by decide)) (.name c.ident) (by decide)
  | valuesFunction => exact .bracketed (by decide) (by decide) (.name c.ident)

theorem SetItem.woven (style : IncomingStyle) (i : SetItem) : Woven (i.pieces style) := by
  obtain ⟨target, source⟩ := i
  cases source with
  | expr e => exact .joined (.name target.ident) e.woven (by decide)
  | incoming c => exact .joined (.name target.ident) (incomingPieces_woven style c) (by decide)

theorem setPieces_woven (style : IncomingStyle) (items : List SetItem) :
    Woven (setPieces style items) := by
  refine .commaSeparated fun ps hps => ?_
  obtain ⟨i, _, rfl⟩ := List.mem_map.mp hps
  exact i.woven style

theorem rowPieces_woven (rows : List (List Bound)) : Woven (rowPieces rows) := by
  refine .commaSeparated fun ps hps => ?_
  obtain ⟨row, _, rfl⟩ := List.mem_map.mp hps
  refine .enclosed (.commaSeparated fun ps hps => ?_)
  obtain ⟨b, _, rfl⟩ := List.mem_map.mp hps
  exact .parameter b

theorem Update.woven (u : Update) : Woven u.pieces := by
  have hfilter := Condition.where_clause u.filter
  have hset := (setPieces_woven .qualified u.items).append hfilter.1 hfilter.2
  have h : Woven (.text "update " :: (tablePieces u.table ++ .text " set " ::
      (setPieces .qualified u.items ++ Condition.wherePieces u.filter))) :=
    .lead (by decide) (by decide) ((tablePieces_woven u.table).joined hset (by decide))
  simpa [Update.pieces] using h

theorem Delete.woven (d : Delete) : Woven d.pieces := by
  have hfilter := Condition.where_clause d.filter
  exact .lead (by decide) (by decide) ((tablePieces_woven d.table).append hfilter.1 hfilter.2)

theorem ConflictClause.clause (c : ConflictClause) : Clause c.pieces := by
  cases c with
  | onConflict keys items =>
    have hitems : Clause (if items.isEmpty then [.text " do nothing"]
        else .text " do update set " :: setPieces .qualified items) := by
      split
      · exact .lead (.text (by decide)) (by decide)
      · exact .lead (.lead (by decide) (by decide) (setPieces_woven _ _)) (by decide)
    have hkeys : Clause (if keys.isEmpty then [] else .text " " :: columnList keys) := by
      split
      · exact .nil
      · exact .lead (.lead (by decide) (by decide) (columnList_woven keys)) (by decide)
    exact (Clause.lead (.text (t := " on conflict") (by decide)) (by decide)).append
      (hkeys.append hitems)
  | onDuplicateKey items =>
    exact .lead (.lead (by decide) (by decide) (setPieces_woven _ _)) (by decide)

theorem Insert.woven (i : Insert) : Woven i.pieces := by
  have hrows : ∀ clause, Clause clause → ∀ t, Piece.Plain t → Piece.closesMark t = true →
      Woven (.text t :: (tablePieces i.table ++ .text " " :: (columnList i.columns ++
        .text " values " :: (rowPieces i.rows ++ clause)))) := by
    intro clause hclause t ht hcloses
    have htail := (rowPieces_woven i.rows).append hclause.1 hclause.2
    exact .lead ht hcloses ((tablePieces_woven i.table).joined
      ((columnList_woven i.columns).joined htail (by decide)) (by decide))
  have hverb : Piece.Plain (if i.ignoring then "insert ignore into " else "insert into ") ∧
      Piece.closesMark (if i.ignoring then "insert ignore into " else "insert into ") = true := by
    cases i.ignoring
    · decide
    · decide
  obtain ⟨ignoring, table, columns, rows, conflict⟩ := i
  cases conflict with
  | none => simpa [Insert.pieces] using hrows [] .nil _ hverb.1 hverb.2
  | some clause => simpa [Insert.pieces] using hrows _ clause.clause _ hverb.1 hverb.2

theorem keyPieces_woven (n : ColumnName) : Woven (keyPieces n) :=
  n.woven.joined (incomingPieces_woven .qualified n.column) (by decide)

theorem Merge.woven (m : Merge) : Woven m.pieces := by
  have hrows : Clause (.text " using (values " :: rowPieces m.rows ++ [.text ") as excluded "]) :=
    .lead (.bracketed (by decide) (by decide) (rowPieces_woven m.rows)) (by decide)
  have hsource : Clause (columnList m.source) := .lead (columnList_woven m.source) (by decide)
  have hkeys : Clause (.text " on (" :: Piece.separated " and " (m.keys.map keyPieces) ++
      [.text ")"]) := by
    refine .lead (.bracketed (by decide) (by decide) (.separated (by decide) fun ps hps => ?_))
      (by decide)
    obtain ⟨n, _, rfl⟩ := List.mem_map.mp hps
    exact keyPieces_woven n
  have hitems : Clause (if m.items.isEmpty then []
      else .text " when matched then update set " :: setPieces .qualified m.items) := by
    split
    · exact .nil
    · exact .lead (.lead (by decide) (by decide) (setPieces_woven _ _)) (by decide)
  have hvalues : Woven (Piece.enclosed (Piece.separated ", "
      (m.columns.map (incomingPieces .qualified)))) := by
    refine .enclosed (.commaSeparated fun ps hps => ?_)
    obtain ⟨c, _, rfl⟩ := List.mem_map.mp hps
    exact incomingPieces_woven _ c
  have hinsert : Clause (.text " when not matched then insert " :: (columnList m.columns ++
      .text " values " :: Piece.enclosed (Piece.separated ", "
        (m.columns.map (incomingPieces .qualified))))) :=
    .lead (.lead (by decide) (by decide) ((columnList_woven m.columns).joined hvalues (by decide)))
      (by decide)
  have hend : Clause (if m.terminated then [.text ";"] else []) := by
    split
    · exact .lead (.text (by decide)) (by decide)
    · exact .nil
  have htail := hrows.append (hsource.append (hkeys.append (hitems.append (hinsert.append hend))))
  have h := Woven.lead (t := "merge into ") (by decide) (by decide)
    ((tablePieces_woven m.table).append htail.1 htail.2)
  simpa [Merge.pieces] using h

theorem Command.woven (c : Command) : Woven c.pieces := by
  cases c with
  | select s => exact s.woven
  | update u => exact u.woven
  | delete d => exact d.woven
  | write w =>
    have hbody : Woven w.body.pieces := by
      cases w.body with
      | insert i => exact i.woven
      | merge m => exact m.woven
    obtain ⟨body, returning⟩ := w
    cases returning with
    | none => simpa [Command.pieces, Write.pieces] using hbody
    | some columns => exact hbody.joined (.commaSeparated (name_woven columns)) (by decide)

end Sql

namespace Piece

theorem Woven.clean {ps : List Piece} (h : Woven ps) : ∀ t, .text t ∈ ps → Clean t := by
  induction h with
  | nil => simp
  | name i => simp
  | parameter b => simp
  | text ht =>
    intro t hm
    simp only [List.mem_cons, List.not_mem_nil, or_false, Piece.text.injEq] at hm
    exact hm ▸ ht.1
  | lead ht _ _ ih =>
    intro t hm
    rcases List.mem_cons.mp hm with he | hm
    · exact Piece.text.inj he ▸ ht.1
    · exact ih t hm
  | append _ _ _ ihp ihq =>
    intro t hm
    exact (List.mem_append.mp hm).elim (ihp t) (ihq t)
  | bracketed ht hu _ ih =>
    intro t hm
    simp only [List.cons_append, List.mem_cons, List.mem_append, List.not_mem_nil, or_false,
      Piece.text.injEq] at hm
    rcases hm with rfl | hm | rfl
    · exact ht.1
    · exact ih t hm
    · exact hu.1

theorem Woven.apart {ps : List Piece} (h : Woven ps) : ps.IsChain Apart := by
  induction h with
  | nil => simp
  | name i => simp
  | parameter b => simp
  | text ht => simp
  | lead _ hfree _ ih => exact List.isChain_cons.mpr ⟨fun _ _ => .inl hfree, ih⟩
  | append _ _ hfree ihp ihq =>
    exact List.isChain_append.mpr ⟨ihp, ihq, fun _ _ q hq => .inr (hfree q hq)⟩
  | bracketed ht hu _ ih =>
    refine List.isChain_append.mpr ⟨List.isChain_cons.mpr ⟨fun _ _ => .inl ht.2.1, ih⟩, by simp, ?_⟩
    intro _ _ q hq
    simp only [List.head?_cons, Option.mem_def, Option.some.injEq] at hq
    exact .inr (hq ▸ hu.2.1)

theorem Woven.sound {ps : List Piece} (h : Woven ps) (hnames : ∀ i, .name i ∈ ps → i.Legal) :
    ∀ p ∈ ps, p.Sound := by
  intro p hp
  cases p with
  | text t => exact h.clean t hp
  | name i => exact hnames i hp
  | parameter b => trivial

/-- What a driver reads is what the pieces say one by one. -/
theorem Woven.lex_sqlAfter {ps : List Piece} (h : Woven ps) {d : Dialect} (hd : d.Regular)
    (hnames : ∀ i, .name i ∈ ps → i.Legal) (count : Nat) :
    Lexer.lex d.quotes (sqlAfter d count ps).toList = lexemesAfter d count ps :=
  Piece.lex_sqlAfter hd (h.sound hnames) h.apart count

end Piece

end SqlCompose

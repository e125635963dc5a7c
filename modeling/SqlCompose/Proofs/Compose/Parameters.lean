import SqlCompose.Proofs.Compose.Naming
import SqlCompose.Proofs.Insert.Rows
import SqlCompose.Proofs.Sql.Placeholders

/-! Placeholders and values of built statements. A driver that reads the SQL finds one placeholder
for each value, in the order of the values, and nothing else that looks like one. -/

namespace SqlCompose

/-- The placeholders that a lexer finds in a text. -/
def placeholders (q : QuotePair) (sql : String) : List String :=
  ((Lexer.lex q sql.toList).filter Lexeme.isPlaceholder).map fun l => String.ofList (l.text q)

/-- The placeholder of the value with this number, counted from 0. -/
def DialectKind.mark (k : DialectKind) (index : Nat) : String :=
  if k = .postgres then "$" ++ toString (index + 1) else "?"

/-- The text with literals in place of the placeholders that a lexer finds. -/
def substituted (q : QuotePair) (literals : List String) (sql : String) : String :=
  String.ofList (Lexeme.substitute q literals (Lexer.lex q sql.toList))

/-- The placeholders of the text are those of the values, and the values in their place give the
text that is shown without placeholders. -/
structure Statement.PlaceholdersAgree (k : DialectKind) (s : Statement) : Prop where
  marks : placeholders k.dialect.quotes s.sql = (List.range s.values.length).map k.mark
  inlined : substituted k.dialect.quotes (s.values.map fun b => k.dialect.literal b.value) s.sql =
    s.inlined

/-- The placeholders of a batch are those of each of its rows. -/
def Output.PlaceholdersAgree (k : DialectKind) : Output → Prop
  | .statement s => s.PlaceholdersAgree k
  | .batch b => ∀ row ∈ b.rows,
      placeholders k.dialect.quotes b.sql = (List.range row.length).map k.mark

theorem DialectKind.text_lexeme (k : DialectKind) (index : Nat) :
    String.ofList ((k.dialect.placeholder.lexeme (index + 1)).text k.dialect.quotes) =
      k.mark index := by
  have hnumbered : ∀ q, String.ofList (((Placeholder.numbered "$").lexeme (index + 1)).text q) =
      DialectKind.postgres.mark index := by
    intro q
    show String.ofList ('$' :: Nat.toDigits 10 (index + 1)) = "$" ++ toString (index + 1)
    rw [← Placeholder.toList_numbered, String.ofList_toList]
    rfl
  cases k with
  | postgres => exact hnumbered _
  | _ => rfl

/-- Pieces that are put together well and write legal names make a statement whose placeholders
agree with its values. -/
theorem Piece.Woven.placeholdersAgree {ps : List Piece} (h : Woven ps)
    (hnames : Named Identifier.Legal ps) (k : DialectKind) :
    Statement.PlaceholdersAgree k ⟨k.dialect, ps⟩ := by
  have hlex := h.lex_sqlAfter k.regular hnames 0
  have hsound := h.sound hnames
  constructor
  · show ((Lexer.lex k.dialect.quotes (sqlAfter k.dialect 0 ps).toList).filter
        Lexeme.isPlaceholder).map _ = (List.range (values ps).length).map k.mark
    rw [hlex, filter_lexemesAfter k.regular hsound, List.map_map, Nat.zero_add,
      List.range'_eq_map_range, List.map_map]
    refine List.map_congr_left fun index _ => ?_
    rw [Function.comp_apply, Function.comp_apply, Nat.add_comm]
    exact k.text_lexeme index
  · show String.ofList (Lexeme.substitute k.dialect.quotes
        ((values ps).map fun b => k.dialect.literal b.value)
        (Lexer.lex k.dialect.quotes (sqlAfter k.dialect 0 ps).toList)) =
      String.join (ps.map (Piece.inlined k.dialect))
    rw [hlex, substitute_lexemesAfter k.regular hsound, ← String.ofList_toList (s := String.join _),
      String.toList_join, List.flatMap_map]

theorem Query.Composed.placeholdersAgree {k : DialectKind} {defaults : QueryOptions} {q : Query}
    {c : Sql.Command} (hq : q.Legal) (h : q.Composed k.dialect defaults c) :
    (c.statement k.dialect).PlaceholdersAgree k :=
  c.woven.placeholdersAgree (h.named hq) k

theorem Statement.empty_placeholdersAgree (k : DialectKind) :
    (Statement.empty k.dialect).PlaceholdersAgree k :=
  Piece.Woven.nil.placeholdersAgree (by simp) k

theorem InsertQuery.buildBatch_placeholdersAgree {k : DialectKind} {defaults : QueryOptions}
    {draft : InsertDraft} (hfault : draft.fault = none) {rows : List (List Value)}
    (hq : (Query.insert draft (.batch rows)).Legal) {b : Built BatchStatement}
    (h : draft.query.buildBatch k.dialect defaults rows = .ok b) :
    (Output.batch b.output).PlaceholdersAgree k := by
  obtain ⟨statements, hstatements, sql, hsql, hb, hrows⟩ := buildBatch_eq_ok h
  obtain ⟨_, first, hfirst, rfl⟩ := batchSql_eq_ok hstatements hsql
  intro values hvalues
  rw [hrows] at hvalues
  obtain ⟨s, hs, rfl⟩ := List.mem_map.mp hvalues
  obtain ⟨row, _, hrow⟩ := exists_mem_of_forall₂ hstatements hs
  obtain ⟨cells, w, hw, hstatement⟩ := compileRow_eq_ok hrow
  have hcomposed : (Query.insert draft (.batch rows)).Composed k.dialect defaults (.write w) :=
    .insert hfault hw
  rw [hb, InsertQuery.compileRow_sql_eq hfirst hrow, hstatement]
  exact (hcomposed.placeholdersAgree hq).marks

/-- Whatever is built for a known dialect from tables with legal names: the placeholders that a
lexer finds in the SQL are one for each value, in the order of the values, and literals in their
place give the text without placeholders. -/
theorem Query.build_placeholdersAgree {k : DialectKind} {defaults : QueryOptions} {q : Query}
    {b : Built Output} (hq : q.Legal) (h : q.build k.dialect defaults = .ok b) :
    b.output.PlaceholdersAgree k := by
  rcases build_shows h with hempty | ⟨c, hc, hshows⟩
  · rw [hempty]
    exact Statement.empty_placeholdersAgree k
  · cases ho : b.output with
    | statement s =>
      rw [ho] at hshows
      obtain rfl : s = c.statement k.dialect := hshows
      exact hc.placeholdersAgree hq
    | batch batch =>
      obtain ⟨draft, rows, rfl, hfault, b, hb, rfl⟩ := build_eq_batch h ho
      exact InsertQuery.buildBatch_placeholdersAgree hfault hq hb

namespace Market

/-- Stalls, under names that look like placeholders. -/
def stall (n : Nat) : Table :=
  ⟨n, .plain "stall$1", some (.quoted "\x22?"),
    [⟨.plain "id$2", .int, false, true, false⟩, ⟨.quoted "price ?", .int, true, false, false⟩,
      ⟨.plain "name", .text, false, false, false⟩, ⟨.plain "shut$", .bool, false, false, false⟩]⟩

theorem stall_legal (n : Nat) : (stall n).Legal where
  name := .inl ⟨"stall$1", rfl⟩
  schema s hs := .inr ⟨"\x22?", congrArg Except.ok (Option.some.inj hs)⟩
  columns c hc := by
    simp only [stall, List.mem_cons, List.not_mem_nil, or_false] at hc
    rcases hc with rfl | rfl | rfl | rfl
    · exact .inl ⟨"id$2", rfl⟩
    · exact .inr ⟨"price ?", rfl⟩
    · exact .inl ⟨"name", rfl⟩
    · exact .inl ⟨"shut$", rfl⟩

def number (n : Nat) : Column := ⟨stall n, (0 : Fin 4)⟩

def price (n : Nat) : Column := ⟨stall n, (1 : Fin 4)⟩

def name (n : Nat) : Column := ⟨stall n, (2 : Fin 4)⟩

/-- Stalls whose names match a pattern. -/
def named (pattern : String) : SubQuery :=
  ⟨1, ((Select.of (stall 1)).project [.column (number 1)]).filterBy
    [.like false (.column (name 1)) (.parameter (.text pattern)) .leading]⟩

/-- Stalls with a price and a name in question. -/
def offers : Query :=
  .select ((Select.of (stall 0)).filterBy
    [.any [.compare .less (.column (price 0)) (.parameter ⟨.int 5, .int⟩),
      .inSubQuery false (.column (number 0)) (named "50%?")],
      .inList true (.column (price 0)) [.parameter ⟨.int 7, .int⟩, .parameter ⟨.int 8, .int⟩]])

theorem offers_legal : offers.Legal := by
  refine ⟨fun t ht => List.mem_singleton.mp ht ▸ stall_legal 0, fun r hr => ?_⟩
  rw [show r = named "50%?" from List.mem_singleton.mp hr]
  exact .intro (fun t ht => List.mem_singleton.mp ht ▸ stall_legal 1)
    fun q hq => absurd hq List.not_mem_nil

end Market

/-- Names with dollar signs and question marks, and values of a list, of a sub-query and of its
escape clause. -/
theorem Query.build_placeholdersAgree_offers :
    Market.offers.Legal ∧ ∃ b, Market.offers.build DialectKind.postgres.dialect default = .ok b ∧
      b.output.PlaceholdersAgree .postgres := by
  obtain ⟨b, hb⟩ : ∃ b, Market.offers.build DialectKind.postgres.dialect default = .ok b := ⟨_, rfl⟩
  exact ⟨Market.offers_legal, b, hb, build_placeholdersAgree Market.offers_legal hb⟩

end SqlCompose

import SqlCompose.Dialect.Catalog
import SqlCompose.Proofs.Compose.Containing
import SqlCompose.Proofs.Compose.Parameters
import SqlCompose.Proofs.Insert.Rows
import SqlCompose.Proofs.Like.Escaping
import SqlCompose.Query.Filter

/-! LIKE patterns in statements. The escape sequence that a pattern is escaped with is the one that is
bound beside it, and it is that of the whole query. -/

namespace SqlCompose

/-- The dialect of the kind, or one that is derived from it for the same database. -/
inductive Dialect.OfKind (k : DialectKind) : Dialect → Prop where
  | own : OfKind k k.dialect
  | derive {base : Dialect} (h : OfKind k base) (name : String) (o : DialectOverrides) :
      OfKind k (base.derive name o)

/-- What is escaped is what the database reads as more than itself, a bracket for SQL Server only. -/
theorem Dialect.OfKind.wildcards_eq {k : DialectKind} {d : Dialect} (h : d.OfKind k) :
    d.wildcards = k.wildcards := by
  induction h with
  | own => cases k <;> rfl
  | derive _ _ _ ih => exact ih

def Setting.likePieces (σ : Setting) (negated : Bool) (parts : List PatternPart) : List Piece :=
  [Sql.choose negated " like " " not like ", .parameter (.text (σ.patternText parts)),
    .text " escape ", .parameter (.text σ.escape)]

/-- The pieces are one stretch of the statement, and of every statement that a batch stands for. -/
def Output.Includes (d : Dialect) (ps : List Piece) : Output → Prop
  | .statement s => s.dialect = d ∧ ps <:+: s.pieces
  | .batch b =>
    (∃ s : Statement, s.dialect = d ∧ s.sql = b.sql ∧ ps <:+: s.pieces) ∧
      ∀ row ∈ b.rows, ∃ s : Statement,
        s.dialect = d ∧ s.sql = b.sql ∧ s.values = row ∧ ps <:+: s.pieces

namespace Criterion

variable {σ : Setting} {p : Position} {negated : Bool} {parts : List PatternPart} {e : Sql.Condition}

/-- Where a fragment is escaped, the pattern and the escape sequence are bound. -/
theorem like_infix {o pattern : Operand} {option : LikeOption} (hσ : σ.escape.isEmpty = false)
    (hpattern : pattern.patternParts? option = some parts)
    (hparts : ∃ part ∈ parts, part.option ≠ .raw)
    (h : (like negated o pattern option).compose σ p = .ok e) :
    σ.likePieces negated parts <:+: e.pieces := by
  have hclause : σ.escapeClause parts = some σ.escape := by
    obtain ⟨part, hpart, hraw⟩ := hparts
    have hany : parts.any (·.option != .raw) = true :=
      List.any_eq_true.mpr ⟨part, hpart, by simpa using hraw⟩
    simp [Setting.escapeClause, hσ, hany]
  obtain ⟨a, ha, ⟨parts', hparts', rfl⟩ | ⟨hnone, _⟩⟩ := compose_like_eq_ok_iff.mp h
  · obtain rfl : parts = parts' := Option.some.inj (hpattern.symm.trans hparts')
    rw [hclause]
    exact ⟨a.pieces, [], by simp [Setting.likePieces, Sql.Condition.pieces, Sql.Expr.pieces]⟩
  · rw [hpattern] at hnone
    cases hnone

/-- A single fragment stays beside its option, and several become a pattern. -/
theorem exists_likePattern_eq {column : Column} (hparts : ∃ part ∈ parts, part.option ≠ .raw) :
    ∃ pattern option, likePattern negated column parts = like negated (.column column) pattern option ∧
      pattern.patternParts? option = some parts := by
  match parts, hparts with
  | [part], hparts =>
    have hraw : part.option ≠ .raw := by simpa using hparts
    exact ⟨_, _, rfl, by simp [Operand.patternParts?, Bound.text, hraw]⟩
  | part :: part' :: parts, _ => exact ⟨_, _, rfl, rfl⟩

theorem likePieces_infix {column : Column} (hσ : σ.escape.isEmpty = false) (hne : parts ≠ [])
    (hparts : ∀ part ∈ parts, part.option ≠ .raw)
    (h : (likePattern negated column parts).compose σ p = .ok e) :
    σ.likePieces negated parts <:+: e.pieces := by
  have hescaped : ∃ part ∈ parts, part.option ≠ .raw :=
    (List.exists_mem_of_ne_nil parts hne).imp fun part hpart => ⟨hpart, hparts part hpart⟩
  obtain ⟨pattern, option, hlike, hpattern⟩ := exists_likePattern_eq hescaped
  rw [hlike] at h
  exact like_infix hσ hpattern hescaped h

end Criterion

section

variable {d : Dialect} {defaults : QueryOptions} {ps : List Piece}

theorem Sql.Command.statement_includes {c : Sql.Command} (h : ps <:+: c.pieces) :
    (Output.statement (c.statement d)).Includes d ps := ⟨rfl, h⟩

theorem InsertQuery.buildBatch_includes {q : InsertQuery} {rows : List (List Value)}
    {b : Built BatchStatement}
    (hps : ∀ cells w, q.compose d (q.options.getD defaults) cells = .ok w → ps <:+: w.pieces)
    (h : q.buildBatch d defaults rows = .ok b) : (Output.batch b.output).Includes d ps := by
  obtain ⟨statements, hrows, sql, hsql, hb, hvalues⟩ := buildBatch_eq_ok h
  obtain ⟨first, s, hs, rfl⟩ := batchSql_eq_ok hrows hsql
  have hincludes : ∀ {row s}, q.compileRow d (q.options.getD defaults) row = .ok s →
      s.dialect = d ∧ ps <:+: s.pieces := by
    intro row s hs
    obtain ⟨cells, w, hw, rfl⟩ := compileRow_eq_ok hs
    exact ⟨rfl, hps cells w hw⟩
  constructor
  · obtain ⟨hdialect, hinfix⟩ := hincludes hs
    exact ⟨s, hdialect, hb.symm, hinfix⟩
  · intro values hrow
    rw [hvalues] at hrow
    obtain ⟨s', hs', rfl⟩ := List.mem_map.mp hrow
    obtain ⟨row, _, hcompile⟩ := exists_mem_of_forall₂ hrows hs'
    obtain ⟨hdialect, hinfix⟩ := hincludes hcompile
    exact ⟨s', hdialect, (compileRow_sql_eq hcompile hs).trans hb.symm, rfl, hinfix⟩

/-- What a criterion is composed to in any position is in the output of a query that writes it. -/
theorem Query.build_includes {q : Query} {x : Criterion} {b : Built Output} (hx : q.Writes x)
    (hps : ∀ p e, x.compose (q.setting d defaults) p = .ok e → ps <:+: e.pieces)
    (h : q.build d defaults = .ok b) : b.output.Includes d ps := by
  have hcommand : ∀ c, q.Composed d defaults c → ps <:+: c.pieces := by
    intro c hc
    obtain ⟨p, e, he, hinfix⟩ := hc.foundIn hx
    exact (hps p e he).trans hinfix
  rcases build_eq_ok h with ⟨⟨draft, rfl⟩, _⟩ | ⟨c, hc, hshows⟩
  · cases hx with
    | upsert _ _ hrows => exact absurd rfl hrows
  · cases ho : b.output with
    | statement s =>
      rw [ho] at hshows
      obtain rfl : s = c.statement d := hshows
      exact Sql.Command.statement_includes (hcommand c hc)
    | batch batch =>
      obtain ⟨draft, rows, rfl, hfault, b, hb, rfl⟩ := build_eq_batch h ho
      exact InsertQuery.buildBatch_includes
        (fun cells w hw => hcommand (.write w) (.insert hfault hw)) hb

/-- Escaped fragments match themselves. Wherever a query writes a LIKE criterion of such fragments, the
statement binds the pattern and then the sequence of the query, and under that escape character the
pattern matches what the fragments are to match, one after the other. -/
theorem Query.build_like {k : DialectKind} {q : Query} {b : Built Output} {c : Char} {negated : Bool}
    {column : Column} {parts : List PatternPart} (hd : d.OfKind k)
    (hc : (q.setting d defaults).escape = String.singleton c) (hw : c ∉ k.wildcards)
    (hne : parts ≠ []) (hparts : ∀ part ∈ parts, part.option ≠ .raw)
    (hx : q.Writes (.likePattern negated column parts)) (h : q.build d defaults = .ok b) :
    b.output.Includes d
        [Sql.choose negated " like " " not like ",
          .parameter (.text ((q.setting d defaults).patternText parts)), .text " escape ",
          .parameter (.text (String.singleton c))] ∧
      ∀ text, Like.holds c k.hasClasses ((q.setting d defaults).patternText parts) text = true ↔
        text.toList ∈ (parts.map PatternPart.language).prod := by
  have hescape : (q.setting d defaults).escape.isEmpty = false := by
    rw [hc]
    simp
  have hsound : Like.Sound c k.hasClasses (q.setting d defaults).dialect.wildcards :=
    hd.wildcards_eq.symm ▸ Like.sound_wildcards hw
  constructor
  · rw [← hc]
    exact build_includes hx (fun p e he => Criterion.likePieces_infix hescape hne hparts he) h
  · exact Setting.holds_patternText hc hsound hparts

end

namespace Market

/-- A name that begins with one text and goes on with another, both full of special characters. -/
def marked : List PatternPart := [⟨"50%!", .leading⟩, ⟨"[a]", .literal⟩]

/-- The nested select has an escape sequence of its own. -/
def unmarked : SubQuery :=
  ⟨1, { (Select.of (stall 1)).filterBy [.any [.isNull false (.column (name 1)),
      .likePattern true (name 1) marked]] with
    projection := .explicit [.column (number 1)]
    options := some { QueryOptions.default with escapeSequence := some "?" } }⟩

def discounts : Query :=
  .select { (Select.of (stall 0)).filterBy
      [.not [.inSubQuery false (.column (number 0)) unmarked]] with
    options := some { QueryOptions.default with escapeSequence := some "!" } }

theorem discounts_writes : discounts.Writes (.likePattern true (name 1) marked) := by
  have hamong : Criterion.Among (.inSubQuery false (.column (number 0)) unmarked)
      [.not [.inSubQuery false (.column (number 0)) unmarked]] :=
    ⟨_, List.mem_cons_self, .not List.mem_cons_self .self⟩
  have hinside : unmarked.select.Writes (.likePattern true (name 1) marked) :=
    .here ⟨_, List.mem_cons_self, .any (List.mem_cons_of_mem _ List.mem_cons_self) .self⟩
  exact .select (.inside (.inr ⟨_, hamong, List.mem_cons_self⟩) hinside)

end Market

/-- Where a bracket opens a class, it is escaped as well. -/
theorem Query.build_like_discounts :
    ∃ b, Market.discounts.build .sqlServer default = .ok b ∧
      b.output.Includes .sqlServer [.text " not like ", .parameter (.text "50!%!!%![a]"),
        .text " escape ", .parameter (.text "!")] ∧
      ∀ text, Like.holds '!' true "50!%!!%![a]" text = true ↔
        text.toList ∈ (Market.marked.map PatternPart.language).prod := by
  obtain ⟨b, hb⟩ : ∃ b, Market.discounts.build .sqlServer default = .ok b := ⟨_, rfl⟩
  have hd : Dialect.sqlServer.OfKind .sqlServer := .own
  have hescape : (Market.discounts.setting .sqlServer default).escape = String.singleton '!' := rfl
  have hne : Market.marked ≠ [] := List.cons_ne_nil _ _
  have hparts : ∀ part ∈ Market.marked, part.option ≠ .raw := by decide
  have hpattern : (Market.discounts.setting .sqlServer default).patternText Market.marked =
      "50!%!!%![a]" := by decide +kernel
  have hlike := Query.build_like hd hescape (by decide) hne hparts Market.discounts_writes hb
  rw [hpattern] at hlike
  exact ⟨b, hb, hlike⟩

end SqlCompose

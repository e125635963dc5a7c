import SqlCompose.Proofs.Conditions.Parser
import SqlCompose.Proofs.Conditions.Tokens

/-! The readings of printed predicates. Each kind is printed as the grammar has it, with what it
compares in its places. -/

namespace SqlCompose

open Piece (tokens)

namespace Piece

theorem tokens_enclosed (ps : List Piece) : tokens (enclosed ps) = parenthesize (tokens ps) := by
  have hopen : token (.text "(") = [.mark '('] := by decide
  have hclose : token (.text ")") = [.mark ')'] := by decide
  simp [enclosed, parenthesize, hopen, hclose]

theorem tokens_separated {s : String} {separator : Lexeme} (h : token (.text s) = [separator])
    (parts : List (List Piece)) :
    tokens (separated s parts) = joinTokens separator (parts.map tokens) := by
  induction parts with
  | nil => rfl
  | cons ps parts ih =>
    cases parts with
    | nil => simp
    | cons qs parts =>
      rw [separated_cons_cons, tokens_append, tokens_cons, ih, h]
      simp

theorem tokens_commaSeparated (parts : List (List Piece)) :
    tokens (separated ", " parts) = joinTokens (.mark ',') (parts.map tokens) :=
  tokens_separated (by decide) parts

end Piece

namespace Sql

theorem token_choose {a b : String} {k : Keyword} (ha : (Piece.text a).token = [k.lexeme])
    (hb : (Piece.text b).token = [Keyword.not.lexeme, k.lexeme]) (negated : Bool) :
    (choose negated a b).token = Predicate.notTokens negated ++ [k.lexeme] := by
  cases negated
  · exact ha
  · exact hb

theorem ColumnName.tokens_pieces (n : ColumnName) :
    tokens n.pieces = [n.qualifier.lexeme, .mark '.', n.column.ident.lexeme] := by
  have hpoint : (Piece.text ".").token = [.mark '.'] := by decide
  simp [pieces, hpoint]

/-- A select list does not begin with a point. -/
theorem SelectItem.tokens_pieces (i : SelectItem) :
    ∃ l ls, tokens i.pieces = l :: ls ∧ l ≠ .mark '.' := by
  cases i with
  | column name => exact ⟨_, _, name.tokens_pieces, Identifier.lexeme_ne_mark _ _⟩
  | countAll =>
    have hcount : tokens (countAll.pieces) = [.word "count".toList, .mark '(', .mark '*', .mark ')'] := by
      decide
    exact ⟨_, _, hcount, by simp⟩
  | aggregate function name =>
    obtain ⟨w, hw⟩ : ∃ w, (Piece.text function.text).token = [.word w, .mark '('] := by
      cases function
      · exact ⟨"count".toList, by decide⟩
      · exact ⟨"max".toList, by decide⟩
      · exact ⟨"min".toList, by decide⟩
    refine ⟨.word w, .mark '(' :: tokens (name.pieces ++ [.text ")"]), ?_, by simp⟩
    rw [pieces, List.cons_append, Piece.tokens_cons, hw]
    rfl
  | subQuery query =>
    rw [pieces, Piece.tokens_enclosed]
    exact ⟨_, _, rfl, by simp⟩

theorem Select.isQuery (s : Select) : IsQuery (tokens s.pieces) := by
  refine ⟨?_, s.woven.depth?_tokens 0⟩
  have hselect : (Piece.text "select ").token = [Keyword.select.lexeme] := by decide
  have hdistinct : (Piece.text "distinct ").token = [.word "distinct".toList] := by decide
  have hfrom : (Piece.text " from ").token = [.word "from".toList] := by decide
  have hnext : ∀ l ls, l ≠ .mark '.' → startsQuery (Keyword.select.lexeme :: l :: ls) = true := by
    intro l ls hl
    simp [startsQuery, hl]
  obtain ⟨distinct, items, source, joins, filter, orderBy, paging, lock⟩ := s
  simp only [pieces, List.cons_append, List.append_assoc, Piece.tokens_cons, Piece.tokens_append,
    hselect, List.nil_append]
  cases distinct with
  | true =>
    simp only [if_true, Piece.tokens_cons, hdistinct, List.cons_append]
    exact hnext _ _ (by simp)
  | false =>
    rw [Piece.tokens_commaSeparated, SelectItem.eachPieces_eq_map]
    cases items with
    | nil =>
      simp only [hfrom, List.cons_append]
      exact hnext _ _ (by simp)
    | cons i items =>
      obtain ⟨l, ls, hi, hl⟩ := i.tokens_pieces
      obtain ⟨more, hmore⟩ := joinTokens_cons (.mark ',') (tokens i.pieces)
        ((items.map SelectItem.pieces).map tokens)
      rw [List.map_cons, List.map_cons, hmore, hi]
      exact hnext l _ hl

/-- What an expression is among the tokens. -/
def Expr.term : Expr → Term
  | .column name => .column name.qualifier.lexeme name.column.ident.lexeme
  | .parameter _ => .parameter
  | .subQuery query => .subQuery (tokens query.pieces)

theorem Expr.term_legal (e : Expr) : e.term.Legal := by
  cases e with
  | column name => exact ⟨Identifier.isName_lexeme _, Identifier.isName_lexeme _⟩
  | parameter bound => trivial
  | subQuery query => exact query.isQuery

theorem Expr.tokens_pieces (e : Expr) : tokens e.pieces = e.term.tokens := by
  cases e with
  | column name => exact name.tokens_pieces
  | parameter bound => rfl
  | subQuery query => exact Piece.tokens_enclosed query.pieces

theorem Expr.tokens_eachPieces (es : List Expr) :
    (eachPieces es).map tokens = (es.map term).map Term.tokens := by
  rw [eachPieces_eq_map, List.map_map, List.map_map]
  exact List.map_congr_left fun e _ => e.tokens_pieces

def ExprPair.row (p : ExprPair) : Row := ⟨p.first.term, p.second.term⟩

theorem ExprPair.row_legal (p : ExprPair) : p.row.Legal := ⟨p.first.term_legal, p.second.term_legal⟩

theorem ExprPair.tokens_pieces (p : ExprPair) : tokens p.pieces = p.row.tokens := by
  obtain ⟨first, second⟩ := p
  rw [pieces, Piece.tokens_enclosed, Piece.tokens_commaSeparated]
  simp [Expr.tokens_pieces, row, Row.tokens, parenthesize]

theorem ExprPair.tokens_eachPieces (ps : List ExprPair) :
    (eachPieces ps).map tokens = (ps.map row).map Row.tokens := by
  rw [eachPieces_eq_map, List.map_map, List.map_map]
  exact List.map_congr_left fun p _ => p.tokens_pieces

namespace Condition

theorem derives_constant (truth : Bool) :
    Derives .primary (tokens (constant truth).pieces)
      (.constant truth) := by
  have htokens : tokens (constant truth).pieces =
      (Predicate.compare .equal (.number ['1']) (.number [if truth then '1' else '0'])).tokens := by
    cases truth <;> decide
  rw [htokens]
  refine .predicate ⟨⟨by simp, by simp⟩, by simp, ?_⟩
  cases truth <;> simp

theorem derives_compare (op : Comparison) (l r : Expr) :
    Derives .primary (tokens (compare op l r).pieces) (.predicate (.compare op l.term r.term)) := by
  have hop : (Piece.text (comparisonText op)).token = op.tokens := by
    cases op <;> decide
  have htokens : tokens (compare op l r).pieces = (Predicate.compare op l.term r.term).tokens := by
    simp [pieces, Predicate.tokens, Expr.tokens_pieces, hop]
  rw [htokens]
  exact .predicate ⟨l.term_legal, r.term_legal⟩

theorem derives_isNull (negated : Bool) (e : Expr) :
    Derives .primary (tokens (isNull negated e).pieces) (.predicate (.isNull negated e.term)) := by
  have hnull : (choose negated " is null" " is not null").token =
      Keyword.is.lexeme :: Predicate.notTokens negated ++ [Keyword.null.lexeme] := by
    cases negated <;> decide
  have htokens : tokens (isNull negated e).pieces = (Predicate.isNull negated e.term).tokens := by
    simp [pieces, Predicate.tokens, Expr.tokens_pieces, hnull]
  rw [htokens]
  exact .predicate e.term_legal

theorem derives_like (negated : Bool) (e pattern : Expr) (escape : Option String) :
    Derives .primary (tokens (like negated e pattern escape).pieces)
      (.predicate (.like negated e.term pattern.term (escape.map fun _ => .parameter))) := by
  have hlike := token_choose (a := " like ") (b := " not like ") (k := .like) (by decide)
    (by decide) negated
  have hescape : (Piece.text " escape ").token = [Keyword.escape.lexeme] := by decide
  have htokens : tokens (like negated e pattern escape).pieces = (Predicate.like negated e.term
      pattern.term (escape.map fun _ => .parameter)).tokens := by
    cases escape <;>
      simp [pieces, Predicate.tokens, Expr.tokens_pieces, hlike, hescape, Term.tokens]
  rw [htokens]
  refine .predicate ⟨e.term_legal, pattern.term_legal, fun t ht => ?_⟩
  obtain ⟨_, _, rfl⟩ := Option.map_eq_some_iff.mp ht
  trivial

theorem derives_between (negated : Bool) (e low high : Expr) :
    Derives .primary (tokens (between negated e low high).pieces)
      (.predicate (.between negated e.term low.term high.term)) := by
  have hbetween := token_choose (a := " between ") (b := " not between ") (k := .between)
    (by decide) (by decide) negated
  have hand : (Piece.text " and ").token = [Keyword.and.lexeme] := by decide
  have htokens : tokens (between negated e low high).pieces =
      (Predicate.between negated e.term low.term high.term).tokens := by
    simp [pieces, Predicate.tokens, Expr.tokens_pieces, hbetween, hand]
  rw [htokens]
  exact .predicate ⟨e.term_legal, low.term_legal, high.term_legal⟩

theorem token_inside (negated : Bool) : (choose negated " in " " not in ").token =
    Predicate.notTokens negated ++ [Keyword.inside.lexeme] :=
  token_choose (by decide) (by decide) negated

theorem derives_inList (negated : Bool) (e : Expr) {es : List Expr} (hne : es ≠ []) :
    Derives .primary (tokens (inList negated e es).pieces)
      (.predicate (.inList negated e.term (es.map Expr.term))) := by
  have htokens : tokens (inList negated e es).pieces =
      (Predicate.inList negated e.term (es.map Expr.term)).tokens := by
    simp [pieces, Predicate.tokens, Expr.tokens_pieces, token_inside, Piece.tokens_enclosed,
      Piece.tokens_commaSeparated, Expr.tokens_eachPieces]
  rw [htokens]
  refine .predicate ⟨e.term_legal, by simpa using hne, fun t ht => ?_⟩
  obtain ⟨x, _, rfl⟩ := List.mem_map.mp ht
  exact x.term_legal

theorem derives_inSubQuery (negated : Bool) (e : Expr) (s : Select) :
    Derives .primary (tokens (inSubQuery negated e s).pieces)
      (.predicate (.inQuery negated e.term (tokens s.pieces))) := by
  have htokens : tokens (inSubQuery negated e s).pieces =
      (Predicate.inQuery negated e.term (tokens s.pieces)).tokens := by
    simp [pieces, Predicate.tokens, Expr.tokens_pieces, token_inside, Piece.tokens_enclosed]
  rw [htokens]
  exact .predicate ⟨e.term_legal, s.isQuery⟩

theorem derives_rowInList (negated : Bool) (p : ExprPair) {ps : List ExprPair} (hne : ps ≠ []) :
    Derives .primary (tokens (rowInList negated p ps).pieces)
      (.predicate (.rowInList negated p.row (ps.map ExprPair.row))) := by
  have htokens : tokens (rowInList negated p ps).pieces =
      (Predicate.rowInList negated p.row (ps.map ExprPair.row)).tokens := by
    simp [pieces, Predicate.tokens, ExprPair.tokens_pieces, token_inside, Piece.tokens_enclosed,
      Piece.tokens_commaSeparated, ExprPair.tokens_eachPieces]
  rw [htokens]
  refine .predicate ⟨p.row_legal, by simpa using hne, fun r hr => ?_⟩
  obtain ⟨x, _, rfl⟩ := List.mem_map.mp hr
  exact x.row_legal

theorem derives_rowInSubQuery (negated : Bool) (p : ExprPair) (s : Select) :
    Derives .primary (tokens (rowInSubQuery negated p s).pieces)
      (.predicate (.rowInQuery negated p.row (tokens s.pieces))) := by
  have htokens : tokens (rowInSubQuery negated p s).pieces =
      (Predicate.rowInQuery negated p.row (tokens s.pieces)).tokens := by
    simp [pieces, Predicate.tokens, ExprPair.tokens_pieces, token_inside, Piece.tokens_enclosed]
  rw [htokens]
  exact .predicate ⟨p.row_legal, s.isQuery⟩

theorem derives_exists (negated : Bool) (s : Select) :
    Derives .primary (tokens («exists» negated s).pieces)
      (.predicate (.exists negated (tokens s.pieces))) := by
  have hexists := token_choose (a := "exists ") (b := "not exists ") (k := .exists) (by decide)
    (by decide) negated
  have htokens : tokens («exists» negated s).pieces =
      (Predicate.exists negated (tokens s.pieces)).tokens := by
    simp [pieces, Predicate.tokens, hexists, Piece.tokens_enclosed]
  rw [htokens]
  exact .predicate s.isQuery

end Condition

end Sql

end SqlCompose

import SqlCompose.Compose.Select
import SqlCompose.Proofs.Conditions.Predicates
import SqlCompose.Proofs.Conditions.Printed

/-! The readings of printed groups. Whatever a group holds, it is printed so that it may stand wherever
a predicate may, and a conjunction without parentheses is read as one. -/

namespace SqlCompose

open Piece (tokens)

def Sql.Connective.keyword : Sql.Connective → Keyword
  | .and => .and
  | .or => .or

namespace Derives

variable {ts : List Lexeme} {r : Reading}

theorem conjunction (h : Derives .negation ts r) : Derives .conjunction ts r := by
  have hparts : ∀ x ∈ [(ts, r)], Derives .negation x.1 x.2 := by simpa using h
  have hall := Derives.all (by simp) hparts
  rwa [List.map_singleton, joinTokens_singleton] at hall

theorem disjunction (h : Derives .conjunction ts r) : Derives .disjunction ts r := by
  have hparts : ∀ x ∈ [(ts, r)], Derives .conjunction x.1 x.2 := by simpa using h
  have hany := Derives.any (by simp) hparts
  rwa [List.map_singleton, joinTokens_singleton] at hany

theorem joined {tss : List (List Lexeme)} {rs : List Reading} (hne : tss ≠ [])
    (h : List.Forall₂ (Derives .negation) tss rs) (op : Sql.Connective) :
    Derives .disjunction (joinTokens op.keyword.lexeme tss) (.joined op rs) := by
  have hparts : ∀ x ∈ tss.zip rs, Derives .negation x.1 x.2 := fun x hx => List.forall₂_zip h hx
  have htokens : (tss.zip rs).map (·.1) = tss := List.map_fst_zip h.length_eq.le
  have hreadings : (tss.zip rs).map (·.2) = rs := List.map_snd_zip h.length_eq.ge
  have hzip : tss.zip rs ≠ [] := by
    intro he
    rw [he] at htokens
    exact hne htokens.symm
  have hjoined : Derives .disjunction (joinTokens op.keyword.lexeme ((tss.zip rs).map (·.1)))
      (.joined op ((tss.zip rs).map (·.2))) := by
    cases op with
    | and => exact disjunction (.all hzip hparts)
    | or => exact .any hzip fun x hx => conjunction (hparts x hx)
  rwa [htokens, hreadings] at hjoined

end Derives

namespace Sql.Condition

/-- The condition may stand wherever a predicate may, and it has the reading. -/
def Stands (c : Condition) (r : Reading) : Prop := Derives .negation (tokens c.pieces) r

theorem derives_chain {op : Connective} {cs : List Condition} {rs : List Reading} (hne : cs ≠ [])
    (h : List.Forall₂ Stands cs rs) :
    Derives .disjunction (tokens (chain op cs).pieces) (.joined op rs) := by
  have hseparator : (Piece.text op.text).token = [op.keyword.lexeme] := by
    cases op <;> decide
  rw [pieces, Piece.tokens_separated hseparator, eachPieces_eq_map, List.map_map]
  exact .joined (by simpa using hne) (List.forall₂_map_left_iff.mpr h) op

theorem derives_parenthesized {op : Connective} {cs : List Condition} {rs : List Reading}
    (hne : cs ≠ []) (h : List.Forall₂ Stands cs rs) :
    Derives .primary (tokens (parenthesized (chain op cs)).pieces) (.joined op rs) := by
  rw [pieces, Piece.tokens_enclosed]
  exact .parenthesized (derives_chain hne h)

/-- Between the `not` and what it negates stands a parenthesis, and never `exists`. -/
theorem stands_not {op : Connective} {cs : List Condition} {rs : List Reading}
    (hne : cs ≠ []) (h : List.Forall₂ Stands cs rs) :
    (not (parenthesized (chain op cs))).Stands (.not (.joined op rs)) := by
  have hnot : (Piece.text "not ").token = [Keyword.not.lexeme] := by decide
  have hexists : startsExists (tokens (parenthesized (chain op cs)).pieces) = false := by
    rw [pieces, Piece.tokens_enclosed]
    exact startsExists_of_ne (Keyword.lexeme_ne_mark .exists '(').symm _
  rw [Stands, pieces, Piece.tokens_cons, hnot]
  exact .not (.primary (derives_parenthesized hne h)) hexists

theorem stands_group {op : Connective} {cs : List Condition} {rs : List Reading}
    (h : List.Forall₂ Stands cs rs) : (group op cs).Stands (.group op rs) := by
  cases h with
  | nil => exact .primary (derives_constant _)
  | cons hc hcs =>
    cases hcs with
    | nil => exact hc
    | cons hd hcs =>
      exact .primary (derives_parenthesized (by simp) (.cons hc (.cons hd hcs)))

theorem stands_negation {cs : List Condition} {rs : List Reading}
    (h : List.Forall₂ Stands cs rs) : (negation cs).Stands (.negation rs) := by
  cases h with
  | nil => exact .primary (derives_constant false)
  | cons hc hcs => exact stands_not (by simp) (.cons hc hcs)

theorem stands_expandedRows {cs : List Condition} {rs : List Reading} (hne : cs ≠ [])
    (h : List.Forall₂ Stands cs rs) (negated : Bool) : (expandedRows negated cs).Stands
      (if negated then .not (.joined .or rs) else .joined .or rs) := by
  cases negated with
  | false => exact .primary (derives_parenthesized hne h)
  | true => exact stands_not hne h

theorem stands_bothEqual (a x b y : Expr) : (bothEqual a x b y).Stands (.joined .and
    [.predicate (.compare .equal a.term x.term), .predicate (.compare .equal b.term y.term)]) := by
  have hfirst : (compare .equal a x).Stands _ := .primary (derives_compare .equal a x)
  have hsecond : (compare .equal b y).Stands _ := .primary (derives_compare .equal b y)
  exact .primary (derives_parenthesized (by simp) (.cons hfirst (.cons hsecond .nil)))

/-- The top level of a where clause or of a join condition has no parentheses of its own. -/
theorem derives_conjunction {cs : List Condition} {rs : List Reading}
    (h : List.Forall₂ Stands cs rs) :
    Derives .disjunction (tokens ((conjunction? cs).getD (.constant true)).pieces)
      (.group .and rs) := by
  cases h with
  | nil => exact .disjunction (.conjunction (.primary (derives_constant true)))
  | cons hc hcs => exact derives_chain (by simp) (.cons hc hcs)

end Sql.Condition

end SqlCompose

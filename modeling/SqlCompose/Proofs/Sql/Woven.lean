import SqlCompose.Proofs.Sql.Boundaries
import SqlCompose.Proofs.Sql.Pieces

/-! How selects and conditions are put together from texts, names and values. Names and values never
touch each other, texts hold neither quotes nor placeholders, and parentheses are nested. -/

namespace SqlCompose

namespace Piece

/-- How deep the text is inside parentheses at its end, unless it closes more of them than are
open. -/
def nesting? : Nat → List Char → Option Nat
  | depth, [] => some depth
  | depth, '(' :: cs => nesting? (depth + 1) cs
  | 0, ')' :: _ => none
  | depth + 1, ')' :: cs => nesting? depth cs
  | depth, _ :: cs => nesting? depth cs

/-- A text with neither quotes nor placeholders that closes every parenthesis it opens. -/
def Plain (t : String) : Prop := Clean t ∧ nesting? 0 t.toList = some 0

/-- A text with marks at both ends, which keeps its neighbours apart. -/
def Parting (t : String) : Prop := Plain t ∧ opensMark t = true ∧ closesMark t = true

/-- A text that opens a parenthesis and ends with a mark. -/
def Opening (t : String) : Prop :=
  Clean t ∧ closesMark t = true ∧ nesting? 0 t.toList = some 1

/-- A text that begins with a mark and closes a parenthesis. -/
def Closing (t : String) : Prop :=
  Clean t ∧ opensMark t = true ∧ nesting? 1 t.toList = some 0

instance : DecidablePred Plain := fun t =>
  inferInstanceAs (Decidable (Clean t ∧ nesting? 0 t.toList = some 0))

instance : DecidablePred Parting := fun t =>
  inferInstanceAs (Decidable (Plain t ∧ opensMark t = true ∧ closesMark t = true))

instance : DecidablePred Opening := fun t =>
  inferInstanceAs (Decidable (Clean t ∧ closesMark t = true ∧ nesting? 0 t.toList = some 1))

instance : DecidablePred Closing := fun t =>
  inferInstanceAs (Decidable (Clean t ∧ opensMark t = true ∧ nesting? 1 t.toList = some 0))

/-- Pieces put together so that they stay apart and parentheses stay nested. -/
inductive Woven : List Piece → Prop where
  | nil : Woven []
  | name (i : Identifier) : Woven [.name i]
  | parameter (b : Bound) : Woven [.parameter b]
  | text {t : String} (ht : Plain t) : Woven [.text t]
  | lead {t : String} {ps : List Piece} (ht : Plain t) (hfree : closesMark t = true)
      (hps : Woven ps) : Woven (.text t :: ps)
  | append {ps qs : List Piece} (hps : Woven ps) (hqs : Woven qs)
      (hfree : ∀ q ∈ qs.head?, q.startsFree = true) : Woven (ps ++ qs)
  | bracketed {t u : String} {ps : List Piece} (ht : Opening t) (hu : Closing u)
      (hps : Woven ps) : Woven (.text t :: ps ++ [.text u])

theorem opensMark_append {a b : String} (h : opensMark a = true) :
    opensMark (a ++ b) = true := by
  simp only [opensMark, Option.any_eq_true] at h ⊢
  obtain ⟨c, hc, hmark⟩ := h
  refine ⟨c, ?_, hmark⟩
  rw [String.toList_append, List.head?_append, hc]
  rfl

theorem nesting?_append (depth : Nat) (as bs : List Char) :
    nesting? depth (as ++ bs) = (nesting? depth as).bind (nesting? · bs) := by
  induction as generalizing depth with
  | nil => rfl
  | cons a as ih =>
    by_cases hclose : a = ')'
    · cases depth <;> simp [hclose, nesting?, ih]
    · by_cases hopen : a = '('
      · simp [hopen, nesting?, ih]
      · simp [nesting?, hclose, ih]

theorem nesting?_of_not_mem {cs : List Char} (h : '(' ∉ cs) (h' : ')' ∉ cs) (depth : Nat) :
    nesting? depth cs = some depth := by
  induction cs with
  | nil => rfl
  | cons c cs ih =>
    simp only [List.mem_cons, not_or] at h h'
    simp [nesting?, Ne.symm h.1, Ne.symm h'.1, ih h.2 h'.2]

theorem Plain.append {a b : String} (ha : Plain a) (hb : Plain b) : Plain (a ++ b) := by
  refine ⟨fun c hc => ?_, ?_⟩
  · rw [String.toList_append] at hc
    rcases List.mem_append.mp hc with hc | hc
    · exact ha.1 c hc
    · exact hb.1 c hc
  · rw [String.toList_append, nesting?_append, ha.2, Option.bind_some, hb.2]

theorem isDigit_of_mem_toString {n : Nat} {c : Char} (h : c ∈ (toString n).toList) :
    c.isDigit = true := by
  rw [Nat.toString_eq_repr, Nat.toList_repr] at h
  exact Nat.isDigit_of_mem_toDigits (by decide) (by decide) h

theorem plain_nat (n : Nat) : Plain (toString n) := by
  have hdigit : ∀ c ∈ (toString n).toList, c.isDigit = true := fun _ => isDigit_of_mem_toString
  refine ⟨fun c hc hr => ?_, nesting?_of_not_mem (fun h => ?_) (fun h => ?_) 0⟩
  · have hall : reserved.all (!·.isDigit) = true := by decide
    have hdigits : c.isDigit = false := by simpa using List.all_eq_true.mp hall c hr
    exact absurd (hdigit c hc) (by simp [hdigits])
  · exact absurd (hdigit _ h) (by decide)
  · exact absurd (hdigit _ h) (by decide)

theorem plain_int (n : Int) : Plain (toString n) := by
  cases n with
  | ofNat n => exact plain_nat n
  | negSucc n => exact Plain.append (a := "-") (by decide) (plain_nat (n + 1))

namespace Woven

theorem joined {ps qs : List Piece} {t : String} (hps : Woven ps) (hqs : Woven qs)
    (ht : Parting t) : Woven (ps ++ .text t :: qs) :=
  .append hps (.lead ht.1 ht.2.2 hqs) fun q hq => by
    simp only [List.head?_cons, Option.mem_def, Option.some.injEq] at hq
    exact hq ▸ ht.2.1

theorem trail {ps : List Piece} {t : String} (hps : Woven ps) (ht : Plain t)
    (hopens : opensMark t = true) : Woven (ps ++ [.text t]) :=
  .append hps (.text ht) fun q hq => by
    simp only [List.head?_cons, Option.mem_def, Option.some.injEq] at hq
    exact hq ▸ hopens

theorem enclosed {ps : List Piece} (h : Woven ps) : Woven (Piece.enclosed ps) :=
  .bracketed (by decide) (by decide) h

theorem separated {s : String} (hs : Parting s) {parts : List (List Piece)}
    (h : ∀ ps ∈ parts, Woven ps) : Woven (Piece.separated s parts) :=
  separated_induction .nil (fun _ _ hps hqs => hps.joined hqs hs) h

theorem commaSeparated {parts : List (List Piece)} (h : ∀ ps ∈ parts, Woven ps) :
    Woven (Piece.separated ", " parts) := separated (by decide) h

end Woven

end Piece

namespace Sql

open Piece (Woven opensMark_append)

theorem ColumnName.woven (n : ColumnName) : Woven n.pieces :=
  .joined (.name n.qualifier) (.name n.column.ident) (t := ".") (by decide)

theorem tablePieces_woven (t : Table) : Woven (tablePieces t) := by
  unfold tablePieces
  cases t.definition.schema with
  | none => exact .name _
  | some schema =>
    exact .joined (.name schema) (.name _) (t := ".") (by decide)

theorem TableItem.woven (i : TableItem) : Woven i.pieces := by
  unfold TableItem.pieces
  split
  · simpa using tablePieces_woven i.table
  · exact .joined (tablePieces_woven i.table) (.name i.name) (by decide)

theorem OrderItem.woven (i : OrderItem) : Woven i.pieces := by
  have hdirection : Woven (i.name.pieces ++ [.text (if i.descending then " desc" else " asc")]) := by
    cases i.descending
    · exact .trail i.name.woven (by decide) (by decide)
    · exact .trail i.name.woven (by decide) (by decide)
  unfold OrderItem.pieces
  cases i.nulls with
  | none => simpa using hdirection
  | some nulls =>
    cases nulls
    · exact .trail hdirection (by decide) (by decide)
    · exact .trail hdirection (by decide) (by decide)

/-- The clauses behind the conditions of a select each begin with a blank. -/
def Clause (ps : List Piece) : Prop := Woven ps ∧ ∀ p ∈ ps.head?, p.startsFree = true

theorem Clause.nil : Clause [] := ⟨.nil, by simp⟩

theorem Clause.lead {t : String} {ps : List Piece} (h : Woven (.text t :: ps))
    (hopens : Piece.opensMark t = true) : Clause (.text t :: ps) :=
  ⟨h, fun p hp => by
    simp only [List.head?_cons, Option.mem_def, Option.some.injEq] at hp
    exact hp ▸ hopens⟩

theorem Clause.append {ps qs : List Piece} (hps : Clause ps) (hqs : Clause qs) :
    Clause (ps ++ qs) := by
  refine ⟨.append hps.1 hqs.1 hqs.2, fun p hp => ?_⟩
  cases ps with
  | nil => exact hqs.2 p hp
  | cons r rs => exact hps.2 p (by simpa using hp)

theorem Clause.flatten {parts : List (List Piece)} (h : ∀ ps ∈ parts, Clause ps) :
    Clause parts.flatten := by
  induction parts with
  | nil => exact .nil
  | cons ps parts ih =>
    exact (h ps List.mem_cons_self).append (ih fun r hr => h r (List.mem_cons_of_mem _ hr))

theorem orderPieces_clause (items : List OrderItem) : Clause (orderPieces items) := by
  unfold orderPieces
  split
  · exact .nil
  · refine .lead (.lead (by decide) (by decide) (.commaSeparated fun ps hps => ?_)) (by decide)
    obtain ⟨i, _, rfl⟩ := List.mem_map.mp hps
    exact i.woven

theorem Paging.clause (p : Paging) : Clause p.pieces := by
  have hnumber : ∀ {a b : String}, Piece.Plain a → Piece.opensMark a = true → Piece.Plain b →
      Clause [.text (a ++ b)] := fun ha hopens hb =>
    .lead (.text (ha.append hb)) (opensMark_append hopens)
  cases p with
  | limitOffset limit offset =>
    refine .append ?_ ?_
    · cases limit with
      | none => exact .nil
      | some n => exact hnumber (by decide) (by decide) (Piece.plain_int n)
    · cases offset with
      | none => exact .nil
      | some n => exact hnumber (by decide) (by decide) (Piece.plain_nat n.toNat)
  | offsetFetch ordered offset fetch =>
    have hrows : ∀ {a b c : String}, Piece.Plain a → Piece.opensMark a = true → Piece.Plain b →
        Piece.Plain c → Clause [.text (a ++ b ++ c)] := fun ha hopens hb hc =>
      hnumber (ha.append hb) (opensMark_append hopens) hc
    refine .append (.append ?_ (hrows (by decide) (by decide) (Piece.plain_nat offset.toNat)
      (by decide))) ?_
    · cases ordered
      · exact .lead (.text (by decide)) (by decide)
      · exact .nil
    · cases fetch with
      | none => exact .nil
      | some n => exact hrows (by decide) (by decide) (Piece.plain_nat n.toNat) (by decide)

theorem lockPieces_clause (w : LockWait) : Clause (lockPieces w) := by
  cases w with
  | wait => exact .lead (.text (by decide)) (by decide)
  | noWait =>
    exact .append (.lead (.text (t := " for update") (by decide)) (by decide))
      (.lead (.text (by decide)) (by decide))
  | skipLocked =>
    exact .append (.lead (.text (t := " for update") (by decide)) (by decide))
      (.lead (.text (by decide)) (by decide))

theorem woven_choose {ps qs : List Piece} {a b : String} {negated : Bool} (hps : Woven ps)
    (hqs : Woven qs) (ha : Piece.Parting a) (hb : Piece.Parting b) :
    Woven (ps ++ choose negated a b :: qs) := by
  cases negated
  · exact hps.joined hqs ha
  · exact hps.joined hqs hb

mutual

theorem Expr.woven : ∀ e : Expr, Woven e.pieces
  | .column name => name.woven
  | .parameter bound => .parameter bound
  | .subQuery query => query.woven.enclosed

theorem Expr.each_woven : ∀ es : List Expr, ∀ ps ∈ Expr.eachPieces es, Woven ps
  | [], _, h => absurd h List.not_mem_nil
  | e :: es, ps, h => by
    rcases List.mem_cons.mp h with rfl | h
    · exact e.woven
    · exact Expr.each_woven es ps h

theorem ExprPair.woven : ∀ p : ExprPair, Woven p.pieces
  | ⟨first, second⟩ => by
    refine .enclosed (.commaSeparated fun ps hps => ?_)
    simp only [List.mem_cons, List.not_mem_nil, or_false] at hps
    rcases hps with rfl | rfl
    · exact first.woven
    · exact second.woven

theorem ExprPair.each_woven : ∀ es : List ExprPair, ∀ ps ∈ ExprPair.eachPieces es, Woven ps
  | [], _, h => absurd h List.not_mem_nil
  | e :: es, ps, h => by
    rcases List.mem_cons.mp h with rfl | h
    · exact e.woven
    · exact ExprPair.each_woven es ps h

theorem Condition.woven : ∀ c : Condition, Woven c.pieces
  | .constant truth => by
    cases truth
    · exact .text (by decide)
    · exact .text (by decide)
  | .compare op left right => by
    cases op
    all_goals exact .joined left.woven right.woven (by decide)
  | .isNull negated operand => by
    cases negated
    · exact .trail operand.woven (by decide) (by decide)
    · exact .trail operand.woven (by decide) (by decide)
  | .like negated operand pattern escape => by
    have h : ∀ ps, Woven ps →
        Woven (operand.pieces ++ choose negated " like " " not like " :: ps) := fun ps hps =>
      woven_choose operand.woven hps (by decide) (by decide)
    cases escape with
    | none => simpa [Condition.pieces] using h _ pattern.woven
    | some sequence =>
      have hescape := pattern.woven.joined (.parameter (.text sequence)) (t := " escape ")
        (by decide)
      simpa [Condition.pieces] using h _ hescape
  | .between negated operand low high => by
    have hbounds := low.woven.joined high.woven (t := " and ") (by decide)
    have h : Woven (operand.pieces ++ choose negated " between " " not between " ::
        (low.pieces ++ .text " and " :: high.pieces)) :=
      woven_choose operand.woven hbounds (by decide) (by decide)
    simpa [Condition.pieces] using h
  | .inList negated operand values =>
    woven_choose operand.woven (.enclosed (.commaSeparated (Expr.each_woven values)))
      (by decide) (by decide)
  | .inSubQuery negated operand query =>
    woven_choose operand.woven query.woven.enclosed (by decide) (by decide)
  | .rowInList negated row values =>
    woven_choose row.woven (.enclosed (.commaSeparated (ExprPair.each_woven values)))
      (by decide) (by decide)
  | .rowInSubQuery negated row query =>
    woven_choose row.woven query.woven.enclosed (by decide) (by decide)
  | .exists negated query => by
    cases negated
    · exact .lead (by decide) (by decide) query.woven.enclosed
    · exact .lead (by decide) (by decide) query.woven.enclosed
  | .chain op parts => by
    cases op
    · exact .separated (by decide) (Condition.each_woven parts)
    · exact .separated (by decide) (Condition.each_woven parts)
  | .parenthesized inner => inner.woven.enclosed
  | .not inner => .lead (by decide) (by decide) inner.woven

theorem Condition.each_woven : ∀ cs : List Condition, ∀ ps ∈ Condition.eachPieces cs, Woven ps
  | [], _, h => absurd h List.not_mem_nil
  | c :: cs, ps, h => by
    rcases List.mem_cons.mp h with rfl | h
    · exact c.woven
    · exact Condition.each_woven cs ps h

theorem Condition.where_clause : ∀ filter : Option Condition,
    Clause (Condition.wherePieces filter)
  | none => .nil
  | some c => .lead (.lead (by decide) (by decide) c.woven) (by decide)

theorem SelectItem.woven : ∀ i : SelectItem, Woven i.pieces
  | .column name => name.woven
  | .countAll => .text (by decide)
  | .aggregate function name => by
    cases function
    all_goals exact .bracketed (by decide) (by decide) name.woven
  | .subQuery query => query.woven.enclosed

theorem SelectItem.each_woven : ∀ is : List SelectItem, ∀ ps ∈ SelectItem.eachPieces is, Woven ps
  | [], _, h => absurd h List.not_mem_nil
  | i :: is, ps, h => by
    rcases List.mem_cons.mp h with rfl | h
    · exact i.woven
    · exact SelectItem.each_woven is ps h

theorem Join.clause : ∀ j : Join, Clause j.pieces
  | ⟨kind, table, on⟩ => by
    have h := table.woven.joined on.woven (t := " on ") (by decide)
    cases kind
    · exact .lead (.lead (by decide) (by decide) h) (by decide)
    · exact .lead (.lead (by decide) (by decide) h) (by decide)

theorem Join.each_clause : ∀ js : List Join, ∀ ps ∈ Join.eachPieces js, Clause ps
  | [], _, h => absurd h List.not_mem_nil
  | j :: js, ps, h => by
    rcases List.mem_cons.mp h with rfl | h
    · exact j.clause
    · exact Join.each_clause js ps h

theorem Select.woven : ∀ s : Select, Woven s.pieces
  | { distinct, items, source, joins, filter, orderBy, paging, lock } => by
    have hitems : Woven (Piece.separated ", " (SelectItem.eachPieces items)) :=
      .commaSeparated (SelectItem.each_woven items)
    have hlist : Woven ((if distinct then [.text "distinct "] else []) ++
        Piece.separated ", " (SelectItem.eachPieces items)) := by
      cases distinct
      · exact hitems
      · exact .lead (by decide) (by decide) hitems
    have hall : ∀ locked, Clause locked → Woven (.text "select " ::
        ((if distinct then [.text "distinct "] else []) ++
          Piece.separated ", " (SelectItem.eachPieces items) ++ .text " from " ::
            (source.pieces ++ ((Join.eachPieces joins).flatten ++
              (Condition.wherePieces filter ++ (orderPieces orderBy ++
                (paging.pieces ++ locked))))))) := by
      intro locked hlock
      have htail := (Clause.flatten (Join.each_clause joins)).append
        ((Condition.where_clause filter).append ((orderPieces_clause orderBy).append
          (paging.clause.append hlock)))
      exact .lead (by decide) (by decide) (hlist.joined (.append source.woven htail.1 htail.2)
        (by decide))
    cases lock with
    | none => simpa [Select.pieces] using hall [] .nil
    | some mode => simpa [Select.pieces] using hall _ (lockPieces_clause mode)

end

end Sql

end SqlCompose

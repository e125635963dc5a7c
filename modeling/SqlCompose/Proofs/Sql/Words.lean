import SqlCompose.Proofs.Conditions.Tokens

/-! The words that the fixed text of a level says. What stands between parentheses, sub-queries among
it, belongs to other levels. Only the clauses behind the conditions of a select say `order`, `limit`
or `offset`. -/

namespace SqlCompose

namespace Lexeme

/-- The lexemes that stand outside all parentheses. -/
def outside : Nat → List Lexeme → List Lexeme
  | _, [] => []
  | depth, .mark '(' :: ls => outside (depth + 1) ls
  | depth, .mark ')' :: ls => outside (depth - 1) ls
  | 0, l :: ls => l :: outside 0 ls
  | depth + 1, _ :: ls => outside (depth + 1) ls

theorem outside_append {depth after : Nat} {ls : List Lexeme} (h : depth? depth ls = some after)
    (ms : List Lexeme) : outside depth (ls ++ ms) = outside depth ls ++ outside after ms := by
  induction ls generalizing depth with
  | nil =>
    obtain rfl : depth = after := by simpa [depth?] using h
    simp [outside]
  | cons l ls ih =>
    rcases depth?_cons_eq_some h with ⟨rfl, hls⟩ | ⟨rfl, below, rfl, hls⟩ | ⟨hopen, hclose, hls⟩
    · simpa [outside] using ih hls
    · simpa [outside] using ih hls
    · cases depth with
      | zero => simp [outside, ih hls]
      | succ depth => simp [outside, ih hls]

/-- Between parentheses nothing is outside of them. -/
theorem outside_succ {depth after : Nat} {ls : List Lexeme} (h : depth? depth ls = some after) :
    outside (depth + 1) ls = [] := by
  induction ls generalizing depth with
  | nil => rfl
  | cons l ls ih =>
    rcases depth?_cons_eq_some h with ⟨rfl, hls⟩ | ⟨rfl, below, rfl, hls⟩ | ⟨hopen, hclose, hls⟩
    · simpa [outside] using ih hls
    · simpa [outside] using ih hls
    · simpa [outside, hopen, hclose] using ih hls

end Lexeme

namespace Piece

/-- What a text says. Names say nothing, whatever they are called. -/
def keywords : Piece → List Lexeme
  | .text t => token (.text t)
  | _ => []

/-- What the texts say outside all parentheses. -/
def words (ps : List Piece) : List String :=
  (Lexeme.outside 0 (ps.flatMap keywords)).map fun l => String.ofList (l.text Dialect.doubleQuotes)

theorem words_text (t : String) : words [.text t] =
    (Lexeme.outside 0 (token (.text t))).map fun l => String.ofList (l.text Dialect.doubleQuotes) := by
  simp [words, keywords]

theorem depth?_keywords (depth : Nat) (ps : List Piece) :
    Lexeme.depth? depth (ps.flatMap keywords) = Lexeme.depth? depth (tokens ps) := by
  induction ps generalizing depth with
  | nil => rfl
  | cons p ps ih =>
    rw [List.flatMap_cons, tokens_cons]
    cases p with
    | text t =>
      rw [keywords, Lexeme.depth?_append, Lexeme.depth?_append]
      exact congrArg _ (funext fun after => ih after)
    | name i =>
      exact (ih depth).trans
        (Lexeme.depth?_cons (i.lexeme_ne_mark _) (i.lexeme_ne_mark _) depth _).symm
    | parameter b => exact (ih depth).trans (Lexeme.depth?_cons (by simp) (by simp) depth _).symm

theorem Woven.depth?_keywords {ps : List Piece} (h : Woven ps) (depth : Nat) :
    Lexeme.depth? depth (ps.flatMap keywords) = some depth := by
  rw [Piece.depth?_keywords, h.depth?_tokens]

theorem words_append {ps : List Piece} (h : Lexeme.depth? 0 (ps.flatMap keywords) = some 0)
    (qs : List Piece) : words (ps ++ qs) = words ps ++ words qs := by
  rw [words, List.flatMap_append, Lexeme.outside_append h, List.map_append]
  rfl

theorem Woven.words_append {ps : List Piece} (h : Woven ps) (qs : List Piece) :
    words (ps ++ qs) = words ps ++ words qs :=
  Piece.words_append (h.depth?_keywords 0) qs

/-- Between two texts that open and close a parenthesis nothing is said at this level. -/
theorem Woven.outside_bracketed {ps : List Piece} (h : Woven ps) {t u : String} (ht : Opening t) :
    Lexeme.outside 0 ((.text t :: ps ++ [.text u] : List Piece).flatMap keywords) =
      Lexeme.outside 0 (token (.text t)) ++ Lexeme.outside 1 (token (.text u)) := by
  have hopen : Lexeme.depth? 0 (token (.text t)) = some 1 := by rw [ht.1.depth?_token, ht.2.2]
  have hinner : Lexeme.outside 1 (ps.flatMap keywords) = [] :=
    Lexeme.outside_succ (h.depth?_keywords 0)
  have hall : (.text t :: ps ++ [.text u] : List Piece).flatMap keywords =
      token (.text t) ++ (ps.flatMap keywords ++ token (.text u)) := by
    simp [keywords]
  rw [hall, Lexeme.outside_append hopen, Lexeme.outside_append (h.depth?_keywords 1), hinner,
    List.nil_append]

/-- The words that begin the clauses which order and cut the rows. -/
def clauseWords : List String := ["order", "limit", "offset"]

theorem window_ne {w : String} (h : w ∉ clauseWords) : w ≠ "limit" ∧ w ≠ "offset" := by
  simp only [clauseWords, List.mem_cons, not_or] at h
  exact ⟨h.2.1, h.2.2.1⟩

/-- Pieces that close every parenthesis they open and begin none of these clauses. -/
structure Quiet (ps : List Piece) : Prop where
  nested : Lexeme.depth? 0 (ps.flatMap keywords) = some 0
  silent : ∀ w ∈ words ps, w ∉ clauseWords

/-- A text that begins none of these clauses. -/
def Ordinary (t : String) : Prop := Plain t ∧ ∀ w ∈ words [.text t], w ∉ clauseWords

instance : DecidablePred Ordinary := fun t =>
  inferInstanceAs (Decidable (Plain t ∧ ∀ w ∈ words [.text t], w ∉ clauseWords))

namespace Quiet

theorem nil : Quiet [] := ⟨rfl, fun _ h => absurd h List.not_mem_nil⟩

theorem name (i : Identifier) : Quiet [.name i] := ⟨rfl, fun _ h => absurd h List.not_mem_nil⟩

theorem parameter (b : Bound) : Quiet [.parameter b] := ⟨rfl, fun _ h => absurd h List.not_mem_nil⟩

theorem text {t : String} (h : Ordinary t) : Quiet [.text t] :=
  ⟨(Woven.text h.1).depth?_keywords 0, h.2⟩

theorem append {ps qs : List Piece} (hps : Quiet ps) (hqs : Quiet qs) : Quiet (ps ++ qs) := by
  constructor
  · rw [List.flatMap_append, Lexeme.depth?_append, hps.nested, Option.bind_some, hqs.nested]
  · intro w hw
    rw [words_append hps.nested] at hw
    rcases List.mem_append.mp hw with hw | hw
    · exact hps.silent w hw
    · exact hqs.silent w hw

theorem lead {t : String} {ps : List Piece} (ht : Ordinary t) (hps : Quiet ps) :
    Quiet (.text t :: ps) := (text ht).append hps

theorem joined {t : String} {ps qs : List Piece} (hps : Quiet ps) (ht : Ordinary t)
    (hqs : Quiet qs) : Quiet (ps ++ .text t :: qs) := hps.append (hqs.lead ht)

theorem flatten {parts : List (List Piece)} (h : ∀ ps ∈ parts, Quiet ps) :
    Quiet parts.flatten := by
  induction parts with
  | nil => exact nil
  | cons ps parts ih =>
    exact (h ps List.mem_cons_self).append (ih fun r hr => h r (List.mem_cons_of_mem _ hr))

theorem separated {s : String} (hs : Ordinary s) {parts : List (List Piece)}
    (h : ∀ ps ∈ parts, Quiet ps) : Quiet (Piece.separated s parts) :=
  separated_induction nil (fun _ _ hps hqs => hps.joined hs hqs) h

theorem bracketed {t u : String} {ps : List Piece} (hps : Woven ps) (ht : Opening t)
    (hu : Closing u) (htu : ∀ l ∈ Lexeme.outside 0 (token (.text t)) ++
      Lexeme.outside 1 (token (.text u)), String.ofList (l.text Dialect.doubleQuotes) ∉ clauseWords) :
    Quiet (.text t :: ps ++ [.text u]) := by
  constructor
  · exact (Woven.bracketed ht hu hps).depth?_keywords 0
  · intro w hw
    obtain ⟨l, hl, rfl⟩ := List.mem_map.mp hw
    rw [hps.outside_bracketed ht] at hl
    exact htu l hl

theorem enclosed {ps : List Piece} (h : Woven ps) : Quiet (Piece.enclosed ps) :=
  bracketed h (by decide) (by decide) (by decide)

end Quiet

end Piece

namespace Sql

open Piece (Quiet Ordinary words)

theorem ColumnName.quiet (n : ColumnName) : Quiet n.pieces :=
  .joined (.name n.qualifier) (by decide) (.name n.column.ident)

theorem tablePieces_quiet (t : Table) : Quiet (tablePieces t) := by
  unfold tablePieces
  cases t.definition.schema with
  | none => exact .name _
  | some schema => exact .joined (.name schema) (t := ".") (by decide) (.name _)

theorem TableItem.quiet (i : TableItem) : Quiet i.pieces := by
  unfold TableItem.pieces
  split
  · exact (tablePieces_quiet i.table).append .nil
  · exact .joined (tablePieces_quiet i.table) (by decide) (.name i.name)

theorem OrderItem.quiet (i : OrderItem) : Quiet i.pieces := by
  have hdirection : Ordinary (if i.descending then " desc" else " asc") := by
    cases i.descending <;> decide
  have hitem := i.name.quiet.append (.text hdirection)
  unfold OrderItem.pieces
  cases i.nulls with
  | none => exact hitem.append .nil
  | some nulls =>
    cases nulls
    · exact hitem.append (.text (by decide))
    · exact hitem.append (.text (by decide))

theorem Expr.quiet (e : Expr) : Quiet e.pieces := by
  cases e with
  | column name => exact name.quiet
  | parameter bound => exact .parameter bound
  | subQuery query => exact .enclosed query.woven

theorem Comparison.ordinary (op : Comparison) : Ordinary (comparisonText op) := by
  cases op <;> decide

theorem quiet_choose {a b : String} (ha : Ordinary a) (hb : Ordinary b) (negated : Bool) :
    Quiet [choose negated a b] := by
  cases negated
  · exact .text ha
  · exact .text hb

theorem quiet_in (negated : Bool) {ps qs : List Piece} (hps : Quiet ps) (hqs : Piece.Woven qs) :
    Quiet (ps ++ choose negated " in " " not in " :: Piece.enclosed qs) :=
  hps.append ((quiet_choose (by decide) (by decide) negated).append (.enclosed hqs))

theorem ExprPair.quiet (p : ExprPair) : Quiet p.pieces := by
  obtain ⟨first, second⟩ := p
  exact .enclosed (.commaSeparated (by simpa using ⟨first.woven, second.woven⟩))

mutual

theorem Condition.quiet : ∀ c : Condition, Quiet c.pieces
  | .constant truth => by cases truth <;> exact .text (by decide)
  | .compare op left right => left.quiet.joined (Comparison.ordinary op) right.quiet
  | .isNull negated operand =>
    operand.quiet.append (quiet_choose (by decide) (by decide) negated)
  | .like negated operand pattern escape => by
    have hescape : Quiet (match escape with
        | some sequence => [.text " escape ", .parameter (.text sequence)]
        | none => []) := by
      cases escape with
      | none => exact .nil
      | some sequence => exact .lead (by decide) (.parameter _)
    have hchoice := quiet_choose (a := " like ") (b := " not like ") (by decide) (by decide) negated
    exact (operand.quiet.append (hchoice.append pattern.quiet)).append hescape
  | .between negated operand low high => by
    have hchoice := quiet_choose (a := " between ") (b := " not between ") (by decide) (by decide)
      negated
    exact (operand.quiet.append (hchoice.append low.quiet)).joined (t := " and ") (by decide) high.quiet
  | .inList negated operand values =>
    quiet_in negated operand.quiet (.commaSeparated (Expr.each_woven values))
  | .inSubQuery negated operand query => quiet_in negated operand.quiet query.woven
  | .rowInList negated row values =>
    quiet_in negated row.quiet (.commaSeparated (ExprPair.each_woven values))
  | .rowInSubQuery negated row query => quiet_in negated row.quiet query.woven
  | .exists negated query =>
    (quiet_choose (by decide) (by decide) negated).append (.enclosed query.woven)
  | .chain op parts => .separated (by cases op <;> decide) (Condition.each_quiet parts)
  | .parenthesized inner => .enclosed inner.woven
  | .not inner => inner.quiet.lead (by decide)

theorem Condition.each_quiet : ∀ cs : List Condition, ∀ ps ∈ Condition.eachPieces cs, Quiet ps
  | [], _, h => absurd h List.not_mem_nil
  | c :: cs, ps, h => by
    rcases List.mem_cons.mp h with rfl | h
    · exact c.quiet
    · exact Condition.each_quiet cs ps h

end

theorem Condition.where_quiet (filter : Option Condition) : Quiet (wherePieces filter) := by
  cases filter with
  | none => exact .nil
  | some c => exact c.quiet.lead (by decide)

theorem SelectItem.quiet (i : SelectItem) : Quiet i.pieces := by
  cases i with
  | column name => exact name.quiet
  | countAll => exact .text (by decide)
  | aggregate function name =>
    cases function
    all_goals exact .bracketed name.woven (by decide) (by decide) (by decide)
  | subQuery query => exact .enclosed query.woven

theorem Join.quiet (j : Join) : Quiet j.pieces := by
  obtain ⟨kind, table, on⟩ := j
  have h := table.quiet.joined (t := " on ") (by decide) on.quiet
  cases kind
  · exact h.lead (by decide)
  · exact h.lead (by decide)

namespace Select

theorem opening_quiet (distinct : Bool) (items : List SelectItem) (source : TableItem)
    (joins : List Join) : Quiet (openingPieces distinct items source joins) := by
  have hdistinct : Quiet (if distinct then [.text "distinct "] else []) := by
    cases distinct
    · exact .nil
    · exact .text (by decide)
  have hitems : Quiet (Piece.separated ", " (items.map SelectItem.pieces)) := by
    refine .separated (by decide) fun ps hps => ?_
    obtain ⟨i, _, rfl⟩ := List.mem_map.mp hps
    exact i.quiet
  have hjoins : Quiet (joins.map Join.pieces).flatten := by
    refine .flatten fun ps hps => ?_
    obtain ⟨j, _, rfl⟩ := List.mem_map.mp hps
    exact j.quiet
  exact (((hdistinct.lead (by decide)).append hitems).joined (by decide) source.quiet).append hjoins

/-- The pieces of the select up to its where clause. -/
def beforeOrder (t : Select) : List Piece :=
  openingPieces t.distinct t.items t.source t.joins ++ Condition.wherePieces t.filter

def lockedPieces (t : Select) : List Piece := (t.lock.map lockPieces).getD []

theorem pieces_eq (t : Select) :
    t.pieces = t.beforeOrder ++ (orderPieces t.orderBy ++ (t.paging.pieces ++ t.lockedPieces)) := by
  obtain ⟨distinct, items, source, joins, filter, orderBy, paging, lock⟩ := t
  cases lock <;>
    simp [pieces, beforeOrder, lockedPieces, openingPieces, SelectItem.eachPieces_eq_map,
      Join.eachPieces_eq_map]

theorem beforeOrder_quiet (t : Select) : Quiet t.beforeOrder :=
  (opening_quiet _ _ _ _).append (Condition.where_quiet t.filter)

/-- The words of a level are those of its clauses. -/
theorem words_pieces (t : Select) : words t.pieces =
    words t.beforeOrder ++ (words (orderPieces t.orderBy) ++
      (words t.paging.pieces ++ words t.lockedPieces)) := by
  rw [pieces_eq, Piece.words_append t.beforeOrder_quiet.nested,
    (orderPieces_clause t.orderBy).1.words_append, t.paging.clause.1.words_append]

end Select

end Sql

end SqlCompose

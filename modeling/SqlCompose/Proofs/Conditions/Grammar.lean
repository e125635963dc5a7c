import SqlCompose.Proofs.Sql.Placeholders

/-! The grammar of SQL conditions. A negation binds tighter than `and`, which binds tighter than `or`,
and a condition between parentheses may stand wherever a single predicate may. The grammar is a
relation between token sequences and readings. That a sequence has one reading is a theorem. -/

namespace SqlCompose

/-- Blanks separate lexemes and mean nothing else. All placeholders mean the same. -/
def Lexeme.tokens (ls : List Lexeme) : List Lexeme :=
  (ls.filter (· ≠ .mark ' ')).map fun l => if l.isPlaceholder then .mark '?' else l

inductive Keyword where
  | and
  | or
  | not
  | is
  | null
  | like
  | escape
  | between
  | inside
  | exists
  | select
deriving DecidableEq, Repr

namespace Keyword

def text : Keyword → String
  | .and => "and"
  | .or => "or"
  | .not => "not"
  | .is => "is"
  | .null => "null"
  | .like => "like"
  | .escape => "escape"
  | .between => "between"
  | .inside => "in"
  | .exists => "exists"
  | .select => "select"

def lexeme (k : Keyword) : Lexeme := .word k.text.toList

end Keyword

/-- A word or a quoted name. Before a point every word is a name. -/
def Lexeme.isName : Lexeme → Bool
  | .word _ => true
  | .quoted _ => true
  | _ => false

/-- How deep the tokens are inside parentheses at their end, unless they close more of them than are
open. -/
def Lexeme.depth? : Nat → List Lexeme → Option Nat
  | depth, [] => some depth
  | depth, .mark '(' :: ls => depth? (depth + 1) ls
  | 0, .mark ')' :: _ => none
  | depth + 1, .mark ')' :: ls => depth? depth ls
  | depth, _ :: ls => depth? depth ls

/-- A token opens a parenthesis, closes one that is open, or is no parenthesis. -/
theorem Lexeme.depth?_cons_eq_some {depth after : Nat} {l : Lexeme} {ls : List Lexeme}
    (h : depth? depth (l :: ls) = some after) :
    l = .mark '(' ∧ depth? (depth + 1) ls = some after ∨
    l = .mark ')' ∧ (∃ below, depth = below + 1 ∧ depth? below ls = some after) ∨
    l ≠ .mark '(' ∧ l ≠ .mark ')' ∧ depth? depth ls = some after := by
  by_cases hopen : l = .mark '('
  · subst hopen
    exact .inl ⟨rfl, by simpa [depth?] using h⟩
  by_cases hclose : l = .mark ')'
  · subst hclose
    cases depth with
    | zero => simp [depth?] at h
    | succ below => exact .inr (.inl ⟨rfl, below, rfl, by simpa [depth?] using h⟩)
  · exact .inr (.inr ⟨hopen, hclose, by simpa [depth?, hclose] using h⟩)

/-- The first token is the keyword `select` and not the name of a table. -/
def startsQuery : List Lexeme → Bool
  | [] => false
  | [l] => l = Keyword.select.lexeme
  | l :: m :: _ => l = Keyword.select.lexeme && m ≠ .mark '.'

/-- The tokens between the parentheses of a sub-query. -/
structure IsQuery (body : List Lexeme) : Prop where
  starts : startsQuery body = true
  balanced : Lexeme.depth? 0 body = some 0

/-- What predicates compare. -/
inductive Term where
  | column (qualifier column : Lexeme)
  | number (digits : List Char)
  | parameter
  | subQuery (body : List Lexeme)
deriving DecidableEq, Repr

namespace Term

def tokens : Term → List Lexeme
  | .column q n => [q, .mark '.', n]
  | .number ds => [.word ds]
  | .parameter => [.mark '?']
  | .subQuery body => .mark '(' :: body ++ [.mark ')']

def Legal : Term → Prop
  | .column q n => q.isName = true ∧ n.isName = true
  | .number ds => ds ≠ [] ∧ ∀ c ∈ ds, c.isDigit = true
  | .parameter => True
  | .subQuery body => IsQuery body

end Term

/-- A row value. -/
structure Row where
  first : Term
  second : Term
deriving DecidableEq, Repr

namespace Row

def tokens (r : Row) : List Lexeme :=
  .mark '(' :: r.first.tokens ++ .mark ',' :: r.second.tokens ++ [.mark ')']

def Legal (r : Row) : Prop := r.first.Legal ∧ r.second.Legal

end Row

/-- Predicates, which hold neither connectives nor parentheses around conditions. -/
inductive Predicate where
  | compare (op : Comparison) (left right : Term)
  | isNull (negated : Bool) (operand : Term)
  | like (negated : Bool) (operand pattern : Term) (escape : Option Term)
  | between (negated : Bool) (operand low high : Term)
  | inList (negated : Bool) (operand : Term) (values : List Term)
  | inQuery (negated : Bool) (operand : Term) (body : List Lexeme)
  | rowInList (negated : Bool) (row : Row) (values : List Row)
  | rowInQuery (negated : Bool) (row : Row) (body : List Lexeme)
  | exists (negated : Bool) (body : List Lexeme)
deriving DecidableEq, Repr

/-- Token sequences with a separator between neighbours. -/
def joinTokens (separator : Lexeme) (parts : List (List Lexeme)) : List Lexeme :=
  List.intercalate [separator] parts

def parenthesize (ts : List Lexeme) : List Lexeme := .mark '(' :: ts ++ [.mark ')']

def Comparison.tokens : Comparison → List Lexeme
  | .equal => [.mark '=']
  | .notEqual => [.mark '<', .mark '>']
  | .less => [.mark '<']
  | .lessOrEqual => [.mark '<', .mark '=']
  | .greater => [.mark '>']
  | .greaterOrEqual => [.mark '>', .mark '=']

namespace Predicate

/-- The keyword `not`, where the predicate is negated. -/
def notTokens (negated : Bool) : List Lexeme := if negated then [Keyword.not.lexeme] else []

def tokens : Predicate → List Lexeme
  | .compare op l r => l.tokens ++ op.tokens ++ r.tokens
  | .isNull negated t =>
    t.tokens ++ Keyword.is.lexeme :: notTokens negated ++ [Keyword.null.lexeme]
  | .like negated t pattern escape =>
    t.tokens ++ notTokens negated ++ Keyword.like.lexeme :: pattern.tokens ++
      match escape with
      | some e => Keyword.escape.lexeme :: e.tokens
      | none => []
  | .between negated t low high =>
    t.tokens ++ notTokens negated ++ Keyword.between.lexeme :: low.tokens ++
      Keyword.and.lexeme :: high.tokens
  | .inList negated t values =>
    t.tokens ++ notTokens negated ++ Keyword.inside.lexeme ::
      parenthesize (joinTokens (.mark ',') (values.map Term.tokens))
  | .inQuery negated t body =>
    t.tokens ++ notTokens negated ++ Keyword.inside.lexeme :: parenthesize body
  | .rowInList negated r values =>
    r.tokens ++ notTokens negated ++ Keyword.inside.lexeme ::
      parenthesize (joinTokens (.mark ',') (values.map Row.tokens))
  | .rowInQuery negated r body =>
    r.tokens ++ notTokens negated ++ Keyword.inside.lexeme :: parenthesize body
  | .exists negated body => notTokens negated ++ Keyword.exists.lexeme :: parenthesize body

def Legal : Predicate → Prop
  | .compare _ l r => l.Legal ∧ r.Legal
  | .isNull _ t => t.Legal
  | .like _ t pattern escape => t.Legal ∧ pattern.Legal ∧ ∀ e ∈ escape, e.Legal
  | .between _ t low high => t.Legal ∧ low.Legal ∧ high.Legal
  | .inList _ t values => t.Legal ∧ values ≠ [] ∧ ∀ v ∈ values, v.Legal
  | .inQuery _ t body => t.Legal ∧ IsQuery body
  | .rowInList _ r values => r.Legal ∧ values ≠ [] ∧ ∀ v ∈ values, v.Legal
  | .rowInQuery _ r body => r.Legal ∧ IsQuery body
  | .exists _ body => IsQuery body

end Predicate

/-- What a condition says. -/
inductive Reading where
  | predicate (predicate : Predicate)
  | chain (op : Sql.Connective) (parts : List Reading)
  | not (inner : Reading)

namespace Reading

/-- A single condition stands for itself. -/
def joined (op : Sql.Connective) : List Reading → Reading
  | [r] => r
  | rs => .chain op rs

/-- `1 = 1` or `1 = 0` -/
def constant (truth : Bool) : Reading :=
  .predicate (.compare .equal (.number ['1']) (.number [if truth then '1' else '0']))

/-- Without conditions a conjunction is true and a disjunction is false. -/
def group (op : Sql.Connective) : List Reading → Reading
  | [] => constant (op = .and)
  | rs => joined op rs

/-- Without conditions the negation is false. -/
def negation : List Reading → Reading
  | [] => constant false
  | rs => .not (joined .and rs)

end Reading

/-- How tightly a condition binds. -/
inductive Rank where
  | primary
  | negation
  | conjunction
  | disjunction
deriving DecidableEq, Repr

/-- An `exists` with its parenthesis, and not the name of a table. -/
def startsExists : List Lexeme → Bool
  | l :: .mark '(' :: _ => l = Keyword.exists.lexeme
  | _ => false

/-- The readings of token sequences. In `not exists (...)` the `not` belongs to the predicate. -/
inductive Derives : Rank → List Lexeme → Reading → Prop where
  | predicate {p : Predicate} (h : p.Legal) : Derives .primary p.tokens (.predicate p)
  | parenthesized {ts : List Lexeme} {r : Reading} (h : Derives .disjunction ts r) :
      Derives .primary (parenthesize ts) r
  | primary {ts : List Lexeme} {r : Reading} (h : Derives .primary ts r) : Derives .negation ts r
  | not {ts : List Lexeme} {r : Reading} (h : Derives .negation ts r)
      (hexists : startsExists ts = false) :
      Derives .negation (Keyword.not.lexeme :: ts) (.not r)
  | all {parts : List (List Lexeme × Reading)} (hne : parts ≠ [])
      (h : ∀ x ∈ parts, Derives .negation x.1 x.2) :
      Derives .conjunction (joinTokens Keyword.and.lexeme (parts.map (·.1)))
        (.joined .and (parts.map (·.2)))
  | any {parts : List (List Lexeme × Reading)} (hne : parts ≠ [])
      (h : ∀ x ∈ parts, Derives .conjunction x.1 x.2) :
      Derives .disjunction (joinTokens Keyword.or.lexeme (parts.map (·.1)))
        (.joined .or (parts.map (·.2)))

end SqlCompose

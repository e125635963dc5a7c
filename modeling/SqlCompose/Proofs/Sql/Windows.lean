import Mathlib.Data.List.TakeWhile
import SqlCompose.Proofs.Sql.Woven

/-! Windows of rows and the grammars in which databases read them: `limit` and `offset`, of which some
databases take the second only after the first, or `offset` and `fetch`. -/

namespace SqlCompose

/-- A stretch of the rows of a result. -/
structure Window where
  skip : Nat
  /-- How many rows there are at most. -/
  count : Option Nat
deriving DecidableEq, Repr

namespace Window

def rows {α : Type} (w : Window) (rs : List α) : List α :=
  match w.count with
  | some n => (rs.drop w.skip).take n
  | none => rs.drop w.skip

/-- The window that is asked for. -/
def asked (offset limit : Option UInt64) : Window :=
  ⟨(offset.getD 0).toNat, limit.map UInt64.toNat⟩

/-- Both show the same rows of every result of fewer than 2⁶⁴ rows. -/
def Agrees (w v : Window) : Prop :=
  ∀ (α : Type) (rs : List α), rs.length < UInt64.size → w.rows rs = v.rows rs

theorem Agrees.refl (w : Window) : w.Agrees w := fun _ _ _ => rfl

/-- No result has more rows than the largest limit. -/
theorem agrees_largest (skip : Nat) : Agrees ⟨skip, none⟩ ⟨skip, some 18446744073709551615⟩ := by
  intro α rs hrs
  have hlength : (rs.drop skip).length ≤ 18446744073709551615 :=
    (List.drop_sublist skip rs).length_le.trans (Nat.le_of_lt_succ hrs)
  exact (List.take_of_length_le hlength).symm

end Window

/-- A number of rows in decimal digits. -/
def rowCount? (w : String) : Option Nat :=
  if w ≠ "" ∧ w.toList.all Char.isDigit = true then some (Nat.ofDigitChars 10 w.toList 0) else none

theorem toString_ne {w : String} (hw : w.toList.all Char.isDigit = false) (n : Nat) :
    toString n ≠ w := by
  rintro rfl
  rw [List.all_eq_true.mpr fun c hc => Piece.isDigit_of_mem_toString hc] at hw
  exact Bool.noConfusion hw

theorem rowCount?_toString (n : Nat) : rowCount? (toString n) = some n := by
  have hdigits : (toString n).toList.all Char.isDigit = true :=
    List.all_eq_true.mpr fun c hc => Piece.isDigit_of_mem_toString hc
  have htext : (toString n).toList = Nat.toDigits 10 n := by
    rw [Nat.toString_eq_repr, Nat.toList_repr]
  have hne : toString n ≠ "" := by
    intro he
    rw [he] at htext
    exact Nat.toDigits_ne_nil htext.symm
  rw [rowCount?, if_pos ⟨hne, hdigits⟩, htext, Nat.ofDigitChars_toDigits (by decide) (by decide)]

namespace DialectKind

/-- The bound that the number behind `limit` sets, if it may stand there. -/
def bound? (k : DialectKind) (n : Int) : Option (Option Nat) :=
  if k = .mySql ∧ n = 18446744073709551615 then some none
  else if 0 ≤ n then some (some n.toNat)
  else if k = .sqlite then some none
  else none

/-- Whether an offset may stand without a limit. -/
def offsetAlone : DialectKind → Bool
  | .mySql => false
  | .sqlite => false
  | _ => true

/-- `[offset n]` -/
def offset? : List String → Option Nat
  | [] => some 0
  | ["offset", n] => rowCount? n
  | _ => none

/-- `[limit n] [offset n]`, or `[limit n [offset n]]` where an offset needs a limit. -/
def limitOffset? (k : DialectKind) : List String → Option Window
  | "limit" :: "-" :: n :: ws => do
    let limit ← rowCount? n
    return ⟨← offset? ws, ← k.bound? (-limit)⟩
  | "limit" :: n :: ws => do
    let limit ← rowCount? n
    return ⟨← offset? ws, ← k.bound? limit⟩
  | [] => some ⟨0, none⟩
  | ws => if k.offsetAlone then (offset? ws).map (⟨·, none⟩) else none

/-- `[fetch next n rows only]` -/
def fetch? : List String → Option (Option Nat)
  | [] => some none
  | ["fetch", "next", n, "rows", "only"] => (rowCount? n).map some
  | _ => none

/-- `[offset n rows [fetch next n rows only]]` -/
def offsetFetch? : List String → Option Window
  | [] => some ⟨0, none⟩
  | "offset" :: n :: "rows" :: ws => do return ⟨← rowCount? n, ← fetch? ws⟩
  | _ => none

/-- The window that a clause says. -/
def clauseWindow? (k : DialectKind) (ws : List String) : Option Window :=
  if k = .sqlServer then offsetFetch? ws else k.limitOffset? ws

/-- The words from the first that begins a window on, but for the lock of the rows. -/
def windowClause (ws : List String) : List String :=
  (ws.dropWhile fun w => w ≠ "limit" && w ≠ "offset").takeWhile (· ≠ "for")

/-- The window that a database reads among the words of a level. -/
def window? (k : DialectKind) (ws : List String) : Option Window := k.clauseWindow? (windowClause ws)

theorem limitOffset?_limit (k : DialectKind) (n : Nat) (ws : List String) :
    k.limitOffset? ("limit" :: toString n :: ws) = do
      return ⟨← offset? ws, ← k.bound? n⟩ := by
  have hsign : toString n ≠ "-" := toString_ne (by decide) n
  have hcount := rowCount?_toString n
  generalize toString n = w at hsign hcount
  simp [limitOffset?, hsign, hcount]

theorem bound?_agrees (k : DialectKind) (n : UInt64) (skip : Nat) :
    ∃ c, k.bound? n.toNat = some c ∧ Window.Agrees ⟨skip, c⟩ ⟨skip, some n.toNat⟩ := by
  unfold bound?
  split
  · rename_i h
    have hn : n.toNat = 18446744073709551615 := by omega
    exact ⟨none, rfl, hn ▸ Window.agrees_largest skip⟩
  · exact ⟨some n.toNat, by simp, .refl _⟩

theorem windowClause_eq {before clause after : List String}
    (hbefore : ∀ w ∈ before, w ≠ "limit" ∧ w ≠ "offset")
    (hstart : ∀ w ∈ clause.head?, w = "limit" ∨ w = "offset") (hclause : "for" ∉ clause)
    (hafter : ∀ w ∈ after, w ≠ "limit" ∧ w ≠ "offset") (hend : ∀ w ∈ after.head?, w = "for") :
    windowClause (before ++ (clause ++ after)) = clause := by
  have hskip : ∀ {ws : List String}, (∀ w ∈ ws, w ≠ "limit" ∧ w ≠ "offset") →
      ∀ w ∈ ws, (w ≠ "limit" && w ≠ "offset") = true := fun h w hw => by simpa using h w hw
  rw [windowClause, List.dropWhile_append_of_pos (hskip hbefore)]
  cases clause with
  | nil =>
    have hnothing : after.dropWhile (fun w => w ≠ "limit" && w ≠ "offset") = [] :=
      List.dropWhile_eq_nil_iff.mpr (hskip hafter)
    rw [List.nil_append, hnothing, List.takeWhile_nil]
  | cons w ws =>
    have hw : (w ≠ "limit" && w ≠ "offset") = false := by
      rcases hstart w rfl with rfl | rfl <;> rfl
    have hkeep : ∀ w' ∈ w :: ws, decide (w' ≠ "for") = true := by
      intro w' hw'
      refine decide_eq_true ?_
      rintro rfl
      exact hclause hw'
    rw [List.cons_append, List.dropWhile_cons_of_neg (by rw [hw]; exact Bool.false_ne_true),
      ← List.cons_append, List.takeWhile_append_of_pos hkeep]
    cases after with
    | nil => rw [List.takeWhile_nil, List.append_nil]
    | cons a as =>
      have ha : decide (a ≠ "for") = false := by simpa using hend a rfl
      rw [List.takeWhile_cons_of_neg (by simp [ha]), List.append_nil]

end DialectKind

end SqlCompose

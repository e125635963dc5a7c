import SqlCompose.Compose.Select
import SqlCompose.Proofs.Sql.Windows
import SqlCompose.Proofs.Sql.Words

/-! The window clause of a level. Its words are numbers between keywords, and in the grammar of the
dialect that it is written for they say what was asked for. -/

namespace SqlCompose

namespace Piece

open Lexer

/-- A word between two texts is read by itself. -/
theorem words_word {a w b : String} (ha : Plain a)
    (hend : (run Dialect.doubleQuotes .nothing a.toList).2 = .nothing) (hclean : Clean w)
    (hne : w.toList ≠ []) (hw : ∀ c ∈ w.toList, isWordChar c = true)
    (hb : ∀ c ∈ b.toList.head?, isWordChar c = false) :
    words [.text (a ++ w ++ b)] = words [.text a] ++ w :: words [.text b] := by
  have hrun : run Dialect.doubleQuotes .nothing w.toList = ([], .word w.toList) := by
    cases hcs : w.toList with
    | nil => exact absurd hcs hne
    | cons c cs => exact run_word_cons (hcs ▸ hw)
  have hword : lex Dialect.doubleQuotes w.toList = [.word w.toList] := by
    rw [lex, scan, hrun]
    rfl
  have hlex : lex Dialect.doubleQuotes (a ++ w ++ b).toList = lex Dialect.doubleQuotes a.toList ++
      ([.word w.toList] ++ lex Dialect.doubleQuotes b.toList) := by
    rw [String.toList_append, String.toList_append, List.append_assoc,
      lex_append (by rw [hend]; trivial), lex_append (by rw [hrun]; exact hb), hword]
  have hplaceholder : (Lexeme.word w.toList).isPlaceholder = false :=
    hclean.isPlaceholder_lex Dialect.doubleQuotes _ (by rw [hword]; exact List.mem_cons_self)
  have htoken : token (.text (a ++ w ++ b)) =
      token (.text a) ++ .word w.toList :: token (.text b) := by
    rw [token, hlex, Lexeme.tokens_append, Lexeme.tokens_append,
      Lexeme.tokens_singleton (by simp) hplaceholder]
    rfl
  have houtside : Lexeme.outside 0 (token (.text (a ++ w ++ b))) =
      Lexeme.outside 0 (token (.text a)) ++
        .word w.toList :: Lexeme.outside 0 (token (.text b)) := by
    rw [htoken, Lexeme.outside_append (ha.depth?_token 0)]
    simp [Lexeme.outside]
  rw [words_text, words_text, words_text, houtside, List.map_append, List.map_cons, Lexeme.text,
    String.ofList_toList]

theorem words_number {a b : String} (ha : Plain a)
    (hend : (run Dialect.doubleQuotes .nothing a.toList).2 = .nothing)
    (hb : opensMark b = true ∨ b = "") (n : Nat) :
    words [.text (a ++ toString n ++ b)] = words [.text a] ++ toString n :: words [.text b] := by
  refine words_word ha hend (plain_nat n).1 ?_ (fun c hc => ?_) (fun c hc => ?_)
  · rw [Nat.toString_eq_repr, Nat.toList_repr]
    exact Nat.toDigits_ne_nil
  · exact isWordChar_of_isDigit (isDigit_of_mem_toString hc)
  · rcases hb with hb | rfl
    · rw [opensMark, hc, Option.any_some] at hb
      simpa using hb
    · simp at hc

end Piece

namespace Sql.Paging

open Piece (words words_number)

/-- A level without an order of its own gets one before its window. -/
def orderWords : Paging → List String
  | .offsetFetch false _ _ => ["order", "by"]
  | _ => []

def limitWords : Option Int → List String
  | some (.ofNat n) => ["limit", toString n]
  | some (.negSucc n) => ["limit", "-", toString (n + 1)]
  | none => []

def offsetWords : Option UInt64 → List String
  | some n => ["offset", toString n.toNat]
  | none => []

def fetchWords : Option UInt64 → List String
  | some n => ["fetch", "next", toString n.toNat, "rows", "only"]
  | none => []

/-- The words of the window itself. -/
def windowWords : Paging → List String
  | .limitOffset limit offset =>
    limitWords limit ++ offsetWords offset
  | .offsetFetch _ offset fetch =>
    "offset" :: toString offset.toNat :: "rows" :: fetchWords fetch

theorem words_last {a : String} (ha : Piece.Plain a)
    (hend : (Lexer.run Dialect.doubleQuotes .nothing a.toList).2 = .nothing) (n : Nat) :
    words [.text (a ++ toString n)] = words [.text a] ++ [toString n] := by
  have h := words_number (b := "") ha hend (.inr rfl) n
  rwa [String.append_empty] at h

theorem words_limit (limit : Option Int) : words (limitOffset limit none).pieces =
    limitWords limit := by
  cases limit with
  | none => rfl
  | some l =>
    have htext : (limitOffset (some l) none).pieces = [.text (" limit " ++ toString l)] := rfl
    rw [htext]
    cases l with
    | ofNat n => exact words_last (a := " limit ") (by decide) (by decide) n
    | negSucc n =>
      have hsign : " limit " ++ toString (Int.negSucc n) = " limit -" ++ toString (n + 1) :=
        (String.append_assoc : " limit " ++ "-" ++ toString (n + 1) = _).symm
      rw [hsign]
      exact words_last (by decide) (by decide) (n + 1)

theorem words_pieces (p : Paging) : words p.pieces = p.orderWords ++ p.windowWords := by
  cases p with
  | limitOffset limit offset =>
    have hpieces : (limitOffset limit offset).pieces =
        (limitOffset limit none).pieces ++ (limitOffset none offset).pieces := by simp [pieces]
    rw [hpieces, (Paging.clause _).1.words_append, words_limit]
    cases offset with
    | none => rfl
    | some n => exact congrArg _ (words_last (a := " offset ") (by decide) (by decide) n.toNat)
  | offsetFetch ordered offset fetch =>
    have hpieces : (offsetFetch ordered offset fetch).pieces =
        (if ordered then [] else [.text " order by (select null)"]) ++
          ([.text (" offset " ++ toString offset.toNat ++ " rows")] ++
            (fetch.map fun n =>
              [.text (" fetch next " ++ toString n.toNat ++ " rows only")]).getD []) := by
      cases fetch <;> simp [pieces]
    have horder : Piece.Woven (if ordered then [] else [.text " order by (select null)"]) := by
      cases ordered
      · exact .text (by decide)
      · exact .nil
    have horderWords : words (if ordered then [] else [.text " order by (select null)"]) =
        (offsetFetch ordered offset fetch).orderWords := by
      cases ordered
      · show words [.text " order by (select null)"] = ["order", "by"]
        decide
      · rfl
    have hoffset : Piece.Plain (" offset " ++ toString offset.toNat ++ " rows") :=
      .append (.append (by decide) (Piece.plain_nat _)) (by decide)
    rw [hpieces, horder.words_append, (Piece.Woven.text hoffset).words_append, horderWords,
      words_number (by decide) (by decide) (.inl (by decide))]
    cases fetch with
    | none => rfl
    | some n =>
      exact congrArg _ (congrArg _ (words_number (a := " fetch next ") (b := " rows only")
        (by decide) (by decide) (.inl (by decide)) n.toNat))

theorem head?_windowWords (p : Paging) :
    ∀ w ∈ p.windowWords.head?, w = "limit" ∨ w = "offset" := by
  cases p with
  | limitOffset limit offset =>
    rcases limit with _ | n | n
    · cases offset <;> simp [windowWords, limitWords, offsetWords]
    · simp [windowWords, limitWords]
    · simp [windowWords, limitWords]
  | offsetFetch ordered n fetch => simp [windowWords]

theorem for_notMem_windowWords (p : Paging) : "for" ∉ p.windowWords := by
  have hnumber : ∀ n : Nat, "for" ≠ n.repr := fun n => (toString_ne (by decide) n).symm
  cases p with
  | limitOffset limit offset =>
    rcases limit with _ | n | n <;> cases offset <;>
      simp [windowWords, limitWords, offsetWords, hnumber]
  | offsetFetch ordered n fetch =>
    cases fetch <;> simp [windowWords, fetchWords, hnumber]

/-- Nothing stands before an offset but a limit. -/
theorem windowWords_split {p : Paging} {before after rest : List String}
    (h : p.windowWords ++ rest = before ++ "offset" :: after) (hrest : "offset" ∉ rest) :
    (∃ limit n, p = .limitOffset limit (some n) ∧ before = limitWords limit) ∨
      (∃ ordered n fetch, p = .offsetFetch ordered n fetch ∧ before = []) := by
  have hnumber : ∀ n : Nat, "offset" ≠ n.repr := fun n => (toString_ne (by decide) n).symm
  have hsplit : ∀ {xs : List String} (ys : List String), "offset" ∉ xs → "offset" ∉ ys →
      xs ++ "offset" :: ys = before ++ "offset" :: after → before = xs := fun _ hxs hys heq =>
    ((List.append_cons_inj_of_notMem hxs hys).mp heq).1.symm
  cases p with
  | limitOffset limit offset =>
    have hlimit : "offset" ∉ limitWords limit := by
      rcases limit with _ | n | n <;> simp [limitWords, hnumber]
    cases offset with
    | none =>
      have hmem : "offset" ∈ limitWords limit ++ [] ++ rest := h ▸ by simp
      simp [hlimit, hrest] at hmem
    | some n =>
      refine .inl ⟨limit, n, rfl, hsplit (toString n.toNat :: rest) hlimit ?_ ?_⟩
      · simp [hnumber, hrest]
      · rw [← h, windowWords, offsetWords, List.append_assoc]
        rfl
  | offsetFetch ordered n fetch =>
    have hfetch : "offset" ∉ fetchWords fetch := by
      cases fetch <;> simp [fetchWords, hnumber]
    refine .inr ⟨ordered, n, fetch, rfl,
      hsplit (toString n.toNat :: "rows" :: fetchWords fetch ++ rest) List.not_mem_nil ?_ ?_⟩
    · simp [hnumber, hfetch, hrest]
    · rw [← h]
      rfl

end Sql.Paging

namespace Setting

open DialectKind

variable {σ : Setting} {k : DialectKind}

theorem paging_nothing (σ : Setting) (ordered : Bool) :
    σ.paging ordered none none = .limitOffset none none := by
  unfold paging
  cases σ.dialect.paging <;> rfl

theorem exists_unlimited (hσ : σ.dialect = k.dialect) (hk : k ≠ .sqlServer) :
    ∃ unlimited, σ.dialect.paging = .limitOffset unlimited := by
  rw [hσ]
  cases k with
  | sqlServer => exact absurd rfl hk
  | _ => exact ⟨_, rfl⟩

theorem offset?_words (offset : Option UInt64) :
    offset? (Sql.Paging.offsetWords offset) = some (offset.getD 0).toNat := by
  cases offset with
  | none => rfl
  | some n => exact rowCount?_toString n.toNat

theorem limitOffset?_unlimited (hσ : σ.dialect = k.dialect) (hk : k ≠ .sqlServer) (ordered : Bool)
    (n : UInt64) : k.limitOffset? (σ.paging ordered (some n) none).windowWords =
      some ⟨n.toNat, none⟩ := by
  have hwords : ∀ limit, σ.dialect.paging = .limitOffset limit →
      (σ.paging ordered (some n) none).windowWords =
        Sql.Paging.limitWords limit ++ Sql.Paging.offsetWords (some n) := by
    intro limit hstyle
    simp only [paging, hstyle]
    rfl
  have hoffset : offset? (Sql.Paging.offsetWords (some n)) = some n.toNat := offset?_words (some n)
  cases k with
  | sqlServer => exact absurd rfl hk
  | mySql =>
    rw [hwords (some 18446744073709551615) (by rw [hσ]; rfl)]
    refine (limitOffset?_limit .mySql 18446744073709551615
      (Sql.Paging.offsetWords (some n))).trans ?_
    rw [hoffset]
    rfl
  | sqlite =>
    rw [hwords (some (-1)) (by rw [hσ]; rfl)]
    show (do
      let limit ← rowCount? (toString 1)
      return ⟨← offset? (Sql.Paging.offsetWords (some n)), ← bound? .sqlite (-limit)⟩ :
        Option Window) = _
    rw [hoffset, rowCount?_toString]
    rfl
  | _ =>
    rw [hwords none (by rw [hσ]; rfl)]
    show (offset? (Sql.Paging.offsetWords (some n))).map (⟨·, none⟩) = some (⟨_, none⟩ : Window)
    rw [hoffset]
    rfl

/-- MySQL and SQLite are given a limit with every offset. -/
theorem paging_limited (hσ : σ.dialect = k.dialect) (hk : k = .mySql ∨ k = .sqlite) (ordered : Bool)
    (offset limit : Option UInt64) : ∃ l, σ.paging ordered offset limit = .limitOffset l offset ∧
      (offset ≠ none → l ≠ none) := by
  obtain ⟨u, hstyle⟩ : ∃ u, σ.dialect.paging = .limitOffset (some u) := by
    rw [hσ]
    rcases hk with rfl | rfl <;> exact ⟨_, rfl⟩
  simp only [paging, hstyle]
  refine ⟨_, rfl, fun h => ?_⟩
  cases offset with
  | none => exact absurd rfl h
  | some n => cases limit <;> simp

theorem paging_fetched (hσ : σ.dialect = DialectKind.sqlServer.dialect) (ordered : Bool)
    (offset limit : Option UInt64) : σ.paging ordered offset limit = .limitOffset none none ∨
      ∃ n, σ.paging ordered offset limit = .offsetFetch ordered n limit := by
  have hstyle : σ.dialect.paging = .offsetFetch := by rw [hσ]; rfl
  simp only [paging, hstyle]
  cases offset <;> cases limit <;> simp

theorem fetch?_words (fetch : Option UInt64) :
    fetch? (Sql.Paging.fetchWords fetch) = some (fetch.map UInt64.toNat) := by
  cases fetch with
  | none => rfl
  | some n => exact congrArg (Option.map some) (rowCount?_toString n.toNat)

theorem offsetFetch?_words (ordered : Bool) (n : UInt64) (fetch : Option UInt64) :
    offsetFetch? (Sql.Paging.offsetFetch ordered n fetch).windowWords =
      some ⟨n.toNat, fetch.map UInt64.toNat⟩ := by
  show (do return ⟨← rowCount? (toString n.toNat), ← fetch? (Sql.Paging.fetchWords fetch)⟩ :
    Option Window) = _
  rw [rowCount?_toString, fetch?_words]
  rfl

theorem clauseWindow?_sqlServer (hσ : σ.dialect = DialectKind.sqlServer.dialect) (ordered : Bool)
    (offset limit : Option UInt64) :
    sqlServer.clauseWindow? (σ.paging ordered offset limit).windowWords =
      some (.asked offset limit) := by
  have hstyle : σ.dialect.paging = .offsetFetch := by rw [hσ]; rfl
  rw [clauseWindow?, if_pos rfl]
  simp only [paging, hstyle]
  cases offset with
  | some n => exact offsetFetch?_words ordered n limit
  | none =>
    cases limit with
    | some n => exact offsetFetch?_words ordered 0 (some n)
    | none => rfl

theorem limitOffset?_limited (hσ : σ.dialect = k.dialect) (hk : k ≠ .sqlServer) (ordered : Bool)
    (offset : Option UInt64) (n : UInt64) :
    ∃ w, k.limitOffset? (σ.paging ordered offset (some n)).windowWords = some w ∧
      w.Agrees (.asked offset (some n)) := by
  have hpaging : (σ.paging ordered offset (some n)).windowWords =
      "limit" :: toString n.toNat :: Sql.Paging.offsetWords offset := by
    obtain ⟨unlimited, hstyle⟩ := exists_unlimited hσ hk
    simp only [paging, hstyle]
    rfl
  obtain ⟨c, hc, hagrees⟩ := k.bound?_agrees n (offset.getD 0).toNat
  refine ⟨⟨(offset.getD 0).toNat, c⟩, ?_, hagrees⟩
  rw [hpaging, limitOffset?_limit, offset?_words, hc]
  rfl

/-- The window that a dialect is given is the one that was asked for. -/
theorem clauseWindow?_paging (hσ : σ.dialect = k.dialect) (ordered : Bool)
    (offset limit : Option UInt64) :
    ∃ w, k.clauseWindow? (σ.paging ordered offset limit).windowWords = some w ∧
      w.Agrees (.asked offset limit) := by
  by_cases hk : k = .sqlServer
  · subst hk
    exact ⟨_, clauseWindow?_sqlServer hσ ordered offset limit, .refl _⟩
  · rw [clauseWindow?, if_neg hk]
    cases limit with
    | some n => exact limitOffset?_limited hσ hk ordered offset n
    | none =>
      -- an offset alone may have to be written with a limit that stands for none
      cases offset with
      | none =>
        rw [paging_nothing]
        exact ⟨⟨0, none⟩, rfl, .refl _⟩
      | some n => exact ⟨_, limitOffset?_unlimited hσ hk ordered n, .refl _⟩

end Setting

end SqlCompose

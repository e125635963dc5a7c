import SqlCompose.Proofs.Compose.Parameters
import SqlCompose.Proofs.Compose.Widths
import SqlCompose.Proofs.Sql.Paging

/-! Windows of rows in built statements. At every level of a statement a database reads the window
that the query asks for, whatever the dialect writes for it. -/

namespace SqlCompose

namespace Sql

open Piece (words)

/-- The select is the statement, or stands in it as a sub-query at some depth. -/
def Command.Selects (c : Command) (t : Select) : Prop :=
  c = .select t ∨ ∃ width, Place.Within Expr.inner ⟨width, .subQuery t⟩ c.places

/-- The text of a level says what was asked for. -/
structure Select.Pages (k : DialectKind) (offset limit : Option UInt64) (t : Select) : Prop where
  reads : ∃ w, k.window? (words t.pieces) = some w ∧ w.Agrees (.asked offset limit)
  silent : offset = none → limit = none →
    t.paging.pieces = [] ∧ "limit" ∉ words t.pieces ∧ "offset" ∉ words t.pieces
  /-- The dialects whose offset needs a limit have one before it. -/
  limited : k = .mySql ∨ k = .sqlite → ∀ before after,
    words t.pieces = before ++ "offset" :: after → "limit" ∈ before
  /-- Where an offset needs an order there is one before it. -/
  ordered : k = .sqlServer → ∀ before after, words t.pieces = before ++ "offset" :: after →
    ∃ xs ys, before = xs ++ "order" :: "by" :: ys ∧ "order" ∉ xs ∧ "order" ∉ ys

theorem words_orderPieces {items : List OrderItem} (h : items ≠ []) :
    ∃ rest, words (orderPieces items) = "order" :: "by" :: rest ∧
      ∀ w ∈ rest, w ∉ Piece.clauseWords := by
  have hitems : Piece.Quiet (Piece.separated ", " (items.map OrderItem.pieces)) := by
    refine .separated (by decide) fun ps hps => ?_
    obtain ⟨i, _, rfl⟩ := List.mem_map.mp hps
    exact i.quiet
  refine ⟨words (Piece.separated ", " (items.map OrderItem.pieces)), ?_, hitems.silent⟩
  have hnot : ¬ items.isEmpty = true := by simpa using h
  rw [orderPieces, if_neg hnot, ← List.singleton_append,
    (Piece.Woven.text (t := " order by ") (by decide)).words_append]
  have horder : words [.text " order by "] = ["order", "by"] := by decide
  rw [horder]
  rfl

theorem Select.lockedPieces_quiet (t : Select) : Piece.Quiet t.lockedPieces := by
  unfold lockedPieces
  cases t.lock with
  | none => exact .nil
  | some w =>
    cases w with
    | wait => exact .text (by decide)
    | noWait => exact .lead (by decide) (.text (by decide))
    | skipLocked => exact .lead (by decide) (.text (by decide))

theorem Select.head?_words_lockedPieces (t : Select) :
    ∀ w ∈ (words t.lockedPieces).head?, w = "for" := by
  unfold lockedPieces
  cases t.lock with
  | none => exact fun _ h => nomatch h
  | some w => cases w <;> decide

namespace Select

/-- The words of a level up to its window. -/
def wordsBefore (t : Select) : List String :=
  words t.beforeOrder ++ (words (orderPieces t.orderBy) ++ t.paging.orderWords)

theorem words_eq (t : Select) : words t.pieces =
    t.wordsBefore ++ (t.paging.windowWords ++ words t.lockedPieces) := by
  rw [words_pieces, Paging.words_pieces, wordsBefore]
  simp only [List.append_assoc]

theorem wordsBefore_ne {t : Select} {w : String} (h : w ∈ t.wordsBefore) :
    w ≠ "limit" ∧ w ≠ "offset" := by
  rcases List.mem_append.mp h with h | h
  · exact Piece.window_ne (t.beforeOrder_quiet.silent w h)
  rcases List.mem_append.mp h with h | h
  · by_cases hne : t.orderBy = []
    · rw [hne] at h
      exact absurd h List.not_mem_nil
    · obtain ⟨rest, hrest, hsilent⟩ := words_orderPieces hne
      rw [hrest, List.mem_cons, List.mem_cons] at h
      rcases h with rfl | rfl | h
      · decide
      · decide
      · exact Piece.window_ne (hsilent w h)
  · have horder : ∀ v ∈ ["order", "by"], v ≠ "limit" ∧ v ≠ "offset" := by decide
    unfold Paging.orderWords at h
    split at h
    · exact horder w h
    · exact absurd h List.not_mem_nil

theorem lockedPieces_ne {t : Select} {w : String} (h : w ∈ words t.lockedPieces) :
    w ≠ "limit" ∧ w ≠ "offset" := Piece.window_ne (t.lockedPieces_quiet.silent w h)

theorem exists_split {t : Select} {before after : List String}
    (h : words t.pieces = before ++ "offset" :: after) :
    ∃ limit, before = t.wordsBefore ++ limit ∧
      t.paging.windowWords ++ words t.lockedPieces = limit ++ "offset" :: after := by
  rw [words_eq] at h
  rcases List.append_eq_append_iff.mp h with ⟨limit, hbefore, hwindow⟩ | ⟨more, hmore, hoffset⟩
  · exact ⟨limit, hbefore, hwindow⟩
  · cases more with
    | nil => exact ⟨[], by simpa using hmore.symm, by simpa using hoffset.symm⟩
    | cons w ws =>
      have hw : w = "offset" := (List.cons.inj hoffset).1.symm
      have hmem : w ∈ t.wordsBefore := by simp [hmore]
      exact absurd hw (wordsBefore_ne hmem).2

variable {σ : Setting} {k : DialectKind} {offset limit : Option UInt64}

theorem pages_of {t : Select} (hσ : σ.dialect = k.dialect)
    (hpaging : t.paging = σ.paging (!t.orderBy.isEmpty) offset limit) : t.Pages k offset limit := by
  constructor
  case reads =>
    obtain ⟨w, hw, hagrees⟩ := Setting.clauseWindow?_paging hσ (!t.orderBy.isEmpty) offset limit
    refine ⟨w, ?_, hagrees⟩
    rw [DialectKind.window?, words_eq, DialectKind.windowClause_eq (fun _ h => wordsBefore_ne h)
      t.paging.head?_windowWords t.paging.for_notMem_windowWords (fun _ h => lockedPieces_ne h)
      t.head?_words_lockedPieces, hpaging, hw]
  case silent =>
    rintro rfl rfl
    have hnothing : t.paging = .limitOffset none none := hpaging.trans (σ.paging_nothing _)
    have hwords : words t.pieces = t.wordsBefore ++ words t.lockedPieces := by
      rw [words_eq, hnothing]
      rfl
    rw [hnothing, hwords]
    refine ⟨rfl, fun h => ?_, fun h => ?_⟩
    · rcases List.mem_append.mp h with h | h
      · exact (wordsBefore_ne h).1 rfl
      · exact (lockedPieces_ne h).1 rfl
    · rcases List.mem_append.mp h with h | h
      · exact (wordsBefore_ne h).2 rfl
      · exact (lockedPieces_ne h).2 rfl
  case limited =>
    intro hk before after h
    obtain ⟨before, rfl, hwindow⟩ := exists_split h
    obtain ⟨l, hl, hsome⟩ := Setting.paging_limited hσ hk (!t.orderBy.isEmpty) offset limit
    have hno : "offset" ∉ words t.lockedPieces := fun h => (lockedPieces_ne h).2 rfl
    rcases Paging.windowWords_split hwindow hno with ⟨l', n, hp, rfl⟩ | ⟨_, _, _, hp, _⟩
    · obtain ⟨rfl, rfl⟩ := Paging.limitOffset.inj (hp.symm.trans (hpaging.trans hl))
      obtain ⟨m, hm⟩ := Option.ne_none_iff_exists'.mp (hsome (by simp))
      cases m <;> simp [hm, Paging.limitWords]
    · cases hp.symm.trans (hpaging.trans hl)
  case ordered =>
    rintro rfl before after h
    obtain ⟨before, rfl, hwindow⟩ := exists_split h
    have hno : "offset" ∉ words t.lockedPieces := fun h => (lockedPieces_ne h).2 rfl
    have hbefore : "order" ∉ words t.beforeOrder := fun h =>
      t.beforeOrder_quiet.silent _ h (by decide)
    have hfetched := Setting.paging_fetched hσ (!t.orderBy.isEmpty) offset limit
    rw [← hpaging] at hfetched
    rcases Paging.windowWords_split hwindow hno with ⟨_, _, hp, _⟩ | ⟨_, _, _, hp, rfl⟩
    · rcases hfetched with hnothing | ⟨_, hn⟩
      · cases hp.symm.trans hnothing
      · cases hp.symm.trans hn
    · -- the level is ordered by the query, or else by what is put before its window
      obtain ⟨n, hn⟩ := hfetched.resolve_left fun hnothing => by cases hp.symm.trans hnothing
      rw [List.append_nil, wordsBefore, hn]
      by_cases hne : t.orderBy = []
      · exact ⟨_, [], by rw [hne]; rfl, hbefore, List.not_mem_nil⟩
      · obtain ⟨rest, hrest, hsilent⟩ := words_orderPieces hne
        have hordered : (!t.orderBy.isEmpty) = true := by simpa using hne
        refine ⟨_, rest, ?_, hbefore, fun h => hsilent _ h (by decide)⟩
        rw [hrest, hordered]
        simp [Paging.orderWords]

end Select

end Sql

/-- The select is the query, or a sub-query of it at some depth. -/
def Query.Selects (q : Query) (s : Select) : Prop :=
  q = .select s ∨ ∃ width id, Place.Within Operand.inner ⟨width, .subQuery ⟨id, s⟩⟩ q.places

/-- The order that is written is the one that the window is told of. -/
theorem Select.compose_pages {σ : Setting} {p : Position} {k : DialectKind} {s : Select}
    {t : Sql.Select} (hσ : σ.dialect = k.dialect) (h : s.compose σ p = .ok t) :
    t.Pages k s.offset s.limit := by
  obtain ⟨_, _, _, _, _, _, _, _, _, order, horder, _, _, rfl⟩ := compose_eq_ok_iff.mp h
  have hempty : order.isEmpty = s.orderBy.isEmpty := by
    rw [Bool.eq_iff_iff, List.isEmpty_iff_length_eq_zero, List.isEmpty_iff_length_eq_zero,
      horder.length_eq]
  exact Sql.Select.pages_of hσ (by rw [hempty])

/-- However deep a select is nested in a statement, its database reads the window that was asked for.
Nothing is written of a window that was not asked for, MySQL and SQLite are given no offset without a
limit, and SQL Server is given one order before each offset. -/
theorem Query.build_pages {k : DialectKind} {defaults : QueryOptions} {q : Query} {b : Built Output}
    (h : q.build k.dialect defaults = .ok b) :
    (∃ draft, q = .insert draft (.multiple [])) ∧ b.output = .statement (.empty k.dialect) ∨
      ∃ c, q.Composed k.dialect defaults c ∧ b.output.Shows k.dialect c ∧
        (∀ t, c.Selects t → t.pieces <:+: c.pieces ∧ ∃ s, q.Selects s ∧
          (∃ p, s.compose (q.setting k.dialect defaults) p = .ok t) ∧ t.Pages k s.offset s.limit) ∧
        ∀ s, q.Selects s → ∃ t, c.Selects t ∧
          (∃ p, s.compose (q.setting k.dialect defaults) p = .ok t) ∧ t.Pages k s.offset s.limit := by
  refine (build_places h).imp_right ?_
  rintro ⟨c, hc, hshows, hplaces⟩
  refine ⟨c, hc, hshows, ?_, ?_⟩
  · rintro t (rfl | ⟨width, ht⟩)
    · cases hc with
      | select hs => exact ⟨List.infix_rfl, _, .inl rfl, ⟨_, hs⟩, Select.compose_pages rfl hs⟩
    · have hstretch := (Piece.infix_enclosed t.pieces).trans (Sql.Command.infix_place ht)
      obtain ⟨⟨_, o⟩, below, ho, rfl, hbecomes⟩ := ht.origin hplaces
      cases hbecomes with
      | @subQuery r _ hr =>
        obtain ⟨id, s⟩ := r
        obtain ⟨_, child, _, hselect⟩ := SubQuery.compose_eq_ok_iff.mp hr
        exact ⟨hstretch, _, .inr ⟨_, _, ho⟩, ⟨_, hselect⟩, Select.compose_pages rfl hselect⟩
  · rintro s (rfl | ⟨width, id, hs⟩)
    · cases hc with
      | select hs => exact ⟨_, .inl rfl, ⟨_, hs⟩, Select.compose_pages rfl hs⟩
    · obtain ⟨⟨_, e⟩, below, he, rfl, hbecomes⟩ := hs.image hplaces
      cases hbecomes with
      | subQuery hr =>
        obtain ⟨_, child, _, hselect⟩ := SubQuery.compose_eq_ok_iff.mp hr
        exact ⟨_, .inr ⟨_, he⟩, ⟨_, hselect⟩, Select.compose_pages rfl hselect⟩

namespace Market

/-- All stalls but two. -/
def others : Select :=
  { (Select.of (stall 1)).project [.column (number 1)] with offset := some 2 }

/-- The five cheapest of them. -/
def cheapest : Query :=
  .select { ((Select.of (stall 0)).filterBy
    [.inSubQuery false (.column (number 0)) ⟨1, others⟩]).orderedBy ⟨price 0, false, none⟩ with
    limit := some 5 }

end Market

/-- The nested level has an offset but no order of its own. -/
theorem Query.build_pages_cheapest :
    ∃ b c, Market.cheapest.build DialectKind.sqlServer.dialect default = .ok b ∧
      b.output.Shows DialectKind.sqlServer.dialect c ∧
      ∃ t, c.Selects t ∧ t.pieces <:+: c.pieces ∧ t.Pages .sqlServer (some 2) none := by
  obtain ⟨b, hb⟩ : ∃ b, Market.cheapest.build DialectKind.sqlServer.dialect default = .ok b :=
    ⟨_, rfl⟩
  rcases build_pages hb with ⟨⟨draft, hq⟩, _⟩ | ⟨c, hc, hshows, hlevels, hall⟩
  · cases hq
  · have hothers : Market.cheapest.Selects Market.others :=
      .inr ⟨_, _, .here (Select.mem_places_of_criterion List.mem_cons_self
        (List.mem_cons_of_mem _ (List.mem_singleton_self _)))⟩
    obtain ⟨t, ht, _, hpages⟩ := hall _ hothers
    exact ⟨b, c, hb, hshows, t, ht, (hlevels t ht).1, hpages⟩

end SqlCompose

import SqlCompose.Proofs.Filter.Erasure
import SqlCompose.Proofs.Query.Refusals
import SqlCompose.Proofs.Sql.Containment

/-! What stands between an update or delete and all rows of a table. Without criteria the statement is
refused, and criteria never print as nothing. -/

namespace SqlCompose

namespace Piece

/-- Some text of the pieces is not empty. -/
def Telling (ps : List Piece) : Prop := ∃ t, .text t ∈ ps ∧ t ≠ ""

theorem telling_of_mid {t : String} (h : t ≠ "") (before after : List Piece) :
    Telling (before ++ .text t :: after) := ⟨t, by simp, h⟩

theorem Telling.mono {ps qs : List Piece} (h : Telling ps) (hsub : ps ⊆ qs) : Telling qs := by
  obtain ⟨t, ht, hne⟩ := h
  exact ⟨t, hsub ht, hne⟩

theorem Telling.sqlAfter_ne {ps : List Piece} (h : Telling ps) (d : Dialect) (count : Nat) :
    sqlAfter d count ps ≠ "" := by
  obtain ⟨t, ht, hne⟩ := h
  obtain ⟨before, after, rfl⟩ := List.append_of_mem ht
  rw [sqlAfter_append, sqlAfter]
  simp [hne]

end Piece

open Piece (Telling telling_of_mid)

namespace Sql

theorem telling_choose {positive negative : String} (hp : positive ≠ "") (hn : negative ≠ "")
    (negated : Bool) (before after : List Piece) :
    Telling (before ++ choose negated positive negative :: after) := by
  cases negated with
  | true => exact telling_of_mid hn before after
  | false => exact telling_of_mid hp before after

namespace Condition

theorem telling_constant (truth : Bool) : Telling (constant truth).pieces := by
  cases truth <;> exact telling_of_mid (by decide) [] []

theorem telling_parenthesized (c : Condition) : Telling (parenthesized c).pieces :=
  telling_of_mid (by decide) [] _

theorem telling_not (c : Condition) : Telling (Condition.not c).pieces :=
  telling_of_mid (by decide) [] _

theorem telling_chain {op : Connective} {cs : List Condition} (hne : cs ≠ [])
    (h : ∀ c ∈ cs, Telling c.pieces) : Telling (chain op cs).pieces := by
  obtain ⟨c, hc⟩ := List.exists_mem_of_ne_nil cs hne
  exact (h c hc).mono (infix_chain op hc).subset

theorem telling_group {op : Connective} {cs : List Condition} (h : ∀ c ∈ cs, Telling c.pieces) :
    Telling (group op cs).pieces := by
  cases cs with
  | nil => exact telling_constant _
  | cons c cs => exact (h c List.mem_cons_self).mono (infix_group op List.mem_cons_self).subset

theorem telling_negation (cs : List Condition) : Telling (negation cs).pieces := by
  cases cs with
  | nil => exact telling_constant _
  | cons c cs => exact telling_not _

end Condition

end Sql

section

open Sql

theorem Criterion.compose_telling {σ : Setting} {p : Position} {c : Criterion} {e : Condition}
    (h : c.compose σ p = .ok e) : Telling e.pieces := by
  induction c generalizing e with
  | compare op left right =>
    obtain ⟨l, _, r, _, rfl⟩ := compose_compare_eq_ok_iff.mp h
    exact telling_of_mid (by cases op <;> decide) _ _
  | isNull negated o =>
    obtain ⟨a, _, rfl⟩ := compose_isNull_eq_ok_iff.mp h
    exact telling_choose (by decide) (by decide) negated _ _
  | like negated o pattern option =>
    have htext : ∀ a b escape, Telling (Condition.like negated a b escape).pieces :=
      fun a b escape => (telling_choose (by decide) (by decide) negated _ _).mono
        (List.subset_append_left _ _)
    obtain ⟨a, _, ⟨parts, _, rfl⟩ | ⟨_, b, _, rfl⟩⟩ := compose_like_eq_ok_iff.mp h
    · exact htext _ _ _
    · exact htext _ _ _
  | between negated o low high =>
    obtain ⟨a, _, l, _, u, _, rfl⟩ := compose_between_eq_ok_iff.mp h
    exact (telling_choose (by decide) (by decide) negated _ _).mono (List.subset_append_left _ _)
  | inList negated o values =>
    by_cases hnil : values = []
    · rw [hnil, compose_inList_nil, Except.ok.injEq] at h
      exact h ▸ Condition.telling_constant negated
    · obtain ⟨a, _, vs, _, rfl⟩ := (compose_inList_eq_ok_iff hnil).mp h
      exact telling_choose (by decide) (by decide) negated _ _
  | inSubQuery negated o query =>
    obtain ⟨a, _, s, _, rfl⟩ := compose_inSubQuery_eq_ok_iff.mp h
    exact telling_choose (by decide) (by decide) negated _ _
  | pairInList negated pair values =>
    by_cases hnil : values = []
    · rw [hnil, compose_pairInList_nil, Except.ok.injEq] at h
      exact h ▸ Condition.telling_constant negated
    by_cases hrow : σ.dialect.rowValueInList = true
    · obtain ⟨row, _, vs, _, rfl⟩ := (compose_pairInList_eq_ok_iff hnil hrow).mp h
      exact telling_choose (by decide) (by decide) negated _ _
    · rw [Bool.not_eq_true] at hrow
      obtain ⟨cs, _, rfl⟩ := (compose_pairInList_expanded_eq_ok_iff hnil hrow).mp h
      cases negated with
      | true => exact Condition.telling_not _
      | false => exact Condition.telling_parenthesized _
  | pairInSubQuery negated pair query =>
    obtain ⟨_, row, _, s, _, rfl⟩ := compose_pairInSubQuery_eq_ok_iff.mp h
    exact telling_choose (by decide) (by decide) negated _ _
  | exists_ negated query =>
    obtain ⟨s, _, rfl⟩ := compose_exists_eq_ok_iff.mp h
    exact telling_choose (by decide) (by decide) negated [] _
  | all children ih =>
    obtain ⟨cs, hcs, rfl⟩ := compose_all_eq_ok_iff.mp h
    refine Condition.telling_group fun e he => ?_
    obtain ⟨c, hc, hce⟩ := exists_mem_of_forall₂ hcs he
    exact ih c hc hce
  | any children ih =>
    obtain ⟨cs, hcs, rfl⟩ := compose_any_eq_ok_iff.mp h
    refine Condition.telling_group fun e he => ?_
    obtain ⟨c, hc, hce⟩ := exists_mem_of_forall₂ hcs he
    exact ih c hc hce
  | not children ih =>
    obtain ⟨cs, _, rfl⟩ := compose_not_eq_ok_iff.mp h
    exact Condition.telling_negation cs

end

/-- The statement has this head, and after it a where clause that says something. -/
def Statement.Filtered (head : List Piece) (s : Statement) : Prop :=
  ∃ c : Sql.Condition, s.pieces = head ++ .text " where " :: c.pieces ∧
    ∀ count, Piece.sqlAfter s.dialect count c.pieces ≠ ""

theorem Criterion.exists_conjunction {σ : Setting} {p : Position} {cs : List Criterion}
    {es : List Sql.Condition} (hne : cs ≠ [])
    (h : List.Forall₂ (fun c e => c.compose σ p = .ok e) cs es) :
    ∃ c, Sql.Condition.conjunction? es = some c ∧ Telling c.pieces := by
  have hes : es ≠ [] := ne_nil_of_forall₂ h hne
  obtain ⟨e, rest, rfl⟩ := List.exists_cons_of_ne_nil hes
  refine ⟨.chain .and (e :: rest), rfl, Sql.Condition.telling_chain hes fun x hx => ?_⟩
  obtain ⟨c, _, hc⟩ := exists_mem_of_forall₂ h hx
  exact compose_telling hc

section

variable {d : Dialect} {defaults : QueryOptions}

theorem DeleteQuery.build_filtered {q : DeleteQuery} {b : Built Statement} (hne : q.filter ≠ [])
    (h : q.build d defaults = .ok b) :
    b.output.Filtered (.text "delete from " :: Sql.tablePieces q.target) := by
  obtain ⟨t, ht, he⟩ := build_eq_ok h
  obtain ⟨conditions, hconditions, rfl⟩ := compose_eq_ok ht
  obtain ⟨c, hc, htelling⟩ := Criterion.exists_conjunction hne hconditions
  rw [hc] at he
  exact ⟨c, congrArg Statement.pieces he, fun count => htelling.sqlAfter_ne _ count⟩

theorem UpdateQuery.build_filtered {q : UpdateQuery} {b : Built Statement} (hne : q.filter ≠ [])
    (h : q.build d defaults = .ok b) :
    ∃ items : List Sql.SetItem, items.map (·.target) = q.assignments.map (·.column) ∧
      b.output.Filtered (.text "update " :: Sql.tablePieces q.target ++ .text " set " ::
        Sql.setPieces .qualified items) := by
  obtain ⟨t, ht, he⟩ := build_eq_ok h
  obtain ⟨items, hitems, conditions, hconditions, rfl⟩ := compose_eq_ok ht
  obtain ⟨c, hc, htelling⟩ := Criterion.exists_conjunction hne hconditions
  have htargets : List.Forall₂ (fun i a => i.target = a.column) items q.assignments :=
    hitems.flip.imp fun i a hi => by
      obtain ⟨_, _, _, _, _, rfl⟩ := Assignment.composeUpdate_eq_ok_iff.mp hi
      rfl
  rw [← List.forall₂_map_right_iff, ← List.forall₂_map_left_iff, List.forall₂_eq_eq_eq] at htargets
  rw [hc] at he
  exact ⟨items, htargets, c, congrArg Statement.pieces he,
    fun count => htelling.sqlAfter_ne _ count⟩

end

theorem FilterCall.foldl_run {Q : Type} {filterBy : Q → List Criterion → Q}
    (hnil : ∀ q, filterBy q [] = q)
    (happend : ∀ q cs ds, filterBy (filterBy q cs) ds = filterBy q (cs ++ ds)) (q : Q)
    (programs : List (List FilterCall)) :
    programs.foldl (fun q calls => filterBy q (run calls)) q =
      filterBy q (programs.flatMap run) := by
  induction programs generalizing q with
  | nil => exact (hnil q).symm
  | cons calls programs ih => rw [List.foldl_cons, ih, happend, List.flatMap_cons]

def DeleteQuery.filterAll (q : DeleteQuery) (programs : List (List FilterCall)) : DeleteQuery :=
  programs.foldl (fun q calls => q.filterBy (FilterCall.run calls)) q

def UpdateQuery.filterAll (q : UpdateQuery) (programs : List (List FilterCall)) : UpdateQuery :=
  programs.foldl (fun q calls => q.filterBy (FilterCall.run calls)) q

theorem DeleteQuery.filterAll_eq (q : DeleteQuery) (programs : List (List FilterCall)) :
    q.filterAll programs = q.filterBy (programs.flatMap FilterCall.run) :=
  FilterCall.foldl_run (fun q => by simp [filterBy]) (fun q cs ds => by simp [filterBy]) q programs

theorem UpdateQuery.filterAll_eq (q : UpdateQuery) (programs : List (List FilterCall)) :
    q.filterAll programs = q.filterBy (programs.flatMap FilterCall.run) :=
  FilterCall.foldl_run (fun q => by simp [filterBy]) (fun q cs ds => by simp [filterBy]) q programs

namespace FilterCall

/-- Erasing leaves no more of the programs than empty reusable filters. -/
def Hollow (programs : List (List FilterCall)) : Prop :=
  ∀ calls ∈ programs, ∀ leaf ∈ leavesAll (eraseAll calls), leaf = .extend []

theorem hollow_iff {programs : List (List FilterCall)} :
    Hollow programs ↔ programs.flatMap run = [] := by
  rw [List.flatMap_eq_nil_iff]
  exact forall₂_congr fun calls _ => (run_eq_nil_iff calls).symm

/-- A guard that asks whether there are criteria asks whether the programs are hollow. -/
theorem guard_of_criteria {programs : List (List FilterCall)} {x : Except Error (Built Statement)}
    {u : Unfiltered} {P : Built Statement → Prop}
    (hempty : programs.flatMap run = [] → x = .error (.missingWhere u))
    (hfull : programs.flatMap run ≠ [] →
      (∀ v, x ≠ .error (.missingWhere v)) ∧ ∀ b, x = .ok b → P b) :
    (∀ v, x = .error (.missingWhere v) ↔ v = u ∧ Hollow programs) ∧ ∀ b, x = .ok b → P b := by
  rw [hollow_iff]
  by_cases hnil : programs.flatMap run = []
  · rw [hempty hnil]
    refine ⟨fun v => ⟨fun h => ⟨?_, hnil⟩, fun h => h.1 ▸ rfl⟩, fun b h => by cases h⟩
    exact (Error.missingWhere.inj (Except.error.inj h)).symm
  · obtain ⟨hne, hok⟩ := hfull hnil
    exact ⟨fun v => ⟨fun h => absurd h (hne v), fun h => absurd h.2 hnil⟩, hok⟩

end FilterCall

section

variable {d : Dialect} {defaults : QueryOptions} {target : Table} {options : Option QueryOptions}
  {programs : List (List FilterCall)}

theorem DeleteQuery.build_filterAll (hallow : (options.getD defaults).allowMissingWhere = false) :
    (∀ u, (filterAll ⟨target, [], options⟩ programs).build d defaults = .error (.missingWhere u) ↔
      u = .delete target.name ∧ FilterCall.Hollow programs) ∧
    ∀ b, (filterAll ⟨target, [], options⟩ programs).build d defaults = .ok b →
      b.output.Filtered (.text "delete from " :: Sql.tablePieces target) := by
  rw [filterAll_eq]
  refine FilterCall.guard_of_criteria (fun hnil => build_unfiltered hnil hallow) fun hne => ?_
  exact ⟨(build_refused fun h => absurd h hne).ne_missingWhere, fun b h => build_filtered hne h⟩

theorem UpdateQuery.build_filterAll {assignments : List Assignment} (hitems : assignments ≠ [])
    (hallow : (options.getD defaults).allowMissingWhere = false) :
    (∀ u, (filterAll ⟨target, assignments, [], options⟩ programs).build d defaults =
        .error (.missingWhere u) ↔ u = .update target.name ∧ FilterCall.Hollow programs) ∧
    ∀ b, (filterAll ⟨target, assignments, [], options⟩ programs).build d defaults = .ok b →
      ∃ items : List Sql.SetItem, items.map (·.target) = assignments.map (·.column) ∧
        b.output.Filtered (.text "update " :: Sql.tablePieces target ++ .text " set " ::
          Sql.setPieces .qualified items) := by
  rw [filterAll_eq]
  refine FilterCall.guard_of_criteria (fun hnil => build_unfiltered hitems hnil hallow)
    fun hne => ?_
  exact ⟨(build_refused fun _ h => absurd h hne).ne_missingWhere, fun b h => build_filtered hne h⟩

end

/-- Calls with an absent side change nothing, and neither do groups that they leave empty. An update or
delete that may not reach every row is refused when no other calls are left. -/
theorem FilterCall.eraseAll_decides_guard :
    (∀ calls, run (eraseAll calls) = run calls ∧ ∀ c ∈ eraseAll calls, c.Whole) ∧
    ∀ (d : Dialect) (defaults : QueryOptions) (target : Table) (options : Option QueryOptions)
      (programs : List (List FilterCall)), (options.getD defaults).allowMissingWhere = false →
      ((∀ u, (DeleteQuery.filterAll ⟨target, [], options⟩ programs).build d defaults =
          .error (.missingWhere u) ↔ u = .delete target.name ∧ Hollow programs) ∧
        ∀ b, (DeleteQuery.filterAll ⟨target, [], options⟩ programs).build d defaults = .ok b →
          b.output.Filtered (.text "delete from " :: Sql.tablePieces target)) ∧
      ∀ assignments, assignments ≠ [] →
        (∀ u, (UpdateQuery.filterAll ⟨target, assignments, [], options⟩ programs).build d defaults =
          .error (.missingWhere u) ↔ u = .update target.name ∧ Hollow programs) ∧
        ∀ b, (UpdateQuery.filterAll ⟨target, assignments, [], options⟩ programs).build d defaults =
            .ok b →
          ∃ items : List Sql.SetItem, items.map (·.target) = assignments.map (·.column) ∧
            b.output.Filtered (.text "update " :: Sql.tablePieces target ++ .text " set " ::
              Sql.setPieces .qualified items) :=
  ⟨fun calls => ⟨run_eraseAll calls, whole_eraseAll calls⟩, fun _ _ _ _ _ hallow =>
    ⟨DeleteQuery.build_filterAll hallow, fun _ hitems => UpdateQuery.build_filterAll hitems hallow⟩⟩

namespace Market

/-- Nothing is asked for, since every value is absent. -/
def unasked : List (List FilterCall) :=
  [[.compare .less (some (.column (price 0))) none,
      .any [.like false (name 0) [⟨.leading, some "a"⟩, ⟨.raw, none⟩], .not []]],
    [.all [.extend []]]]

/-- One of two alternatives is asked for. -/
def asked : List (List FilterCall) :=
  [[.any [.compare .less none (some (.column (price 0))), .not [.isNull false (name 0)]]]]

theorem unasked_hollow : FilterCall.Hollow unasked := by
  simp [FilterCall.Hollow, unasked, FilterCall.eraseAll, FilterCall.erase, FilterCall.keep,
    FilterCall.isAbsent, FilterCall.leavesAll, FilterCall.leaves]

end Market

theorem FilterCall.eraseAll_decides_guard_unasked :
    (DeleteQuery.filterAll ⟨Market.stall 0, [], none⟩ Market.unasked).build .postgres default =
      .error (.missingWhere (.delete "stall$1")) ∧
    ∃ b, (UpdateQuery.filterAll ⟨Market.stall 0, [.setNull (Market.price 0)], [], none⟩
        Market.asked).build .postgres default = .ok b ∧
      ∃ items : List Sql.SetItem, items.map (·.target) = [Market.price 0] ∧
        b.output.Filtered (.text "update " :: Sql.tablePieces (Market.stall 0) ++ .text " set " ::
          Sql.setPieces .qualified items) := by
  have h := eraseAll_decides_guard.2 .postgres default (Market.stall 0) none
  obtain ⟨b, hb⟩ : ∃ b, (UpdateQuery.filterAll ⟨Market.stall 0, [.setNull (Market.price 0)], [],
      none⟩ Market.asked).build .postgres default = .ok b := ⟨_, rfl⟩
  refine ⟨((h Market.unasked rfl).1.1 _).mpr ⟨rfl, Market.unasked_hollow⟩, b, hb, ?_⟩
  exact ((h Market.asked rfl).2 _ (List.cons_ne_nil _ _)).2 b hb

end SqlCompose

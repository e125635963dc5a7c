import Mathlib.Data.Fin.Tuple.Basic
import SqlCompose.Proofs.Compose.Success

/-! Declared tables and their columns by name. A declaration keeps identifiers apart that look-up takes
for one name, the plain and the quoted one, so that a column may stand in front of another. -/

namespace SqlCompose

/-- One name, as it stands and quoted. -/
inductive Identifier.Twins : Identifier → Identifier → Prop where
  | plainFirst (n : String) : Twins (.plain n) (.quoted n)
  | quotedFirst (n : String) : Twins (.quoted n) (.plain n)

namespace Identifier

theorem twins_iff {a b : Identifier} : a.Twins b ↔ a.name = b.name ∧ a ≠ b := by
  constructor
  · intro h
    cases h with
    | plainFirst n => simp [name]
    | quotedFirst n => simp [name]
  · rintro ⟨hname, hne⟩
    cases a with
    | plain m =>
      cases b with
      | plain n => exact absurd (congrArg plain hname) hne
      | quoted n =>
        obtain rfl : m = n := hname
        exact .plainFirst m
    | quoted m =>
      cases b with
      | plain n =>
        obtain rfl : m = n := hname
        exact .quotedFirst m
      | quoted n => exact absurd (congrArg quoted hname) hne

/-- There are no triplets. -/
theorem Twins.not_twins {a b c : Identifier} (hab : a.Twins b) (hbc : b.Twins c) : ¬ a.Twins c := by
  intro hac
  cases hab with
  | plainFirst n => cases hbc with | quotedFirst => cases hac
  | quotedFirst n => cases hbc with | plainFirst => cases hac

end Identifier

namespace TableDef

theorem firstRepeated?_eq_none {seen : List Identifier} {cs : List ColumnDef}
    (h : firstRepeated? seen cs = none) :
    (cs.map (·.name)).Nodup ∧ ∀ c ∈ cs, c.name ∉ seen := by
  induction cs generalizing seen with
  | nil => simp
  | cons c cs ih =>
    by_cases hc : c.name ∈ seen
    · simp [firstRepeated?, hc] at h
    · rw [firstRepeated?, if_neg hc] at h
      obtain ⟨hnd, hnew⟩ := ih h
      have hfirst : c.name ∉ cs.map (·.name) := by
        intro hmem
        obtain ⟨e, he, hname⟩ := List.mem_map.mp hmem
        exact hnew e he (List.mem_append_right _ (hname ▸ List.mem_singleton_self _))
      refine ⟨List.nodup_cons.mpr ⟨hfirst, hnd⟩, fun e he => ?_⟩
      rcases List.mem_cons.mp he with rfl | he
      · exact hc
      · exact fun hseen => hnew e he (List.mem_append_left _ hseen)

variable {name : String} {schema : Option String} {specs : List ColumnSpec} {d : TableDef}

/-- A declaration has the columns that it lists, and no two of them have one identifier. -/
theorem define_eq_ok (h : define name schema specs = .ok d) :
    List.Forall₂ (fun s c => s.define = .ok c) specs d.columns ∧
      (d.columns.map (·.name)).Nodup := by
  simp only [define, bind_eq_ok_iff, check_eq_ok_iff, mapM_eq_ok_iff] at h
  obtain ⟨columns, hcolumns, _, _, _, _, _, h⟩ := h
  cases hfirst : firstRepeated? [] columns with
  | some c => simp [hfirst, throw, throwThe, MonadExceptOf.throw] at h
  | none =>
    simp only [hfirst, pure_eq_ok_iff] at h
    obtain rfl := h
    exact ⟨hcolumns, (firstRepeated?_eq_none hfirst).1⟩

theorem nodup_names_of_define (h : define name schema specs = .ok d) :
    (d.columns.map (·.name)).Nodup := (define_eq_ok h).2

/-- Columns that answer to one name are twins. -/
theorem twins_of_define (h : define name schema specs = .ok d) (id : Nat)
    {i j : Fin d.columns.length} (hij : i ≠ j)
    (hname : Column.name ⟨⟨id, d⟩, i⟩ = Column.name ⟨⟨id, d⟩, j⟩) :
    (Column.ident ⟨⟨id, d⟩, i⟩).Twins (Column.ident ⟨⟨id, d⟩, j⟩) := by
  refine Identifier.twins_iff.mpr ⟨hname, fun hident => hij ?_⟩
  have hnd := nodup_names_of_define h
  have hplaces : ∀ k : Fin d.columns.length,
      (d.columns.map (·.name))[k.val]? = some (Column.ident ⟨⟨id, d⟩, k⟩) := by
    intro k
    rw [List.getElem?_map, List.getElem?_eq_getElem k.isLt]
    rfl
  have hlt : i.val < (d.columns.map (·.name)).length := by simp
  have hsame := hplaces i
  rw [hident, ← hplaces j] at hsame
  exact Fin.ext (List.getElem?_inj hlt hnd |>.mp hsame)

end TableDef

namespace Table

variable {t : Table} {name : String} {i : Fin t.definition.columns.length}

theorem find?_columns (t : Table) (P : Column → Bool) :
    t.columns.find? P = (Fin.find? fun i => P ⟨t, i⟩).map (⟨t, ·⟩) := by
  rw [columns, List.find?_map, Fin.find?_eq_find?_finRange]
  rfl

/-- The first column of a name is found by it. -/
theorem column_eq_ok_iff :
    t.column name = .ok ⟨t, i⟩ ↔
      Column.name ⟨t, i⟩ = name ∧ ∀ j < i, Column.name ⟨t, j⟩ ≠ name := by
  have hfound : t.column name = .ok ⟨t, i⟩ ↔
      (Fin.find? fun i => Column.name ⟨t, i⟩ == name) = some i := by
    rw [column, find?_columns]
    cases Fin.find? fun i => Column.name ⟨t, i⟩ == name <;> simp
  rw [hfound, Fin.find?_eq_some_iff]
  simp

theorem column_eq_error_iff {e : Error} :
    t.column name = .error e ↔
      (∀ i, Column.name ⟨t, i⟩ ≠ name) ∧ e = .validation (.noSuchColumn t.name name) := by
  have hmissing : t.column name = .error e ↔
      (Fin.find? fun i => Column.name ⟨t, i⟩ == name) = none ∧
        e = .validation (.noSuchColumn t.name name) := by
    rw [column, find?_columns]
    cases Fin.find? fun i => Column.name ⟨t, i⟩ == name <;> simp [eq_comm]
  rw [hmissing, Fin.find?_eq_none_iff]
  simp

end Table

/-- Every column of a declared table is found by its name, except behind a twin, which is then found in
its place. No other names are known. -/
theorem TableDef.define_column_found {name : String} {schema : Option String}
    {specs : List ColumnSpec} {d : TableDef} (h : define name schema specs = .ok d) (id : Nat) :
    List.Forall₂ (fun s c => s.define = .ok c) specs d.columns ∧
    (∀ i, Table.column ⟨id, d⟩ (Column.name ⟨⟨id, d⟩, i⟩) = .ok ⟨⟨id, d⟩, i⟩ ↔
      ∀ j < i, ¬ (Column.ident ⟨⟨id, d⟩, j⟩).Twins (Column.ident ⟨⟨id, d⟩, i⟩)) ∧
    (∀ i, ∀ j < i, (Column.ident ⟨⟨id, d⟩, j⟩).Twins (Column.ident ⟨⟨id, d⟩, i⟩) →
      Table.column ⟨id, d⟩ (Column.name ⟨⟨id, d⟩, i⟩) = .ok ⟨⟨id, d⟩, j⟩) ∧
    (∀ i j, i ≠ j → Column.name ⟨⟨id, d⟩, i⟩ = Column.name ⟨⟨id, d⟩, j⟩ →
      (Column.ident ⟨⟨id, d⟩, i⟩).Twins (Column.ident ⟨⟨id, d⟩, j⟩)) ∧
    ∀ n, Table.column ⟨id, d⟩ n =
        .error (.validation (.noSuchColumn (Table.name ⟨id, d⟩) n)) ↔
      ∀ i, Column.name ⟨⟨id, d⟩, i⟩ ≠ n := by
  have htwins : ∀ {i j : Fin d.columns.length}, j < i →
      (Column.name ⟨⟨id, d⟩, j⟩ = Column.name ⟨⟨id, d⟩, i⟩ ↔
        (Column.ident ⟨⟨id, d⟩, j⟩).Twins (Column.ident ⟨⟨id, d⟩, i⟩)) := fun hj =>
    ⟨twins_of_define h id (Fin.ne_of_lt hj), fun ht => (Identifier.twins_iff.mp ht).1⟩
  refine ⟨(define_eq_ok h).1, fun i => ?_, fun i j hj ht => ?_, fun i j => twins_of_define h id,
    fun n => ?_⟩
  · rw [Table.column_eq_ok_iff, and_iff_right rfl]
    exact forall₂_congr fun j hj => not_congr (htwins hj)
  · refine Table.column_eq_ok_iff.mpr ⟨(htwins hj).mpr ht, fun k hk hname => ?_⟩
    -- a third column of the name would be a twin of both
    have hki := (htwins (hk.trans hj)).mp hname
    have hkj := twins_of_define h id (Fin.ne_of_lt hk) (hname.trans ((htwins hj).mpr ht).symm)
    exact hkj.not_twins ht hki
  · rw [Table.column_eq_error_iff, and_iff_left rfl]

namespace Stock

/-- Each way to declare a column, with plain and quoted names. -/
def specs : List ColumnSpec :=
  [.named .identity "id" .bigInt, .named .key "depot" .int, .named .nullable "\x22Unit price\x22" .text,
    .exact (.ordinary (.quoted "order") .int), .named .required "Order" .bool]

def item : TableDef :=
  ⟨.plain "item", some (.quoted "Main store"),
    [⟨.plain "id", .bigInt, false, true, true⟩, ⟨.plain "depot", .int, false, true, false⟩,
      ⟨.quoted "Unit price", .text, true, false, false⟩, .ordinary (.quoted "order") .int,
      .ordinary (.plain "Order") .bool]⟩

/-- One name twice, first quoted. -/
def twins : TableDef :=
  ⟨.plain "t", none, [.ordinary (.quoted "a") .int, .ordinary (.plain "a") .text]⟩

end Stock

theorem TableDef.define_column_found_item :
    define "item" (some "\x22Main store\x22") Stock.specs = .ok Stock.item ∧
      (∀ i, Table.column ⟨0, Stock.item⟩ (Column.name ⟨⟨0, Stock.item⟩, i⟩) =
        .ok ⟨⟨0, Stock.item⟩, i⟩) ∧
      Table.column ⟨0, Stock.item⟩ "ORDER" =
        .error (.validation (.noSuchColumn "item" "ORDER")) := by
  have hdefine : define "item" (some "\x22Main store\x22") Stock.specs = .ok Stock.item := by
    decide +kernel
  obtain ⟨_, hfound, _, _, hunknown⟩ := define_column_found hdefine 0
  have hnames : ∀ i j : Fin Stock.item.columns.length,
      Column.name ⟨⟨0, Stock.item⟩, i⟩ = Column.name ⟨⟨0, Stock.item⟩, j⟩ → i = j := by
    decide +kernel
  refine ⟨hdefine, fun i => (hfound i).mpr fun j hj ht => ?_, (hunknown "ORDER").mpr ?_⟩
  · exact Fin.ne_of_lt hj (hnames j i (Identifier.twins_iff.mp ht).1)
  · decide +kernel

/-- The second column is never found, whichever way it is asked for. -/
theorem TableDef.define_column_hidden_twins :
    define "t" none [.named .required "\x22a\x22" .int, .named .required "a" .text] =
        .ok Stock.twins ∧
      Column.name ⟨⟨0, Stock.twins⟩, (1 : Fin 2)⟩ = "a" ∧
      Table.column ⟨0, Stock.twins⟩ "a" = .ok ⟨⟨0, Stock.twins⟩, (0 : Fin 2)⟩ ∧
      (∀ n, Table.column ⟨0, Stock.twins⟩ n ≠ .ok ⟨⟨0, Stock.twins⟩, (1 : Fin 2)⟩) ∧
      Table.typedColumn ⟨0, Stock.twins⟩ "a" .text =
        .error (.validation (.columnType "t" "a" "Int" "Text")) := by
  refine ⟨by decide +kernel, by decide +kernel, by decide +kernel, fun n hn => ?_, by decide +kernel⟩
  obtain ⟨hname, hfirst⟩ := Table.column_eq_ok_iff.mp hn
  exact hfirst (0 : Fin 2) (by decide) hname

end SqlCompose

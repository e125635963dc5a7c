import SqlCompose.Dialect.Catalog
import SqlCompose.Proofs.Text.Identifiers

/-! Quoted names read back. A closing quote that is written twice belongs to the name, and the first
one that stands alone ends it, so that a name neither ends early nor takes in what follows. -/

namespace SqlCompose

namespace Doubling

/-- What stands before the first mark that is not written twice, and what follows that mark. -/
def upTo? (mark : Char) : List Char → Option (List Char × List Char)
  | [] => none
  | [c] => if c = mark then some ([], []) else none
  | a :: b :: cs =>
    if a = mark then
      if b = mark then (upTo? mark cs).map fun (body, rest) => (mark :: body, rest)
      else some ([], b :: cs)
    else (upTo? mark (b :: cs)).map fun (body, rest) => (a :: body, rest)

variable {mark : Char}

theorem upTo?_cons_of_ne {c : Char} (h : c ≠ mark) (cs : List Char) :
    upTo? mark (c :: cs) = (upTo? mark cs).map fun (body, rest) => (c :: body, rest) := by
  cases cs <;> simp [upTo?, h]

theorem upTo?_mark {rest : List Char} (h : rest.head? ≠ some mark) :
    upTo? mark (mark :: rest) = some ([], rest) := by
  cases rest with
  | nil => simp [upTo?]
  | cons c cs =>
    have hc : c ≠ mark := by simpa using h
    simp [upTo?, hc]

theorem upTo?_double {rest : List Char} (h : rest.head? ≠ some mark) (body : List Char) :
    upTo? mark (double mark body ++ mark :: rest) = some (body, rest) := by
  induction body with
  | nil => exact upTo?_mark h
  | cons c body ih =>
    by_cases hc : c = mark
    · rw [hc, double_cons_self]
      simp [upTo?, ih]
    · rw [double_cons_of_ne hc, List.cons_append, upTo?_cons_of_ne hc, ih]
      rfl

/-- Nothing but a text with its marks doubled is read up to a mark. -/
theorem eq_of_upTo? {cs body rest : List Char} (h : upTo? mark cs = some (body, rest)) :
    cs = double mark body ++ mark :: rest ∧ rest.head? ≠ some mark := by
  induction cs using upTo?.induct mark generalizing body rest with
  | case1 => simp [upTo?] at h
  | case2 =>
    simp only [upTo?, if_true, Option.some.injEq, Prod.mk.injEq] at h
    obtain ⟨rfl, rfl⟩ := h
    simp [double]
  | case3 c hc => simp [upTo?, hc] at h
  | case4 cs ih =>
    simp only [upTo?, if_true, Option.map_eq_some_iff, Prod.mk.injEq, Prod.exists] at h
    obtain ⟨body, rest, hread, rfl, rfl⟩ := h
    obtain ⟨rfl, hrest⟩ := ih hread
    exact ⟨by rw [double_cons_self]; rfl, hrest⟩
  | case5 b cs hb =>
    simp only [upTo?, hb, if_true, if_false, Option.some.injEq, Prod.mk.injEq] at h
    obtain ⟨rfl, rfl⟩ := h
    simp [double, hb]
  | case6 a b cs ha ih =>
    simp only [upTo?, ha, if_false, Option.map_eq_some_iff, Prod.mk.injEq, Prod.exists] at h
    obtain ⟨body, rest, hread, rfl, rfl⟩ := h
    obtain ⟨hcs, hrest⟩ := ih hread
    exact ⟨by rw [double_cons_of_ne ha, hcs]; rfl, hrest⟩

theorem upTo?_eq_some_iff {cs body rest : List Char} :
    upTo? mark cs = some (body, rest) ↔
      cs = double mark body ++ mark :: rest ∧ rest.head? ≠ some mark :=
  ⟨eq_of_upTo?, fun ⟨hcs, hrest⟩ => hcs ▸ upTo?_double hrest body⟩

end Doubling

namespace QuotePair

/-- The name at the front of a text that starts with the opening quote, and the rest. -/
def read? (q : QuotePair) : List Char → Option (List Char × List Char)
  | [] => none
  | c :: cs => if c = q.opening then Doubling.upTo? q.closing cs else none

theorem read?_eq_some_iff {q : QuotePair} {cs name rest : List Char} :
    q.read? cs = some (name, rest) ↔
      cs = q.opening :: Doubling.double q.closing name ++ q.closing :: rest ∧
        rest.head? ≠ some q.closing := by
  cases cs with
  | nil => simp [read?]
  | cons c cs =>
    by_cases hc : c = q.opening
    · simp [read?, hc, Doubling.upTo?_eq_some_iff]
    · simp [read?, hc]

end QuotePair

namespace Identifier

theorem quote_eq_ok_iff {name : String} {i : Identifier} :
    quote name = .ok i ↔ name ≠ "" ∧ '\x00' ∉ name.toList ∧ .quoted name = i := by
  unfold quote
  by_cases hempty : name = ""
  · simp [hempty]
  · by_cases hnul : '\x00' ∈ name.toList
    · simp [hempty, hnul]
    · simp [hempty, hnul]

theorem betweenQuotes?_concat (cs : List Char) :
    betweenQuotes? ('\x22' :: cs ++ ['\x22']) = some cs := by
  simp [betweenQuotes?]

/-- A name that is quoted at all is quoted by itself. -/
theorem Legal.quote {s : String} (h : (Identifier.quoted s).Legal) :
    Identifier.quote s = .ok (.quoted s) := by
  rcases h with ⟨text, h⟩ | ⟨name, h⟩
  · unfold parse at h
    split at h
    · obtain ⟨_, _, he⟩ := quote_eq_ok_iff.mp h
      rwa [Identifier.quoted.inj he] at h
    · split at h
      · cases h
      · split at h
        · cases h
        · split at h <;> cases h
  · obtain ⟨_, _, he⟩ := quote_eq_ok_iff.mp h
    rwa [Identifier.quoted.inj he] at h

/-- A name that may be written is read back where double quotes stand around quoted names. -/
theorem Legal.parse_sql {i : Identifier} (h : i.Legal) :
    parse (i.sql Dialect.doubleQuotes) = .ok i := by
  cases i with
  | plain s =>
    obtain ⟨c, cs, hs, hc, hcs⟩ := h.plain
    exact parse_plain hs hc hcs
  | quoted s =>
    have hquotes := betweenQuotes?_concat (Doubling.double '\x22' s.toList)
    simp only [parse, sql, Dialect.doubleQuotes, String.toList_ofList, hquotes,
      Doubling.collapse_double, String.ofList_toList]
    exact h.quote

end Identifier

namespace DialectKind

theorem quotes_eq_doubleQuotes_iff (k : DialectKind) :
    k.dialect.quotes = Dialect.doubleQuotes ↔ k ∈ [.postgres, .sqlite, .h2, .dryRun] := by
  cases k <;> decide

end DialectKind

/-- A name is written so that it is read back: whole, as a text of its own between double quotes, and
between any quotes from the front of a text, of which it takes no character more. -/
theorem Identifier.sql_read_back :
    (∀ i : Identifier, i.Legal → ∀ d : Dialect, d.quotes = Dialect.doubleQuotes →
      parse (i.sql d.quotes) = .ok i) ∧
    (∀ k ∈ [DialectKind.postgres, .sqlite, .h2, .dryRun],
      k.dialect.quotes = Dialect.doubleQuotes) ∧
    ∀ (d : Dialect) (name : String) (text rest : List Char),
      d.quotes.read? text = some (name.toList, rest) ↔
        text = (d.quoteIdentifier name).toList ++ rest ∧ rest.head? ≠ some d.quotes.closing := by
  refine ⟨fun i hi d hd => hd ▸ hi.parse_sql, fun k hk => k.quotes_eq_doubleQuotes_iff.mpr hk,
    fun d name text rest => ?_⟩
  rw [QuotePair.read?_eq_some_iff, Dialect.quoteIdentifier, sql, String.toList_ofList,
    List.append_assoc, List.singleton_append]

/-- A name that consists of quotes, and a bracketed one with a quote behind it. -/
theorem Identifier.sql_read_back_marks :
    (quoted "\x22\x22").Legal ∧
      parse ((quoted "\x22\x22").sql Dialect.postgres.quotes) = .ok (quoted "\x22\x22") ∧
      Dialect.sqlServer.quotes.read? "[]]a]]]b]".toList = some ("]a]".toList, "b]".toList) := by
  have hlegal : (quoted "\x22\x22").Legal := .inr ⟨"\x22\x22", rfl⟩
  refine ⟨hlegal, sql_read_back.1 _ hlegal .postgres (sql_read_back.2.1 .postgres (by decide)), ?_⟩
  exact (sql_read_back.2.2 .sqlServer "]a]" _ "b]".toList).mpr ⟨by decide +kernel, by decide +kernel⟩

end SqlCompose

import Mathlib.Computability.Language
import SqlCompose.Compose.Like
import SqlCompose.Dialect.Catalog

/-! What LIKE patterns match. A pattern is read from left to right into tokens, and a text matches when
it is what the tokens stand for, one after the other. -/

namespace SqlCompose

namespace DialectKind

/-- Only SQL Server reads a bracket in a pattern as the opening of a class. -/
def hasClasses : DialectKind → Bool
  | .sqlServer => true
  | .postgres | .mySql | .sqlite | .h2 | .dryRun => false

/-- The characters that a database reads as more than themselves. -/
def wildcards (k : DialectKind) : List Char :=
  ['%', '_'] ++ if k.hasClasses then ['['] else []

end DialectKind

namespace Like

/-- One token stands for a character of a class, whose members are as between the brackets. -/
inductive Token where
  | literal (c : Char)
  | anyText
  | anyChar
  | oneOf (members : List Char)
deriving DecidableEq, Repr

/-- Where in a token the reader is. -/
inductive Reader where
  | between
  | escaped
  /-- In a class, with the members so far, the last one first. -/
  | inside (members : List Char)

namespace Reader

/-- An escape character makes a literal of what follows it. Only some databases have classes. A
pattern that ends in the middle of a token is not read. -/
def read (escape : Char) (classes : Bool) : Reader → List Char → Option (List Token)
  | .between, [] => some []
  | .escaped, [] => none
  | .inside _, [] => none
  | .between, c :: cs =>
    if c = escape then read escape classes .escaped cs
    else if c = '%' then (read escape classes .between cs).map (.anyText :: ·)
    else if c = '_' then (read escape classes .between cs).map (.anyChar :: ·)
    else if classes && c = '[' then read escape classes (.inside []) cs
    else (read escape classes .between cs).map (.literal c :: ·)
  | .escaped, c :: cs => (read escape classes .between cs).map (.literal c :: ·)
  | .inside members, c :: cs =>
    if c = ']' then (read escape classes .between cs).map (.oneOf members.reverse :: ·)
    else read escape classes (.inside (c :: members)) cs

end Reader

/-- Single characters and ranges of them. -/
def among : List Char → Char → Bool
  | [], _ => false
  | low :: '-' :: high :: members, c => low ≤ c && c ≤ high || among members c
  | m :: members, c => m == c || among members c

/-- A caret in front turns the class around. -/
def inClass (members : List Char) (c : Char) : Bool :=
  match members with
  | '^' :: members => !among members c
  | members => among members c

def Token.takes : Token → Char → Bool
  | .literal d, c => c == d
  | .anyText, _ => true
  | .anyChar, _ => true
  | .oneOf members, c => inClass members c

def fits : List Token → List Char → Bool
  | [], cs => cs.isEmpty
  | .anyText :: ts, cs => cs.tails.any (fits ts)
  | t :: ts, cs => cs.head?.any t.takes && fits ts cs.tail

def holds (escape : Char) (classes : Bool) (pattern text : String) : Bool :=
  match Reader.between.read escape classes pattern.toList with
  | some ts => fits ts text.toList
  | none => false

def singles (P : Char → Bool) : Language Char := {w | ∃ c, P c = true ∧ w = [c]}

def Token.language : Token → Language Char
  | .anyText => ⊤
  | t => singles t.takes

def language (ts : List Token) : Language Char := (ts.map Token.language).prod

theorem language_cons (t : Token) (ts : List Token) :
    language (t :: ts) = t.language * language ts := by
  rw [language, List.map_cons, List.prod_cons, language]

theorem language_append (ts us : List Token) : language (ts ++ us) = language ts * language us := by
  rw [language, List.map_append, List.prod_append, language, language]

theorem language_singleton (t : Token) : language [t] = t.language := by
  rw [language, List.map_singleton, List.prod_singleton]

theorem Token.mem_language_literal {d : Char} {w : List Char} :
    w ∈ (literal d).language ↔ w = [d] := by
  constructor
  · rintro ⟨c, hc, rfl⟩
    rw [show c = d from beq_iff_eq.mp hc]
  · rintro rfl
    exact ⟨d, beq_self_eq_true d, rfl⟩

theorem mem_top_mul {m : Language Char} {cs : List Char} :
    cs ∈ (⊤ : Language Char) * m ↔ ∃ t, t <:+ cs ∧ t ∈ m := by
  rw [Language.mem_mul]
  constructor
  · rintro ⟨a, _, b, hb, rfl⟩
    exact ⟨b, List.suffix_append a b, hb⟩
  · rintro ⟨t, ⟨a, ha⟩, ht⟩
    exact ⟨a, trivial, t, ht, ha⟩

theorem mem_single_mul {P : Char → Bool} {m : Language Char} {cs : List Char} :
    cs ∈ singles P * m ↔ ∃ c, P c = true ∧ cs.head? = some c ∧ cs.tail ∈ m := by
  rw [Language.mem_mul]
  constructor
  · rintro ⟨_, ⟨c, hc, rfl⟩, b, hb, rfl⟩
    exact ⟨c, hc, rfl, hb⟩
  · rintro ⟨c, hc, hhead, htail⟩
    obtain ⟨rest, rfl⟩ := List.head?_eq_some_iff.mp hhead
    exact ⟨[c], ⟨c, hc, rfl⟩, rest, htail, rfl⟩

/-- The matcher finds exactly the texts that the tokens stand for. -/
theorem fits_iff {ts : List Token} {cs : List Char} : fits ts cs = true ↔ cs ∈ language ts := by
  induction ts generalizing cs with
  | nil =>
    rw [fits, List.isEmpty_iff]
    exact (Language.mem_one cs).symm
  | cons t ts ih =>
    have hsingle : (cs.head?.any t.takes && fits ts cs.tail) = true ↔
        cs ∈ singles t.takes * language ts := by
      rw [mem_single_mul]
      simp only [Bool.and_eq_true, Option.any_eq_true, ih]
      constructor
      · rintro ⟨⟨c, hhead, hc⟩, htail⟩
        exact ⟨c, hc, hhead, htail⟩
      · rintro ⟨c, hc, hhead, htail⟩
        exact ⟨⟨c, hhead, hc⟩, htail⟩
    rw [language_cons]
    cases t with
    | anyText =>
      rw [Token.language, mem_top_mul, fits]
      simp [ih]
    | literal d => exact hsingle
    | anyChar => exact hsingle
    | oneOf members => exact hsingle

theorem holds_iff {escape : Char} {classes : Bool} {pattern : String} {ts : List Token}
    (h : Reader.between.read escape classes pattern.toList = some ts) (text : String) :
    holds escape classes pattern text = true ↔ text.toList ∈ language ts := by
  rw [holds, h]
  exact fits_iff

example : holds '\\' true "[^a-c]\\%%" "d%z" = true := by decide

end Like

end SqlCompose

import SqlCompose.Proofs.Sql.Woven
import SqlCompose.Proofs.Text.Literals
import SqlCompose.Value.Literal

/-! What the literal of a value is. Texts, bytes, identifiers, dates and times and JSON stand between
single quotes. What is written without quotes is made of letters, digits, signs and points. -/

namespace SqlCompose

theorem Doubling.double_eq_self {mark : Char} {cs : List Char} (h : mark ∉ cs) :
    double mark cs = cs := by
  induction cs with
  | nil => rfl
  | cons c cs ih =>
    rw [List.mem_cons, not_or] at h
    rw [double_cons_of_ne (Ne.symm h.1), ih h.2]

namespace Hex

theorem digit?_upper : ∀ n < 16, digit? (upperDigits.getD n '0') = some n := by
  decide

theorem decode?_upper (bs : List UInt8) : decode? (upper bs).toList = some bs := by
  rw [upper, String.toList_ofList]
  induction bs with
  | nil => rfl
  | cons b bs ih =>
    have hb := b.toNat_lt
    have hhigh := digit?_upper (b.toNat / 16) (by omega)
    have hlow := digit?_upper (b.toNat % 16) (by omega)
    have hbyte : UInt8.ofNat (16 * (b.toNat / 16) + b.toNat % 16) = b := by
      rw [Nat.div_add_mod, UInt8.ofNat_toNat]
    have hcons : encode upperDigits (b :: bs) = upperDigits.getD (b.toNat / 16) '0' ::
        upperDigits.getD (b.toNat % 16) '0' :: encode upperDigits bs := rfl
    rw [hcons, decode?, hhigh, hlow, ih]
    exact congrArg (some <| · :: bs) hbyte

theorem quote_notMem_upper (bs : List UInt8) : '\x27' ∉ (upper bs).toList := by
  rw [upper, String.toList_ofList]
  intro h
  obtain ⟨b, _, hb⟩ := List.mem_flatMap.mp h
  have hdigit : ∀ n < 16, '\x27' ≠ upperDigits.getD n '0' := by decide
  have hlt := b.toNat_lt
  simp only [List.mem_cons, List.not_mem_nil, or_false] at hb
  exact hb.elim (hdigit _ (by omega)) (hdigit _ (by omega))

end Hex

namespace Decimal

/-- A number without an exponent is written with digits and a point. -/
theorem positional_chars {d : Decimal} {c : Char} (h : c ∈ d.positional) :
    c.isDigit = true ∨ c = '.' := by
  have hdigit : ∀ c ∈ d.digitText, c.isDigit = true := fun c hc =>
    Nat.isDigit_of_mem_toDigits (by decide) (by decide) hc
  have hzero : ∀ n, c ∈ List.replicate n '0' → c.isDigit = true := fun n hc =>
    List.eq_of_mem_replicate hc ▸ by decide
  unfold positional at h
  simp only at h
  split at h
  · rcases List.mem_append.mp h with h | h
    · exact .inl (hdigit c h)
    · exact .inl (hzero _ h)
  · split at h
    · rcases List.mem_append.mp h with h | h
      · exact .inl (hdigit c (List.mem_of_mem_take h))
      · rcases List.mem_cons.mp h with rfl | h
        · exact .inr rfl
        · exact .inl (hdigit c (List.mem_of_mem_drop h))
    · rcases List.mem_cons.mp h with rfl | h
      · exact .inl (by decide)
      · rcases List.mem_cons.mp h with rfl | h
        · exact .inr rfl
        · rcases List.mem_append.mp h with h | h
          · exact .inl (hzero _ h)
          · exact .inl (hdigit c h)

end Decimal

open Piece (Clean)

theorem BinaryDatum.clean_literal (f : BinaryFormat) (x : BinaryDatum) : Clean (x.literal f) := by
  cases x with
  | nan => exact (by decide : Clean "NaN")
  | infinite negative =>
    cases negative
    · exact (by decide : Clean "inf")
    · exact (by decide : Clean "-inf")
  | finite negative significand exponent =>
    have hmagnitude : ∀ c ∈ (f.shortest .upward significand exponent).positional, c ∉ reserved := by
      intro c hc hr
      have hall : reserved.all (fun r => !r.isDigit && r ≠ '.') = true := by decide
      have hne := List.all_eq_true.mp hall c hr
      rcases Decimal.positional_chars hc with hdigit | rfl
      · simp [hdigit] at hne
      · simp at hne
    intro c hc
    rw [literal, String.toList_ofList] at hc
    cases negative with
    | false => exact hmagnitude c hc
    | true =>
      rcases List.mem_cons.mp hc with rfl | hc
      · decide
      · exact hmagnitude c hc

/-- What a literal of bytes begins with between its quotes. -/
def DialectKind.bytesMark : DialectKind → String
  | .postgres => "\\x"
  | _ => ""

namespace Value

/-- What stands between the quotes of a literal, if there are quotes. -/
def quoted? (k : DialectKind) : Value → Option String
  | .text s => some s
  | .bytes bs => some (k.bytesMark ++ Hex.upper bs)
  | .uuid bs => some (uuidText bs)
  | .date d => some d.text
  | .timestamp t => some t.text
  | .timestampTz t => some (t.text ++ "+00:00")
  | .json j => some j.compact
  | _ => none

/-- Texts, bytes, identifiers, dates and times and JSON are written between quotes. -/
def isQuoted : Value → Bool
  | .text _ => true
  | .bytes _ => true
  | .uuid _ => true
  | .date _ => true
  | .timestamp _ => true
  | .timestampTz _ => true
  | .json _ => true
  | _ => false

/-- The content of a literal is the value. -/
def Says (k : DialectKind) (content : String) : Value → Prop
  | .text s => content = s
  | .bytes bs => ∃ digits, content = k.bytesMark ++ digits ∧ Hex.decode? digits.toList = some bs
  | .uuid bs => content = uuidText bs
  | .date d => content = d.text
  | .timestamp t => content = t.text
  | .timestampTz t => content = t.text ++ "+00:00"
  | .json j => content = j.compact
  | _ => False

theorem isSome_quoted? (k : DialectKind) (v : Value) : (v.quoted? k).isSome = v.isQuoted := by
  cases v <;> rfl

theorem says_of_quoted? {k : DialectKind} {v : Value} {content : String}
    (h : v.quoted? k = some content) : v.Says k content := by
  cases v with
  | bytes bs =>
    obtain rfl := Option.some.inj h
    exact ⟨Hex.upper bs, rfl, Hex.decode?_upper bs⟩
  | text _ => exact (Option.some.inj h).symm
  | uuid _ => exact (Option.some.inj h).symm
  | date _ => exact (Option.some.inj h).symm
  | timestamp _ => exact (Option.some.inj h).symm
  | timestampTz _ => exact (Option.some.inj h).symm
  | json _ => exact (Option.some.inj h).symm
  | _ => cases h

theorem clean_literal {k : DialectKind} {v : Value} (h : v.quoted? k = none) :
    Clean (k.dialect.literal v) := by
  cases v with
  | null => exact (by decide : Clean "null")
  | bool b =>
    revert b
    cases k <;> decide
  | smallInt n => exact (Piece.plain_int n.toInt).1
  | int n => exact (Piece.plain_int n.toInt).1
  | bigInt n => exact (Piece.plain_int n.toInt).1
  | real x => exact x.datum.clean_literal .single
  | double x => exact x.datum.clean_literal .double
  | _ => cases h

theorem toList_quoteText (s : String) :
    (quoteText s).toList = '\x27' :: Doubling.double '\x27' s.toList ++ ['\x27'] :=
  String.toList_ofList

theorem toList_literal_text (k : DialectKind) (t : String) :
    ∃ lead, (lead = [] ∨ lead ∈ LiteralLexer.leads) ∧ (k.dialect.literal (.text t)).toList =
      lead ++ '\x27' :: Doubling.double '\x27' t.toList ++ ['\x27'] := by
  have hliteral : (k.dialect.literal (.text t)).toList = k.dialect.literals.textOpening.toList ++
      Doubling.double '\x27' t.toList ++ ['\x27'] := by
    simp [Dialect.literal, literal]
  by_cases hk : k = .sqlServer
  · subst hk
    exact ⟨['N'], .inr (by decide), hliteral⟩
  · refine ⟨[], .inl rfl, hliteral.trans ?_⟩
    cases k with
    | sqlServer => exact absurd rfl hk
    | _ => rfl

/-- Neither the digits nor the mark of bytes hold a quote that would be doubled. -/
theorem toList_literal_bytes (k : DialectKind) (bs : List UInt8) :
    ∃ lead, (lead = [] ∨ lead ∈ LiteralLexer.leads) ∧ (k.dialect.literal (.bytes bs)).toList =
      lead ++ '\x27' :: Doubling.double '\x27' (k.bytesMark ++ Hex.upper bs).toList ++
        ['\x27'] := by
  have hliteral : (k.dialect.literal (.bytes bs)).toList =
      k.dialect.literals.bytesOpening.toList ++ (Hex.upper bs).toList ++ ['\x27'] := by
    simp [Dialect.literal, literal]
  have hdouble : Doubling.double '\x27' (k.bytesMark ++ Hex.upper bs).toList =
      k.bytesMark.toList ++ (Hex.upper bs).toList := by
    rw [String.toList_append, Doubling.double_append,
      Doubling.double_eq_self (Hex.quote_notMem_upper bs),
      Doubling.double_eq_self (by cases k <;> decide)]
  rw [hliteral, hdouble]
  by_cases hk : k = .postgres
  · subst hk
    exact ⟨[], .inl rfl, rfl⟩
  · refine ⟨['X'], .inr (by decide), ?_⟩
    cases k with
    | postgres => exact absurd rfl hk
    | _ => rfl

theorem literal_of_quoted? {k : DialectKind} {v : Value} {s : String} (h : v.quoted? k = some s) :
    ∃ lead, (lead = [] ∨ lead ∈ LiteralLexer.leads) ∧ (k.dialect.literal v).toList =
      lead ++ '\x27' :: Doubling.double '\x27' s.toList ++ ['\x27'] := by
  cases v with
  | text t =>
    obtain rfl := Option.some.inj h
    exact toList_literal_text k t
  | bytes bs =>
    obtain rfl := Option.some.inj h
    exact toList_literal_bytes k bs
  | uuid bs =>
    obtain rfl := Option.some.inj h
    exact ⟨[], .inl rfl, toList_quoteText _⟩
  | date d =>
    obtain rfl := Option.some.inj h
    exact ⟨[], .inl rfl, toList_quoteText _⟩
  | timestamp t =>
    obtain rfl := Option.some.inj h
    exact ⟨[], .inl rfl, toList_quoteText _⟩
  | timestampTz t =>
    obtain rfl := Option.some.inj h
    exact ⟨[], .inl rfl, toList_quoteText _⟩
  | json j =>
    obtain rfl := Option.some.inj h
    exact ⟨[], .inl rfl, toList_quoteText _⟩
  | _ => cases h

end Value

end SqlCompose

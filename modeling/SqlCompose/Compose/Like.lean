import SqlCompose.Dialect.Basic
import SqlCompose.Query.Basic

/-! LIKE patterns. A fragment that is to match literally has its wildcards, and the escape sequence
itself, escaped before the wildcards of its own option are put around it. -/

namespace SqlCompose

namespace Like

/-- The escape sequence goes before every wildcard, and is itself written twice where the text
holds it. -/
def escapeChars (sequence wildcards : List Char) : List Char → List Char
  | [] => []
  | c :: cs =>
    if sequence ≠ [] ∧ sequence.isPrefixOf (c :: cs) then
      sequence ++ sequence ++ escapeChars sequence wildcards (cs.drop (sequence.length - 1))
    else if wildcards.contains c then sequence ++ c :: escapeChars sequence wildcards cs
    else c :: escapeChars sequence wildcards cs
termination_by cs => cs.length

def escape (sequence : String) (wildcards : List Char) (text : String) : String :=
  String.ofList (escapeChars sequence.toList wildcards text.toList)

end Like

/-- What composing needs to know besides the query. -/
structure Setting where
  dialect : Dialect
  /-- The escape sequence in force. -/
  escape : String

namespace Setting

/-- The options' own escape sequence comes before the dialect's. -/
def of (dialect : Dialect) (options : QueryOptions) : Setting :=
  ⟨dialect, options.escapeSequence.getD dialect.escapeSequence⟩

/-- An empty escape sequence escapes nothing. -/
def escapeText (σ : Setting) (text : String) : String :=
  if σ.escape.isEmpty then text else Like.escape σ.escape σ.dialect.wildcards text

def partText (σ : Setting) (p : PatternPart) : String :=
  match p.option with
  | .raw => p.text
  | .literal => σ.escapeText p.text
  | .leading => σ.escapeText p.text ++ "%"
  | .anywhere => "%" ++ σ.escapeText p.text ++ "%"
  | .trailing => "%" ++ σ.escapeText p.text

/-- The fragments one after the other. -/
def patternText (σ : Setting) (parts : List PatternPart) : String :=
  String.join (parts.map σ.partText)

/-- The escape clause that a pattern needs: none without escaped fragments, and none without an
escape sequence. -/
def escapeClause (σ : Setting) (parts : List PatternPart) : Option String :=
  if !σ.escape.isEmpty && parts.any (·.option != .raw) then some σ.escape else none

end Setting

namespace Operand

/-- The fragments of an operand that a LIKE option turns into a pattern. Any other operand is
written as it is. -/
def patternParts? (option : LikeOption) : Operand → Option (List PatternPart)
  | .pattern parts => some parts
  | .parameter ⟨.text text, _⟩ => if option = .raw then none else some [⟨text, option⟩]
  | _ => none

end Operand

end SqlCompose

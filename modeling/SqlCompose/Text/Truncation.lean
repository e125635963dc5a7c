/-! Cutting a text to a number of UTF-8 bytes without splitting a character. -/

namespace SqlCompose.Truncation

/-- The longest run of whole characters, from the start, that fits in `budget` bytes. -/
def fitting : Nat → List Char → List Char
  | _, [] => []
  | budget, c :: cs =>
    if c.utf8Size ≤ budget then c :: fitting (budget - c.utf8Size) cs else []

/-- The nearest place that splits no character, sought from a number of bytes towards the start. -/
def boundary (text : String) : Nat → Nat
  | 0 => 0
  | bytes + 1 =>
    if (⟨bytes + 1⟩ : String.Pos.Raw).IsValid text then bytes + 1 else boundary text bytes

/-- What stands in front of a place, unless the place splits a character. -/
def before? (text : String) (bytes : Nat) : Option String :=
  if h : (⟨bytes⟩ : String.Pos.Raw).IsValid text then some (text.sliceTo ⟨⟨bytes⟩, h⟩).copy else none

/-- A text longer than the limit is cut and marked with three dots. -/
def truncate (limit : Option Nat) (text : String) : String :=
  match limit with
  | some bytes =>
    if bytes < text.utf8ByteSize then String.ofList (fitting bytes text.toList) ++ "..." else text
  | none => text

end SqlCompose.Truncation

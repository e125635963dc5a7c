import SqlCompose.Text.Doubling
import SqlCompose.Text.Hex
import SqlCompose.Value.Basic

/-! Values written as SQL literals. Databases differ in how they spell truth values and in what
stands before the quote of a text or of bytes. -/

namespace SqlCompose

/-- The spellings that differ between databases. -/
structure LiteralStyle where
  trueText : String
  falseText : String
  /-- What a text literal starts with. -/
  textOpening : String
  /-- What a bytes literal starts with. -/
  bytesOpening : String
deriving DecidableEq, Repr

namespace LiteralStyle

def standard : LiteralStyle := ⟨"true", "false", "'", "X'"⟩

end LiteralStyle

/-- A text between single quotes, where a quote is written twice. -/
def quoteText (s : String) : String :=
  String.ofList ('\x27' :: Doubling.double '\x27' s.toList ++ ['\x27'])

namespace BinaryDatum

/-- The shortest decimal that reads back, never with an exponent. -/
def literal (f : BinaryFormat) : BinaryDatum → String
  | .nan => "NaN"
  | .infinite negative => if negative then "-inf" else "inf"
  | .finite negative significand exponent =>
    let magnitude := (f.shortest .upward significand exponent).positional
    String.ofList (if negative then '-' :: magnitude else magnitude)

end BinaryDatum

/-- Sixteen bytes as groups of 8, 4, 4, 4 and 12 digits. -/
def uuidText (bytes : List UInt8) : String :=
  let cs := Hex.encode Hex.lowerDigits bytes
  String.ofList (cs.take 8 ++ '-' :: (cs.drop 8).take 4 ++ '-' :: (cs.drop 12).take 4 ++
    '-' :: (cs.drop 16).take 4 ++ '-' :: cs.drop 20)

namespace Value

def literal (style : LiteralStyle) : Value → String
  | .null => "null"
  | .bool b => if b then style.trueText else style.falseText
  | .smallInt n => toString n.toInt
  | .int n => toString n.toInt
  | .bigInt n => toString n.toInt
  | .real x => x.datum.literal .single
  | .double x => x.datum.literal .double
  | .text s => style.textOpening ++ String.ofList (Doubling.double '\x27' s.toList) ++ "'"
  | .bytes bs => style.bytesOpening ++ Hex.upper bs ++ "'"
  | .uuid bs => quoteText (uuidText bs)
  | .date d => quoteText d.text
  | .timestamp t => quoteText t.text
  | .timestampTz t => quoteText (t.text ++ "+00:00")
  | .json j => quoteText j.compact

/-- The literal that most databases read. -/
def standardLiteral (v : Value) : String := v.literal .standard

end Value

end SqlCompose

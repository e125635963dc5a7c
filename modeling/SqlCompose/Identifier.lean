import SqlCompose.Error
import SqlCompose.Text.Doubling

/-! SQL names. A plain name is written as it stands and is restricted to characters that every
database takes there. A quoted name may hold anything but NUL and is written between quotes. -/

namespace SqlCompose

inductive Identifier where
  | plain (name : String)
  | quoted (name : String)
deriving DecidableEq, Repr

/-- The characters around a quoted name. -/
structure QuotePair where
  opening : Char
  closing : Char
deriving DecidableEq, Repr

namespace Identifier

/-- ASCII letters and the underscore. -/
def isStart (c : Char) : Bool := c == '_' || c.isAlpha

def isRest (c : Char) : Bool := c == '_' || c == '$' || c.isAlphanum

def name : Identifier → String
  | .plain s => s
  | .quoted s => s

/-- A quoted name. -/
def quote (name : String) : Except Error Identifier :=
  if name.isEmpty then .error (.validation .emptyQuotedName)
  else if name.toList.contains '\x00' then .error (.validation .nulInName)
  else .ok (.quoted name)

/-- The text between the first and the last character when both are double quotes. -/
def betweenQuotes? : List Char → Option (List Char)
  | '\x22' :: cs => if cs.getLast? = some '\x22' then some cs.dropLast else none
  | _ => none

/-- A plain name, or a quoted one when the text stands between double quotes. -/
def parse (text : String) : Except Error Identifier :=
  match betweenQuotes? text.toList with
  | some inner => quote (String.ofList (Doubling.collapse '\x22' inner))
  | none =>
    match text.toList with
    | [] => .error (.validation .emptyName)
    | c :: cs =>
      if !isStart c then .error (.validation (.nameStart c))
      else match cs.find? (!isRest ·) with
        | some bad => .error (.validation (.nameCharacter bad))
        | none => .ok (.plain text)

/-- The text of a name in SQL. -/
def sql (quotes : QuotePair) : Identifier → String
  | .plain s => s
  | .quoted s =>
    String.ofList (quotes.opening :: Doubling.double quotes.closing s.toList ++ [quotes.closing])

def stemChar (c : Char) : Char :=
  if c.isAlphanum || c == '_' then c.toLower else '_'

/-- A plain lower-case name like the given one, from which aliases are made. -/
def stem (i : Identifier) : String :=
  match i.name.toList.map stemChar with
  | [] => "t_"
  | c :: cs => if isStart c then String.ofList (c :: cs) else "t_" ++ String.ofList (c :: cs)

end Identifier

end SqlCompose

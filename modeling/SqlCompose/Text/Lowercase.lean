import SqlCompose.Text.CaseTable

/-! The lower-case form of a text after the Unicode rules that hold in every language. A capital
sigma has two lower-case forms, one of them for the end of a word. -/

namespace SqlCompose.Lowercase

def inRuns (runs : List (Nat × Nat)) (c : Char) : Bool :=
  runs.any fun (first, last) => first ≤ c.toNat && c.toNat ≤ last

def isCased (c : Char) : Bool :=
  if c.toNat < 0x80 then c.isAlpha else inRuns CaseTable.casedRuns c

def isIgnorable (c : Char) : Bool := inRuns CaseTable.ignorableRuns c

/-- The lower-case form of a character regardless of its neighbours. -/
def single (c : Char) : List Char :=
  if c.toNat < 0x80 then [c.toLower]
  else if c.toNat = 0x130 then ['i', '\u0307']
  else
    match CaseTable.lowerRuns.find? fun (first, last, step, _) =>
        first ≤ c.toNat && c.toNat ≤ last && (c.toNat - first) % step == 0 with
    | some (_, _, _, shift) => [Char.ofNat ((c.toNat : Int) + shift).toNat]
    | none => [c]

/-- Whether the nearest character that is not passed over is cased. -/
def nearestIsCased (cs : List Char) : Bool := (cs.dropWhile isIgnorable).head?.any isCased

/-- The lower-case form of what follows `before`, whose nearest character stands first. -/
def following (before : List Char) : List Char → List Char
  | [] => []
  | c :: cs =>
    let form :=
      if c.toNat = 0x3a3 then
        if nearestIsCased before && !nearestIsCased cs then ['ς'] else ['σ']
      else single c
    form ++ following (c :: before) cs

/-- The text in lower case. -/
def lower (s : String) : String := String.ofList (following [] s.toList)

end SqlCompose.Lowercase

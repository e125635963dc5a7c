import SqlCompose.Identifier
import SqlCompose.Text.Lowercase

/-! Aliases for table references. The first reference to a table goes by the name of the table.
A reference whose name is taken gets a number, the smallest that is free. -/

namespace SqlCompose.Alias

/-- The alias with number `n`. -/
def numbered (stem : String) (n : Nat) : String := stem ++ "_" ++ toString n

/-- The first free alias among as many numbers as are to be tried and the one after them, from `n`
on. With more tries than names in use one of them is free. -/
def firstFree (used : List String) (stem : String) : Nat → Nat → String
  | 0, n => numbered stem n
  | tries + 1, n =>
    if numbered stem n ∈ used then firstFree used stem tries (n + 1) else numbered stem n

/-- An alias for a table of this name, and the lower-case names in use with it. -/
def next (name : Identifier) (used : List String) : Identifier × List String :=
  let key := Lowercase.lower name.name
  if key ∈ used then
    let text := firstFree used name.stem used.length 1
    (.plain text, text :: used)
  else (name, key :: used)

end SqlCompose.Alias

import Wireframe.Path.Json
/-!
# Paths as bare lists of names

The operations on paths as they are carried out on a list of names that no
type keeps in order. Only the name that an operation brings in is checked. The
names that are there already are trusted, also where the list might be empty,
and a parent is cut off without any check.

The lists that can be made in this way are the names of paths and no others.
-/

namespace Wireframe.NameList

/-- Refuses a name that is empty or holds a slash. -/
def checkName (name : String) : Except Error Unit :=
  if ValidName name then .ok () else .error (.invalidPath name)

/-- Checks the names of a list, in order. -/
def ofNames (names : List String) : Except Error (List String) :=
  if names = [] then .error (.invalidPath "")
  else do
    forM names checkName
    return names

/-- The names between the slashes of a text. -/
def ofText (text : String) : Except Error (List String) :=
  (ofNames ((splitSlash text.toList).map String.ofList)).mapError fun _ => .invalidPath text

/-- The names joined by slashes. -/
def text (names : List String) : String := "/".intercalate names

/-- Appends a name. -/
def child (names : List String) (name : String) : Except Error (List String) := do
  checkName name
  return names ++ [name]

/-- Drops the last of several names. -/
def parent? (names : List String) : Option (List String) :=
  if 1 < names.length then some names.dropLast else none

/-- Puts another name in the place of the last, if there is one. -/
def withTarget (names : List String) (name : String) : Except Error (List String) := do
  checkName name
  return if names = [] then [] else names.dropLast ++ [name]

/-- The names that a JSON value lists. -/
def ofJson? {κ : Type} (j : Json κ) : Option (List String) := do
  let names ← (← j.list?).mapM Json.text?
  (ofNames names).toOption

/-- The lists that come from names, texts or JSON values by any number of
further operations. -/
inductive Made (κ : Type) : List String → Prop
  | ofNames {l names : List String} (h : ofNames l = .ok names) : Made κ names
  | ofText {s : String} {names : List String} (h : ofText s = .ok names) : Made κ names
  | ofJson {j : Json κ} {names : List String} (h : ofJson? j = some names) : Made κ names
  | child {l names : List String} {name : String} (hl : Made κ l) (h : child l name = .ok names) : Made κ names
  | parent {l names : List String} (hl : Made κ l) (h : parent? l = some names) : Made κ names
  | withTarget {l names : List String} {name : String} (hl : Made κ l) (h : withTarget l name = .ok names) :
    Made κ names

end Wireframe.NameList

import Wireframe.Error
/-!
# Making paths

A path is made from a list of names, from a text with slashes, or from another
path. A name that is empty or holds a slash is refused, and the error shows
it; a text is refused as a whole.
-/

namespace Wireframe

/-- Cuts a text at its slashes. There is one piece more than there are slashes. -/
def splitSlash : List Char → List (List Char)
  | [] => [[]]
  | c :: rest =>
    if c = '/' then [] :: splitSlash rest
    else match splitSlash rest with
      | [] => [[c]]
      | piece :: pieces => (c :: piece) :: pieces

namespace Path

/-- The path with given names. -/
def ofNames (names : List String) : Except Error Path :=
  if hne : names = [] then .error (.invalidPath "")
  else if hv : ∀ name ∈ names, ValidName name then .ok ⟨names, hne, hv⟩
  else .error (.invalidPath ((names.find? fun name => ¬ ValidName name).getD ""))

/-- The path that a text stands for. -/
def ofText (text : String) : Except Error Path :=
  (ofNames ((splitSlash text.toList).map String.ofList)).mapError fun _ => .invalidPath text

/-- The path one name further down. -/
def child (p : Path) (name : String) : Except Error Path :=
  if h : ValidName name then
    .ok {
      names := p.names ++ [name]
      nonempty := by simp
      valid := fun n hn => (List.mem_append.1 hn).elim (p.valid n) fun hn =>
        List.mem_singleton.1 hn ▸ h }
  else .error (.invalidPath name)

/-- The path with another last name. -/
def withTarget (p : Path) (name : String) : Except Error Path :=
  if h : ValidName name then
    .ok {
      names := p.names.dropLast ++ [name]
      nonempty := by simp
      valid := fun n hn => (List.mem_append.1 hn).elim
        (fun hn => p.valid n (List.dropLast_subset p.names hn)) fun hn =>
        List.mem_singleton.1 hn ▸ h }
  else .error (.invalidPath name)

end Path

end Wireframe

/-!
Slash-separated paths in their simplest equal form, without regard to any file.
-/

namespace MiniLisp.Text

def pathParts (cs : List Char) : List (List Char) := cs.splitOn '/'

/-- What a path begins with: exactly two slashes stay two, any other run of them counts as one. -/
def pathRoot (cs : List Char) : List Char :=
  match (cs.takeWhile (· == '/')).length with
  | 0 => []
  | 2 => ['/', '/']
  | _ => ['/']

/-- A path without repeated slashes and without `.` parts. A part `..` stays, since what it leads
to depends on the files. The empty path is `.`. -/
def simplestPath (s : String) : String :=
  let parts := (pathParts s.toList).filter fun part => part ≠ [] ∧ part ≠ ['.']
  let path := pathRoot s.toList ++ List.intercalate ['/'] parts
  if path = [] then "." else String.ofList path

end MiniLisp.Text
